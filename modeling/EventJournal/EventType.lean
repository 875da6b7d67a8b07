/-!
# Event types and topics

An event type is a text `<entity>.<verb>`, cut at its first dot. Subscriptions name a topic: an
event type, or a pattern with the wildcard `*` for the entity, the verb or both.

* `EventType.split?`, `EventType.join`, `EventType.entity`, `EventType.verb`;
* `EventType.topics`, the topics that an event of a type reaches, each once.
-/

namespace EventJournal.EventType

/-- The texts before and after the first dot. -/
def cutAtDot : List Char → Option (List Char × List Char)
  | [] => none
  | c :: rest =>
    if c = '.' then some ([], rest)
    else (cutAtDot rest).map fun (before, after) => (c :: before, after)

/-- Entity and verb of a type, if it has a dot. -/
def split? (type : String) : Option (String × String) :=
  (cutAtDot type.toList).map fun (entity, verb) => (String.ofList entity, String.ofList verb)

/-- The type of an entity and a verb. -/
def join (entity verb : String) : String := entity ++ "." ++ verb

/-- The entity of a type, the whole type if it has no dot. -/
def entity (type : String) : String := ((split? type).map Prod.fst).getD type

/-- The verb of a type, empty if it has no dot. -/
def verb (type : String) : String := ((split? type).map Prod.snd).getD ""

/-- The part of a topic that stands for any entity or any verb. -/
def wildcard : String := "*"

/-- The topic that every event reaches. -/
def everything : String := join wildcard wildcard

/-- The topics before repeated ones are dropped: the type itself, its entity with any verb, its verb
with any entity, and everything. A type without a dot has only the first and the last. -/
def candidates (type : String) : List String :=
  match split? type with
  | some (entity, verb) => [type, join entity wildcard, join wildcard verb, everything]
  | none => [type, everything]

/-- The topics that an event of a type reaches, each once, the most specific first. -/
def topics (type : String) : List String := (candidates type).eraseDups

@[simp] theorem cutAtDot_nil : cutAtDot [] = none := rfl

/-- A cut leaves out nothing but the dot, and the dot is the first. -/
theorem eq_of_cutAtDot {s before after : List Char} (h : cutAtDot s = some (before, after)) :
    s = before ++ '.' :: after ∧ '.' ∉ before := by
  induction s generalizing before with
  | nil => simp at h
  | cons c rest ih =>
    unfold cutAtDot at h
    split at h
    · next hc =>
      obtain ⟨rfl, rfl⟩ := Prod.mk.inj (Option.some.inj h)
      exact ⟨by simp [hc], by simp⟩
    · next hc =>
      obtain ⟨⟨b, a⟩, hcut, heq⟩ := Option.map_eq_some_iff.1 h
      obtain ⟨rfl, rfl⟩ := Prod.mk.inj heq
      obtain ⟨hs, hb⟩ := ih hcut
      refine ⟨by simp [hs], ?_⟩
      intro hmem
      rcases List.mem_cons.1 hmem with hdot | hdot
      · exact hc hdot.symm
      · exact hb hdot

end EventJournal.EventType
