import EventJournal.Proofs.Dispatch.Assignments
import EventJournal.Proofs.Transport.Exchanges

/-!
# Routing

Which topics an event type reaches, and which types reach a topic. A type is cut at its first dot;
its parts with the wildcard may coincide with one another and with the type itself, and a literal
`*` in a type is like any other text.

* `EventType.Cut`, a type with its entity and its verb;
* `Transport.Reaches`, an envelope that comes to a subscription;
* `EventType.Routed`, what is guaranteed of a type.

The main statement is `EventType.routed`.
-/

namespace EventJournal

namespace EventType

/-- The parts of a type before and after its first dot. -/
structure Cut (type entity verb : String) : Prop where
  type_eq : type = entity ++ "." ++ verb
  first : '.' ∉ entity.toList

section Cuts

variable {type entity verb entity' verb' : String}

theorem toList_join : (join entity verb).toList = entity.toList ++ '.' :: verb.toList := by
  simp [join, String.toList_append]

/-- The text before a dot that is not in it is cut off there. -/
theorem cutAtDot_append {before : List Char} (h : '.' ∉ before) (after : List Char) :
    cutAtDot (before ++ '.' :: after) = some (before, after) := by
  induction before with
  | nil => simp [cutAtDot]
  | cons c rest ih =>
    obtain ⟨hc, hrest⟩ := not_or.1 (mt List.mem_cons.2 h)
    rw [List.cons_append, cutAtDot, if_neg (Ne.symm hc), ih hrest]
    rfl

theorem cutAtDot_eq_none_iff {s : List Char} : cutAtDot s = none ↔ '.' ∉ s := by
  induction s with
  | nil => simp
  | cons c rest ih =>
    rw [cutAtDot]
    split
    · next hc => simp [hc]
    · next hc => simp [ih, Ne.symm hc]

theorem split?_eq_some_iff : split? type = some (entity, verb) ↔ Cut type entity verb := by
  constructor
  · intro h
    obtain ⟨⟨before, after⟩, hcut, heq⟩ := Option.map_eq_some_iff.1 h
    obtain ⟨rfl, rfl⟩ := Prod.mk.inj heq
    obtain ⟨hs, hfirst⟩ := eq_of_cutAtDot hcut
    refine ⟨String.toList_inj.1 ?_, by simpa using hfirst⟩
    simp [String.toList_append, hs]
  · rintro ⟨rfl, hfirst⟩
    rw [split?, ← join, toList_join, cutAtDot_append hfirst]
    simp

theorem split?_eq_none_iff : split? type = none ↔ '.' ∉ type.toList := by
  rw [split?, Option.map_eq_none_iff, cutAtDot_eq_none_iff]

/-- A type has one entity and one verb at most. -/
theorem Cut.unique (cut : Cut type entity verb) (cut' : Cut type entity' verb') :
    entity = entity' ∧ verb = verb' := by
  rw [← split?_eq_some_iff] at cut cut'
  exact Prod.mk.inj (Option.some.inj (cut.symm.trans cut'))

/-- What is put together is taken apart again, unless the entity has a dot of its own. -/
theorem split?_join :
    split? (join entity verb) = some (entity, verb) ↔ '.' ∉ entity.toList := by
  rw [split?_eq_some_iff]
  exact ⟨Cut.first, fun h => ⟨rfl, h⟩⟩

theorem join_of_split? (h : split? type = some (entity, verb)) : join entity verb = type :=
  (split?_eq_some_iff.1 h).type_eq.symm

/-- Two texts without dots before a dot are the same if the whole texts are. -/
theorem join_inj (h : '.' ∉ entity.toList) (h' : '.' ∉ entity'.toList) :
    join entity verb = join entity' verb' ↔ entity = entity' ∧ verb = verb' := by
  constructor
  · intro heq
    have cut : Cut (join entity verb) entity verb := ⟨rfl, h⟩
    have cut' : Cut (join entity verb) entity' verb' := ⟨heq, h'⟩
    exact cut.unique cut'
  · rintro ⟨rfl, rfl⟩
    rfl

end Cuts

/-! ### The topics of a type -/

section Topics

variable {type topic p : String}

theorem join_wildcard : join p wildcard = p ++ ".*" := by
  rw [join, wildcard, String.append_assoc]
  rfl

theorem mem_topics : topic ∈ topics type ↔ topic ∈ candidates type := by
  rw [topics, List.mem_eraseDups]

theorem mem_topics_iff :
    topic ∈ topics type ↔ topic = type ∨ topic = "*.*" ∨
      ∃ entity verb, Cut type entity verb ∧ (topic = entity ++ ".*" ∨ topic = "*." ++ verb) := by
  have hverb : ∀ verb : String, join wildcard verb = "*." ++ verb := fun _ => rfl
  rw [mem_topics, candidates]
  cases hsplit : split? type with
  | none =>
    have hnone : ∀ entity verb, ¬ Cut type entity verb := by
      intro entity verb cut
      rw [split?_eq_some_iff.2 cut] at hsplit
      simp at hsplit
    simp only [List.mem_cons, List.not_mem_nil, or_false, hnone, false_and, exists_false]
    rfl
  | some parts =>
    obtain ⟨entity, verb⟩ := parts
    have cut : Cut type entity verb := split?_eq_some_iff.1 hsplit
    simp only [List.mem_cons, List.not_mem_nil, or_false, join_wildcard, hverb]
    constructor
    · rintro (h | h | h | h)
      · exact .inl h
      · exact .inr (.inr ⟨entity, verb, cut, .inl h⟩)
      · exact .inr (.inr ⟨entity, verb, cut, .inr h⟩)
      · exact .inr (.inl h)
    · rintro (h | h | ⟨entity', verb', cut', h⟩)
      · exact .inl h
      · exact .inr (.inr (.inr h))
      · obtain ⟨rfl, rfl⟩ := cut.unique cut'
        rcases h with h | h
        · exact .inr (.inl h)
        · exact .inr (.inr (.inl h))

theorem head?_topics : (topics type).head? = some type := by
  rw [topics, candidates]
  cases split? type <;> simp [List.eraseDups_cons]

/-- Any verb of an entity is meant by the types that begin with it. -/
theorem mem_topics_of_entity (plain : '.' ∉ p.toList) (named : p ≠ "*") :
    p ++ ".*" ∈ topics type ↔ ∃ rest, type = p ++ "." ++ rest := by
  have hstar : '.' ∉ ("*" : String).toList := by decide
  rw [mem_topics_iff]
  constructor
  · rintro (h | h | ⟨entity, verb, cut, h | h⟩)
    · exact ⟨"*", h ▸ join_wildcard.symm⟩
    · -- the topic of everything has the wildcard for its entity
      rw [← join_wildcard, show "*.*" = join "*" wildcard from rfl, join_inj plain hstar] at h
      exact absurd h.1 named
    · rw [← join_wildcard, ← join_wildcard, join_inj plain cut.first] at h
      exact ⟨verb, h.1 ▸ cut.type_eq⟩
    · rw [← join_wildcard, show "*." ++ verb = join "*" verb from rfl, join_inj plain hstar] at h
      exact absurd h.1 named
  · rintro ⟨rest, h⟩
    exact .inr (.inr ⟨p, rest, ⟨h, plain⟩, .inl rfl⟩)

/-- A pattern for an entity with a dot is met by the type that is literally the same; if it is also
a pattern for a verb, it is met as such. -/
theorem mem_topics_of_dotted (dotted : '.' ∈ p.toList) :
    p ++ ".*" ∈ topics type ↔
      type = p ++ ".*" ∨ ∃ entity verb, p ++ ".*" = "*." ++ verb ∧ Cut type entity verb := by
  -- what comes before the last dot of the pattern has a dot of its own
  have hlast : ∀ entity : String, '.' ∉ entity.toList → p ++ ".*" ≠ entity ++ ".*" := by
    intro entity hentity heq
    rw [String.append_left_inj] at heq
    exact hentity (heq ▸ dotted)
  rw [mem_topics_iff]
  constructor
  · rintro (h | h | ⟨entity, verb, cut, h | h⟩)
    · exact .inl h.symm
    · exact absurd h (hlast "*" (by decide))
    · exact absurd h (hlast entity cut.first)
    · exact .inr ⟨entity, verb, h, cut⟩
  · rintro (h | ⟨entity, verb, h, cut⟩)
    · exact .inl h.symm
    · exact .inr (.inr ⟨entity, verb, cut, .inr h⟩)

end Topics

end EventType

/-! ### Whom an envelope reaches -/

/-- The message of an envelope comes to a subscription: when one of its postings is published, there
is a receipt for the subscription on its topic. -/
def Transport.Reaches (t : Transport) (envelope : Envelope) (message : Message)
    (s : Subscription) : Prop :=
  ∃ posting ∈ Dispatching.postings envelope message, ∃ receipts t',
    t.publish posting.topic posting.message = .ok (receipts, t') ∧
      ∃ receipt ∈ receipts, receipt.subscription = s.id ∧ receipt.topic = s.topic

theorem Dispatching.map_topic_postings (envelope : Envelope) (message : Message) :
    (postings envelope message).map Posting.topic =
      EventType.topics envelope.event.eventType := by
  unfold postings
  cases EventType.topics envelope.event.eventType with
  | nil => rfl
  | cons topic rest => simp [Function.comp_def]

namespace Transport

variable {t : Transport} {topic : String} {message : Message} {ticket : Nat} {s : Subscription}

theorem exists_receipt_iff {subscriptions : List Subscription} {id : Nat} :
    (∃ receipt ∈ (sendings topic message ticket subscriptions).map receiptOf,
        receipt.subscription = id) ↔ ∃ s ∈ subscriptions, s.id = id := by
  induction subscriptions generalizing ticket with
  | nil => simp [sendings]
  | cons s rest ih =>
    rw [sendings_cons, List.map_cons, List.exists_mem_cons_iff, List.exists_mem_cons_iff, ih]
    rfl

theorem topic_of_mem_receipts {subscriptions : List Subscription} {receipt : Receipt}
    (h : receipt ∈ (sendings topic message ticket subscriptions).map receiptOf) :
    receipt.topic = topic := by
  obtain ⟨x, hx, rfl⟩ := List.mem_map.1 h
  obtain ⟨⟨s, n⟩, -, rfl⟩ := List.mem_map.1 hx
  rfl

/-- A subscription that somebody reads gets the envelopes of its topic, and no others. -/
theorem reaches_iff (opened : t.closed = false) (hs : s ∈ t.subscriptions)
    (read : t.isRead s.id = true) (envelope : Envelope) (message : Message) :
    t.Reaches envelope message s ↔ s.topic ∈ EventType.topics envelope.event.eventType := by
  rw [← Dispatching.map_topic_postings envelope message]
  constructor
  · rintro ⟨posting, hposting, receipts, t', hpublish, receipt, hreceipt, -, htopic⟩
    obtain ⟨inboxes, hreaders, -⟩ := publish_readers opened posting.topic posting.message
    rw [hpublish] at hreaders
    obtain ⟨rfl, -⟩ := Prod.mk.inj (Except.ok.inj hreaders)
    rw [← htopic, topic_of_mem_receipts hreceipt]
    exact List.mem_map_of_mem hposting
  · intro htopic
    obtain ⟨posting, hposting, heq⟩ := List.mem_map.1 htopic
    obtain ⟨inboxes, hreaders, -⟩ := publish_readers opened posting.topic posting.message
    have hmem : s ∈ t.readers posting.topic := by
      rw [subscriptions, Directory.mem_inOrder] at hs
      exact List.mem_filter.2 ⟨Directory.mem_get.2 ⟨hs, heq.symm⟩, read⟩
    obtain ⟨receipt, hreceipt, hid⟩ := exists_receipt_iff.2 ⟨s, hmem, rfl⟩
    exact ⟨posting, hposting, _, _, hreaders, receipt, hreceipt, hid,
      (topic_of_mem_receipts hreceipt).trans heq⟩

end Transport

/-! ### The routing of a type -/

namespace EventType

/-- What is guaranteed of the routing of a type. -/
structure Routed (type : String) : Prop where
  /-- No topic is reached twice. -/
  distinct : (topics type).Nodup
  /-- The first topic is the type itself. -/
  first : (topics type).head? = some type
  /-- The topics are the type, everything, and where there is a dot, the entity with any verb and
  the verb with any entity. -/
  mem_iff : ∀ topic, topic ∈ topics type ↔ topic = type ∨ topic = "*.*" ∨
    ∃ entity verb, Cut type entity verb ∧ (topic = entity ++ ".*" ∨ topic = "*." ++ verb)
  /-- An envelope of the type is published on these topics, in this order. -/
  posted : ∀ (envelope : Envelope) (message : Message), envelope.event.eventType = type →
    (Dispatching.postings envelope message).map Posting.topic = topics type
  /-- A subscription gets the envelopes of the type if its topic is one of them. -/
  reached : ∀ (t : Transport) (s : Subscription) (envelope : Envelope) (message : Message),
    t.closed = false → s ∈ t.subscriptions → t.isRead s.id = true →
    envelope.event.eventType = type → (t.Reaches envelope message s ↔ s.topic ∈ topics type)
  /-- A pattern for all verbs of an entity is met by the types that begin with the entity. -/
  of_entity : ∀ p : String, '.' ∉ p.toList → p ≠ "*" →
    (p ++ ".*" ∈ topics type ↔ ∃ rest, type = p ++ "." ++ rest)
  /-- Such a pattern for an entity with a dot is met by the type that is literally the same, and if
  it is also a pattern for a verb, by the types with this verb. -/
  of_dotted : ∀ p : String, '.' ∈ p.toList →
    (p ++ ".*" ∈ topics type ↔
      type = p ++ ".*" ∨ ∃ entity verb, p ++ ".*" = "*." ++ verb ∧ Cut type entity verb)
  /-- The type has parts if it has a dot, and they are those around the first one. -/
  split_iff : ∀ entity verb, split? type = some (entity, verb) ↔ Cut type entity verb
  unsplit_iff : split? type = none ↔ '.' ∉ type.toList
  /-- The parts of the type make the type again. -/
  joined : ∀ entity verb, split? type = some (entity, verb) → join entity verb = type
  /-- A type that is made of two parts has them back exactly when the entity has no dot. -/
  parted : ∀ entity verb, type = join entity verb →
    (split? type = some (entity, verb) ↔ '.' ∉ entity.toList)

/-- Every text is routed as an event type. -/
theorem routed (type : String) : Routed type := by
  constructor
  case distinct => exact Dispatcher.nodup_eraseDups _
  case first => exact head?_topics
  case mem_iff => exact fun topic => mem_topics_iff
  case posted =>
    rintro envelope message rfl
    exact Dispatching.map_topic_postings envelope message
  case reached =>
    rintro t s envelope message opened hs read rfl
    exact Transport.reaches_iff opened hs read envelope message
  case of_entity => exact fun p plain named => mem_topics_of_entity plain named
  case of_dotted => exact fun p dotted => mem_topics_of_dotted dotted
  case split_iff => exact fun entity verb => split?_eq_some_iff
  case unsplit_iff => exact split?_eq_none_iff
  case joined => exact fun entity verb => join_of_split?
  case parted =>
    rintro entity verb rfl
    exact split?_join

example : topics "order.*" = ["order.*", "*.*"] := by decide

end EventType

end EventJournal
