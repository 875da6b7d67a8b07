import EventJournal.Directory
import EventJournal.Proofs.Ordered

/-!
# What directories list

A directory is a list of items for each topic, and all that can be asked of it is a matter of these
lists. Where items are added by rising numbers, the items of a topic are those of all items, in the
same order, that belong there.

* `Directory.Occupied`, that no topic is kept without items, and `Directory.Ascending`, that the
  numbers rise along each list;
* `Directory.get_add`, `Directory.get_of_items_filter`: the lists after a change;
* `Directory.inOrder_add`, `Directory.inOrder_of_items_filter`: all items after a change, by their
  numbers;
* `Directory.Ascending.get_eq`, the list of a topic as a part of all items;
* `Directory.perm_items_of_get`, that two directories with the same lists have the same items.
-/

namespace EventJournal.Directory

variable {α β : Type} {topic : α → String} {topic' : β → String} {d d' : Directory topic}
  {id : α → Nat} {p q : α → Bool} {name : String} {a b : α} {l : List α}

/-- Every topic that is kept has items. -/
def Occupied (d : Directory topic) : Prop := ∀ entry ∈ d.lists.entries, entry.2 ≠ []

/-- In each list the numbers rise. -/
def Ascending (d : Directory topic) (id : α → Nat) : Prop :=
  ∀ name, (d.get name).Pairwise fun a b => id a < id b

/-! ### Lists -/

/-- Items that are not listed under a topic belong elsewhere. -/
theorem topic_ne_of_entries {entries : List (String × List α)}
    (own : ∀ entry ∈ entries, ∀ a ∈ entry.2, topic a = entry.1)
    (others : ∀ entry ∈ entries, entry.1 ≠ name) :
    ∀ a ∈ entries.flatMap Prod.snd, topic a ≠ name := by
  intro a ha
  obtain ⟨entry, hentry, ha⟩ := List.mem_flatMap.1 ha
  exact (own entry hentry a ha).trans_ne (others entry hentry)

/-- The list of a topic among all items, and what becomes of these when it is changed. -/
theorem exists_items (d : Directory topic) (name : String) : ∃ before after,
    d.items = before ++ d.get name ++ after ∧ (∀ a ∈ before ++ after, topic a ≠ name) ∧
      (∀ list own, (d.set name list own).items = before ++ list ++ after) ∧
      (d.strike name).items = before ++ after := by
  obtain ⟨⟨entries⟩, distinct, own⟩ := d
  simp only [items, get, set, strike, Table.get?, Table.set, Table.erase]
  have hkept : ∀ {others : List (String × List α)}, (∀ entry ∈ others, entry.1 ≠ name) →
      others.filter (·.1 ≠ name) = others :=
    fun hothers => List.filter_eq_self.2 fun entry hentry => decide_eq_true (hothers entry hentry)
  cases hfind : Table.find? name entries with
  | none =>
    have hothers := Table.ne_of_find?_eq_none hfind
    refine ⟨entries.flatMap Prod.snd, [], by simp, ?_, fun list _ => ?_, ?_⟩
    · rw [List.append_nil]
      exact topic_ne_of_entries own hothers
    · have hput := Table.put_append hothers list []
      rw [List.append_nil] at hput
      simp [hput, Table.put]
    · rw [hkept hothers, List.append_nil]
  | some list =>
    obtain ⟨front, back, rfl, hfront⟩ := Table.exists_of_find? hfind
    rw [List.map_append, List.map_cons] at distinct
    have hname := (List.nodup_cons.1 (List.nodup_append.1 distinct).2.1).1
    have hback : ∀ entry ∈ back, entry.1 ≠ name :=
      fun entry hentry heq => hname (List.mem_map.2 ⟨entry, hentry, heq⟩)
    obtain ⟨hownFront, hown⟩ := List.forall_mem_append.1 own
    refine ⟨front.flatMap Prod.snd, back.flatMap Prod.snd, by simp, ?_, fun list' _ => ?_, ?_⟩
    · exact List.forall_mem_append.2 ⟨topic_ne_of_entries hownFront hfront,
        topic_ne_of_entries (List.forall_mem_cons.1 hown).2 hback⟩
    · rw [Table.put_append hfront]
      simp [Table.put]
    · rw [List.filter_append, List.filter_cons_of_neg (by simp), hkept hfront, hkept hback,
        List.flatMap_append]

theorem get_eq_filter_items (d : Directory topic) (name : String) :
    d.get name = d.items.filter (topic · = name) := by
  obtain ⟨before, after, hitems, hothers, -⟩ := d.exists_items name
  have hown : (d.get name).filter (topic · = name) = d.get name :=
    List.filter_eq_self.2 fun a ha => decide_eq_true (topic_of_mem_get ha)
  have hnone : ∀ l : List α, (∀ a ∈ l, a ∈ before ++ after) → l.filter (topic · = name) = [] :=
    fun l hl => List.filter_eq_nil_iff.2 fun a ha => by simpa using hothers a (hl a ha)
  rw [hitems, List.filter_append, List.filter_append, hown, hnone before (by simp +contextual),
    hnone after (by simp +contextual), List.nil_append, List.append_nil]

theorem mem_get : a ∈ d.get name ↔ a ∈ d.items ∧ topic a = name := by
  simp [get_eq_filter_items]

theorem get_add (d : Directory topic) (a : α) (name : String) :
    (d.add a).get name = if topic a = name then d.get name ++ [a] else d.get name := by
  show ((d.lists.set _ _).get? name).getD [] = _
  rw [Table.get?_set]
  by_cases h : name = topic a
  · subst h
    simp
  · simp [h, Ne.symm h, get]

theorem items_retain (d : Directory topic) (p : α → Bool) :
    (d.retain p).items = d.items.filter p := by
  show ((d.lists.entries.map fun entry => (entry.1, entry.2.filter p)).filter
    fun entry => !entry.2.isEmpty).flatMap Prod.snd = (d.lists.entries.flatMap Prod.snd).filter p
  induction d.lists.entries with
  | nil => rfl
  | cons entry rest ih =>
    rw [List.flatMap_cons, List.filter_append, ← ih, List.map_cons, List.filter_cons]
    cases entry.2.filter p <;> simp

theorem items_prune (d : Directory topic) (name : String) (p : α → Bool) :
    (d.prune name p).items = d.items.filter fun a => topic a ≠ name || p a := by
  obtain ⟨before, after, hitems, hothers, hset, hstrike⟩ := d.exists_items name
  have hpruned : (d.prune name p).items = before ++ (d.get name).filter p ++ after := by
    unfold prune
    split
    · next hempty => rw [hstrike, List.isEmpty_iff.1 hempty, List.append_nil]
    · exact hset ..
  have hkept : ∀ l : List α, (∀ a ∈ l, a ∈ before ++ after) →
      (l.filter fun a => topic a ≠ name || p a) = l :=
    fun l hl => List.filter_eq_self.2 fun a ha => by simp [hothers a (hl a ha)]
  have hown : ((d.get name).filter fun a => topic a ≠ name || p a) = (d.get name).filter p :=
    List.filter_congr fun a ha => by simp [topic_of_mem_get ha]
  rw [hpruned, hitems, List.filter_append, List.filter_append, hown,
    hkept before (by simp +contextual), hkept after (by simp +contextual)]

theorem get_of_items_filter (h : d'.items = d.items.filter q) (name : String) :
    d'.get name = (d.get name).filter q := by
  rw [get_eq_filter_items, h, get_eq_filter_items, List.filter_comm]

theorem get_retain (d : Directory topic) (p : α → Bool) (name : String) :
    (d.retain p).get name = (d.get name).filter p :=
  get_of_items_filter (d.items_retain p) name

/-- Directories with the same lists have the same items. -/
theorem perm_items_of_get [DecidableEq α] {e : Directory topic'} {f : β → α}
    (same : ∀ b, topic (f b) = topic' b) (h : ∀ name, d.get name = (e.get name).map f) :
    d.items.Perm (e.items.map f) := by
  refine List.perm_iff_count.2 fun a => ?_
  have hcount : ∀ l : List α, l.count a = (l.filter (topic · = topic a)).count a :=
    fun l => (List.count_filter (by simp)).symm
  rw [hcount d.items, hcount (e.items.map f), ← get_eq_filter_items, h, get_eq_filter_items,
    List.filter_map]
  simp only [Function.comp_def, same]

/-! ### Numbers -/

theorem perm_inOrder (d : Directory topic) (id : α → Nat) : (d.inOrder id).Perm d.items :=
  perm_orderedBy id d.items

@[simp] theorem mem_inOrder : a ∈ d.inOrder id ↔ a ∈ d.items := (d.perm_inOrder id).mem_iff

@[simp] theorem inOrder_empty (id : α → Nat) : (empty : Directory topic).inOrder id = [] := rfl

/-- Where no number is given twice, the numbers rise. -/
theorem pairwise_lt_inOrder (distinct : ((d.inOrder id).map id).Nodup) :
    ((d.inOrder id).map id).Pairwise (· < ·) :=
  List.pairwise_map.2
    (pairwise_lt_orderedBy (((d.perm_inOrder id).map id).nodup_iff.1 distinct))

/-- What is added with the greatest number comes last. -/
theorem inOrder_add (greatest : ∀ b ∈ d.items, id b < id a) :
    (d.add a).inOrder id = d.inOrder id ++ [a] := by
  obtain ⟨before, after, hitems, -, hset, -⟩ := d.exists_items (topic a)
  have hadd : (d.add a).items = before ++ d.get (topic a) ++ a :: after := by
    rw [add, hset]
    simp
  rw [hitems] at greatest
  rw [inOrder, hadd, orderedBy_middle greatest, inOrder, hitems]

theorem inOrder_of_items_filter (h : d'.items = d.items.filter q) (id : α → Nat) :
    d'.inOrder id = (d.inOrder id).filter q := by
  rw [inOrder, h, inOrder, filter_orderedBy]

theorem inOrder_retain (d : Directory topic) (id : α → Nat) (p : α → Bool) :
    (d.retain p).inOrder id = (d.inOrder id).filter p :=
  inOrder_of_items_filter (d.items_retain p) id

namespace Ascending

theorem empty : (Directory.empty : Directory topic).Ascending id := fun _ => .nil

theorem add (h : d.Ascending id) (greatest : ∀ b ∈ d.items, id b < id a) :
    (d.add a).Ascending id := by
  intro name
  rw [get_add]
  split
  · refine List.pairwise_append.2 ⟨h name, List.pairwise_singleton _ _, fun b hb c hc => ?_⟩
    rw [List.mem_singleton.1 hc]
    exact greatest b (mem_get.1 hb).1
  · exact h name

theorem of_items_filter (h : d.Ascending id) (items : d'.items = d.items.filter q) :
    d'.Ascending id := by
  intro name
  rw [get_of_items_filter items]
  exact (h name).filter _

/-- Where the numbers rise along the list of a topic, it is a part of all items. -/
theorem get_eq (h : d.Ascending id) (name : String) :
    d.get name = (d.inOrder id).filter (topic · = name) := by
  rw [inOrder, filter_orderedBy, ← get_eq_filter_items,
    orderedBy_of_pairwise ((h name).imp Nat.le_of_lt)]

end Ascending

/-! ### Topics -/

theorem get_of_mem_lists {entry : String × List α} (h : entry ∈ d.lists.entries) :
    d.get entry.1 = entry.2 := by
  rw [get, Table.get?, Table.find?_of_mem d.distinct h, Option.getD_some]

namespace Occupied

theorem empty : (Directory.empty : Directory topic).Occupied := by
  simp [Occupied, Directory.empty, Table.empty]

theorem set (h : d.Occupied) {own : ∀ a ∈ l, topic a = name} (some : l ≠ []) :
    (d.set name l own).Occupied := by
  intro entry hentry
  rcases Table.mem_of_mem_put hentry with rfl | hentry
  · exact some
  · exact h entry hentry

theorem add (h : d.Occupied) (a : α) : (d.add a).Occupied := h.set (by simp)

/-- What is kept after some items have gone has items, whatever there was before. -/
theorem retain (d : Directory topic) (p : α → Bool) : (d.retain p).Occupied := by
  intro entry hentry
  simpa using (List.mem_filter.1 hentry).2

theorem prune (h : d.Occupied) (name : String) (p : α → Bool) : (d.prune name p).Occupied := by
  unfold Directory.prune
  split
  · exact fun entry hentry => h entry (List.mem_filter.1 hentry).1
  · next hsome => exact h.set (by simpa using hsome)

/-- A topic is listed if and only if somebody is on it. -/
theorem mem_topics (h : d.Occupied) : name ∈ d.topics ↔ d.get name ≠ [] := by
  constructor
  · intro hname
    obtain ⟨entry, hentry, rfl⟩ := List.mem_map.1 hname
    rw [get_of_mem_lists hentry]
    exact h entry hentry
  · intro hsome
    cases hfind : Table.find? name d.lists.entries with
    | none => exact (hsome (by simp [get, Table.get?, hfind])).elim
    | some list => exact List.mem_map_of_mem (Table.mem_of_find? hfind)

/-- Where nobody goes, nothing is changed. -/
theorem retain_eq (h : d.Occupied) (all : ∀ a ∈ d.items, p a = true) : d.retain p = d := by
  have hlists : (d.lists.entries.map fun entry => (entry.1, entry.2.filter p)) =
      d.lists.entries := by
    refine (List.map_congr_left fun entry hentry => ?_).trans (List.map_id _)
    rw [List.filter_eq_self.2 fun a ha => all a (List.mem_flatMap.2 ⟨entry, hentry, ha⟩)]
    rfl
  have hoccupied : d.lists.entries.filter (fun entry => !entry.2.isEmpty) = d.lists.entries :=
    List.filter_eq_self.2 fun entry hentry => by simpa using h entry hentry
  obtain ⟨⟨entries⟩, distinct, own⟩ := d
  simp only at hlists hoccupied
  simp only [Directory.retain, hlists, hoccupied]

end Occupied

end EventJournal.Directory
