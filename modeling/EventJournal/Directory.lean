import EventJournal.Ordered
import EventJournal.Table

/-!
# Directories

Items listed under topics: those of each topic in a list of their own, in the order in which they
came. A topic that loses its last item is struck out together with its list.

* `Directory`; `Directory.get`, the list of a topic, and `Directory.topics`, those that have one;
* `Directory.add`, `Directory.retain` and `Directory.prune`, all that changes a directory;
* `Directory.items`, the items of all lists, and `Directory.inOrder`, the same by their numbers.
-/

namespace EventJournal

/-- Items under topics. No topic has two lists, and no item is in the list of another topic. -/
structure Directory {α : Type} (topic : α → String) where
  lists : Table String (List α)
  distinct : (lists.entries.map Prod.fst).Nodup
  own : ∀ entry ∈ lists.entries, ∀ a ∈ entry.2, topic a = entry.1

namespace Directory

variable {α : Type} {topic : α → String}

/-- The directory without lists. -/
def empty : Directory topic := ⟨.empty, .nil, by simp [Table.empty]⟩

/-- The list of a topic, with nothing in it if there is none. -/
def get (d : Directory topic) (name : String) : List α := (d.lists.get? name).getD []

/-- The topics that have lists. -/
def topics (d : Directory topic) : List String := d.lists.entries.map Prod.fst

/-- The items of all lists, one list after another. -/
def items (d : Directory topic) : List α := d.lists.entries.flatMap Prod.snd

theorem topic_of_mem_get {d : Directory topic} {name : String} {a : α} (h : a ∈ d.get name) :
    topic a = name := by
  unfold get Table.get? at h
  cases hfind : Table.find? name d.lists.entries with
  | none => simp [hfind] at h
  | some list =>
    rw [hfind] at h
    exact d.own _ (Table.mem_of_find? hfind) a h

/-- A list put in the place of that of a topic. -/
def set (d : Directory topic) (name : String) (list : List α)
    (own : ∀ a ∈ list, topic a = name) : Directory topic where
  lists := d.lists.set name list
  distinct := Table.nodup_put d.distinct
  own entry h := by
    rcases Table.mem_of_mem_put h with rfl | h
    · exact own
    · exact d.own entry h

/-- A topic struck out, with its list. -/
def strike (d : Directory topic) (name : String) : Directory topic where
  lists := d.lists.erase name
  distinct := d.distinct.sublist (List.filter_sublist.map _)
  own entry h := d.own entry (List.mem_filter.1 h).1

/-- An item added at the end of the list of its topic, which is made if there is none. -/
def add (d : Directory topic) (a : α) : Directory topic :=
  d.set (topic a) (d.get (topic a) ++ [a]) fun b h => by
    rcases List.mem_append.1 h with h | h
    · exact topic_of_mem_get h
    · rw [List.mem_singleton.1 h]

/-- In all lists only some items are kept; the lists that have none of these are struck out. -/
def retain (d : Directory topic) (p : α → Bool) : Directory topic where
  lists := ⟨(d.lists.entries.map fun entry => (entry.1, entry.2.filter p)).filter
    fun entry => !entry.2.isEmpty⟩
  distinct := by
    refine List.Nodup.sublist (List.filter_sublist.map _) ?_
    rw [List.map_map]
    exact d.distinct
  own entry h := by
    obtain ⟨entry, hentry, rfl⟩ := List.mem_map.1 (List.mem_filter.1 h).1
    exact fun a ha => d.own entry hentry a (List.mem_filter.1 ha).1

/-- In the list of a topic only some items are kept; without any of these it is struck out. -/
def prune (d : Directory topic) (name : String) (p : α → Bool) : Directory topic :=
  if ((d.get name).filter p).isEmpty then d.strike name
  else d.set name ((d.get name).filter p) fun _ h => topic_of_mem_get (List.mem_filter.1 h).1

/-- The items of all lists, by their numbers. -/
def inOrder (d : Directory topic) (id : α → Nat) : List α := orderedBy id d.items

end Directory

end EventJournal
