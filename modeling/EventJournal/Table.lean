/-!
# Tables

Values under keys.

* `Table`, `Table.get?`, `Table.set`, `Table.push`, `Table.erase`;
* `get?_set`, `get?_push`, `get?_erase`: what a table holds after a change;
* `Table.nodup_put`: no key is given two entries.
-/

namespace EventJournal

/-- Values under keys; of two entries of one key the first counts. -/
structure Table (κ α : Type) where
  entries : List (κ × α) := []

namespace Table

variable {κ α : Type} [DecidableEq κ]

/-- The table without entries. -/
def empty : Table κ α := {}

/-- The value of a key among entries. -/
def find? (k : κ) : List (κ × α) → Option α
  | [] => none
  | (other, a) :: rest => if other = k then some a else find? k rest

/-- The entries with a value put under a key: in the place of the old one, or at the end. -/
def put (k : κ) (a : α) : List (κ × α) → List (κ × α)
  | [] => [(k, a)]
  | (other, b) :: rest => if other = k then (k, a) :: rest else (other, b) :: put k a rest

/-- The value of a key. -/
def get? (t : Table κ α) (k : κ) : Option α := find? k t.entries

/-- The table with a value put under a key. -/
def set (t : Table κ α) (k : κ) (a : α) : Table κ α := ⟨put k a t.entries⟩

/-- The table with a value put under a key in front of all others, which it hides. -/
def push (t : Table κ α) (k : κ) (a : α) : Table κ α := ⟨(k, a) :: t.entries⟩

/-- The table without a key. -/
def erase (t : Table κ α) (k : κ) : Table κ α := ⟨t.entries.filter (·.1 ≠ k)⟩

/-- The table with the value of a key changed, if there is one. -/
def modify (t : Table κ α) (k : κ) (f : α → α) : Table κ α :=
  match t.get? k with
  | some a => t.set k (f a)
  | none => t

/-- The value that is found is that of the first entry of its key. -/
theorem exists_of_find? {k : κ} {a : α} {entries : List (κ × α)} (h : find? k entries = some a) :
    ∃ before after, entries = before ++ (k, a) :: after ∧ ∀ entry ∈ before, entry.1 ≠ k := by
  induction entries with
  | nil => simp [find?] at h
  | cons head rest ih =>
    rw [find?] at h
    split at h
    · next heq =>
      obtain rfl := Option.some.inj h
      exact ⟨[], rest, by rw [← heq]; rfl, by simp⟩
    · next hne =>
      obtain ⟨before, after, rfl, hbefore⟩ := ih h
      exact ⟨head :: before, after, rfl, List.forall_mem_cons.2 ⟨hne, hbefore⟩⟩

theorem mem_of_find? {k : κ} {a : α} {entries : List (κ × α)} (h : find? k entries = some a) :
    (k, a) ∈ entries := by
  obtain ⟨before, after, rfl, -⟩ := exists_of_find? h
  simp

theorem ne_of_find?_eq_none {k : κ} {entries : List (κ × α)} (h : find? k entries = none) :
    ∀ entry ∈ entries, entry.1 ≠ k := by
  induction entries with
  | nil => simp
  | cons head rest ih =>
    rw [find?] at h
    split at h
    · simp at h
    · next hne => exact List.forall_mem_cons.2 ⟨hne, ih h⟩

/-- Where no key has two entries, each entry is found. -/
theorem find?_of_mem {k : κ} {a : α} {entries : List (κ × α)}
    (distinct : (entries.map Prod.fst).Nodup) (h : (k, a) ∈ entries) :
    find? k entries = some a := by
  induction entries with
  | nil => simp at h
  | cons head rest ih =>
    obtain ⟨hfirst, hrest⟩ := List.nodup_cons.1 distinct
    rw [find?]
    rcases List.mem_cons.1 h with rfl | h
    · simp
    · have hne : head.1 ≠ k := fun heq => hfirst (List.mem_map.2 ⟨(k, a), h, heq.symm⟩)
      rw [if_neg hne, ih hrest h]

/-- A value is put behind the entries of other keys. -/
theorem put_append {k : κ} {before : List (κ × α)} (others : ∀ entry ∈ before, entry.1 ≠ k) (a : α)
    (rest : List (κ × α)) : put k a (before ++ rest) = before ++ put k a rest := by
  induction before with
  | nil => rfl
  | cons head before ih =>
    obtain ⟨hhead, hbefore⟩ := List.forall_mem_cons.1 others
    rw [List.cons_append, put, if_neg hhead, ih hbefore, List.cons_append]

theorem mem_of_mem_put {k : κ} {a : α} {entry : κ × α} {entries : List (κ × α)}
    (h : entry ∈ put k a entries) : entry = (k, a) ∨ entry ∈ entries := by
  induction entries with
  | nil => exact .inl (List.mem_singleton.1 h)
  | cons head rest ih =>
    rw [put] at h
    split at h
    · rcases List.mem_cons.1 h with h | h
      · exact .inl h
      · exact .inr (List.mem_cons_of_mem _ h)
    · rcases List.mem_cons.1 h with rfl | h
      · exact .inr List.mem_cons_self
      · exact (ih h).imp_right (List.mem_cons_of_mem _)

/-- Where no key has two entries, none has two after a change. -/
theorem nodup_put {k : κ} {a : α} {entries : List (κ × α)}
    (h : (entries.map Prod.fst).Nodup) : ((put k a entries).map Prod.fst).Nodup := by
  induction entries with
  | nil => simp [put]
  | cons head rest ih =>
    obtain ⟨hfirst, hrest⟩ := List.nodup_cons.1 h
    rw [put]
    split
    · next heq => exact heq ▸ h
    · next hne =>
      refine List.nodup_cons.2 ⟨fun hmem => ?_, ih hrest⟩
      obtain ⟨entry, hentry, heq⟩ := List.mem_map.1 hmem
      rcases mem_of_mem_put hentry with rfl | hentry
      · exact hne heq.symm
      · exact hfirst (heq ▸ List.mem_map_of_mem hentry)

@[simp] theorem get?_empty (k : κ) : (empty : Table κ α).get? k = none := rfl

theorem find?_put (k other : κ) (a : α) (entries : List (κ × α)) :
    find? other (put k a entries) = if other = k then some a else find? other entries := by
  induction entries with
  | nil =>
    by_cases h : other = k
    · simp [put, find?, h]
    · simp [put, find?, h, Ne.symm h]
  | cons head rest ih =>
    obtain ⟨name, b⟩ := head
    unfold put
    by_cases hname : name = k
    · subst hname
      by_cases h : other = name
      · simp [find?, h]
      · simp [find?, h, Ne.symm h]
    · by_cases h : other = name
      · subst h
        simp [find?, hname]
      · simp only [if_neg hname, find?, if_neg (Ne.symm h)]
        exact ih

/-- A table holds what was put under a key last. -/
theorem get?_set (t : Table κ α) (k other : κ) (a : α) :
    (t.set k a).get? other = if other = k then some a else t.get? other :=
  find?_put k other a t.entries

@[simp] theorem get?_set_self (t : Table κ α) (k : κ) (a : α) : (t.set k a).get? k = some a := by
  simp [get?_set]

/-- A table holds what was pushed onto it. -/
theorem get?_push (t : Table κ α) (k other : κ) (a : α) :
    (t.push k a).get? other = if other = k then some a else t.get? other := by
  by_cases h : other = k
  · simp [push, get?, find?, h]
  · simp [push, get?, find?, h, Ne.symm h]

theorem find?_filter_ne (k other : κ) (entries : List (κ × α)) :
    find? other (entries.filter (·.1 ≠ k)) = if other = k then none else find? other entries := by
  induction entries with
  | nil => simp [find?]
  | cons head rest ih =>
    obtain ⟨name, b⟩ := head
    by_cases hname : name = k
    · subst hname
      simp only [ne_eq, not_true_eq_false, decide_false, Bool.false_eq_true, not_false_eq_true,
        List.filter_cons_of_neg, ih, find?]
      by_cases h : other = name
      · simp [h]
      · simp [h, Ne.symm h]
    · simp only [ne_eq, hname, not_false_eq_true, decide_true, List.filter_cons_of_pos, find?, ih]
      by_cases h : name = other
      · subst h
        simp [hname]
      · simp [h]

/-- A table holds nothing under an erased key, and everything else as before. -/
theorem get?_erase (t : Table κ α) (k other : κ) :
    (t.erase k).get? other = if other = k then none else t.get? other :=
  find?_filter_ne k other t.entries

end Table

end EventJournal
