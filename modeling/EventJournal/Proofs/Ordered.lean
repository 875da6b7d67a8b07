import EventJournal.Ordered
import Mathlib.Data.List.Forall2
import Mathlib.Data.List.Sort

/-!
# What is in order

Items are put in order by insertion, the last one first. So the order of items with keys of their
own is a matter of the items alone, and what is done to the items before can be done afterwards.

* `orderedBy_eq_insertionSort`, that this is insertion sort;
* `perm_orderedBy`, `pairwise_orderedBy`, that the same items are in order afterwards, and
  `orderedBy_eq_of_perm`, that this leaves no choice;
* `orderedBy_middle`, `filter_orderedBy`, `map_orderedBy`, `forall₂_orderedBy`: an item more, fewer
  items, and other ones.
-/

namespace EventJournal

variable {α β κ : Type} [LinearOrder κ] {key : α → κ} {p : α → Bool} {a b : α}
  {items items' before after : List α}

theorem insertBy_eq_orderedInsert (key : α → κ) (a : α) (items : List α) :
    insertBy key a items = items.orderedInsert (key · ≤ key ·) a := by
  induction items with
  | nil => rfl
  | cons b rest ih => rw [insertBy, List.orderedInsert_cons, ih]

theorem orderedBy_eq_insertionSort (key : α → κ) (items : List α) :
    orderedBy key items = items.insertionSort (key · ≤ key ·) := by
  induction items with
  | nil => rfl
  | cons a rest ih =>
    show insertBy key a (orderedBy key rest) = _
    rw [insertBy_eq_orderedInsert, ih, List.insertionSort_cons]

theorem perm_orderedBy (key : α → κ) (items : List α) : (orderedBy key items).Perm items := by
  rw [orderedBy_eq_insertionSort]
  exact List.perm_insertionSort ..

theorem pairwise_orderedBy (key : α → κ) (items : List α) :
    (orderedBy key items).Pairwise (key · ≤ key ·) := by
  have htotal : Std.Total fun a b : α => key a ≤ key b := ⟨fun a b => le_total (key a) (key b)⟩
  have htrans : IsTrans α fun a b : α => key a ≤ key b := ⟨fun _ _ _ => le_trans⟩
  rw [orderedBy_eq_insertionSort]
  exact List.pairwise_insertionSort ..

/-- Items with keys of their own are strictly in order. -/
theorem pairwise_lt_orderedBy (distinct : (items.map key).Nodup) :
    (orderedBy key items).Pairwise (key · < key ·) := by
  have hdistinct := ((perm_orderedBy key items).map key).nodup_iff.2 distinct
  exact ((pairwise_orderedBy key items).and (List.pairwise_map.1 hdistinct)).imp
    fun h => lt_of_le_of_ne h.1 h.2

/-- Items in order stay as they are. -/
theorem orderedBy_of_pairwise (h : items.Pairwise (key · ≤ key ·)) :
    orderedBy key items = items := by
  rw [orderedBy_eq_insertionSort]
  exact h.insertionSort_eq

/-- The order of items with keys of their own does not depend on how they come. -/
theorem orderedBy_eq_of_perm (h : items.Perm items') (distinct : (items.map key).Nodup) :
    orderedBy key items = orderedBy key items' := by
  have hantisymm : Std.Antisymm fun a b : α => key a < key b :=
    ⟨fun _ _ hab hba => absurd hab hba.asymm⟩
  have hperm : (orderedBy key items).Perm (orderedBy key items') :=
    (perm_orderedBy ..).trans (h.trans (perm_orderedBy ..).symm)
  exact hperm.eq_of_pairwise' (pairwise_lt_orderedBy distinct)
    (pairwise_lt_orderedBy ((h.map key).nodup_iff.1 distinct))

/-! ### An item more -/

theorem insertBy_of_greatest (greatest : ∀ b ∈ items, key b < key a) :
    insertBy key a items = items ++ [a] := by
  induction items with
  | nil => rfl
  | cons b rest ih =>
    obtain ⟨hb, hrest⟩ := List.forall_mem_cons.1 greatest
    rw [insertBy, if_neg hb.not_ge, ih hrest, List.cons_append]

theorem insertBy_append (h : key b < key a) (items : List α) :
    insertBy key b (items ++ [a]) = insertBy key b items ++ [a] := by
  induction items with
  | nil => exact if_pos h.le
  | cons c rest ih =>
    rw [List.cons_append, insertBy, insertBy, ih]
    split <;> rfl

/-- The item with the greatest key comes last. -/
theorem orderedBy_middle (greatest : ∀ b ∈ before ++ after, key b < key a) :
    orderedBy key (before ++ a :: after) = orderedBy key (before ++ after) ++ [a] := by
  induction before with
  | nil => exact insertBy_of_greatest fun b hb => greatest b ((perm_orderedBy ..).subset hb)
  | cons b rest ih =>
    obtain ⟨hb, hrest⟩ := List.forall_mem_cons.1 greatest
    show insertBy key b (orderedBy key (rest ++ a :: after)) = _
    rw [ih hrest, insertBy_append hb]
    rfl

/-! ### Fewer and other items -/

theorem filter_insertBy (sorted : items.Pairwise (key · ≤ key ·)) (p : α → Bool) (a : α) :
    (insertBy key a items).filter p =
      if p a then insertBy key a (items.filter p) else items.filter p := by
  induction items with
  | nil => by_cases ha : p a <;> simp [insertBy, ha]
  | cons b rest ih =>
    obtain ⟨hfirst, hrest⟩ := List.pairwise_cons.1 sorted
    rw [insertBy]
    split
    · next hle =>
      -- the item stands in front of all that are kept
      have hfront : ∀ c ∈ (b :: rest).filter p, key a ≤ key c := by
        intro c hc
        rcases List.mem_cons.1 (List.mem_filter.1 hc).1 with rfl | hc
        · exact hle
        · exact hle.trans (hfirst c hc)
      rw [List.filter_cons]
      congr 1
      cases h : (b :: rest).filter p with
      | nil => rfl
      | cons c others => rw [insertBy, if_pos (hfront c (h ▸ List.mem_cons_self))]
    · next hlt =>
      rw [List.filter_cons, ih hrest, List.filter_cons]
      by_cases ha : p a <;> by_cases hb : p b <;> simp [insertBy, ha, hb, hlt]

theorem filter_orderedBy (key : α → κ) (items : List α) (p : α → Bool) :
    (orderedBy key items).filter p = orderedBy key (items.filter p) := by
  induction items with
  | nil => rfl
  | cons a rest ih =>
    show (insertBy key a (orderedBy key rest)).filter p = _
    rw [filter_insertBy (pairwise_orderedBy ..), ih, List.filter_cons]
    split <;> rfl

theorem map_orderedBy (f : α → β) (key : β → κ) (items : List α) :
    (orderedBy (fun a => key (f a)) items).map f = orderedBy key (items.map f) := by
  rw [orderedBy_eq_insertionSort, orderedBy_eq_insertionSort]
  exact List.map_insertionSort _ _ f items fun _ _ _ _ => Iff.rfl

theorem forall₂_insertBy {R : α → α → Prop} (same : ∀ a b, R a b → key a = key b) (hab : R a b)
    (h : List.Forall₂ R items items') :
    List.Forall₂ R (insertBy key a items) (insertBy key b items') := by
  induction h with
  | nil => exact .cons hab .nil
  | cons hcd hrest ih =>
    rw [insertBy, insertBy, same _ _ hab, same _ _ hcd]
    split
    · exact .cons hab (.cons hcd hrest)
    · exact .cons hcd ih

/-- Items that differ in all but their keys are put in the same order. -/
theorem forall₂_orderedBy {R : α → α → Prop} (same : ∀ a b, R a b → key a = key b)
    (h : List.Forall₂ R items items') :
    List.Forall₂ R (orderedBy key items) (orderedBy key items') := by
  induction h with
  | nil => exact .nil
  | cons hab _ ih => exact forall₂_insertBy same hab ih

end EventJournal
