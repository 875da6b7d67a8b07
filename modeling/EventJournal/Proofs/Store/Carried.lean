import EventJournal.Proofs.Store.Requests

/-!
# What a save leaves in the journal

A save carries its records from step to step, however the backend answers and whatever others commit
in the meantime. Only the last of its steps changes the journal, and it adds all of them or none.

* `Saving.Carries`, that a save is under way with some records;
* `Saving.Spares`, that a step leaves the journal as it was.

The main statements are `Saving.Carries.step` and `Saving.Carries.completes`.
-/

namespace EventJournal

namespace Saving

/-- A save is under way with these records. -/
def Carries (records : List Record) : Saving Transaction → Prop
  | .opening rs => rs = records
  | .checking tx _ _ rs => tx.staged = [] ∧ rs = records
  | .writing tx rest => tx.staged ++ rest.flatten = records
  | .undoing _ _ => True
  | .done _ => False

/-- A step that leaves the journal as it was: the save goes on with its records, or it has failed.
-/
def Spares (records : List Record) (w w' : Watched) (next : Saving Transaction) : Prop :=
  w'.journal = w.journal ∧ (next.Carries records ∨ ∃ e, next = .done (.error e))

variable {records : List Record} {o : StoreOptions} {w w' : Watched}
  {save save' : Saving Transaction}

theorem carries_batches {tx : Transaction} (staged : tx.staged = []) :
    Carries records (.writing tx (batches o.batchSize records)) := by
  show tx.staged ++ (batches o.batchSize records).flatten = records
  rw [staged, flatten_batches, List.nil_append]

/-- What is to be committed is staged. -/
theorem Carries.of_committing {tx : Transaction} (h : Carries records (.writing tx [])) :
    tx.staged = records := by
  rw [← h, List.flatten_nil, List.append_nil]

/-- A step of a save either ends it, with all its records added to the journal, or leaves the
journal as it was. -/
theorem Carries.step (h : save.Carries records)
    (hstep : save.step Watched.backend o w = (save', w')) :
    (save' = .done (.ok ()) ∧ w.journal.Grows records w'.journal) ∨
      Spares records w w' save' := by
  cases step_cases hstep with
  | unopened e refuses => exact .inr ⟨refuses.journal, .inr ⟨e, rfl⟩⟩
  | opened unchanged strict =>
    obtain rfl := h
    exact .inr ⟨unchanged.journal, .inl ⟨rfl, rfl⟩⟩
  | openedUnchecked unchanged unchecked =>
    obtain rfl := h
    exact .inr ⟨unchanged.journal, .inl (carries_batches rfl)⟩
  | checked =>
    obtain ⟨staged, rfl⟩ := h
    exact .inr ⟨rfl, .inl (carries_batches staged)⟩
  | unanswered e refuses => exact .inr ⟨refuses.journal, .inl trivial⟩
  | fits expects =>
    obtain ⟨staged, rfl⟩ := h
    exact .inr ⟨expects.unchanged.journal, .inl ⟨staged, rfl⟩⟩
  | differs expects ne => exact .inr ⟨expects.unchanged.journal, .inl trivial⟩
  | @inserted tx batch rest _ unchanged =>
    refine .inr ⟨unchanged.journal, .inl ?_⟩
    show tx.staged ++ batch ++ rest.flatten = records
    rw [List.append_assoc]
    exact h
  | uninserted e refuses => exact .inr ⟨refuses.journal, .inl trivial⟩
  | committed grows calm => exact .inl ⟨rfl, h.of_committing ▸ grows⟩
  | uncommitted e journal calm => exact .inr ⟨journal, .inr ⟨e, rfl⟩⟩
  | undone unchanged => exact .inr ⟨unchanged.journal, .inr ⟨_, rfl⟩⟩
  | done => exact h.elim

/-- A save that succeeds in a step has all its records staged. -/
theorem Carries.completes (carries : save.Carries records)
    (hstep : save.step Watched.backend o w = (.done (.ok ()), w')) :
    ∃ tx, save = .writing tx [] ∧ tx.staged = records := by
  cases step_cases hstep with
  | committed grows calm => exact ⟨_, rfl, carries.of_committing⟩
  | done => exact carries.elim

end Saving

end EventJournal
