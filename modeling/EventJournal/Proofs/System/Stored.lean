import EventJournal.Proofs.Store.Carried
import EventJournal.Proofs.System.Desks

/-!
# What calls have stored

The stage of a call tells which records it has added to the journal: none before its save has
succeeded, and afterwards those of the envelopes that it holds.

* `Call.Stage.Stored`, what a stage tells;
* `Ledger.CallStep.adds`, which records a step adds, and `Ledger.Completes`, when it adds some;
* `Run.stored`, that stages tell the truth in every run.
-/

namespace EventJournal

/-- What the stage of a call tells of the records that the call has added to the journal. -/
def Call.Stage.Stored (added : List Record) : Call.Stage → Prop
  | .saving _ envelopes _ save =>
    added = [] ∧ envelopes ≠ [] ∧
      ∃ records, save.Carries records ∧ List.Forall₂ Envelope.IsOf envelopes records
  | .saved _ envelopes | .dispatching (some (_, envelopes)) _
  | .finished (.error (.commit (.dispatch envelopes _))) =>
    envelopes ≠ [] ∧ List.Forall₂ Envelope.IsOf envelopes added
  | .finished (.ok (.saved envelopes)) => List.Forall₂ Envelope.IsOf envelopes added
  | _ => added = []

/-- The save of a call succeeds in a step, with these records. -/
def Ledger.Completes (l : Ledger) (stage : Call.Stage) (records : List Record) : Prop :=
  ∃ purpose envelopes since save storage, stage = .saving purpose envelopes since save ∧
    save.step Watched.backend l.options l.storage = (.done (.ok ()), storage) ∧
    save.Carries records ∧ List.Forall₂ Envelope.IsOf envelopes records

section Forall₂

variable {α β : Type} {R : α → β → Prop} {l : List α} {l' : List β}

theorem exists_left_of_forall₂ (h : List.Forall₂ R l l') {b : β} (hb : b ∈ l') :
    ∃ a ∈ l, R a b := by
  induction h with
  | nil => simp at hb
  | @cons a b' l l' hab _ ih =>
    rcases List.mem_cons.1 hb with rfl | hb
    · exact ⟨a, List.mem_cons_self .., hab⟩
    · obtain ⟨a', ha', hab'⟩ := ih hb
      exact ⟨a', List.mem_cons_of_mem _ ha', hab'⟩

theorem exists_right_of_forall₂ (h : List.Forall₂ R l l') {a : α} (ha : a ∈ l) :
    ∃ b ∈ l', R a b :=
  exists_left_of_forall₂ (R := flip R) h.flip ha

end Forall₂

/-- One event is kept as one record. -/
theorem exists_isOf_of_singleton {envelopes : List Envelope} {records : List Record} {e : Event}
    (hevents : envelopes.map Envelope.event = [e])
    (isOf : List.Forall₂ Envelope.IsOf envelopes records) :
    ∃ envelope r, envelopes = [envelope] ∧ records = [r] ∧ envelope.IsOf r ∧
      envelope.event = e := by
  obtain ⟨envelope, rest, rfl, hevent, hrest⟩ := List.map_eq_cons_iff.1 hevents
  obtain rfl := List.map_eq_nil_iff.1 hrest
  obtain ⟨r, others, hr, hothers, rfl⟩ := List.forall₂_cons_left_iff.1 isOf
  obtain rfl := List.forall₂_nil_left_iff.1 hothers
  exact ⟨envelope, r, rfl, rfl, hr, hevent⟩

namespace Ledger

variable {l l' : Ledger} {added : List Record}

theorem journal_of_load {aggregateId : String} {answer : Except StoreError (List Envelope)}
    {storage : Watched} (h : l.store.load aggregateId l.storage = (answer, storage)) :
    storage.journal = l.storage.journal :=
  (Store.loadFrom_watched rfl h).1.journal

theorem SaveFailed.records {call : Nat} {e : StoreError} {purpose : Call.Purpose}
    (h : l.SaveFailed call e purpose l') :
    l'.storage = l.storage ∧
      ∃ outcome, l'.calls = l.calls.set call (.finished outcome) ∧
        Call.Stage.Stored [] (.finished outcome) := by
  cases h with
  | itself => exact ⟨rfl, _, rfl, rfl⟩
  | commit => exact ⟨rfl, _, rfl, rfl⟩

theorem SaveCompleted.records {call : Nat} {envelopes : List Envelope} {purpose : Call.Purpose}
    (h : l.SaveCompleted call envelopes purpose l') (nonempty : envelopes ≠ [])
    (isOf : List.Forall₂ Envelope.IsOf envelopes added) :
    l'.storage = l.storage ∧
      ∃ stage, l'.calls = l.calls.set call stage ∧ stage.Stored added := by
  cases h with
  | itself => exact ⟨rfl, _, rfl, isOf⟩
  | commit => exact ⟨rfl, _, rfl, nonempty, isOf⟩

theorem stored_commitOutcome {envelopes : List Envelope} (nonempty : envelopes ≠ [])
    (isOf : List.Forall₂ Envelope.IsOf envelopes added) (result : Except DispatchError Unit) :
    Call.Stage.Stored added (.finished (System.commitOutcome envelopes result)) := by
  cases result with
  | ok _ => exact isOf
  | error e => exact ⟨nonempty, isOf⟩

/-- The records that a step of a call adds to the journal, and the stage that tells of them. -/
theorem CallStep.adds {call : Nat} {stage : Call.Stage} (h : l.CallStep call stage l')
    (stored : stage.Stored added) :
    ∃ stage' new, l'.calls = l.calls.set call stage' ∧
      l.storage.journal.Grows new l'.storage.journal ∧ (new = [] ∨ l.Completes stage new) ∧
      stage'.Stored (added ++ new) := by
  -- all steps but one add nothing
  have hquiet : ∀ {stage' : Call.Stage}, l'.calls = l.calls.set call stage' →
      l'.storage.journal = l.storage.journal → stage'.Stored added →
      ∃ stage' new, l'.calls = l.calls.set call stage' ∧
        l.storage.journal.Grows new l'.storage.journal ∧ (new = [] ∨ l.Completes stage new) ∧
        stage'.Stored (added ++ new) := by
    intro stage' hcalls hjournal hstage'
    refine ⟨stage', [], hcalls, ?_, .inl rfl, ?_⟩
    · rw [hjournal]
      exact Journal.grows_nil _
    · rwa [List.append_nil]
  cases h with
  | loaded load => exact hquiet rfl (journal_of_load load) stored
  | unloaded load => exact hquiet rfl (journal_of_load load) stored
  | unreplayed load => exact hquiet rfl (journal_of_load load) stored
  | timed => exact hquiet rfl rfl stored
  | ruledOut => exact hquiet rfl rfl stored
  | decided => exact hquiet rfl rfl stored
  | entered => exact hquiet rfl rfl stored
  | refused get begin =>
    refine hquiet rfl rfl ?_
    obtain rfl := stored
    unfold UnitOfWork.begin at begin
    split at begin
    · obtain rfl := Except.error.inj begin
      rfl
    · obtain rfl := Except.error.inj begin
      rfl
    · split at begin <;> simp at begin
  | emptied =>
    refine hquiet rfl rfl ?_
    obtain rfl := stored
    exact .nil
  | fixed => exact hquiet rfl rfl stored
  | savedNothing =>
    refine hquiet rfl rfl ?_
    obtain rfl := stored
    exact .nil
  | unprepared nonempty prepare failed =>
    obtain ⟨hstorage, outcome, hcalls, hstage'⟩ := failed.records
    obtain rfl := stored
    exact hquiet hcalls (congrArg Watched.journal hstorage) hstage'
  | prepared nonempty prepare =>
    refine hquiet rfl rfl ⟨stored, ?_, _, rfl, forall₂_isOf_of_prepare prepare⟩
    intro hnil
    rw [List.map_eq_nil_iff] at hnil
    subst hnil
    exact nonempty (map_event_of_prepare prepare).symm
  | asked step going =>
    obtain ⟨hadded, hne, records, carries, isOf⟩ := stored
    rcases carries.step step with ⟨rfl, -⟩ | ⟨hjournal, hnext⟩
    · simp [Saving.isDone] at going
    · refine hquiet rfl hjournal ⟨hadded, hne, records, ?_, isOf⟩
      rcases hnext with hnext | ⟨e, rfl⟩
      · exact hnext
      · simp [Saving.isDone] at going
  | stored step completed =>
    obtain ⟨rfl, hne, records, carries, isOf⟩ := stored
    rcases carries.step step with ⟨-, hgrows⟩ | ⟨-, hnext⟩
    · obtain ⟨hstorage, stage', hcalls, hstage'⟩ := completed.records hne isOf
      exact ⟨stage', records, hcalls, by rwa [hstorage],
        .inr ⟨_, _, _, _, _, rfl, step, carries, isOf⟩, hstage'⟩
    · rcases hnext with hnext | ⟨e, heq⟩
      · exact hnext.elim
      · simp at heq
  | failed step failed =>
    obtain ⟨rfl, hne, records, carries, isOf⟩ := stored
    obtain ⟨hstorage, outcome, hcalls, hstage'⟩ := failed.records
    rcases carries.step step with ⟨heq, -⟩ | ⟨hjournal, -⟩
    · simp at heq
    · exact hquiet hcalls ((congrArg Watched.journal hstorage).trans hjournal) hstage'
  | dispatches => exact hquiet rfl rfl stored
  | enqueues result => exact hquiet rfl rfl (stored_commitOutcome stored.1 stored.2 result)
  | @tells commit dispatch next =>
    refine hquiet rfl rfl ?_
    cases commit <;> exact stored
  | told outcome plain =>
    refine hquiet rfl rfl ?_
    rcases plain with rfl | ⟨e, rfl⟩ <;> exact stored
  | toldCommit result => exact hquiet rfl rfl (stored_commitOutcome stored.1 stored.2 result)
  | reloaded load => exact hquiet rfl (journal_of_load load) stored
  | unreloaded load => exact hquiet rfl (journal_of_load load) stored
  | drained => exact hquiet rfl rfl stored

end Ledger

theorem stored_of_starts {a : Action} {stage : Call.Stage} (h : a.Starts stage) :
    stage.Stored [] := by
  cases h <;> rfl

theorem Moment.added_eq {m : Moment} {new : List Record}
    (h : m.before.storage.journal.Grows new m.after.storage.journal) : m.added = new := by
  rw [added, h.records, List.drop_left]

theorem History.addedBy_concat (h : History) (m : Moment) (call : Nat) :
    addedBy (h ++ [m]) call = h.addedBy call ++ if m.isStepOf call then m.added else [] := by
  rw [addedBy_append, addedBy_singleton]

/-- In a run the stages of calls tell the truth about the records that they have added. -/
theorem Run.stored {s₀ s : System} {h : History} (run : Run s₀ h s) (fresh : s₀.Fresh) {call : Nat}
    {stage : Call.Stage} (hget : s.calls.get? call = some stage) :
    stage.Stored (h.addedBy call) := by
  refine run.stage_induction (P := fun h _ call stage => stage.Stored (h.addedBy call)) fresh
    ?_ ?_ ?_ hget
  · intro h s s' a stage _ _ _ begins _ hnone
    rw [History.addedBy, hnone]
    rcases begins with starts | ⟨unit, -, rfl⟩
    · exact stored_of_starts starts
    · rfl
  · intro h s s' call stage stage' _ _ _ callStep hget' ih
    obtain ⟨stage₁, new, hcalls, hgrows, -, hstored⟩ := callStep.adds ih
    obtain rfl := Ledger.eq_of_set hcalls hget'
    have hadded : Moment.added ⟨s, .step (.call call), s'⟩ = new := Moment.added_eq hgrows
    rw [History.addedBy_concat, Moment.isStepOf_self, if_pos rfl, hadded]
    exact hstored
  · intro h s s' a call stage _ _ _ hstep _ _ ih
    rw [History.addedBy_concat, hstep, if_neg Bool.false_ne_true, List.append_nil]
    exact ih

end EventJournal
