import EventJournal.Proofs.Order.Commands

/-!
# Commands that go on alone

A call that has accepted its command gets past its save when it takes its steps without anybody in
between, in a system whose saves need no permits.

* `System.Settles`, that a call gets past its save;
* `Ledger.CallStep.of_saving`, `Ledger.CallStep.of_held`: what the steps before come to.

The main statement is `Run.settles`.
-/

namespace EventJournal

namespace Call.Stage

/-- Whether a call is past its save. -/
def IsSettled : Call.Stage → Prop
  | .saved .. | .finished _ => True
  | _ => False

/-- Whether a call is to commit events. -/
def IsPending : Call.Stage → Prop
  | .queued _ | .entered _ | .held .. | .saving .. => True
  | _ => False

theorem IsSettled.not_isPending {stage : Call.Stage} (h : stage.IsSettled) : ¬ stage.IsPending := by
  cases stage with
  | saved | finished => exact id
  | _ => exact h.elim

end Call.Stage

namespace History

variable {h : History} {call : Nat}

/-- The steps of a call do not interfere with the storage. -/
theorem undisturbed_of_alone (alone : ∀ m ∈ h, m.action = .step (.call call)) : h.Undisturbed := by
  intro m hm
  rw [alone m hm]
  rfl

/-- The steps of a call bring no events into the system. -/
theorem not_brings_of_alone (alone : ∀ m ∈ h, m.action = .step (.call call)) (e : Event) :
    ¬ h.Brings e := by
  rintro ⟨m, hm, he⟩
  rw [alone m hm] at he
  simp [Action.events] at he

theorem Undisturbed.step (undisturbed : h.Undisturbed) (s s' : System) :
    Undisturbed (h ++ [⟨s, .step (.call call), s'⟩]) :=
  undisturbed_concat.2 ⟨undisturbed, rfl⟩

theorem stepsOf_of_alone (alone : ∀ m ∈ h, m.action = .step (.call call)) : h.stepsOf call = h := by
  refine List.filter_eq_self.2 fun m hm => ?_
  rw [Moment.isStepOf, alone m hm]
  exact decide_eq_true rfl

end History

/-- A call stands where the ledger says. -/
theorem System.get?_of_ledger {s : System} {l : Ledger} {calls : Table Nat Call.Stage} {call : Nat}
    {stage : Call.Stage} (hl : s.ledger = l) (hcalls : l.calls = calls.set call stage) :
    s.calls.get? call = some stage := by
  subst hl
  exact (congrArg (·.get? call) hcalls).trans (Table.get?_set_self ..)

/-- A call that goes on alone gets past its save. -/
def System.Settles (s : System) (call : Nat) : Prop :=
  ∃ n s' stage, s.run? (List.replicate n (.call call)) = some s' ∧
    s'.calls.get? call = some stage ∧ stage.IsSettled

namespace System.Settles

variable {s s' : System} {call : Nat} {stage : Call.Stage}

theorem of_settled (hget : s.calls.get? call = some stage) (settled : stage.IsSettled) :
    s.Settles call :=
  ⟨0, s, stage, rfl, hget, settled⟩

theorem of_step (hstep : s.stepCall? call = some s') (settles : s'.Settles call) :
    s.Settles call := by
  obtain ⟨n, last, stage, hrun, hget, settled⟩ := settles
  refine ⟨n + 1, last, stage, ?_, hget, settled⟩
  rw [List.replicate_succ, run?]
  simp only [step?, hstep, hrun]

end System.Settles

namespace Ledger

variable {l l' : Ledger} {call : Nat}

/-- A save gets nearer to its end, or ends. -/
theorem CallStep.of_saving {purpose : Call.Purpose} {envelopes : List Envelope} {since : Time}
    {save : Saving Transaction}
    (h : l.CallStep call (.saving purpose envelopes since save) l') :
    (∃ save', l'.calls = l.calls.set call (.saving purpose envelopes since save') ∧
        save'.size < save.size) ∨
      ∃ stage', l'.calls = l.calls.set call stage' ∧ stage'.IsSettled := by
  cases h with
  | @asked _ _ _ _ save' storage step going =>
    refine .inl ⟨save', rfl, ?_⟩
    have hdone : save.isDone = false := by
      cases save with
      | done result =>
        obtain ⟨rfl, -⟩ := Prod.mk.inj step
        simp [Saving.isDone] at going
      | _ => rfl
    have hlt := Saving.size_step_lt Watched.backend l.options l.storage hdone
    rwa [step] at hlt
  | stored step completed => cases completed <;> exact .inr ⟨_, rfl, trivial⟩
  | failed step failed => cases failed <;> exact .inr ⟨_, rfl, trivial⟩

/-- A call that has events to save starts the save, or ends. -/
theorem CallStep.of_held {purpose : Call.Purpose} {events : List Event}
    (h : l.CallStep call (.held purpose events) l') :
    (∃ purpose' envelopes since save,
        l'.calls = l.calls.set call (.saving purpose' envelopes since save)) ∨
      ∃ stage', l'.calls = l.calls.set call stage' ∧ stage'.IsSettled := by
  cases h with
  | savedNothing => exact .inr ⟨_, rfl, trivial⟩
  | unprepared _ _ failed => cases failed <;> exact .inr ⟨_, rfl, trivial⟩
  | prepared => exact .inl ⟨_, _, _, _, rfl⟩

end Ledger

namespace Run

variable {s₀ s s' : System} {h : History} {call : Nat} {stage : Call.Stage}

theorem step (run : Run s₀ h s) (hstep : s.stepCall? call = some s') :
    Run s₀ (h ++ [⟨s, .step (.call call), s'⟩]) s' :=
  run.snoc (by simp [Action.unit?]) hstep

theorem callStep (run : Run s₀ h s) (fresh : s₀.Fresh) (hget : s.calls.get? call = some stage)
    (hstep : s.stepCall? call = some s') : s.ledger.CallStep call stage s'.ledger := by
  obtain ⟨stage', hget', callStep⟩ := System.ledger_stepCall? (run.tidy fresh).1 hstep
  obtain rfl := Option.some.inj (hget.symm.trans hget')
  exact callStep

/-- A save that goes on alone comes to its end. -/
theorem settles_of_saving (run : Run s₀ h s) (fresh : s₀.Fresh) {purpose : Call.Purpose}
    {envelopes : List Envelope} {since : Time} {save : Saving Transaction}
    (hget : s.calls.get? call = some (.saving purpose envelopes since save)) : s.Settles call := by
  induction hsize : save.size using Nat.strongRecOn generalizing h s save with
  | ind size ih =>
    have hstep : s.stepCall? call = some (s.advanceSave call purpose envelopes since save) := by
      simp only [System.stepCall?, hget]
    refine .of_step hstep ?_
    rcases (run.callStep fresh hget hstep).of_saving with
      ⟨save', hcalls, hlt⟩ | ⟨next, hcalls, settled⟩
    · exact ih save'.size (hsize ▸ hlt) (run.step hstep) (Ledger.get?_of_set hcalls) rfl
    · exact .of_settled (Ledger.get?_of_set hcalls) settled

theorem settles_of_held (run : Run s₀ h s) (fresh : s₀.Fresh) (free : s.saveGate = none)
    {purpose : Call.Purpose} {events : List Event}
    (hget : s.calls.get? call = some (.held purpose events)) : s.Settles call := by
  have hstep : s.stepCall? call = some (s.startSave call purpose events) := by
    simp only [System.stepCall?, hget, System.admit?, free]
  refine .of_step hstep ?_
  rcases (run.callStep fresh hget hstep).of_held with ⟨_, _, _, _, hcalls⟩ | ⟨next, hcalls, settled⟩
  · exact (run.step hstep).settles_of_saving fresh (Ledger.get?_of_set hcalls)
  · exact .of_settled (Ledger.get?_of_set hcalls) settled

variable {orderId : String} {command : Order.Command}

/-- The unit of work of a command holds its event, so there is something to save. -/
theorem settles_of_entered (run : Run s₀ h s) (fresh : s₀.Fresh) (undisturbed : h.Undisturbed)
    (free : s.saveGate = none) (asks : h.Asks call (.handle orderId command)) {unit : Nat}
    (hget : s.calls.get? call = some (.entered unit)) : s.Settles call := by
  obtain ⟨u, ⟨_, _, e, -, hevents⟩, owns⟩ := run.handles fresh undisturbed hget asks
  have hu : s.units.get? unit = some u := owns.get
  have hbegin : u.begin = .ok ([e.toEvent], { u with phase := .committing }) := by
    simp [UnitOfWork.begin, owns.phase, hevents]
  have hstep : s.stepCall? call = some ((s.putUnit unit { u with phase := .committing }).submit
      call (.commit unit) [e.toEvent]) := by
    simp only [System.stepCall?, hget, System.beginCommit, hu, hbegin]
  refine .of_step hstep ((run.step hstep).settles_of_held fresh ?_ (Table.get?_set_self ..))
  show s.saveGate.map _ = none
  rw [free]
  rfl

/-- A call that has accepted its command gets past its save when it goes on alone. -/
theorem settles (run : Run s₀ h s) (fresh : s₀.Fresh) (undisturbed : h.Undisturbed)
    (free : s.saveGate = none) (asks : h.Asks call (.handle orderId command))
    (hget : s.calls.get? call = some stage) (pending : stage.IsPending) : s.Settles call := by
  cases stage with
  | queued unit =>
    -- nobody else has come to the unit of work, so its gate is open
    obtain ⟨u, -, owns, admitted⟩ := run.handles fresh undisturbed hget asks
    have hu : s.units.get? unit = some u := owns.get
    obtain ⟨gate, hpass⟩ : ∃ gate, u.gate.pass? call = some gate :=
      ⟨_, Gate.pass?_eq_some_iff.2 ⟨admitted, rfl⟩⟩
    have hstep : s.stepCall? call =
        some ((s.putUnit unit { u with gate }).putCall call (.entered unit)) := by
      simp only [System.stepCall?, hget, System.enter?, hu, hpass]
    exact .of_step hstep ((run.step hstep).settles_of_entered fresh (undisturbed.step _ _) free
      (asks.append _) (Table.get?_set_self ..))
  | entered unit => exact run.settles_of_entered fresh undisturbed free asks hget
  | held purpose events => exact run.settles_of_held fresh free hget
  | saving purpose envelopes since save => exact run.settles_of_saving fresh hget
  | _ => exact pending.elim

/-- The steps of a call, one after another, are a run. -/
theorem replicate (run : Run s₀ h s) {n : Nat}
    (hrun : s.run? (List.replicate n (.call call)) = some s') :
    ∃ steps, Run s₀ (h ++ steps) s' ∧ ∀ m ∈ steps, m.action = .step (.call call) := by
  induction n generalizing h s with
  | zero =>
    obtain rfl := Option.some.inj hrun
    exact ⟨[], by rwa [List.append_nil], by simp⟩
  | succ n ih =>
    rw [List.replicate_succ, System.run?] at hrun
    split at hrun
    · simp at hrun
    · next middle hstep =>
      obtain ⟨steps, hlast, hsteps⟩ := ih (run.step hstep) hrun
      refine ⟨⟨s, .step (.call call), middle⟩ :: steps, by simpa using hlast, fun m hm => ?_⟩
      rcases List.mem_cons.1 hm with rfl | hm
      · rfl
      · exact hsteps m hm

end Run

end EventJournal
