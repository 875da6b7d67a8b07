import EventJournal.Proofs.System.Run

/-!
# The outlets of a system

The dispatcher and the queue, through which saved events reach the handlers. The steps of a call
leave them alone, but for the steps of a dispatch and the one that hands the events of a commit
over.

* `System.outlets`;
* `Call.Stage.isHanding`, the stages whose steps may touch them;
* `outlets_stepCall?`, that the others do not;
* `handOver_synchronous`, `outlets_handOver_detached`: what the hand-over does.
-/

namespace EventJournal

/-- The dispatcher and the queue of a system. -/
def System.outlets (s : System) : Dispatcher × Option (DispatchQueue Batch Dispatching) :=
  (s.dispatcher, s.queue)

/-- Whether a call is about to hand events over, or dispatches some. -/
def Call.Stage.isHanding : Call.Stage → Bool
  | .saved .. | .dispatching .. => true
  | _ => false

namespace System

variable (s : System)

@[simp] theorem outlets_wake (agent : Agent) : (s.wake agent).outlets = s.outlets := by
  unfold wake
  split <;> rfl

@[simp] theorem outlets_wakeAll (agents : List Agent) :
    (s.wakeAll agents).outlets = s.outlets := by
  induction agents generalizing s with
  | nil => rfl
  | cons agent rest ih => exact (ih (s.wake agent)).trans (outlets_wake s agent)

@[simp] theorem outlets_wakeAwaiting (tickets : List Nat) :
    (s.wakeAwaiting tickets).outlets = s.outlets := by
  induction tickets generalizing s with
  | nil => rfl
  | cons ticket rest ih =>
    exact (ih (s.wakeAll (s.awaiting ticket))).trans (outlets_wakeAll s (s.awaiting ticket))

theorem outlets_start (stage : Call.Stage) : (s.start stage).2.outlets = s.outlets :=
  outlets_wake ..

theorem outlets_leaveUnit (unit : Nat) : (s.leaveUnit unit).outlets = s.outlets := by
  unfold leaveUnit
  split
  · rfl
  · exact outlets_wakeAll ..

theorem outlets_endCommit (call unit : Nat) (ending : Option UnitOfWork.Ending)
    (outcome : Call.Outcome) : (s.endCommit call unit ending outcome).outlets = s.outlets := by
  cases ending with
  | none => exact outlets_leaveUnit ..
  | some ending => exact outlets_leaveUnit (s.count (·.recordCommit ending.label)) unit

theorem outlets_failSave (call : Nat) (purpose : Call.Purpose) (e : StoreError) :
    (s.failSave call purpose e).outlets = s.outlets := by
  cases purpose with
  | itself => rfl
  | commit unit =>
    exact outlets_endCommit { s with units := s.units.modify unit UnitOfWork.reopen } ..

theorem outlets_completeSave (call : Nat) (purpose : Call.Purpose) (envelopes : List Envelope) :
    (s.completeSave call purpose envelopes).outlets = s.outlets := by
  cases purpose <;> rfl

theorem outlets_startSave (call : Nat) (purpose : Call.Purpose) (events : List Event) :
    (s.startSave call purpose events).outlets = s.outlets := by
  unfold startSave
  split
  · exact outlets_completeSave ..
  · dsimp only
    split
    · exact outlets_failSave { s with ids := _ } ..
    · rfl

theorem outlets_advanceSave (call : Nat) (purpose : Call.Purpose) (envelopes : List Envelope)
    (since : Time) (save : Saving Transaction) :
    (s.advanceSave call purpose envelopes since save).outlets = s.outlets := by
  unfold advanceSave
  dsimp only
  split
  · exact outlets_completeSave { s with storage := _, metrics := _, saves := _ } ..
  · exact outlets_failSave { s with storage := _, metrics := _ } ..
  · rfl

theorem outlets_beginCommit (call unit : Nat) : (s.beginCommit call unit).outlets = s.outlets := by
  unfold beginCommit
  split
  · rfl
  · split
    · exact outlets_endCommit ..
    · next u _ => exact outlets_endCommit (s.putUnit unit u) ..
    · rfl

theorem outlets_loadForCommand (call : Nat) (orderId : String) (command : Order.Command) :
    (s.loadForCommand call orderId command).outlets = s.outlets := by
  have hload : (s.loadOrder orderId).2.outlets = s.outlets := rfl
  unfold loadForCommand
  split
  · next heq => exact (congrArg (·.2.outlets) heq).symm.trans hload
  · next heq => exact (congrArg (·.2.outlets) heq).symm.trans hload

theorem outlets_reload (call : Nat) (aggregateId : String) :
    (s.reload call aggregateId).outlets = s.outlets := by
  have hfetch : (s.fetch aggregateId Numeral.minInt64).2.outlets = s.outlets := rfl
  unfold reload
  split
  · next heq => exact (congrArg (·.2.outlets) heq).symm.trans hfetch
  · next heq => exact (congrArg (·.2.outlets) heq).symm.trans hfetch

variable {s}

/-- Calls that do not hand events over leave the outlets alone. -/
theorem outlets_stepCall? {s' : System} {call : Nat} {stage : Call.Stage}
    (h : s.stepCall? call = some s') (hget : s.calls.get? call = some stage)
    (plain : stage.isHanding = false) : s'.outlets = s.outlets := by
  simp only [stepCall?, hget] at h
  cases stage with
  | loading orderId command =>
    obtain rfl := Option.some.inj h
    exact outlets_loadForCommand ..
  | loaded orderId command order =>
    obtain rfl := Option.some.inj h
    rfl
  | deciding orderId command order now =>
    obtain rfl := Option.some.inj h
    unfold decideCommand
    split <;> rfl
  | queued unit =>
    simp only [enter?] at h
    split at h
    · simp at h
    · split at h
      · simp at h
      · obtain rfl := Option.some.inj h
        rfl
  | entered unit =>
    obtain rfl := Option.some.inj h
    exact outlets_beginCommit ..
  | held purpose events =>
    simp only [admit?] at h
    split at h
    · obtain rfl := Option.some.inj h
      exact outlets_startSave ..
    · split at h
      · simp at h
      · next gate _ =>
        obtain rfl := Option.some.inj h
        exact outlets_startSave { s with saveGate := some gate } ..
  | saving purpose envelopes since save =>
    obtain rfl := Option.some.inj h
    exact outlets_advanceSave ..
  | saved => simp [Call.Stage.isHanding] at plain
  | dispatching => simp [Call.Stage.isHanding] at plain
  | reloading aggregateId =>
    obtain rfl := Option.some.inj h
    exact outlets_reload ..
  | draining =>
    simp only [drain?] at h
    split at h
    · split at h
      · obtain rfl := Option.some.inj h
        rfl
      · simp at h
    · obtain rfl := Option.some.inj h
      rfl
  | finished outcome => simp at h

/-- The events of a synchronous commit are handed over to a dispatch. -/
theorem handOver_synchronous {call unit : Nat} {u : UnitOfWork} {envelopes : List Envelope}
    (hget : s.units.get? unit = some u) (hmode : u.mode = .synchronous) :
    s.handOver call unit envelopes =
      s.putCall call (.dispatching (some (unit, envelopes)) (.starting envelopes)) := by
  simp only [handOver, hget, hmode]

/-- The events of a detached commit are put into the queue, once, if it takes them. -/
theorem outlets_handOver_detached {call unit : Nat} {u : UnitOfWork} {envelopes : List Envelope}
    (hget : s.units.get? unit = some u) (hmode : u.mode = .detached) :
    (s.handOver call unit envelopes).outlets =
      (s.dispatcher, (s.queue.bind (·.enqueue? ⟨u.id, envelopes⟩)).or s.queue) := by
  simp only [handOver, hget, hmode]
  split
  · next queue hqueue =>
    rw [outlets_endCommit, outlets_wake, hqueue]
    rfl
  · next hqueue =>
    rw [outlets_endCommit, hqueue]
    rfl

end System

end EventJournal
