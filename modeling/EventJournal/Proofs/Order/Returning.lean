import EventJournal.Proofs.Order.Settling

/-!
# Commands that come to their end

A call that carries out a command comes to its end when it takes its steps without anybody in
between, unless it has to wait for the verdict of a handler.

* `System.Returns`, that a call ends or waits for a verdict;
* `System.returns_of_dispatching`, that a dispatch does so;
* `Run.isLive`, that no call stands with a dispatch that has ended.

The main statement is `Run.returns`.
-/

namespace EventJournal

/-- A call waits for the verdict on a delivery. -/
def System.AwaitsVerdict (s : System) (call : Nat) : Prop :=
  ∃ commit a rest failures,
    s.calls.get? call = some (.dispatching commit (.awaiting (a :: rest) failures)) ∧
      s.dispatcher.transport.verdict? a.receipt.ticket = none

/-- A call that goes on alone ends, or comes to wait for the verdict on a delivery. -/
def System.Returns (s : System) (call : Nat) : Prop :=
  ∃ n s', s.run? (List.replicate n (.call call)) = some s' ∧
    ((∃ outcome, s'.outcome? call = some outcome) ∨ s'.AwaitsVerdict call)

/-- A call does not stand with a dispatch that has ended. -/
def Call.Stage.IsLive : Call.Stage → Prop
  | .dispatching _ (.done _) => False
  | _ => True

namespace System

variable {s s' : System} {call : Nat}

theorem run?_replicate_add {n m : Nat} (hrun : s.run? (List.replicate n (.call call)) = some s') :
    s.run? (List.replicate (n + m) (.call call)) = s'.run? (List.replicate m (.call call)) := by
  induction n generalizing s with
  | zero =>
    obtain rfl := Option.some.inj hrun
    rw [Nat.zero_add]
  | succ n ih =>
    rw [List.replicate_succ, run?] at hrun
    rw [Nat.succ_add, List.replicate_succ, run?]
    split at hrun
    · simp at hrun
    · exact ih hrun

namespace Returns

theorem of_finished {outcome : Call.Outcome}
    (hget : s.calls.get? call = some (.finished outcome)) : s.Returns call :=
  ⟨0, s, rfl, .inl ⟨outcome, outcome?_eq_some_iff.2 hget⟩⟩

theorem of_run {n : Nat} (hrun : s.run? (List.replicate n (.call call)) = some s')
    (returns : s'.Returns call) : s.Returns call := by
  obtain ⟨m, last, hlast, hends⟩ := returns
  exact ⟨n + m, last, (run?_replicate_add hrun).trans hlast, hends⟩

theorem of_step (hstep : s.stepCall? call = some s') (returns : s'.Returns call) :
    s.Returns call := by
  refine of_run (n := 1) ?_ returns
  simp only [List.replicate_one, run?, step?, hstep]

end Returns

/-! ### Dispatches -/

variable {commit : Option (Nat × List Envelope)} {dispatch : Dispatching}

/-- The dispatch of a call takes a step: it goes on, or the call ends with it. -/
theorem exists_advanceDispatch? {advance : Dispatching.Advance}
    (hget : s.calls.get? call = some (.dispatching commit dispatch))
    (hadvance : dispatch.step? s.dispatcher = some advance) :
    ∃ s', s.stepCall? call = some s' ∧
      ((∃ outcome, s'.calls.get? call = some (.finished outcome)) ∨
        (Call.Stage.dispatching commit advance.next).IsLive ∧
          s'.calls.get? call = some (.dispatching commit advance.next)) := by
  simp only [stepCall?, hget, advanceDispatch?, hadvance]
  split
  · next result _ =>
    refine ⟨_, rfl, .inl ?_⟩
    unfold endDispatch
    split
    · split <;> exact ⟨_, Table.get?_set_self ..⟩
    · exact ⟨_, Table.get?_set_self ..⟩
  · next ne =>
    refine ⟨_, rfl, .inr ⟨?_, Table.get?_set_self ..⟩⟩
    cases hnext : advance.next with
    | done result => exact (ne result hnext).elim
    | _ => trivial

/-- A dispatch returns if it waits for a verdict or does so from where its step leads. -/
theorem returns_of_advance (hget : s.calls.get? call = some (.dispatching commit dispatch))
    (waits : dispatch.step? s.dispatcher = none → s.AwaitsVerdict call)
    (later : ∀ {advance : Dispatching.Advance} {s' : System},
      dispatch.step? s.dispatcher = some advance →
      (Call.Stage.dispatching commit advance.next).IsLive →
      s'.calls.get? call = some (.dispatching commit advance.next) → s'.Returns call) :
    s.Returns call := by
  cases hadvance : dispatch.step? s.dispatcher with
  | none => exact ⟨0, s, rfl, .inr (waits hadvance)⟩
  | some advance =>
    obtain ⟨s', hstep, ⟨outcome, hfinished⟩ | ⟨live, hnext⟩⟩ :=
      exists_advanceDispatch? hget hadvance
    · exact .of_step hstep (.of_finished hfinished)
    · exact .of_step hstep (later hadvance live hnext)

theorem returns_of_awaiting {rest : List Awaited} {failures : List HandlerFailure}
    (hget : s.calls.get? call = some (.dispatching commit (.awaiting rest failures))) :
    s.Returns call := by
  induction rest generalizing s failures with
  | nil =>
    refine returns_of_advance hget (by simp [Dispatching.step?]) fun hadvance live _ => ?_
    obtain rfl := Option.some.inj hadvance
    exact live.elim
  | cons a rest ih =>
    refine returns_of_advance hget (fun hnone => ?_) fun hadvance _ hnext => ?_
    · refine ⟨commit, a, rest, failures, hget, ?_⟩
      simp only [Dispatching.step?] at hnone
      split at hnone
      · assumption
      · simp at hnone
      · simp at hnone
    · simp only [Dispatching.step?] at hadvance
      split at hadvance
      · simp at hadvance
      · obtain rfl := Option.some.inj hadvance
        exact ih hnext
      · obtain rfl := Option.some.inj hadvance
        exact ih hnext

theorem returns_of_publishing {rest : List Posting} {awaited : List Awaited}
    (hget : s.calls.get? call = some (.dispatching commit (.publishing rest awaited))) :
    s.Returns call := by
  induction rest generalizing s awaited with
  | nil =>
    refine returns_of_advance hget (by simp [Dispatching.step?]) fun hadvance _ hnext => ?_
    obtain rfl := Option.some.inj hadvance
    exact returns_of_awaiting hnext
  | cons p rest ih =>
    refine returns_of_advance hget (fun hnone => ?_) fun hadvance live hnext => ?_
    · simp only [Dispatching.step?] at hnone
      split at hnone <;> simp at hnone
    · simp only [Dispatching.step?] at hadvance
      split at hadvance
      · obtain rfl := Option.some.inj hadvance
        exact live.elim
      · obtain rfl := Option.some.inj hadvance
        exact ih hnext

theorem returns_of_starting {envelopes : List Envelope}
    (hget : s.calls.get? call = some (.dispatching commit (.starting envelopes))) :
    s.Returns call := by
  refine returns_of_advance hget (fun hnone => ?_) fun hadvance live hnext => ?_
  · simp only [Dispatching.step?] at hnone
    split at hnone
    · simp at hnone
    · split at hnone <;> simp at hnone
  · simp only [Dispatching.step?] at hadvance
    split at hadvance
    · obtain rfl := Option.some.inj hadvance
      exact live.elim
    · split at hadvance
      · obtain rfl := Option.some.inj hadvance
        exact live.elim
      · obtain rfl := Option.some.inj hadvance
        exact returns_of_publishing hnext

/-- A dispatch that goes on alone ends, or comes to wait for a verdict. -/
theorem returns_of_dispatching
    (hget : s.calls.get? call = some (.dispatching commit dispatch))
    (live : (Call.Stage.dispatching commit dispatch).IsLive) : s.Returns call := by
  cases dispatch with
  | starting envelopes => exact returns_of_starting hget
  | publishing rest awaited => exact returns_of_publishing hget
  | awaiting rest failures => exact returns_of_awaiting hget
  | done result => exact live.elim

/-! ### Commands -/

theorem saveGate_loadForCommand (s : System) (call : Nat) (orderId : String)
    (command : Order.Command) :
    (s.loadForCommand call orderId command).saveGate = s.saveGate := by
  have hload : (s.loadOrder orderId).2.saveGate = s.saveGate := rfl
  unfold loadForCommand
  split
  · next heq => exact (congrArg (·.2.saveGate) heq).symm.trans hload
  · next heq => exact (congrArg (·.2.saveGate) heq).symm.trans hload

theorem saveGate_decideCommand (s : System) (call : Nat) (orderId : String)
    (command : Order.Command) (order : Option Order) (now : Time) :
    (s.decideCommand call orderId command order now).saveGate = s.saveGate := by
  unfold decideCommand
  split <;> rfl

end System

namespace Run

variable {s₀ s s' : System} {h : History} {call : Nat} {stage : Call.Stage} {orderId : String}
  {command : Order.Command}

/-- In a run no call stands with a dispatch that has ended. -/
theorem isLive (run : Run s₀ h s) (fresh : s₀.Fresh) (hget : s.calls.get? call = some stage) :
    stage.IsLive := by
  refine run.stage_induction (P := fun _ _ _ stage => stage.IsLive) fresh ?_ ?_ ?_ hget
  · intro h s s' a stage _ _ _ begins _ _
    rcases begins with starts | ⟨unit, -, rfl⟩
    · cases starts <;> trivial
    · trivial
  · intro h s s' call stage stage' _ hstep hget callStep hget' _
    generalize hl : s'.ledger = l' at callStep
    have hstage : ∀ {next : Call.Stage}, l'.calls = s.ledger.calls.set call next →
        next.IsLive → stage'.IsLive := by
      intro next hcalls live
      exact Option.some.inj ((System.get?_of_ledger hl hcalls).symm.trans hget') ▸ live
    cases callStep with
    | @tells commit dispatch next =>
      -- the change of the ledger does not say that a dispatch that has ended ends its call
      cases hadvance : dispatch.step? s.dispatcher with
      | none => simp [System.stepCall?, hget, System.advanceDispatch?, hadvance] at hstep
      | some advance =>
        obtain ⟨last, hlast, hends⟩ := System.exists_advanceDispatch? hget hadvance
        obtain rfl := Option.some.inj (hstep.symm.trans hlast)
        rcases hends with ⟨outcome, hfinished⟩ | ⟨live, hnext⟩
        · obtain rfl := Option.some.inj (hfinished.symm.trans hget')
          trivial
        · obtain rfl := Option.some.inj (hnext.symm.trans hget')
          exact live
    | unprepared _ _ failed => cases failed <;> exact hstage rfl trivial
    | stored _ completed => cases completed <;> exact hstage rfl trivial
    | failed _ failed => cases failed <;> exact hstage rfl trivial
    | _ => exact hstage rfl trivial
  · intro h s s' a call stage _ _ _ _ _ _ live
    exact live

/-- A call that is past its save hands its events over. -/
theorem returns_of_settled (run : Run s₀ h s) (fresh : s₀.Fresh)
    (hget : s.calls.get? call = some stage) (settled : stage.IsSettled) : s.Returns call := by
  cases stage with
  | saved unit envelopes =>
    have hstep : s.stepCall? call = some (s.handOver call unit envelopes) := by
      simp only [System.stepCall?, hget]
    have callStep := run.callStep fresh hget hstep
    refine .of_step hstep ?_
    generalize s.handOver call unit envelopes = s' at callStep
    generalize hl : s'.ledger = l' at callStep
    cases callStep with
    | dispatches => exact System.returns_of_starting (System.get?_of_ledger hl rfl)
    | enqueues => exact .of_finished (System.get?_of_ledger hl rfl)
  | finished outcome => exact .of_finished hget
  | _ => exact settled.elim

/-- A call that has accepted its command saves its event and hands it over. -/
theorem returns_of_pending (run : Run s₀ h s) (fresh : s₀.Fresh) (undisturbed : h.Undisturbed)
    (free : s.saveGate = none) (asks : h.Asks call (.handle orderId command))
    (hget : s.calls.get? call = some stage) (pending : stage.IsPending) : s.Returns call := by
  obtain ⟨n, s', stage', hrun, hget', settled⟩ :=
    run.settles fresh undisturbed free asks hget pending
  obtain ⟨steps, run', -⟩ := run.replicate hrun
  exact .of_run hrun (run'.returns_of_settled fresh hget' settled)

theorem returns_of_deciding {id : String} {asked : Order.Command} {order : Option Order}
    {now : Time} (run : Run s₀ h s) (fresh : s₀.Fresh) (undisturbed : h.Undisturbed)
    (free : s.saveGate = none) (asks : h.Asks call (.handle orderId command))
    (hget : s.calls.get? call = some (.deciding id asked order now)) : s.Returns call := by
  have hstep : s.stepCall? call = some (s.decideCommand call id asked order now) := by
    simp only [System.stepCall?, hget]
  have callStep := run.callStep fresh hget hstep
  have run' := run.step hstep
  have free' : (s.decideCommand call id asked order now).saveGate = none :=
    (System.saveGate_decideCommand ..).trans free
  refine .of_step hstep ?_
  generalize s.decideCommand call id asked order now = s' at *
  generalize hl : s'.ledger = l' at callStep
  cases callStep with
  | ruledOut => exact .of_finished (System.get?_of_ledger hl rfl)
  | decided =>
    exact run'.returns_of_pending fresh (undisturbed.step _ _) free' (asks.append _)
      (System.get?_of_ledger hl rfl) trivial

theorem returns_of_loaded {id : String} {asked : Order.Command} {order : Option Order}
    (run : Run s₀ h s) (fresh : s₀.Fresh) (undisturbed : h.Undisturbed)
    (free : s.saveGate = none) (asks : h.Asks call (.handle orderId command))
    (hget : s.calls.get? call = some (.loaded id asked order)) : s.Returns call := by
  have hstep : s.stepCall? call = some (s.timeCommand call id asked order) := by
    simp only [System.stepCall?, hget]
  have run' := run.step hstep
  exact .of_step hstep (run'.returns_of_deciding fresh (undisturbed.step _ _) free (asks.append _)
    (Table.get?_set_self ..))

/-- In a system whose saves need no permits, a call that carries out a command ends when it goes on
alone, or it comes to wait for the verdict of a handler. -/
theorem returns (run : Run s₀ h s) (fresh : s₀.Fresh) (undisturbed : h.Undisturbed)
    (free : s.saveGate = none) (asks : h.Asks call (.handle orderId command))
    (hget : s.calls.get? call = some stage) : s.Returns call := by
  have handles := run.handles fresh undisturbed hget asks
  cases stage with
  | loading id asked =>
    have hstep : s.stepCall? call = some (s.loadForCommand call id asked) := by
      simp only [System.stepCall?, hget]
    have callStep := run.callStep fresh hget hstep
    have run' := run.step hstep
    have free' : (s.loadForCommand call id asked).saveGate = none :=
      (System.saveGate_loadForCommand ..).trans free
    refine .of_step hstep ?_
    generalize s.loadForCommand call id asked = s' at *
    generalize hl : s'.ledger = l' at callStep
    cases callStep with
    | loaded =>
      exact run'.returns_of_loaded fresh (undisturbed.step _ _) free' (asks.append _)
        (System.get?_of_ledger hl rfl)
    | unloaded => exact .of_finished (System.get?_of_ledger hl rfl)
    | unreplayed => exact .of_finished (System.get?_of_ledger hl rfl)
  | loaded => exact run.returns_of_loaded fresh undisturbed free asks hget
  | deciding => exact run.returns_of_deciding fresh undisturbed free asks hget
  | queued => exact run.returns_of_pending fresh undisturbed free asks hget trivial
  | entered => exact run.returns_of_pending fresh undisturbed free asks hget trivial
  | held => exact run.returns_of_pending fresh undisturbed free asks hget trivial
  | saving => exact run.returns_of_pending fresh undisturbed free asks hget trivial
  | saved => exact run.returns_of_settled fresh hget trivial
  | dispatching => exact System.returns_of_dispatching hget (run.isLive fresh hget)
  | reloading => exact handles.elim
  | draining => exact handles.elim
  | finished => exact .of_finished hget

end Run

end EventJournal
