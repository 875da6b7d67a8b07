import EventJournal.Proofs.System.Incidents

/-!
# What a system counts

Saves, commits, dispatches and workers are counted in different places, each when it ends or hands
something over. Taken together the counts grow by what happens in a moment, and by nothing else.

* `Metrics.Counts`, that counts have grown by some incidents;
* `System.Adds`, that a system has counted some incidents on its way from one state to another;
* `System.Passes`, what a call adds in a step in which it dispatches nothing.

The main statements are `System.adds_of_perform`, for one action, and `Run.counts`.
-/

namespace EventJournal

open UnitOfWork (Ending)

/-- Counts have grown by some incidents. -/
structure Metrics.Counts (i : Incidents) (c c' : Metrics) : Prop where
  persisted : c'.persisted = c.persisted + i.saved.flatten.length
  saveFailures : c'.saveFailures = c.saveFailures + i.lost.length
  samples : c'.saveSeconds.length = c.saveSeconds.length + (i.saved.length + i.lost.length)
  commits : ∀ label, Tally.count c'.commits label =
    Tally.count c.commits label + (i.ended.map Ending.label).count label
  dispatched : ∀ type, Tally.count c'.dispatched type =
    Tally.count c.dispatched type + i.announced.count type
  handlerFailures : ∀ handler, Tally.count c'.handlerFailures handler =
    Tally.count c.handlerFailures handler + i.blamed.count handler

/-- One more of something, as a list counts it. -/
theorem Tally.count_increment_eq (t : Tally) (label other : String) :
    count (increment t label) other = count t other + [label].count other := by
  rw [count_increment]
  by_cases h : other = label
  · simp [h]
  · simp [h, Ne.symm h]

namespace Metrics.Counts

variable {c c' c'' : Metrics} {i j : Incidents}

theorem nothing (c : Metrics) : c.Counts {} c := by constructor <;> simp

theorem save (c : Metrics) (envelopes : List Envelope) (seconds : Binary64) :
    Counts { saved := [envelopes] } c (c.recordSave envelopes.length seconds true) := by
  constructor <;> simp [recordSave]

theorem loss (c : Metrics) (envelopes : List Envelope) (seconds : Binary64) :
    Counts { lost := [envelopes] } c (c.recordSave envelopes.length seconds false) := by
  constructor <;> simp [recordSave]

theorem commit (c : Metrics) (ending : Ending) :
    Counts { ended := [ending] } c (c.recordCommit ending.label) := by
  constructor <;> simp [recordCommit, Tally.count_increment_eq]

theorem dispatch (c : Metrics) (type : String) :
    Counts { announced := [type] } c (c.recordDispatch type) := by
  constructor <;> simp [recordDispatch, Tally.count_increment_eq]

theorem failure (c : Metrics) (handler : String) :
    Counts { blamed := [handler] } c (c.recordHandlerFailure handler) := by
  constructor <;> simp [recordHandlerFailure, Tally.count_increment_eq]

theorem trans (h : Counts i c c') (h' : Counts j c' c'') : Counts (i ++ j) c c'' := by
  show Counts (i.append j) c c''
  constructor
  case persisted => simp [h'.persisted, h.persisted, Incidents.append, Nat.add_assoc]
  case saveFailures => simp [h'.saveFailures, h.saveFailures, Incidents.append, Nat.add_assoc]
  case samples =>
    rw [h'.samples, h.samples]
    simp only [Incidents.append, List.length_append]
    omega
  case commits => simp [h'.commits, h.commits, Incidents.append, Nat.add_assoc]
  case dispatched => simp [h'.dispatched, h.dispatched, Incidents.append, Nat.add_assoc]
  case handlerFailures =>
    simp [h'.handlerFailures, h.handlerFailures, Incidents.append, Nat.add_assoc]

end Metrics.Counts

/-! ### What a system counts on its way -/

namespace System

/-- A system has counted some incidents on its way from one state to another. -/
def Adds (s : System) (i : Incidents) (s' : System) : Prop :=
  ∀ c, s.metrics = some c → ∃ c', s'.metrics = some c' ∧ Metrics.Counts i c c'

variable {s s' s'' : System} {i j : Incidents} {call unit : Nat}

theorem Adds.of_same (h : s'.metrics = s.metrics) : s.Adds {} s' :=
  fun c hc => ⟨c, h.trans hc, .nothing c⟩

theorem Adds.of_count (record : Metrics → Metrics) (counts : ∀ c, Metrics.Counts i c (record c))
    (h : s'.metrics = s.metrics.map record) : s.Adds i s' := by
  intro c hc
  rw [hc] at h
  exact ⟨record c, h, counts c⟩

theorem Adds.trans (h : s.Adds i s') (h' : s'.Adds j s'') : s.Adds (i ++ j) s'' := by
  intro c hc
  obtain ⟨c', hc', counts⟩ := h c hc
  obtain ⟨c'', hc'', counts'⟩ := h' c' hc'
  exact ⟨c'', hc'', counts.trans counts'⟩

/-- What happens after some incidents, without others. -/
theorem Adds.then_same (h : s.Adds i s') (same : s''.metrics = s'.metrics) : s.Adds i s'' := by
  intro c hc
  obtain ⟨c', hc', counts⟩ := h c hc
  exact ⟨c', same.trans hc', counts⟩

@[simp] theorem metrics_wake (s : System) (agent : Agent) : (s.wake agent).metrics = s.metrics := by
  unfold wake
  split <;> rfl

@[simp] theorem metrics_wakeAll (s : System) (agents : List Agent) :
    (s.wakeAll agents).metrics = s.metrics := by
  induction agents generalizing s with
  | nil => rfl
  | cons agent rest ih => exact (ih (s.wake agent)).trans (metrics_wake s agent)

@[simp] theorem metrics_wakeAwaiting (s : System) (tickets : List Nat) :
    (s.wakeAwaiting tickets).metrics = s.metrics := by
  induction tickets generalizing s with
  | nil => rfl
  | cons ticket rest ih =>
    exact (ih (s.wakeAll (s.awaiting ticket))).trans (metrics_wakeAll s (s.awaiting ticket))

theorem metrics_start (s : System) (stage : Call.Stage) :
    (s.start stage).2.metrics = s.metrics := metrics_wake ..

theorem metrics_leaveUnit (s : System) (unit : Nat) : (s.leaveUnit unit).metrics = s.metrics := by
  unfold leaveUnit
  split
  · rfl
  · exact metrics_wakeAll ..

/-- The end of a commit counts as it has ended. -/
theorem adds_endCommit (s : System) (call unit : Nat) (ending : Option Ending)
    (outcome : Call.Outcome) :
    s.Adds { ended := ending.toList } (s.endCommit call unit ending outcome) := by
  cases ending with
  | none => exact .of_same (metrics_leaveUnit s unit)
  | some ending =>
    exact .of_count (·.recordCommit ending.label) (.commit · ending)
      (metrics_leaveUnit (s.count (·.recordCommit ending.label)) unit)

/-- The failure of a save ends the commit that it is for. -/
theorem adds_failSave (s : System) (call unit : Nat) (e : StoreError) :
    s.Adds { ended := [.storeFailed] } (s.failSave call (.commit unit) e) :=
  adds_endCommit { s with units := s.units.modify unit UnitOfWork.reopen } call unit
    (some .storeFailed) _

/-! ### The steps of calls -/

/-- A call leaves a stage for another, and what that means is counted. -/
def Passes (s : System) (call : Nat) (stage : Call.Stage) (s' : System) : Prop :=
  ∃ stage', s'.calls.get? call = some stage' ∧
    s.Adds
      { saved := stage.saves stage', lost := stage.loses stage', ended := stage.ends stage' } s'

theorem passes_loadForCommand {orderId : String} {command : Order.Command} :
    s.Passes call (.loading orderId command) (s.loadForCommand call orderId command) := by
  have hload : (s.loadOrder orderId).2.metrics = s.metrics := rfl
  unfold loadForCommand
  split
  · next heq =>
    exact ⟨_, get?_putCall .., .of_same ((congrArg (·.2.metrics) heq).symm.trans hload)⟩
  · next heq =>
    exact ⟨_, get?_putCall .., .of_same ((congrArg (·.2.metrics) heq).symm.trans hload)⟩

theorem passes_reload {aggregateId : String} :
    s.Passes call (.reloading aggregateId) (s.reload call aggregateId) := by
  have hfetch : (s.fetch aggregateId Numeral.minInt64).2.metrics = s.metrics := rfl
  unfold reload
  split
  · next heq =>
    exact ⟨_, get?_putCall .., .of_same ((congrArg (·.2.metrics) heq).symm.trans hfetch)⟩
  · next heq =>
    exact ⟨_, get?_putCall .., .of_same ((congrArg (·.2.metrics) heq).symm.trans hfetch)⟩

theorem passes_decideCommand {orderId : String} {command : Order.Command} {order : Option Order}
    {now : Time} : s.Passes call (.deciding orderId command order now)
      (s.decideCommand call orderId command order now) := by
  unfold decideCommand
  split
  · exact ⟨_, get?_putCall .., .of_same rfl⟩
  · exact ⟨_, get?_putCall .., .of_same rfl⟩

theorem passes_beginCommit {u : UnitOfWork} (get : s.units.get? unit = some u) :
    s.Passes call (.entered unit) (s.beginCommit call unit) := by
  simp only [beginCommit, get]
  split
  · exact ⟨_, get?_putCall .., adds_endCommit s call unit none _⟩
  · next u' _ =>
    exact ⟨_, get?_putCall .., adds_endCommit (s.putUnit unit u') call unit (some .empty) _⟩
  · exact ⟨_, get?_putCall .., .of_same rfl⟩

theorem passes_startSave {purpose : Call.Purpose} {events : List Event} :
    s.Passes call (.held purpose events) (s.startSave call purpose events) := by
  unfold startSave
  split
  · cases purpose with
    | itself => exact ⟨_, get?_putCall .., .of_same rfl⟩
    | commit unit => exact ⟨_, get?_putCall .., .of_same rfl⟩
  · dsimp only
    split
    · cases purpose with
      | itself => exact ⟨_, get?_putCall .., .of_same rfl⟩
      | commit unit =>
        exact ⟨_, get?_putCall ..,
          adds_failSave { s with ids := s.ids + events.length } call unit _⟩
    · refine ⟨_, get?_putCall .., ?_⟩
      cases purpose <;> exact .of_same rfl

theorem passes_advanceSave {purpose : Call.Purpose} {envelopes : List Envelope} {since : Time}
    {save : Saving Transaction} :
    s.Passes call (.saving purpose envelopes since save)
      (s.advanceSave call purpose envelopes since save) := by
  unfold advanceSave
  dsimp only
  split
  · have hadds : ∀ t : System, t.metrics = s.metrics.map
        (·.recordSave envelopes.length (s.secondsSince since) true) →
        s.Adds { saved := [envelopes] } t :=
      fun t => Adds.of_count _ (.save · envelopes (s.secondsSince since))
    cases purpose with
    | itself => exact ⟨_, get?_putCall .., hadds _ rfl⟩
    | commit unit => exact ⟨_, get?_putCall .., hadds _ rfl⟩
  · have hadds : ∀ t : System, t.metrics = s.metrics.map
        (·.recordSave envelopes.length (s.secondsSince since) false) →
        s.Adds { lost := [envelopes] } t :=
      fun t => Adds.of_count _ (.loss · envelopes (s.secondsSince since))
    cases purpose with
    | itself => exact ⟨_, get?_putCall .., hadds _ rfl⟩
    | commit unit => exact ⟨_, get?_putCall .., (hadds _ rfl).trans (adds_failSave _ call unit _)⟩
  · refine ⟨_, get?_putCall .., ?_⟩
    cases purpose <;> exact .of_same rfl

theorem passes_handOver {envelopes : List Envelope} :
    s.Passes call (.saved unit envelopes) (s.handOver call unit envelopes) := by
  unfold handOver
  split
  · exact ⟨_, get?_putCall .., .of_same rfl⟩
  · split
    · exact ⟨_, get?_putCall .., .of_same rfl⟩
    · split
      · next queue _ =>
        have hadds := adds_endCommit (wake { s with queue := some queue } .queue) call unit none
          (.ok (.saved envelopes))
        refine ⟨_, get?_putCall .., ?_⟩
        exact (Adds.of_same (metrics_wake { s with queue := some queue } .queue)).trans hadds
      · exact ⟨_, get?_putCall .., adds_endCommit s call unit (some .dispatchFailed) _⟩

/-- What a call adds in a step in which it dispatches nothing. -/
theorem passes_stepCall? {stage : Call.Stage} (h : s.stepCall? call = some s')
    (hget : s.calls.get? call = some stage) (plain : stage.dispatch? = none)
    (hunit : ∀ unit role, stage.role? = some (unit, role) → ∃ u, s.units.get? unit = some u) :
    s.Passes call stage s' := by
  unfold stepCall? at h
  rw [hget] at h
  cases stage with
  | loading orderId command =>
    obtain rfl := Option.some.inj h
    exact passes_loadForCommand
  | loaded orderId command order =>
    obtain rfl := Option.some.inj h
    exact ⟨_, get?_putCall .., .of_same rfl⟩
  | deciding orderId command order now =>
    obtain rfl := Option.some.inj h
    exact passes_decideCommand
  | queued unit =>
    obtain ⟨u, hu⟩ := hunit unit _ rfl
    simp only [enter?, hu] at h
    split at h
    · simp at h
    · obtain rfl := Option.some.inj h
      exact ⟨_, get?_putCall .., .of_same rfl⟩
  | entered unit =>
    obtain ⟨u, hu⟩ := hunit unit _ rfl
    obtain rfl := Option.some.inj h
    exact passes_beginCommit hu
  | held purpose events =>
    simp only [admit?] at h
    split at h
    · obtain rfl := Option.some.inj h
      exact passes_startSave
    · split at h
      · simp at h
      · next gate _ =>
        obtain rfl := Option.some.inj h
        exact passes_startSave (s := { s with saveGate := some gate })
  | saving purpose envelopes since save =>
    obtain rfl := Option.some.inj h
    exact passes_advanceSave
  | saved unit envelopes =>
    obtain rfl := Option.some.inj h
    exact passes_handOver
  | dispatching => simp [Call.Stage.dispatch?] at plain
  | reloading aggregateId =>
    obtain rfl := Option.some.inj h
    exact passes_reload
  | draining =>
    simp only [drain?] at h
    split at h
    · split at h
      · obtain rfl := Option.some.inj h
        exact ⟨_, get?_putCall .., .of_same rfl⟩
      · simp at h
    · obtain rfl := Option.some.inj h
      exact ⟨_, get?_putCall .., .of_same rfl⟩
  | finished => simp at h

/-! ### Dispatches and workers -/

/-- What a dispatch hands over is counted. -/
theorem adds_noteDispatch (s : System) (advance : Dispatching.Advance) :
    s.Adds { announced := advance.counted.toList } (s.noteDispatch advance) := by
  unfold noteDispatch
  cases advance.counted with
  | none => exact .of_same (metrics_wakeAll { s with dispatcher := advance.dispatcher } _)
  | some type =>
    exact .of_count (·.recordDispatch type) (.dispatch · type)
      (metrics_wakeAll (count { s with dispatcher := advance.dispatcher } _) _)

/-- The end of a dispatch counts as that of its commit, if there is one. -/
theorem adds_endDispatch (s : System) (call : Nat) (commit : Option (Nat × List Envelope))
    (dispatch : Dispatching) (result : Except DispatchError Unit) :
    ∃ stage', (s.endDispatch call commit result).calls.get? call = some stage' ∧
      s.Adds { ended := Call.Stage.ends (.dispatching commit dispatch) stage' }
        (s.endDispatch call commit result) := by
  cases commit with
  | none => cases result <;> exact ⟨_, get?_putCall .., .of_same rfl⟩
  | some pair =>
    have hadds := adds_endCommit s call pair.1 (some (.ofDispatch result))
      (commitOutcome pair.2 result)
    cases result <;> exact ⟨_, get?_putCall .., hadds⟩

theorem adds_advanceDispatch? {commit : Option (Nat × List Envelope)} {dispatch : Dispatching}
    (h : s.advanceDispatch? call commit dispatch = some s')
    (hget : s.calls.get? call = some (.dispatching commit dispatch)) :
    s.Adds (Moment.incidents ⟨s, .step (.call call), s'⟩) s' := by
  unfold advanceDispatch? at h
  split at h
  · simp at h
  · next advance hstep =>
    have hnote := adds_noteDispatch s advance
    dsimp only at h
    split at h
    · next result _ =>
      obtain rfl := Option.some.inj h
      obtain ⟨stage', hget', hends⟩ :=
        adds_endDispatch (s.noteDispatch advance) call commit dispatch result
      rw [Moment.incidents_of_dispatching hget hget' hstep, ← Incidents.announced_append_ended]
      exact hnote.trans hends
    · obtain rfl := Option.some.inj h
      rw [Moment.incidents_of_dispatching hget (get?_putCall ..) hstep]
      cases commit <;> exact hnote.then_same rfl

theorem adds_stepQueue? (h : s.stepQueue? = some s') :
    s.Adds (Moment.incidents ⟨s, .step .queue, s'⟩) s' := by
  unfold stepQueue? at h
  split at h
  · simp at h
  · next q hqueue =>
    split at h
    · next hfree =>
      have hnothing : Moment.incidents ⟨s, .step .queue, s'⟩ = {} := by
        simp [Moment.incidents_of_queue, Moment.results, Moment.announced, Moment.advance?,
          Moment.dispatch?, Moment.agent?, dispatching?, hqueue, hfree]
      rw [hnothing]
      split at h
      · obtain rfl := Option.some.inj h
        exact .of_same rfl
      · split at h
        · next q' _ =>
          obtain rfl := Option.some.inj h
          exact .of_same (metrics_wakeAll { s with queue := some q' } _)
        · simp at h
    · next dispatch hworking =>
      split at h
      · simp at h
      · next advance hstep =>
        have hnote := adds_noteDispatch s advance
        have hincidents : Moment.incidents ⟨s, .step .queue, s'⟩ =
            { ended := advance.next.result?.toList.map Ending.ofDispatch
              announced := advance.counted.toList } := by
          simp [Moment.incidents_of_queue, Moment.results, Moment.announced, Moment.advance?,
            Moment.dispatch?, Moment.agent?, dispatching?, hqueue, hworking, hstep]
        rw [hincidents]
        dsimp only at h
        split at h
        · next result hdone =>
          obtain rfl := Option.some.inj h
          rw [hdone, ← Incidents.announced_append_ended]
          exact hnote.trans (.of_count (·.recordCommit (Ending.ofDispatch result).label)
            (.commit · (.ofDispatch result)) rfl)
        · next hgoing =>
          obtain rfl := Option.some.inj h
          rw [Dispatching.result?_of_going hgoing]
          exact hnote.then_same rfl

theorem adds_stepWorker? {id : Nat} (h : s.stepWorker? id = some s') :
    s.Adds (Moment.incidents ⟨s, .step (.worker id), s'⟩) s' := by
  unfold stepWorker? at h
  split at h
  · simp at h
  · next step d hwork =>
    obtain rfl := Option.some.inj h
    rw [Moment.incidents_of_worker hwork]
    unfold noteWorker
    split
    · exact .of_same rfl
    · exact .of_same rfl
    · exact .of_same rfl
    · exact .of_same (metrics_wakeAwaiting { s with dispatcher := d } _)
    · next handler _ =>
      exact .of_count (·.recordHandlerFailure handler) (.failure · handler)
        (metrics_wakeAwaiting (count { s with dispatcher := d } _) _)

/-! ### Actions -/

theorem metrics_dropSave (s : System) (call : Nat) (purpose : Call.Purpose) :
    (s.dropSave call purpose).metrics = s.metrics := by
  unfold dropSave
  cases purpose with
  | itself => exact metrics_wakeAll { s with saveGate := _ } _
  | commit unit =>
    exact (metrics_leaveUnit { wakeAll { s with saveGate := _ } _ with units := _ } unit).trans
      (metrics_wakeAll { s with saveGate := _ } _)

theorem metrics_abort? (h : s.abort? call = some s') : s'.metrics = s.metrics := by
  unfold abort? at h
  split at h
  · simp at h
  · next stage _ =>
    cases stage with
    | loading | reloading | draining =>
      obtain rfl := Option.some.inj h
      rfl
    | queued unit =>
      obtain rfl := Option.some.inj h
      show (s.leaveQueue call unit).metrics = _
      unfold leaveQueue
      split
      · rfl
      · exact metrics_wakeAll ..
    | held purpose | saving purpose =>
      obtain rfl := Option.some.inj h
      exact metrics_dropSave s call purpose
    | dispatching commit =>
      cases commit with
      | none =>
        obtain rfl := Option.some.inj h
        rfl
      | some pair =>
        obtain rfl := Option.some.inj h
        exact metrics_leaveUnit s pair.1
    | _ => simp at h

/-- Nothing but the steps of agents is counted. -/
theorem metrics_of_other {a : Action} (h : s.perform? a = some s')
    (other : ∀ agent, a ≠ .step agent) : s'.metrics = s.metrics := by
  cases a with
  | step agent => exact (other agent rfl).elim
  | save events =>
    obtain rfl := Option.some.inj h
    exact metrics_wake ..
  | commit unit =>
    obtain rfl := Option.some.inj h
    unfold commit
    split
    · exact metrics_start ..
    · exact metrics_wake ..
  | handle | dispatch | redispatch =>
    obtain rfl := Option.some.inj h
    exact metrics_start ..
  | shutdown =>
    obtain rfl := Option.some.inj h
    unfold shutdown
    split
    · exact metrics_start ..
    · split
      · exact (metrics_start ..).trans (metrics_wake { s with queue := _ } _)
      · exact (metrics_start ..).trans (metrics_wake { s with queue := _ } _)
  | abort call => exact metrics_abort? h
  | register unit events =>
    obtain rfl := Option.some.inj h
    unfold register
    split
    · rfl
    · split <;> rfl
  | rollback unit =>
    obtain rfl := Option.some.inj h
    unfold rollback
    split
    · rfl
    · split <;> rfl
  | unsubscribe id =>
    obtain rfl := Option.some.inj h
    exact (metrics_wakeAll ..).trans (metrics_wakeAwaiting { s with dispatcher := _ } _)
  | close =>
    obtain rfl := Option.some.inj h
    exact metrics_wakeAwaiting { s with dispatcher := _ } _
  | enqueue unit envelopes =>
    obtain rfl := Option.some.inj h
    unfold enqueue
    split
    · next q _ => exact metrics_wake { s with queue := some q } _
    · rfl
  | release n =>
    obtain rfl := Option.some.inj h
    unfold release
    split
    · rfl
    · exact metrics_wakeAll { s with saveGate := _ } _
  | releaseHandler label n =>
    obtain rfl := Option.some.inj h
    exact metrics_wakeAll { s with dispatcher := _ } _
  | inject records =>
    obtain rfl := Option.some.inj h
    unfold inject
    split <;> rfl
  | _ =>
    obtain rfl := Option.some.inj h
    rfl

/-- The counts grow by what happens. -/
theorem adds_of_perform {a : Action} (h : s.perform? a = some s') (tidy : s.ledger.Tidy) :
    s.Adds (Moment.incidents ⟨s, a, s'⟩) s' := by
  have hother : (∀ agent, a ≠ .step agent) → s.Adds (Moment.incidents ⟨s, a, s'⟩) s' := by
    intro other
    rw [Moment.incidents_of_other other]
    exact .of_same (metrics_of_other h other)
  cases a with
  | step agent =>
    cases agent with
    | call call =>
      change s.stepCall? call = some s' at h
      cases hget : s.calls.get? call with
      | none => simp [stepCall?, hget] at h
      | some stage =>
        cases hdispatch : stage.dispatch? with
        | none =>
          obtain ⟨stage', hget', hadds⟩ := passes_stepCall? h hget hdispatch
            fun unit role hrole => tidy.unit_of_role (Ledger.roles_of_role? hget hrole)
          rw [Moment.incidents_of_passing hget hget' hdispatch]
          exact hadds
        | some dispatch =>
          cases stage with
          | dispatching commit dispatch =>
            simp only [stepCall?, hget] at h
            exact adds_advanceDispatch? h hget
          | _ => simp [Call.Stage.dispatch?] at hdispatch
    | queue => exact adds_stepQueue? h
    | worker id => exact adds_stepWorker? h
  | _ => exact hother (by simp)

end System

/-- In a run the counts are those of what has happened. -/
theorem Run.counts {s₀ s : System} {h : History} (run : Run s₀ h s) (fresh : s₀.Fresh) :
    s₀.Adds h.incidents s := by
  induction run with
  | nil => exact .of_same rfl
  | @snoc h s s' a run known perform ih =>
    rw [History.incidents_concat]
    exact ih.trans (System.adds_of_perform perform (run.tidy fresh).1)

end EventJournal
