import EventJournal.Proofs.System.Detached
import EventJournal.Proofs.System.Incidents

/-!
# Couriers

Agents that have a dispatch in their hands: calls, and the worker of the queue. A courier has one
dispatch at a time and takes it from its start to its end; nobody else touches it, and several
couriers go their ways at once.

* `Action.isPlain`, `History.Plain`: that nothing is given up or taken away, and that nothing comes
  in past the calls of the system;
* `System.Drives`, the step of a courier, and `System.Serves`, what any action means for it;
* `System.Stirs`, what any action means for the dispatcher.

The main statements are `System.serves_of_perform` and `System.stirs_of_perform`.
-/

namespace EventJournal

/-- Whether an action leaves alone what others have begun: it does not give up a call, remove a
registration or close the dispatcher, and it brings nothing into the queue, the storage or the
system past its calls. -/
def Action.isPlain : Action → Bool
  | .abort _ | .unsubscribe _ | .close | .enqueue .. | .inject _ | .replaceStorage _
  | .replaceDispatch .. => false
  | _ => true

/-- All actions leave alone what others have begun. -/
def History.Plain (h : History) : Prop := ∀ m ∈ h, m.action.isPlain = true

theorem History.plain_concat {h : History} {m : Moment} :
    Plain (h ++ [m]) ↔ h.Plain ∧ m.action.isPlain = true := by
  rw [Plain, List.forall_mem_append, List.forall_mem_singleton]
  rfl

/-- Plain actions make a plain course. -/
theorem History.plain_course {s : System} {actions : List Action}
    (h : ∀ a ∈ actions, a.isPlain = true) : (s.course actions).Plain :=
  System.forall_action_course h

/-- A dispatch, unless it is done. -/
def Dispatching.going? : Dispatching → Option Dispatching
  | .done _ => none
  | x => some x

theorem Dispatching.going?_of_going {x : Dispatching} (h : ∀ result, x ≠ .done result) :
    x.going? = some x := by
  unfold going?
  split
  · exact (h _ rfl).elim
  · rfl

/-- A call that has no dispatch yet gets to one that starts, or to none. -/
theorem Ledger.CallStep.dispatch?_next {l l' : Ledger} {call : Nat} {stage : Call.Stage}
    (h : l.CallStep call stage l') (plain : stage.dispatch? = none) :
    ∃ stage', l'.calls = l.calls.set call stage' ∧
      (stage'.dispatch? = none ∨ ∃ envelopes, stage'.dispatch? = some (.starting envelopes)) := by
  cases h with
  | unprepared _ _ failed => cases failed <;> exact ⟨_, rfl, .inl rfl⟩
  | stored _ completed => cases completed <;> exact ⟨_, rfl, .inl rfl⟩
  | failed _ failed => cases failed <;> exact ⟨_, rfl, .inl rfl⟩
  | dispatches => exact ⟨_, rfl, .inr ⟨_, rfl⟩⟩
  | reloaded => exact ⟨_, rfl, .inr ⟨_, rfl⟩⟩
  | tells => simp [Call.Stage.dispatch?] at plain
  | told => simp [Call.Stage.dispatch?] at plain
  | toldCommit => simp [Call.Stage.dispatch?] at plain
  | _ => exact ⟨_, rfl, .inl rfl⟩

namespace System

variable {s s' : System} {a : Action} {call : Nat} {x : Agent}

/-- The step of a courier. Without a dispatch it may get one; otherwise its dispatch takes a step,
and it is free when that is done. -/
inductive Drives (s : System) (x : Agent) (s' : System) : Prop
  | idle (free : s.dispatching? x = none) (dispatcher : s'.dispatcher = s.dispatcher)
      (next : s'.dispatching? x = none ∨
        ∃ envelopes, s'.dispatching? x = some (.starting envelopes))
  | goes {dispatch : Dispatching} {advance : Dispatching.Advance}
      (before : s.dispatching? x = some dispatch)
      (step : dispatch.step? s.dispatcher = some advance)
      (after : s'.dispatching? x = advance.next.going?)
      (dispatcher : s'.dispatcher = advance.dispatcher)

/-- What an action means for a courier. -/
inductive Serves (s : System) (a : Action) (s' : System) (x : Agent) : Prop
  | rests (idle : a = .step x → s.dispatching? x = none)
      (same : s'.dispatching? x = s.dispatching? x)
  | starts {envelopes : List Envelope} (free : s.dispatching? x = none)
      (starts : s'.dispatching? x = some (.starting envelopes))
  | goes {dispatch : Dispatching} {advance : Dispatching.Advance} (action : a = .step x)
      (before : s.dispatching? x = some dispatch)
      (step : dispatch.step? s.dispatcher = some advance)
      (after : s'.dispatching? x = advance.next.going?)
      (dispatcher : s'.dispatcher = advance.dispatcher)

/-- What an action means for the dispatcher: a dispatch takes a step, a worker does, or neither its
deliveries nor their verdicts change. -/
inductive Stirs (s : System) (a : Action) (d : Dispatcher) : Prop
  | calm (sends : s.sends a = []) (works : s.works a = []) (closed : d.closed = s.dispatcher.closed)
      (verdicts : d.transport.verdicts = s.dispatcher.transport.verdicts)
  | dispatches {x : Agent} {dispatch : Dispatching} {advance : Dispatching.Advance}
      (action : a = .step x) (before : s.dispatching? x = some dispatch)
      (step : dispatch.step? s.dispatcher = some advance) (dispatcher : d = advance.dispatcher)
  | works {id : Nat} {step : WorkerStep} (action : a = .step (.worker id))
      (work : s.dispatcher.work? id = some (step, d))

theorem dispatching?_call (hget : s.calls.get? call = none) :
    s.dispatching? (.call call) = none := by
  rw [dispatching?, hget, Option.bind_none]

theorem dispatching?_of_stage {stage : Call.Stage} (hget : s.calls.get? call = some stage) :
    s.dispatching? (.call call) = stage.dispatch? := by
  rw [dispatching?, hget, Option.bind_some]

theorem dispatching?_of_queue {q : DispatchQueue Batch Dispatching} (h : s.queue = some q) :
    s.dispatching? .queue = q.working := by
  rw [dispatching?, h, Option.bind_some]

theorem dispatcher_noteDispatch (s : System) (advance : Dispatching.Advance) :
    (s.noteDispatch advance).dispatcher = advance.dispatcher :=
  congrArg Prod.fst (outlets_noteDispatch advance)

/-! ### Calls -/

theorem dispatcher_handOver {unit : Nat} {envelopes : List Envelope} :
    (s.handOver call unit envelopes).dispatcher = s.dispatcher := by
  cases hget : s.units.get? unit with
  | none => simp only [handOver, hget]; rfl
  | some u =>
    cases hmode : u.mode with
    | synchronous =>
      rw [handOver_synchronous hget hmode]
      rfl
    | detached => exact congrArg Prod.fst (outlets_handOver_detached hget hmode)

theorem drives_advanceDispatch? {commit : Option (Nat × List Envelope)} {dispatch : Dispatching}
    (h : s.advanceDispatch? call commit dispatch = some s')
    (hget : s.calls.get? call = some (.dispatching commit dispatch)) :
    s.Drives (.call call) s' := by
  have hbefore : s.dispatching? (.call call) = some dispatch := dispatching?_of_stage hget
  unfold advanceDispatch? at h
  split at h
  · simp at h
  · next advance hstep =>
    have hnote := dispatcher_noteDispatch s advance
    dsimp only at h
    split at h
    · next result hdone =>
      obtain rfl := Option.some.inj h
      refine .goes hbefore hstep ?_ ?_
      · rw [hdone]
        cases commit with
        | none => cases result <;> exact dispatching?_of_stage (get?_putCall ..)
        | some pair => exact dispatching?_of_stage (get?_putCall ..)
      · exact (congrArg Prod.fst (outlets_endDispatch commit result)).trans hnote
    · next hgoing =>
      obtain rfl := Option.some.inj h
      refine .goes hbefore hstep ?_ hnote
      rw [Dispatching.going?_of_going hgoing]
      exact dispatching?_of_stage (get?_putCall ..)

theorem drives_stepCall? (h : s.stepCall? call = some s') (tidy : s.ledger.Tidy) :
    s.Drives (.call call) s' := by
  obtain ⟨stage, hget, callStep⟩ := ledger_stepCall? tidy h
  have hget' : s.calls.get? call = some stage := hget
  cases hdispatch : stage.dispatch? with
  | some dispatch =>
    cases stage with
    | dispatching commit dispatch =>
      simp only [stepCall?, hget'] at h
      exact drives_advanceDispatch? h hget'
    | _ => simp [Call.Stage.dispatch?] at hdispatch
  | none =>
    obtain ⟨stage', hcalls, hnext⟩ := callStep.dispatch?_next hdispatch
    have hstage' : s'.calls.get? call = some stage' := Ledger.get?_of_set hcalls
    refine .idle ((dispatching?_of_stage hget').trans hdispatch) ?_ ?_
    · cases hhanding : stage.isHanding with
      | false => exact congrArg Prod.fst (outlets_stepCall? h hget' hhanding)
      | true =>
        cases stage with
        | saved unit envelopes =>
          simp only [stepCall?, hget', Option.some.injEq] at h
          subst h
          exact dispatcher_handOver
        | dispatching => simp [Call.Stage.dispatch?] at hdispatch
        | _ => simp [Call.Stage.isHanding] at hhanding
    · rw [dispatching?_of_stage hstage']
      exact hnext

/-! ### The queue -/

/-- The step of the worker of the queue: it takes the oldest batch, ends, or goes on with the
dispatch in its hands. -/
inductive QueueStep (s s' : System) : Prop
  | takes {batch : Batch} (free : s.dispatching? .queue = none)
      (waiting : s.waiting = batch :: s'.waiting)
      (starts : s'.dispatching? .queue = some (.starting batch.envelopes))
      (dispatcher : s'.dispatcher = s.dispatcher)
  | ends (free : s.dispatching? .queue = none) (waiting : s'.waiting = s.waiting)
      (ends : s'.dispatching? .queue = none) (dispatcher : s'.dispatcher = s.dispatcher)
  | goes {dispatch : Dispatching} {advance : Dispatching.Advance}
      (before : s.dispatching? .queue = some dispatch) (waiting : s'.waiting = s.waiting)
      (step : dispatch.step? s.dispatcher = some advance)
      (after : s'.dispatching? .queue = advance.next.going?)
      (dispatcher : s'.dispatcher = advance.dispatcher)

theorem queueStep_of_stepQueue? (h : s.stepQueue? = some s') : s.QueueStep s' := by
  unfold stepQueue? at h
  split at h
  · simp at h
  · next q hqueue =>
    split at h
    · next hfree =>
      have hbefore : s.dispatching? .queue = none := (dispatching?_of_queue hqueue).trans hfree
      split at h
      · next q' htake =>
        obtain rfl := Option.some.inj h
        obtain ⟨-, batch, hwaiting, hworking⟩ := DispatchQueue.exists_of_take htake
        exact .takes hbefore ((waiting_of_queue hqueue).trans hwaiting)
          ((dispatching?_of_queue rfl).trans hworking) rfl
      · split at h
        · next q' hend =>
          obtain rfl := Option.some.inj h
          have houtlets := outlets_wakeAll { s with queue := some q' } s.drainers
          have hqueue' := congrArg Prod.snd houtlets
          obtain ⟨-, rfl⟩ := DispatchQueue.eq_of_end hend
          exact .ends hbefore ((waiting_of_queue hqueue').trans (waiting_of_queue hqueue).symm)
            ((dispatching?_of_queue hqueue').trans hfree) (congrArg Prod.fst houtlets)
        · simp at h
    · next dispatch hworking =>
      have hbefore : s.dispatching? .queue = some dispatch :=
        (dispatching?_of_queue hqueue).trans hworking
      split at h
      · simp at h
      · next advance hstep =>
        have hnote := dispatcher_noteDispatch s advance
        dsimp only at h
        split at h
        · next result hdone =>
          obtain rfl := Option.some.inj h
          refine .goes hbefore (waiting_of_queue hqueue).symm hstep ?_ hnote
          rw [hdone]
          rfl
        · next hgoing =>
          obtain rfl := Option.some.inj h
          refine .goes hbefore (waiting_of_queue hqueue).symm hstep ?_ hnote
          rw [Dispatching.going?_of_going hgoing]
          rfl

theorem QueueStep.drives (step : s.QueueStep s') : s.Drives .queue s' := by
  cases step with
  | takes free _ starts dispatcher => exact .idle free dispatcher (.inr ⟨_, starts⟩)
  | ends free _ ends dispatcher => exact .idle free dispatcher (.inl ends)
  | goes before _ step after dispatcher => exact .goes before step after dispatcher

/-! ### Actions -/

theorem Drives.serves (drives : s.Drives x s') : s.Serves (.step x) s' x := by
  cases drives with
  | idle free dispatcher next =>
    rcases next with hnone | ⟨envelopes, hstarts⟩
    · exact .rests (fun _ => free) (hnone.trans free.symm)
    · exact .starts free hstarts
  | goes before step after dispatcher => exact .goes rfl before step after dispatcher

theorem Drives.stirs (drives : s.Drives x s') (works : s.works (.step x) = []) :
    s.Stirs (.step x) s'.dispatcher := by
  cases drives with
  | idle free dispatcher =>
    rw [dispatcher]
    exact .calm (by simp [sends, free]) works rfl rfl
  | goes before step after dispatcher => exact .dispatches rfl before step dispatcher

/-- A call that is asked for may start with a dispatch. -/
theorem dispatch?_of_begins {stage : Call.Stage} (h : a.Begins stage) :
    stage.dispatch? = none ∨ ∃ envelopes, stage.dispatch? = some (.starting envelopes) := by
  rcases h with starts | ⟨unit, -, rfl⟩
  · cases starts with
    | dispatch envelopes => exact .inr ⟨envelopes, rfl⟩
    | _ => exact .inl rfl
  · exact .inl rfl

/-- What others do leaves the dispatch of a call alone. -/
theorem serves_call_of_other (change : s.ledger.Change a s'.ledger) (tidy : s.ledger.Tidy)
    (plain : a.isPlain = true) (other : a ≠ .step (.call call)) :
    s.Serves a s' (.call call) := by
  have hidle : a = .step (.call call) → s.dispatching? (.call call) = none :=
    fun heq => (other heq).elim
  have hsame : s'.calls.get? call = s.calls.get? call → s.Serves a s' (.call call) :=
    fun heq => .rests hidle (by rw [dispatching?, dispatching?, heq])
  cases hget : s.calls.get? call with
  | some stage =>
    have hkept : s'.calls.get? call = some stage := change.get?_of_other tidy hget other (by
      rintro rfl
      simp [Action.isPlain] at plain)
    exact hsame (hkept.trans hget.symm)
  | none =>
    cases change.turn with
    | rests _ calls => exact hsame (congrArg (·.get? call) calls)
    | @begins stage _ begins calls =>
      have hcalls : s'.calls.get? call = (s.calls.set (s.lastCall + 1) stage).get? call :=
        congrArg (·.get? call) calls
      rw [Table.get?_set] at hcalls
      split at hcalls
      · rcases dispatch?_of_begins begins with hnone | ⟨envelopes, hstarts⟩
        · refine .rests hidle ?_
          rw [dispatching?_of_stage hcalls, hnone, dispatching?_call hget]
        · exact .starts (dispatching?_call hget) ((dispatching?_of_stage hcalls).trans hstarts)
      · exact hsame hcalls
    | @goes acting _ stage' action _ _ calls =>
      have hne : call ≠ acting := by
        rintro rfl
        exact other action
      have hcalls : s'.calls.get? call = (s.calls.set acting stage').get? call :=
        congrArg (·.get? call) calls
      exact hsame (hcalls.trans (by rw [Table.get?_set, if_neg hne]))
    | @ends ended _ calls =>
      have hcalls : s'.calls.get? call = (s.calls.erase ended).get? call :=
        congrArg (·.get? call) calls
      refine hsame (hcalls.trans ?_)
      rw [Table.get?_erase, hget]
      split <;> rfl

/-- What others do leaves the dispatch of the queue alone. -/
theorem dispatching?_queue_of_other (h : s.perform? a = some s') (plain : a.isPlain = true)
    (other : a ≠ .step .queue) : s'.dispatching? .queue = s.dispatching? .queue := by
  have passage := passage_of_perform h
  generalize houtlets : s'.outlets = outlets at passage
  have hqueue : s'.queue = outlets.2 := congrArg Prod.snd houtlets
  cases passage with
  | keeps | goes | acts | turns => rw [dispatching?, hqueue]; rfl
  | hands stage get queue enqueue =>
    obtain rfl := DispatchQueue.eq_of_enqueue enqueue
    rw [dispatching?_of_queue queue, dispatching?_of_queue hqueue]
  | shuts queue =>
    rw [dispatching?_of_queue queue, dispatching?_of_queue hqueue]
    rfl
  | takes | ends | drives => exact (other rfl).elim
  | puts | replaces => simp [Action.isPlain] at plain

/-- Dispatches that are only asked for send nothing yet, and leave the outlets alone. -/
theorem outlets_of_bypasses (h : s.perform? a = some s') (plain : a.isPlain = true)
    (bypasses : a.bypassesCommits = true) :
    s.sends a = [] ∧ s.works a = [] ∧ s'.outlets = s.outlets := by
  cases a with
  | dispatch | redispatch => exact ⟨rfl, rfl, outlets_of_spares h rfl⟩
  | enqueue | replaceDispatch => simp [Action.isPlain] at plain
  | _ => simp [Action.bypassesCommits] at bypasses

/-- What an action means for a courier. -/
theorem serves_of_perform (h : s.perform? a = some s') (change : s.ledger.Change a s'.ledger)
    (tidy : s.ledger.Tidy) (plain : a.isPlain = true) (x : Agent) : s.Serves a s' x := by
  cases x with
  | worker id => exact .rests (fun _ => rfl) rfl
  | call call =>
    by_cases hstep : a = .step (.call call)
    · subst hstep
      exact (drives_stepCall? h tidy).serves
    · exact serves_call_of_other change tidy plain hstep
  | queue =>
    by_cases hstep : a = .step .queue
    · subst hstep
      exact (queueStep_of_stepQueue? h).drives.serves
    · exact .rests (fun heq => (hstep heq).elim) (dispatching?_queue_of_other h plain hstep)

theorem subscribeAll_verdicts (d : Dispatcher) (handler : Handler) (topics : List String) :
    (d.subscribeAll handler topics).2.closed = d.closed ∧
      (d.subscribeAll handler topics).2.transport.verdicts = d.transport.verdicts := by
  induction topics generalizing d with
  | nil => exact ⟨rfl, rfl⟩
  | cons topic rest ih =>
    rw [Dispatcher.subscribeAll]
    split
    · exact ⟨rfl, rfl⟩
    · next id d' hsubscribe =>
      have hsame : d'.closed = d.closed ∧ d'.transport.verdicts = d.transport.verdicts := by
        unfold Dispatcher.subscribe at hsubscribe
        split at hsubscribe
        · simp at hsubscribe
        · split at hsubscribe
          · simp at hsubscribe
          · next id' t ht =>
            obtain ⟨rfl, rfl⟩ := Prod.mk.inj (Except.ok.inj hsubscribe)
            unfold Transport.subscribe at ht
            split at ht
            · simp at ht
            · obtain ⟨rfl, rfl⟩ := Prod.mk.inj (Except.ok.inj ht)
              exact ⟨rfl, rfl⟩
      obtain ⟨hclosed, hverdicts⟩ := ih d'
      split <;> next heq =>
        rw [heq] at hclosed hverdicts
        exact ⟨hclosed.trans hsame.1, hverdicts.trans hsame.2⟩

/-- What an action means for the dispatcher. -/
theorem stirs_of_perform (h : s.perform? a = some s') (tidy : s.ledger.Tidy)
    (plain : a.isPlain = true) : s.Stirs a s'.dispatcher := by
  have hkept : s.sends a = [] → s.works a = [] → s'.outlets = s.outlets →
      s.Stirs a s'.dispatcher := by
    intro sends works heq
    have hdispatcher : s'.dispatcher = s.dispatcher := congrArg Prod.fst heq
    exact .calm sends works (by rw [hdispatcher]) (by rw [hdispatcher])
  cases a with
  | step agent =>
    cases agent with
    | call call => exact (drives_stepCall? h tidy).stirs rfl
    | queue => exact (queueStep_of_stepQueue? h).drives.stirs rfl
    | worker id =>
      change s.stepWorker? id = some s' at h
      unfold stepWorker? at h
      split at h
      · simp at h
      · next step d hwork =>
        obtain rfl := Option.some.inj h
        have hdispatcher : (noteWorker { s with dispatcher := d } step).dispatcher = d :=
          congrArg Prod.fst (outlets_noteWorker step)
        rw [hdispatcher]
        exact .works rfl hwork
  | shutdown =>
    obtain rfl := Option.some.inj h
    have hdispatcher : s.shutdown.2.dispatcher = s.dispatcher := by
      unfold shutdown
      split
      · exact congrArg Prod.fst (outlets_start s _)
      · split
        · exact congrArg Prod.fst ((outlets_start _ _).trans
            (outlets_wake { s with queue := _ } .queue))
        · exact congrArg Prod.fst ((outlets_start _ _).trans
            (outlets_wake { s with queue := _ } .queue))
    exact .calm rfl rfl (by rw [hdispatcher]) (by rw [hdispatcher])
  | subscribe handler topics =>
    obtain rfl := Option.some.inj h
    obtain ⟨hclosed, hverdicts⟩ := subscribeAll_verdicts s.dispatcher handler topics
    exact .calm rfl rfl hclosed hverdicts
  | releaseHandler label n =>
    obtain rfl := Option.some.inj h
    have hdispatcher : (s.releaseHandler label n).dispatcher = (s.dispatcher.release label n).2 :=
      congrArg Prod.fst (outlets_wakeAll { s with dispatcher := _ } _)
    rw [hdispatcher]
    exact .calm rfl rfl rfl rfl
  | unsubscribe | close | enqueue | abort | inject | replaceStorage | replaceDispatch =>
    simp [Action.isPlain] at plain
  | _ => exact hkept rfl rfl (outlets_of_spares h rfl)

/-! ### At first and at rest -/

/-- Nothing is under way: all calls have ended, and the queue has been drained. -/
structure AtRest (s : System) : Prop where
  calls : ∀ call stage, s.calls.get? call = some stage → ∃ outcome, stage = .finished outcome
  waiting : s.waiting = []
  free : s.dispatching? .queue = none

theorem AtRest.of_entries (calls : ∀ entry ∈ s.calls.entries, entry.2.outcome?.isSome = true)
    (waiting : s.waiting.isEmpty = true) (free : (s.dispatching? .queue).isNone = true) :
    s.AtRest where
  calls call stage hget := by
    have hsome := calls _ (Table.mem_entries_of_get? hget)
    cases stage with
    | finished outcome => exact ⟨outcome, rfl⟩
    | _ => simp [Call.Stage.outcome?] at hsome
  waiting := List.isEmpty_iff.1 waiting
  free := Option.isNone_iff_eq_none.1 free

/-- At rest nobody has a dispatch in their hands. -/
theorem AtRest.dispatching? (rest : s.AtRest) (x : Agent) : s.dispatching? x = none := by
  cases x with
  | call call =>
    cases hget : s.calls.get? call with
    | none => exact dispatching?_call hget
    | some stage =>
      obtain ⟨outcome, rfl⟩ := rest.calls call stage hget
      exact dispatching?_of_stage hget
  | queue => exact rest.free
  | worker id => rfl

/-- At first nobody has a dispatch in their hands. -/
theorem dispatching?_of_unused (fresh : s.Fresh) (unused : s.Unused) (x : Agent) :
    s.dispatching? x = none := by
  cases x with
  | call call => exact dispatching?_call (by rw [fresh.calls, Table.get?_empty])
  | queue =>
    cases hqueue : s.queue with
    | none => rw [System.dispatching?, hqueue, Option.bind_none]
    | some q => rw [dispatching?_of_queue hqueue, unused.queue q hqueue]
  | worker id => rfl

end System

/-! ### What moments tell of couriers -/

/-- A courier without a dispatch does nothing that is told of dispatches. -/
theorem Moment.nothing_of_free {s : System} (s' : System) {x : Agent}
    (free : s.dispatching? x = none) :
    let m : Moment := ⟨s, .step x, s'⟩
    m.announced = [] ∧ m.accepted = [] ∧ m.results = [] ∧ s.sends m.action = [] := by
  simp [announced, accepted, results, advance?, dispatch?, agent?, System.sends, free]

/-- What the step of a dispatch tells. -/
theorem Moment.telling_of_step {s : System} (s' : System) {x : Agent} {dispatch : Dispatching}
    {advance : Dispatching.Advance} (before : s.dispatching? x = some dispatch)
    (step : dispatch.step? s.dispatcher = some advance) :
    let m : Moment := ⟨s, .step x, s'⟩
    m.announced = advance.counted.toList ∧ m.accepted = dispatch.accepted s.dispatcher ∧
      m.results = advance.next.result?.toList ∧ s.sends m.action = s.dispatcher.sends dispatch := by
  simp [announced, accepted, results, advance?, dispatch?, agent?, System.sends, before, step]

theorem Moment.eq_step_of_agent? {s s' : System} {a : Action} {x : Agent}
    (h : agent? ⟨s, a, s'⟩ = some x) : a = .step x := by
  cases a with
  | step y => exact congrArg Action.step (Option.some.inj h)
  | _ => simp [agent?] at h

end EventJournal
