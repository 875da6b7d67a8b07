import EventJournal.Proofs.Order.Replayed
import EventJournal.Proofs.System.Growth
import EventJournal.Proofs.System.Origins

/-!
# Commands to orders

How a call gets on that carries out a command to an order: it loads the order, reads the time,
decides the command on what it has found, and commits the event that this leads to in a unit of work
of its own. The event is created at a time of its own.

* `Moment.Finds`, what a load finds; `History.Accepts`, that a call has accepted its command, and
  the event that it led to;
* `Ledger.Owns`, that nobody but a call gets at a unit of work;
* `Call.Stage.Handles`, where such a call stands, and `Ledger.CallStep.handles`, its steps.

The main statement is `Run.handles`.
-/

namespace EventJournal

/-- The records of an order replay to a state when it is loaded. -/
def Moment.Finds (m : Moment) (orderId : String) (state : Option Order) : Prop :=
  Order.Replays m.before.registry (m.before.storage.journal.query orderId Numeral.minInt64) state

/-- A call has loaded an order, and has decided its command on the state that it found then, for the
time that it read before. The command has led to an event, which follows the version of that state
and was created when the command was decided. -/
structure History.Accepts (h : History) (call : Nat) (orderId : String) (command : Order.Command)
    (load : Moment) (state : Option Order) (e : DomainEvent Order.Event) : Prop where
  asks : h.Asks call (.handle orderId command)
  steps : ∃ read decide rest, h.stepsOf call = load :: read :: decide :: rest ∧
    Order.decideOn state read.before.clock command = .ok [e.data] ∧
    e.createdAt = decide.before.clock
  finds : load.Finds orderId state
  aggregateId : e.aggregateId = orderId
  sequenceNo : e.sequenceNo = Order.versionOf state + 1

/-- A call has accepted a command to an order, and these are the events that it led to. -/
def History.LeadsTo (h : History) (call : Nat) (orderId : String) (command : Order.Command)
    (events : List Event) : Prop :=
  ∃ load state e, h.Accepts call orderId command load state e ∧ events = [e.toEvent]

/-- Nobody but a call gets at a unit of work, which is not committing yet: no other call stands with
it, and it is not known. -/
structure Ledger.Owns (l : Ledger) (h : History) (call unit : Nat) (u : UnitOfWork) : Prop where
  unknown : ¬ h.Knows unit
  get : l.units.get? unit = some u
  phase : u.phase = .gathering
  alone : ∀ {other role}, l.roles unit other = some role → other = call

/-- Where a call stands that carries out a command to an order. -/
def Call.Stage.Handles (h : History) (l : Ledger) (call : Nat) (orderId : String)
    (command : Order.Command) : Call.Stage → Prop
  | .loading id asked => id = orderId ∧ asked = command ∧ h.stepsOf call = []
  | .loaded id asked state =>
    id = orderId ∧ asked = command ∧ ∃ load, h.stepsOf call = [load] ∧ load.Finds orderId state
  | .deciding id asked state now =>
    id = orderId ∧ asked = command ∧ ∃ load read, h.stepsOf call = [load, read] ∧
      load.Finds orderId state ∧ read.before.clock = now
  | .queued unit =>
    ∃ u, h.LeadsTo call orderId command u.events ∧ l.Owns h call unit u ∧ call ∈ u.gate.admitted
  | .entered unit => ∃ u, h.LeadsTo call orderId command u.events ∧ l.Owns h call unit u
  | .held (.commit _) events => h.LeadsTo call orderId command events
  | .saving (.commit _) envelopes _ save =>
    h.LeadsTo call orderId command (envelopes.map Envelope.event) ∧ save.Blames
  | .saved _ envelopes | .dispatching (some (_, envelopes)) _ | .finished (.ok (.saved envelopes))
  | .finished (.error (.commit (.dispatch envelopes _))) =>
    h.LeadsTo call orderId command (envelopes.map Envelope.event)
  | .finished (.error (.commit (.store cause))) =>
    (∃ events, h.LeadsTo call orderId command events) ∧ cause.isConflict = true
  | .finished (.error (.loadOrder _ _)) | .finished (.error (.replay _)) =>
    (h.stepsOf call).length = 1
  | .finished (.error (.rule e)) =>
    ∃ load read decide state, h.stepsOf call = [load, read, decide] ∧
      load.Finds orderId state ∧ Order.decideOn state read.before.clock command = .error e
  | _ => False

namespace History

variable {h : History} {call : Nat} {orderId : String} {command : Order.Command} {load : Moment}
  {state : Option Order} {e : DomainEvent Order.Event}

theorem Accepts.append (accepts : h.Accepts call orderId command load state e) (others : History) :
    Accepts (h ++ others) call orderId command load state e := by
  obtain ⟨asks, ⟨read, decide, rest, hsteps, hdecide⟩, finds, haggregate, hsequence⟩ := accepts
  refine ⟨asks.append others, ?_, finds, haggregate, hsequence⟩
  rw [stepsOf_append, hsteps]
  exact ⟨read, decide, _, rfl, hdecide⟩

/-- A call accepts its command once. -/
theorem Accepts.unique {load' : Moment} {state' : Option Order} {e' : DomainEvent Order.Event}
    (accepts : h.Accepts call orderId command load state e)
    (accepts' : h.Accepts call orderId command load' state' e') :
    load = load' ∧ state = state' ∧ e = e' := by
  obtain ⟨-, ⟨read, decide, rest, hsteps, hdecide, hcreated⟩, finds, haggregate, hsequence⟩ :=
    accepts
  obtain ⟨-, ⟨read', decide', rest', hsteps', hdecide', hcreated'⟩, finds', haggregate',
    hsequence'⟩ := accepts'
  obtain ⟨rfl, rfl, rfl, -⟩ :
      load = load' ∧ read = read' ∧ decide = decide' ∧ rest = rest' := by
    simpa using hsteps.symm.trans hsteps'
  obtain rfl := finds.unique finds'
  have hdata : e.data = e'.data :=
    (List.cons.inj (Except.ok.inj (hdecide.symm.trans hdecide'))).1
  refine ⟨rfl, rfl, ?_⟩
  cases e
  cases e'
  simp_all

theorem Accepts.aggregateId_of_keeps {r : Record}
    (accepts : h.Accepts call orderId command load state e) (keeps : r.Keeps e.toEvent) :
    r.aggregateId = orderId := by
  rw [keeps.aggregateId, DomainEvent.aggregateId_toEvent, accepts.aggregateId]

theorem Accepts.sequenceNo_of_keeps {r : Record}
    (accepts : h.Accepts call orderId command load state e) (keeps : r.Keeps e.toEvent) :
    r.sequenceNo = Order.versionOf state + 1 := by
  rw [keeps.sequenceNo, DomainEvent.sequenceNo_toEvent, accepts.sequenceNo]

/-- The load of a call that has accepted its command is one of its steps. -/
theorem Accepts.load_mem (accepts : h.Accepts call orderId command load state e) : load ∈ h := by
  obtain ⟨read, decide, rest, hsteps, -⟩ := accepts.steps
  have hmem : load ∈ h.stepsOf call := by
    rw [hsteps]
    exact List.mem_cons_self ..
  exact List.mem_of_mem_filter hmem

theorem LeadsTo.concat {events : List Event} (leads : h.LeadsTo call orderId command events)
    (m : Moment) : LeadsTo (h ++ [m]) call orderId command events := by
  obtain ⟨load, state, e, accepts, hevents⟩ := leads
  exact ⟨load, state, e, accepts.append [m], hevents⟩

end History

namespace Ledger

variable {l l' : Ledger} {h : History} {call unit : Nat} {u : UnitOfWork}

theorem Owns.concat (owns : l.Owns h call unit u) {m : Moment} (hstep : m.isStepOf call = true) :
    l.Owns (h ++ [m]) call unit u := by
  refine ⟨fun knows => ?_, owns.get, owns.phase, owns.alone⟩
  rcases History.knows_concat.1 knows with hold | hnew
  · exact owns.unknown hold
  · rw [Moment.newUnit?, Moment.action_of_isStepOf hstep] at hnew
    simp at hnew

/-- What others do leaves the unit of work alone. -/
theorem Owns.keep {s s' : System} {a : Action} (owns : s.ledger.Owns h call unit u)
    (tidy : s.ledger.Tidy) (change : s.ledger.Change a s'.ledger)
    (known : ∀ unit, a.unit? = some unit → h.Knows unit)
    (hstep : Moment.isStepOf ⟨s, a, s'⟩ call = false) (habort : a ≠ .abort call) :
    s'.ledger.Owns (h ++ [⟨s, a, s'⟩]) call unit u := by
  obtain ⟨unknown, hu, phase, alone⟩ := owns
  have made : unit ≤ s.ledger.lastUnit := tidy.unit_le hu
  have apart : ¬ s.ledger.Reaches unit a := by
    rintro (hnamed | ⟨other, role, hact, hrole⟩)
    · exact unknown (known unit hnamed)
    · obtain rfl := alone hrole
      rcases hact with rfl | rfl
      · simp at hstep
      · exact habort rfl
  obtain ⟨hunits, hroles⟩ := change.apart tidy made apart
  refine ⟨fun knows => ?_, hunits.trans hu, phase, fun hrole => alone (hroles ▸ hrole)⟩
  rcases History.knows_concat.1 knows with hold | hnew
  · exact unknown hold
  · cases a with
    | newUnit mode =>
      have heq : s.ledger.lastUnit + 1 = unit := Option.some.inj hnew
      omega
    | _ => simp [Moment.newUnit?] at hnew

/-- The unit of work that is made for a command belongs to its call. -/
theorem owns_of_make (tidy : l.Tidy) (unknown : ¬ h.Knows (l.lastUnit + 1)) {stage : Call.Stage}
    (hunits : l'.units = l.units.set (l.lastUnit + 1) u)
    (hcalls : l'.calls = l.calls.set call stage) (phase : u.phase = .gathering) :
    l'.Owns h call (l.lastUnit + 1) u := by
  refine ⟨unknown, by rw [hunits, Table.get?_set_self], phase, @fun other role hrole => ?_⟩
  rw [roles_of_set hcalls, tidy.roles_next] at hrole
  by_cases heq : other = call
  · exact heq
  · rw [Function.update_of_ne heq] at hrole
    simp at hrole

/-- A call stays alone with its unit of work when it passes the gate. -/
theorem Owns.enter (owns : l.Owns h call unit u) {gate : Gate Nat} {stage : Call.Stage}
    (hunits : l'.units = l.units.set unit { u with gate })
    (hcalls : l'.calls = l.calls.set call stage) : l'.Owns h call unit { u with gate } := by
  refine ⟨owns.unknown, by rw [hunits, Table.get?_set_self], owns.phase,
    @fun other role hrole => ?_⟩
  rw [roles_of_set hcalls] at hrole
  by_cases heq : other = call
  · exact heq
  · rw [Function.update_of_ne heq] at hrole
    exact owns.alone hrole

/-- A call that carries out a command takes a step. -/
theorem CallStep.handles {m : Moment} {stage stage' : Call.Stage} {orderId : String}
    {command : Order.Command} (callStep : m.before.ledger.CallStep call stage l')
    (hstep : m.isStepOf call = true) (tidy : m.before.ledger.Tidy)
    (calm : m.before.storage.faults = []) (hget' : l'.calls.get? call = some stage')
    (asks : h.Asks call (.handle orderId command))
    (made : ∀ {unit}, h.Knows unit → unit ≤ m.before.lastUnit)
    (handles : stage.Handles h m.before.ledger call orderId command) :
    stage'.Handles (h ++ [m]) l' call orderId command := by
  have hsteps : History.stepsOf (h ++ [m]) call = h.stepsOf call ++ [m] := by
    rw [History.stepsOf_concat, if_pos hstep]
  have hstage : ∀ {next : Call.Stage}, l'.calls = m.before.ledger.calls.set call next →
      next.Handles (h ++ [m]) l' call orderId command →
      stage'.Handles (h ++ [m]) l' call orderId command := by
    intro next hcalls hnext
    exact eq_of_set hcalls hget' ▸ hnext
  cases callStep with
  | @loaded id asked storage envelopes state load replay =>
    obtain ⟨rfl, rfl, hnone⟩ := handles
    have hdecode := (Store.loadFrom_watched rfl load).2.1 envelopes rfl
    exact hstage rfl ⟨rfl, rfl, m, by rw [hsteps, hnone]; rfl, envelopes, hdecode, replay⟩
  | unloaded =>
    obtain ⟨-, -, hnone⟩ := handles
    refine hstage rfl ?_
    show (History.stepsOf (h ++ [m]) call).length = 1
    rw [hsteps, hnone]
    rfl
  | unreplayed =>
    obtain ⟨-, -, hnone⟩ := handles
    refine hstage rfl ?_
    show (History.stepsOf (h ++ [m]) call).length = 1
    rw [hsteps, hnone]
    rfl
  | timed =>
    obtain ⟨rfl, rfl, load, hload, finds⟩ := handles
    exact hstage rfl ⟨rfl, rfl, load, m, by rw [hsteps, hload]; rfl, finds, rfl⟩
  | ruledOut decide =>
    obtain ⟨rfl, rfl, load, read, hread, finds, rfl⟩ := handles
    exact hstage rfl ⟨load, read, m, _, by rw [hsteps, hread]; rfl, finds, decide⟩
  | @decided id asked state now payloads mode decide =>
    obtain ⟨rfl, rfl, load, read, hread, finds, rfl⟩ := handles
    obtain ⟨payload, rfl, -⟩ := Order.decideOn_eq_ok decide
    have unknown : ¬ h.Knows (m.before.ledger.lastUnit + 1) := by
      intro knows
      have hle : m.before.ledger.lastUnit + 1 ≤ m.before.ledger.lastUnit := made knows
      omega
    have hdecide : History.stepsOf (h ++ [m]) call = [load, read, m] := by
      rw [hsteps, hread]
      rfl
    let u : UnitOfWork :=
      { id := .random (m.before.lastUnit + 1)
        mode
        events := (DomainEvent.sequence id m.before.clock (Order.versionOf state) [payload]).map
          DomainEvent.toEvent
        gate := Gate.single.join call }
    have admitted : call ∈ u.gate.admitted := by simp [u, Gate.join, Gate.single]
    have accepts : History.Accepts (h ++ [m]) call id asked load state
        ⟨id, Order.versionOf state + 1, m.before.clock, payload⟩ :=
      ⟨asks.append [m], ⟨read, m, [], hdecide, decide, rfl⟩, finds, rfl, rfl⟩
    refine hstage rfl ⟨u, ⟨load, state, _, accepts, rfl⟩, Owns.concat ?_ hstep, admitted⟩
    exact owns_of_make tidy unknown rfl rfl rfl
  | @entered unit v gate get pass =>
    obtain ⟨u, leads, owns, -⟩ := handles
    obtain rfl := Option.some.inj (owns.get.symm.trans get)
    exact hstage rfl ⟨{ u with gate }, leads.concat m, Owns.concat (owns.enter rfl rfl) hstep⟩
  | refused get begin =>
    obtain ⟨u, -, owns⟩ := handles
    obtain rfl := Option.some.inj (owns.get.symm.trans get)
    have hbegin := UnitOfWork.begin_eq_ok_iff.2 ⟨owns.phase, rfl, rfl⟩
    simp [hbegin] at begin
  | emptied get begin =>
    obtain ⟨u, ⟨load, state, e, -, hevents⟩, owns⟩ := handles
    obtain rfl := Option.some.inj (owns.get.symm.trans get)
    obtain ⟨-, hnil, -⟩ := UnitOfWork.begin_eq_ok_iff.1 begin
    simp [hevents] at hnil
  | fixed get begin nonempty =>
    obtain ⟨u, leads, owns⟩ := handles
    obtain rfl := Option.some.inj (owns.get.symm.trans get)
    obtain ⟨-, rfl, -⟩ := UnitOfWork.begin_eq_ok_iff.1 begin
    exact hstage rfl (leads.concat m)
  | savedNothing => exact handles.elim
  | @unprepared purpose events e l' nonempty prepare failed =>
    cases purpose with
    | itself => exact handles.elim
    | commit unit =>
      -- an order event can always be written
      obtain ⟨load, state, e, -, rfl⟩ := handles
      obtain ⟨entries, hentries⟩ := exists_prepare m.before.newId m.before.clock m.before.ids
        (List.forall_mem_singleton.2 (Order.exists_payload_toEvent e))
      have hok : EventJournal.prepare m.before.newId m.before.clock m.before.ids [e.toEvent] =
          .error _ := prepare
      simp [hentries] at hok
  | @prepared purpose events entries nonempty prepare =>
    cases purpose with
    | itself => exact handles.elim
    | commit unit =>
      refine hstage rfl ⟨?_, trivial⟩
      rw [map_envelope_of_prepare prepare]
      exact handles.concat m
  | @asked purpose envelopes since save save' storage step going =>
    cases purpose with
    | itself => exact handles.elim
    | commit unit =>
      exact hstage rfl ⟨handles.1.concat m, (Saving.step_of_calm calm step).2 handles.2⟩
  | @stored purpose envelopes since save storage l' step completed =>
    cases completed with
    | itself => exact handles.elim
    | commit get => exact hstage rfl (handles.1.concat m)
  | @failed purpose envelopes since save e storage l' step failed =>
    cases failed with
    | itself => exact handles.elim
    | commit get =>
      exact hstage rfl ⟨⟨_, handles.1.concat m⟩, (Saving.step_of_calm calm step).2 handles.2⟩
  | dispatches => exact hstage rfl (handles.concat m)
  | enqueues result =>
    refine hstage rfl ?_
    cases result <;> exact handles.concat m
  | @tells commit dispatch next =>
    cases commit with
    | none => exact handles.elim
    | some pair => exact hstage rfl (handles.concat m)
  | told => exact handles.elim
  | toldCommit result =>
    refine hstage rfl ?_
    cases result <;> exact handles.concat m
  | reloaded => exact handles.elim
  | unreloaded => exact handles.elim
  | drained => exact handles.elim

end Ledger

/-- What others do leaves a call where it stands. -/
theorem Call.Stage.Handles.keep {s s' : System} {h : History} {a : Action} {call : Nat}
    {stage : Call.Stage} {orderId : String} {command : Order.Command}
    (handles : stage.Handles h s.ledger call orderId command) (tidy : s.ledger.Tidy)
    (change : s.ledger.Change a s'.ledger) (known : ∀ unit, a.unit? = some unit → h.Knows unit)
    (hstep : Moment.isStepOf ⟨s, a, s'⟩ call = false) (habort : a ≠ .abort call) :
    stage.Handles (h ++ [⟨s, a, s'⟩]) s'.ledger call orderId command := by
  have hsteps : History.stepsOf (h ++ [⟨s, a, s'⟩]) call = h.stepsOf call := by
    rw [History.stepsOf_concat, hstep, if_neg Bool.false_ne_true, List.append_nil]
  unfold Handles at handles ⊢
  split at handles
  · rwa [hsteps]
  · rwa [hsteps]
  · rwa [hsteps]
  · obtain ⟨u, leads, owns, admitted⟩ := handles
    exact ⟨u, leads.concat _, owns.keep tidy change known hstep habort, admitted⟩
  · obtain ⟨u, leads, owns⟩ := handles
    exact ⟨u, leads.concat _, owns.keep tidy change known hstep habort⟩
  · exact handles.concat _
  · exact ⟨handles.1.concat _, handles.2⟩
  · exact handles.concat _
  · exact handles.concat _
  · exact handles.concat _
  · exact handles.concat _
  · obtain ⟨⟨events, leads⟩, conflict⟩ := handles
    exact ⟨⟨events, leads.concat _⟩, conflict⟩
  · rwa [hsteps]
  · rwa [hsteps]
  · rwa [hsteps]
  · exact handles.elim

/-- In a run without interference a call that is asked to carry out a command to an order stands
somewhere on its way. -/
theorem Run.handles {s₀ s : System} {h : History} (run : Run s₀ h s) (fresh : s₀.Fresh)
    (undisturbed : h.Undisturbed) {call : Nat} {stage : Call.Stage} {orderId : String}
    {command : Order.Command} (hget : s.calls.get? call = some stage)
    (asks : h.Asks call (.handle orderId command)) :
    stage.Handles h s.ledger call orderId command := by
  refine run.stage_induction (P := fun h s call stage => h.Undisturbed →
    h.Asks call (.handle orderId command) → stage.Handles h s.ledger call orderId command) fresh
    ?_ ?_ ?_ hget undisturbed asks
  · intro h s s' a stage run _ _ begins _ hnone _ asks
    rcases asks_concat asks with asks | ⟨rfl, -⟩
    · have hle := run.asks_le fresh (.handle orderId command) asks
      omega
    · rcases begins with starts | ⟨unit, heq, -⟩
      · cases starts
        exact ⟨rfl, rfl, hnone⟩
      · simp at heq
  · intro h s s' call stage stage' run _ _ callStep hget' ih undisturbed asks
    have hold := (History.undisturbed_concat.1 undisturbed).1
    rcases asks_concat asks with asks | ⟨heq, -⟩
    · exact callStep.handles (Moment.isStepOf_self ..)
        (run.tidy fresh).1 (run.growth fresh hold).faults hget' asks (run.knows_le fresh)
        (ih hold asks)
    · simp at heq
  · intro h s s' a call stage run known change hstep hget hget' ih undisturbed asks
    rcases asks_concat asks with asks | ⟨rfl, rfl⟩
    · have hold := (History.undisturbed_concat.1 undisturbed).1
      refine (ih hold asks).keep (run.tidy fresh).1 change known hstep ?_
      rintro rfl
      have hnone : s'.calls.get? call = none := change.get?_of_abort
      simp [hnone] at hget'
    · have hle : s.lastCall + 1 ≤ s.lastCall := (run.tidy fresh).1.call_le hget
      omega

end EventJournal
