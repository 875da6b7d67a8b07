import EventJournal.System.Step

/-!
# The control of a system

What is asked of a system from outside. Most of it is done at once; a call is only started, and
takes its steps later.

* `System.save`, `System.commit`, `System.handle`, `System.dispatch`, `System.redispatch`,
  `System.shutdown`: calls; `System.outcome?` and `System.abort?` of a call;
* `System.newUnit`, `System.register`, `System.rollback`: units of work;
* `System.subscribe`, `System.unsubscribe`, `System.close`: the dispatcher;
* `System.release`, `System.releaseHandler`: permits;
* `System.inject`, `System.fault`: records put into the storage directly, and refusals to come.
-/

namespace EventJournal.System

/-! ### Calls -/

/-- Starts a call at a stage: its number. -/
def start (s : System) (stage : Call.Stage) : Nat × System :=
  let call := s.lastCall + 1
  (call, ({ s with lastCall := call }.putCall call stage).wake (.call call))

/-- Starts a save. -/
def save (s : System) (events : List Event) : Nat × System :=
  let call := s.lastCall + 1
  (call, ({ s with lastCall := call }.submit call .itself events).wake (.call call))

/-- Starts a commit of a unit of work. -/
def commit (s : System) (unit : Nat) : Nat × System :=
  match s.units.get? unit with
  | none => s.start (.finished (.ok (.saved [])))
  | some u =>
    let call := s.lastCall + 1
    (call, ({ s with lastCall := call }.approach call unit u).wake (.call call))

/-- Starts a command to an order. -/
def handle (s : System) (orderId : String) (command : Order.Command) : Nat × System :=
  s.start (.loading orderId command)

/-- Starts a dispatch. -/
def dispatch (s : System) (envelopes : List Envelope) : Nat × System :=
  s.start (.dispatching none (.starting envelopes))

/-- Starts to dispatch the stored events of an aggregate once more. -/
def redispatch (s : System) (aggregateId : String) : Nat × System :=
  s.start (.reloading aggregateId)

/-- Shuts the queue down, and waits for its worker unless another shutdown does or did. -/
def shutdown (s : System) : Nat × System :=
  match s.queue with
  | none => s.start (.finished (.ok .nothing))
  | some queue =>
    match queue.shutdown with
    | (true, queue) => ({ s with queue := some queue }.wake .queue).start .draining
    | (false, queue) =>
      ({ s with queue := some queue }.wake .queue).start (.finished (.ok .nothing))

/-- The outcome of a call that has ended. -/
def outcome? (s : System) (call : Nat) : Option Call.Outcome :=
  (s.calls.get? call).bind Call.Stage.outcome?

/-- A call is forgotten. -/
def forget (s : System) (call : Nat) : System := { s with calls := s.calls.erase call }

/-- A call that waits for the gate of a unit of work gives up. -/
def leaveQueue (s : System) (call unit : Nat) : System :=
  match s.units.get? unit with
  | none => s
  | some u =>
    let gate := u.gate.leave call
    (s.putUnit unit { u with gate }).wakeAll (gate.admitted.map .call)

/-- The save of a call is given up. -/
def dropSave (s : System) (call : Nat) (purpose : Call.Purpose) : System :=
  let saveGate := s.saveGate.map fun gate => gate.leave call
  let admitted := (saveGate.map Gate.admitted).getD []
  let s := { s with saveGate }.wakeAll (admitted.map .call)
  match purpose with
  | .itself => s.forget call
  | .commit unit =>
    ({ s with units := s.units.modify unit UnitOfWork.reopen }.leaveUnit unit).forget call

/-- A call is given up where it has to wait for others. What it has saved stays saved, what it has
published stays published, and a unit of work whose save it was in gathers again. -/
def abort? (s : System) (call : Nat) : Option System :=
  match s.calls.get? call with
  | none => none
  | some stage =>
    match stage with
    | .loading .. | .reloading _ | .draining => some (s.forget call)
    | .queued unit =>
      some ((s.leaveQueue call unit).forget call)
    | .held purpose _ | .saving purpose .. => some (s.dropSave call purpose)
    | .dispatching none _ => some (s.forget call)
    | .dispatching (some (unit, _)) _ => some ((s.leaveUnit unit).forget call)
    | .loaded .. | .deciding .. | .entered _ | .saved .. | .finished _ => none

/-! ### Units of work -/

/-- A new unit of work: its number. -/
def newUnit (s : System) (mode : DispatchMode) : Nat × System :=
  let unit := s.lastUnit + 1
  (unit, { s with lastUnit := unit }.putUnit unit { id := .random unit, mode })

/-- Registers events on a unit of work: how many it holds then, or what is said if it is
too late. -/
def register (s : System) (unit : Nat) (events : List Event) : Except String Nat × System :=
  match s.units.get? unit with
  | none => (.ok 0, s)
  | some u =>
    match u.register events with
    | .error message => (.error message, s)
    | .ok u => (.ok u.events.length, s.putUnit unit u)

/-- Drops the events of a unit of work. -/
def rollback (s : System) (unit : Nat) : Except CommitError Unit × System :=
  match s.units.get? unit with
  | none => (.ok (), s)
  | some u =>
    match u.rollback with
    | .error e => (.error e, s)
    | .ok u => (.ok (), s.putUnit unit u)

/-! ### The dispatcher and the queue -/

/-- Puts a handler on some topics. -/
def subscribe (s : System) (handler : Handler) (topics : List String) :
    Except DispatchError (List Nat) × System :=
  let (answer, dispatcher) := s.dispatcher.subscribeAll handler topics
  (answer, { s with dispatcher })

/-- The deliveries that some registrations have not judged yet. -/
def pendingTickets (s : System) (registrations : List Registration) : List Nat :=
  registrations.flatMap fun r => (s.dispatcher.transport.pending r.id).map Delivery.ticket

/-- Removes a registration; whether there was one. -/
def unsubscribe (s : System) (id : Nat) : Bool × System :=
  let stopped := s.dispatcher.registrations.filter (·.id = id)
  let abandoned := s.pendingTickets stopped
  let (removed, dispatcher) := s.dispatcher.unsubscribe id
  let admitted := stopped.flatMap fun r => (dispatcher.gate r.handler.label).admitted
  (removed, ({ s with dispatcher }.wakeAwaiting abandoned).wakeAll (admitted.map .worker))

/-- Closes the dispatcher. -/
def close (s : System) : System :=
  let abandoned := s.pendingTickets s.dispatcher.registrations
  { s with dispatcher := s.dispatcher.close }.wakeAwaiting abandoned

/-- Puts events into the queue without a commit. -/
def enqueue (s : System) (unit : Uuid) (envelopes : List Envelope) :
    Except DispatchError Unit × System :=
  match s.queue.bind (·.enqueue? ⟨unit, envelopes⟩) with
  | some queue => (.ok (), { s with queue := some queue }.wake .queue)
  | none => (.error .closed, s)

/-! ### Permits, records and refusals -/

/-- Permits for saves. -/
def release (s : System) (n : Nat) : System :=
  match s.saveGate with
  | none => s
  | some gate =>
    let gate := gate.release n
    { s with saveGate := some gate }.wakeAll (gate.admitted.map .call)

/-- Permits for the handler with a label. -/
def releaseHandler (s : System) (label : String) (n : Nat) : System :=
  let (admitted, dispatcher) := s.dispatcher.release label n
  { s with dispatcher }.wakeAll (admitted.map .worker)

/-- Puts records into the storage directly, which no request tells of. -/
def inject (s : System) (records : List Record) : Except BackendError Unit × System :=
  match s.storage.journal.commit (({} : Transaction).stage records) with
  | .error e => (.error e, s)
  | .ok journal => (.ok (), { s with storage := { s.storage with journal } })

/-- A further refusal to come. -/
def fault (s : System) (fault : Fault) : System :=
  { s with storage := { s.storage with faults := s.storage.faults ++ [fault] } }

/-- What the clock shows from now on. -/
def tick (s : System) (now : Time) : System := { s with clock := now }

end EventJournal.System
