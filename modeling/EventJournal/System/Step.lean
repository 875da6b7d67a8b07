import EventJournal.System.State

/-!
# The steps of a system

Each agent has at most one next step, and none while it has to wait for another. Nothing is held
from one step to the next but what the state says, so that agents may take their steps in any order.

* `System.stepCall?`, the next step of a call, by its stage;
* `System.stepQueue?`, the next step of the worker of the queue;
* `System.stepWorker?`, the next step of the worker of a subscription;
* `System.step?`, the next step of any agent.
-/

namespace EventJournal.System

/-! ### Commits -/

/-- A call comes to the gate of a unit of work. -/
def approach (s : System) (call unit : Nat) (u : UnitOfWork) : System :=
  (s.putUnit unit { u with gate := u.gate.join call }).putCall call (.queued unit)

/-- A call leaves a unit of work, and the next one may enter. -/
def leaveUnit (s : System) (unit : Nat) : System :=
  match s.units.get? unit with
  | none => s
  | some u => (s.putUnit unit u.leave).wakeAll (u.leave.gate.admitted.map .call)

/-- A commit ends, and is counted if it came to anything. -/
def endCommit (s : System) (call unit : Nat) (ending : Option UnitOfWork.Ending)
    (outcome : Call.Outcome) : System :=
  let s :=
    match ending with
    | some ending => s.count (·.recordCommit ending.label)
    | none => s
  (s.leaveUnit unit).finish call outcome

/-- Events are handed to the store, where they may have to wait for a permit. -/
def submit (s : System) (call : Nat) (purpose : Call.Purpose) (events : List Event) : System :=
  let saveGate := s.saveGate.map fun gate => gate.join call
  { s with saveGate }.putCall call (.held purpose events)

/-- A call passes the gate of a unit of work. -/
def enter? (s : System) (call unit : Nat) : Option System :=
  match s.units.get? unit with
  | none => none
  | some u =>
    match u.gate.pass? call with
    | none => none
    | some gate => some ((s.putUnit unit { u with gate }).putCall call (.entered unit))

/-- A commit fixes the events of its unit. A unit without events is committed at once. -/
def beginCommit (s : System) (call unit : Nat) : System :=
  match s.units.get? unit with
  | none => s.finish call (.ok (.saved []))
  | some u =>
    match u.begin with
    | .error e => s.endCommit call unit none (.error (.commit e))
    | .ok ([], u) =>
      (s.putUnit unit u).endCommit call unit (some .empty) (.ok (.saved []))
    | .ok (events, u) => (s.putUnit unit u).submit call (.commit unit) events

/-- The save of a call has failed. -/
def failSave (s : System) (call : Nat) (purpose : Call.Purpose) (e : StoreError) : System :=
  match purpose with
  | .itself => s.finish call (.error (.store e))
  | .commit unit =>
    { s with units := s.units.modify unit UnitOfWork.reopen }.endCommit call unit
      (some .storeFailed) (.error (.commit (.store e)))

/-- The save of a call has succeeded. -/
def completeSave (s : System) (call : Nat) (purpose : Call.Purpose) (envelopes : List Envelope) :
    System :=
  match purpose with
  | .itself => s.finish call (.ok (.saved envelopes))
  | .commit unit =>
    { s with units := s.units.modify unit UnitOfWork.complete }.putCall call (.saved unit envelopes)

/-- A call that has its permit, or needs none, starts to save. -/
def startSave (s : System) (call : Nat) (purpose : Call.Purpose) (events : List Event) : System :=
  match events with
  | [] => s.completeSave call purpose []
  | events =>
    let entries := prepare s.newId s.clock s.ids events
    let s := { s with ids := s.ids + events.length }
    match entries with
    | .error e => s.failSave call purpose (.event e)
    | .ok entries =>
      s.putCall call
        (.saving purpose (entries.map Prod.snd) s.clock (.opening (entries.map Prod.fst)))

/-- A call with events to save goes on when there is a permit for it. -/
def admit? (s : System) (call : Nat) (purpose : Call.Purpose) (events : List Event) :
    Option System :=
  match s.saveGate with
  | none => some (s.startSave call purpose events)
  | some gate =>
    match gate.pass? call with
    | none => none
    | some gate => some ({ s with saveGate := some gate }.startSave call purpose events)

/-- The seconds from a time until now. -/
def secondsSince (s : System) (since : Time) : Binary64 :=
  .ofDecimal (since.nanosecondsUntil s.clock) 9

/-- A save makes its next request. Its end is counted. -/
def advanceSave (s : System) (call : Nat) (purpose : Call.Purpose) (envelopes : List Envelope)
    (since : Time) (save : Saving Transaction) : System :=
  let (save, storage) := save.step Watched.backend s.options s.storage
  let s := { s with storage }
  match save with
  | .done (.ok ()) =>
    let s := s.count (·.recordSave envelopes.length (s.secondsSince since) true)
    { s with saves := s.saves ++ [envelopes] }.completeSave call purpose envelopes
  | .done (.error e) =>
    (s.count (·.recordSave envelopes.length (s.secondsSince since) false)).failSave call purpose e
  | save => s.putCall call (.saving purpose envelopes since save)

/-- The result of a commit whose events are saved. -/
def commitOutcome (envelopes : List Envelope) : Except DispatchError Unit → Call.Outcome
  | .ok () => .ok (.saved envelopes)
  | .error e => .error (.commit (.dispatch envelopes e))

/-- The events of a commit go to the queue, which counts the commit later, or they
are dispatched. -/
def handOver (s : System) (call unit : Nat) (envelopes : List Envelope) : System :=
  match s.units.get? unit with
  | none => s.finish call (.ok (.saved envelopes))
  | some u =>
    match u.mode with
    | .synchronous => s.putCall call (.dispatching (some (unit, envelopes)) (.starting envelopes))
    | .detached =>
      match s.queue.bind (·.enqueue? ⟨u.id, envelopes⟩) with
      | some queue =>
        ({ s with queue := some queue }.wake .queue).endCommit call unit none
          (.ok (.saved envelopes))
      | none =>
        s.endCommit call unit (some .dispatchFailed) (commitOutcome envelopes (.error .closed))

/-! ### Dispatches -/

/-- A dispatch has taken a step: what it handed over is counted, and whoever got something may go
on. -/
def noteDispatch (s : System) (advance : Dispatching.Advance) : System :=
  let s := { s with dispatcher := advance.dispatcher }
  let s :=
    match advance.counted with
    | some eventType => s.count (·.recordDispatch eventType)
    | none => s
  s.wakeAll (advance.reached.map .worker)

/-- The dispatch of a call has ended. -/
def endDispatch (s : System) (call : Nat) (commit : Option (Nat × List Envelope))
    (result : Except DispatchError Unit) : System :=
  match commit with
  | none =>
    match result with
    | .ok () => s.finish call (.ok .nothing)
    | .error e => s.finish call (.error (.dispatch e))
  | some (unit, envelopes) =>
    s.endCommit call unit (some (.ofDispatch result)) (commitOutcome envelopes result)

/-- The dispatch of a call takes its next step. -/
def advanceDispatch? (s : System) (call : Nat) (commit : Option (Nat × List Envelope))
    (dispatch : Dispatching) : Option System :=
  match dispatch.step? s.dispatcher with
  | none => none
  | some advance =>
    let s := s.noteDispatch advance
    match advance.next with
    | .done result => some (s.endDispatch call commit result)
    | next => some (s.putCall call (.dispatching commit next))

/-! ### Commands -/

/-- Loads the order that a command is for. -/
def loadForCommand (s : System) (call : Nat) (orderId : String) (command : Order.Command) :
    System :=
  match s.loadOrder orderId with
  | (.error e, s) => s.finish call (.error e)
  | (.ok order, s) => s.putCall call (.loaded orderId command order)

/-- Reads the time at which a command is decided. -/
def timeCommand (s : System) (call : Nat) (orderId : String) (command : Order.Command)
    (order : Option Order) : System :=
  s.putCall call (.deciding orderId command order s.clock)

/-- Decides a command at the time that was read for it, and commits the events that it leads to in a
unit of work of their own. These are created at a time of their own, which the clock shows now. -/
def decideCommand (s : System) (call : Nat) (orderId : String) (command : Order.Command)
    (order : Option Order) (now : Time) : System :=
  match Order.decideOn order now command with
  | .error e => s.finish call (.error (.rule e))
  | .ok payloads =>
    let events := DomainEvent.sequence orderId s.clock (Order.versionOf order) payloads
    let unit := s.lastUnit + 1
    let u : UnitOfWork :=
      { id := .random unit, mode := s.mode, events := events.map DomainEvent.toEvent }
    { s with lastUnit := unit }.approach call unit u

/-- Loads stored events and has them dispatched. -/
def reload (s : System) (call : Nat) (aggregateId : String) : System :=
  match s.fetch aggregateId Numeral.minInt64 with
  | (.error e, s) => s.finish call (.error (.store e))
  | (.ok envelopes, s) => s.putCall call (.dispatching none (.starting envelopes))

/-- A call that waits for the worker of the queue ends with it. -/
def drain? (s : System) (call : Nat) : Option System :=
  match s.queue with
  | some queue => if queue.ended then some (s.finish call (.ok .nothing)) else none
  | none => some (s.finish call (.ok .nothing))

/-! ### Agents -/

/-- The next step of a call. -/
def stepCall? (s : System) (call : Nat) : Option System :=
  match s.calls.get? call with
  | none => none
  | some stage =>
    match stage with
    | .loading orderId command => some (s.loadForCommand call orderId command)
    | .loaded orderId command order => some (s.timeCommand call orderId command order)
    | .deciding orderId command order now =>
      some (s.decideCommand call orderId command order now)
    | .queued unit => s.enter? call unit
    | .entered unit => some (s.beginCommit call unit)
    | .held purpose events => s.admit? call purpose events
    | .saving purpose envelopes since save => some (s.advanceSave call purpose envelopes since save)
    | .saved unit envelopes => some (s.handOver call unit envelopes)
    | .dispatching commit dispatch => s.advanceDispatch? call commit dispatch
    | .reloading aggregateId => some (s.reload call aggregateId)
    | .draining => s.drain? call
    | .finished _ => none

/-- The calls that wait for the worker of the queue. -/
def drainers (s : System) : List Agent :=
  s.calls.entries.filterMap fun (call, stage) =>
    match stage with
    | .draining => some (.call call)
    | _ => none

/-- The next step of the worker of the queue: it takes a batch, or the dispatch of the one at work
takes a step. The end of a batch counts as that of its commit. -/
def stepQueue? (s : System) : Option System :=
  match s.queue with
  | none => none
  | some queue =>
    match queue.working with
    | none =>
      match queue.take? fun batch => .starting batch.envelopes with
      | some queue => some { s with queue := some queue }
      | none =>
        match queue.end? with
        | some queue => some ({ s with queue := some queue }.wakeAll s.drainers)
        | none => none
    | some dispatch =>
      match dispatch.step? s.dispatcher with
      | none => none
      | some advance =>
        let s := s.noteDispatch advance
        match advance.next with
        | .done result =>
          let s := s.count (·.recordCommit (UnitOfWork.Ending.ofDispatch result).label)
          some { s with queue := some queue.finish }
        | next => some { s with queue := some (queue.advance next) }

/-- A worker has taken a step: what a handler hears is noted, and a failure is counted. -/
def noteWorker (s : System) : WorkerStep → System
  | .took label (some envelope) => { s with heard := (label, envelope) :: s.heard }
  | .took _ none => s
  | .asked => s
  | .judged ticket _ (.ok ()) => s.wakeAwaiting [ticket]
  | .judged ticket handler (.error _) =>
    (s.count (·.recordHandlerFailure handler)).wakeAwaiting [ticket]

/-- The next step of the worker of a subscription. -/
def stepWorker? (s : System) (subscription : Nat) : Option System :=
  match s.dispatcher.work? subscription with
  | none => none
  | some (done, dispatcher) => some ({ s with dispatcher }.noteWorker done)

/-- The next step of an agent. -/
def step? (s : System) : Agent → Option System
  | .call call => s.stepCall? call
  | .queue => s.stepQueue?
  | .worker subscription => s.stepWorker? subscription

/-- The state after some steps of agents, none if one of them had nothing to do. -/
def run? (s : System) : List Agent → Option System
  | [] => some s
  | agent :: rest =>
    match s.step? agent with
    | none => none
    | some s => s.run? rest

end EventJournal.System
