import EventJournal.DispatchQueue
import EventJournal.Metrics
import EventJournal.System.Call

/-!
# Systems

A system is a store, a dispatcher and, for detached commits, a queue, with the units of work and the
calls under way. Its agents take one small step at a time: each call, the worker of the queue and
the worker of each subscription.

* `System`, `Agent`, `Batch`;
* `System.wake`, `System.count`, `System.finish`: what steps have in common;
* `System.fetch`, stored events, and `System.loadOrder`, a stored order.
-/

namespace EventJournal

/-- Somebody who takes steps. -/
inductive Agent
  | call (id : Nat)
  | queue
  | worker (subscription : Nat)
  deriving DecidableEq, Repr

/-- Saved events in the queue, with the unit of work that they come from. -/
structure Batch where
  unit : Uuid
  envelopes : List Envelope

/-- The state of a system. -/
structure System where
  registry : Registry := .empty
  options : StoreOptions := {}
  /-- The ids that saved events are given, one after another. -/
  newId : Nat → Uuid := Uuid.timed 0
  /-- What the clock shows. -/
  clock : Time
  /-- What has been counted, in a system that counts. -/
  metrics : Option Metrics := none
  storage : Watched := {}
  /-- Where saves wait for permits, in a system where they need some. -/
  saveGate : Option (Gate Nat) := none
  dispatcher : Dispatcher := {}
  queue : Option (DispatchQueue Batch Dispatching) := none
  units : Table Nat UnitOfWork := .empty
  /-- The last number given to a unit of work. -/
  lastUnit : Nat := 0
  calls : Table Nat Call.Stage := .empty
  /-- The last number given to a call. -/
  lastCall : Nat := 0
  /-- How many ids have been given. -/
  ids : Nat := 0
  /-- What successful saves saved, the first save in front. -/
  saves : List (List Envelope) := []
  /-- The events that handlers have been called with, by the labels of the handlers, the latest call
  in front. -/
  heard : List (String × Envelope) := []
  /-- The agents that may have something to do, the first to be served in front. -/
  ready : List Agent := []

namespace System

/-- The store of a system. -/
def store (s : System) : Store Watched Transaction where
  backend := Watched.backend
  options := s.options
  registry := s.registry

/-- How commands to orders and units of work that ask for it get their events to the handlers. -/
def mode (s : System) : DispatchMode := if s.queue.isSome then .detached else .synchronous

/-- An agent may have something to do. -/
def wake (s : System) (agent : Agent) : System :=
  if s.ready.contains agent then s else { s with ready := s.ready ++ [agent] }

/-- Some agents may have something to do. -/
def wakeAll (s : System) (agents : List Agent) : System := agents.foldl wake s

/-- Counts something, in a system that counts. -/
def count (s : System) (record : Metrics → Metrics) : System :=
  { s with metrics := s.metrics.map record }

/-- A call gets to another stage. -/
def putCall (s : System) (call : Nat) (stage : Call.Stage) : System :=
  { s with calls := s.calls.set call stage }

/-- A call ends. -/
def finish (s : System) (call : Nat) (outcome : Call.Outcome) : System :=
  s.putCall call (.finished outcome)

/-- Changes a unit of work. -/
def putUnit (s : System) (unit : Nat) (u : UnitOfWork) : System :=
  { s with units := s.units.set unit u }

/-- The agents that wait for the verdict on a delivery. -/
def awaiting (s : System) (ticket : Nat) : List Agent :=
  let calls := s.calls.entries.filterMap fun (call, stage) =>
    if stage.awaits ticket then some (.call call) else none
  match s.queue.bind DispatchQueue.working with
  | some dispatch => if dispatch.awaits ticket then calls ++ [.queue] else calls
  | none => calls

/-- Some deliveries have been judged. -/
def wakeAwaiting (s : System) (tickets : List Nat) : System :=
  tickets.foldl (fun s ticket => s.wakeAll (s.awaiting ticket)) s

/-- The stored events of an aggregate from a sequence number on. -/
def fetch (s : System) (aggregateId : String) (fromSequence : Int) :
    Except StoreError (List Envelope) × System :=
  let (answer, storage) := s.store.loadFrom aggregateId fromSequence s.storage
  (answer, { s with storage })

/-- The state of a stored order, none if it has no events. -/
def loadOrder (s : System) (orderId : String) : Except Call.Error (Option Order) × System :=
  let (answer, storage) := s.store.load orderId s.storage
  let order :=
    match answer with
    | .error e => .error (.loadOrder orderId e)
    | .ok envelopes => (Order.replay? envelopes).mapError .replay
  (order, { s with storage })

/-- What handlers have been called with since an earlier state, in the order of the calls. -/
def heardSince (s earlier : System) : List (String × Envelope) :=
  (s.heard.take (s.heard.length - earlier.heard.length)).reverse

@[simp] theorem clock_wake (s : System) (agent : Agent) : (s.wake agent).clock = s.clock := by
  unfold wake
  split <;> rfl

@[simp] theorem storage_wake (s : System) (agent : Agent) : (s.wake agent).storage = s.storage := by
  unfold wake
  split <;> rfl

end System

end EventJournal
