import EventJournal.EventType
import EventJournal.Gate
import EventJournal.Handler

/-!
# The dispatcher

Tells handlers of saved events. Each event is published under every topic of its type; each
registration of a handler on a topic has a worker, which takes the deliveries one after another, has
the handler react and reports a verdict. A dispatch ends when all its deliveries have verdicts.

* `Dispatcher`, `Registration`; `Dispatcher.subscribe`, `Dispatcher.unsubscribe`,
  `Dispatcher.close`;
* `Dispatcher.work?`, the next step of a worker;
* `Dispatching`, a dispatch under way, and `Dispatching.step?`, its next step;
* `DispatchError`, `HandlerFailure`, what a dispatch reports.
-/

namespace EventJournal

/-- A delivery that was not handled. -/
structure HandlerFailure where
  handler : String
  topic : String
  eventType : String
  eventId : Uuid
  cause : String
  deriving DecidableEq, Repr

/-- The wording of a failure. -/
def HandlerFailure.message (f : HandlerFailure) : String :=
  "handler '" ++ f.handler ++ "' failed on " ++ f.eventType ++ " (" ++ f.eventId.toString ++
    ") via topic '" ++ f.topic ++ "': " ++ f.cause

/-- Why a dispatch does not succeed. -/
inductive DispatchError
  | closed
  /-- The payload of an event cannot be written. -/
  | encode (eventId : Uuid) (source : EventError)
  | transport (source : TransportError)
  | handlerFailures (failures : List HandlerFailure)
  deriving DecidableEq, Repr

namespace DispatchError

/-- The wording of each error. -/
def message : DispatchError → String
  | .closed => "dispatcher is closed"
  | .encode eventId source =>
    "failed to encode event " ++ eventId.toString ++ " for transport: " ++ source.message
  | .transport source => "transport error: " ++ source.message
  | .handlerFailures failures =>
    String.ofList (Numeral.natural failures.length) ++ " handler failure(s): " ++
      String.intercalate "; " (failures.map HandlerFailure.message)

/-- The name of each kind of error. -/
def code : DispatchError → String
  | .closed => "Dispatch.Closed"
  | .encode .. => "Dispatch.Encode"
  | .transport _ => "Dispatch.Transport"
  | .handlerFailures _ => "Dispatch.HandlerFailures"

/-- The failures that an error reports. -/
def failures : DispatchError → List HandlerFailure
  | .handlerFailures failures => failures
  | _ => []

end DispatchError

/-- A handler on a topic; the number is that of the subscription. -/
structure Registration where
  id : Nat
  topic : String
  handler : Handler

/-- Registrations, and the transport that serves them. -/
structure Dispatcher where
  registry : Registry := .empty
  transport : Transport := {}
  /-- The registrations on each topic. -/
  handlers : Directory Registration.topic := .empty
  /-- Where the workers of a handler wait for permits, by the label of the handler. -/
  gates : Table String (Gate Nat) := .empty
  closed : Bool := false

/-- What a worker has done in a step. -/
inductive WorkerStep
  /-- It has taken a delivery. A handler is called with what can be read. -/
  | took (label : String) (envelope : Option Envelope)
  /-- It has asked for a permit. -/
  | asked
  /-- It has judged a delivery; a failure counts for the handler. -/
  | judged (ticket : Nat) (handler : String) (verdict : Verdict)

namespace Dispatcher

/-- The registrations on a topic. -/
def registered (d : Dispatcher) (topic : String) : List Registration := d.handlers.get topic

/-- All registrations, in the order in which they were made. -/
def registrations (d : Dispatcher) : List Registration := d.handlers.inOrder Registration.id

/-- Where the workers of a handler wait for permits. -/
def gate (d : Dispatcher) (label : String) : Gate Nat := (d.gates.get? label).getD {}

/-- Puts a handler on a topic. -/
def subscribe (d : Dispatcher) (topic : String) (handler : Handler) :
    Except DispatchError (Nat × Dispatcher) :=
  if d.closed then .error .closed
  else
    match d.transport.subscribe topic handler.name with
    | .error e => .error (.transport e)
    | .ok (id, transport) =>
      .ok (id, { d with transport, handlers := d.handlers.add ⟨id, topic, handler⟩ })

/-- Puts a handler on some topics one after another, up to the first refusal. -/
def subscribeAll (d : Dispatcher) (handler : Handler) :
    List String → Except DispatchError (List Nat) × Dispatcher
  | [] => (.ok [], d)
  | topic :: rest =>
    match d.subscribe topic handler with
    | .error e => (.error e, d)
    | .ok (id, d) =>
      match d.subscribeAll handler rest with
      | (.error e, d) => (.error e, d)
      | (.ok ids, d) => (.ok (id :: ids), d)

/-- Stops the worker of a registration; what it has not judged is abandoned. -/
def stop (d : Dispatcher) (r : Registration) : Dispatcher :=
  { d with
    transport := d.transport.dropReader r.id
    gates := d.gates.modify r.handler.label (·.leave r.id) }

/-- Removes a registration; whether there was one. -/
def unsubscribe (d : Dispatcher) (id : Nat) : Bool × Dispatcher :=
  let rest := { d with
    transport := (d.transport.unsubscribe id).2
    handlers := d.handlers.retain (·.id ≠ id) }
  match d.registrations.find? (·.id = id) with
  | none => (false, rest)
  | some r => (true, rest.stop r)

/-- Ends everything: no more subscriptions and dispatches, and all workers stop. -/
def close (d : Dispatcher) : Dispatcher :=
  if d.closed then d
  else
    d.registrations.foldl stop
      { d with closed := true, transport := d.transport.close, handlers := .empty }

/-- How many handlers are on a topic. -/
def handlerCount (d : Dispatcher) (topic : String) : Nat := (d.registered topic).length

/-- The names of the handlers on a topic. -/
def handlerNames (d : Dispatcher) (topic : String) : List String :=
  (d.registered topic).map (·.handler.name)

/-- The topics that handlers are listed under, in order. -/
def topics (d : Dispatcher) : List String := d.handlers.topics.mergeSort (· ≤ ·)

/-! ### Workers -/

/-- The envelope in a delivery, or what is said of one that cannot be read. -/
def envelope? (d : Dispatcher) (delivery : Delivery) : Except String Envelope :=
  match delivery.message.toEnvelope d.registry with
  | .ok envelope => .ok envelope
  | .error e => .error ("failed to reconstruct envelope: " ++ e.message)

/-- Takes the next delivery, if one waits. -/
def take? (d : Dispatcher) (r : Registration) : Option (WorkerStep × Dispatcher) :=
  match d.transport.receive r.id with
  | (.delivery delivery, transport) =>
    some (.took r.handler.label (d.envelope? delivery).toOption, { d with transport })
  | _ => none

/-- Reports a verdict. -/
def conclude (d : Dispatcher) (r : Registration) (delivery : Delivery) (verdict : Verdict) :
    WorkerStep × Dispatcher :=
  (.judged delivery.ticket r.handler.name verdict,
   { d with transport := d.transport.settle delivery.ticket verdict })

/-- What the handler does about the delivery in hand, once its worker has any permit it needs. -/
def reaction (d : Dispatcher) (r : Registration) (delivery : Delivery) :
    Except String Handler.Reaction :=
  (d.envelope? delivery).map fun envelope => r.handler.react delivery.ticket envelope

/-- Judges the delivery in hand. Where the handler needs a permit, its worker asks for one first and
has to wait until it has been given one. -/
def judge? (d : Dispatcher) (r : Registration) (delivery : Delivery) :
    Option (WorkerStep × Dispatcher) :=
  match d.reaction r delivery with
  | .error cause => some (d.conclude r delivery (.error cause))
  | .ok (.now outcome) => some (d.conclude r delivery outcome.verdict)
  | .ok (.afterPermit outcome) =>
    let gate := d.gate r.handler.label
    match gate.pass? r.id with
    | some gate =>
      some ({ d with gates := d.gates.set r.handler.label gate }.conclude r delivery
        outcome.verdict)
    | none =>
      if gate.waiting.contains r.id then none
      else some (.asked, { d with gates := d.gates.set r.handler.label (gate.join r.id) })

/-- The next step of the worker of a registration, none if there is nothing to do. -/
def work? (d : Dispatcher) (id : Nat) : Option (WorkerStep × Dispatcher) :=
  match d.registrations.find? (·.id = id) with
  | none => none
  | some r =>
    match d.transport.heldBy? id with
    | some delivery => d.judge? r delivery
    | none => d.take? r

/-- What the next step of a worker is charged: one for a delivery that it takes and one for a permit
that it uses. No charge at all, not even nothing, is made for steps that leave both alone. -/
def charge? (d : Dispatcher) (id : Nat) : Option Nat :=
  match d.registrations.find? (·.id = id) with
  | none => none
  | some r =>
    match d.transport.heldBy? id with
    | none => some 1
    | some delivery =>
      match d.reaction r delivery with
      | .ok (.afterPermit _) => some (if (d.gate r.handler.label).admitted.contains id then 1 else 0)
      | _ => none

/-- Gives a handler permits; the workers that have one now. -/
def release (d : Dispatcher) (label : String) (n : Nat) : List Nat × Dispatcher :=
  let gate := (d.gate label).release n
  (gate.admitted, { d with gates := d.gates.set label gate })

end Dispatcher

/-! ### Dispatches -/

/-- A message to be published on one topic. -/
structure Posting where
  topic : String
  message : Message
  eventType : String
  /-- Whether it is the first one of its event. -/
  first : Bool

/-- A delivery whose verdict is awaited. -/
structure Awaited where
  receipt : Receipt
  eventType : String
  eventId : Uuid

/-- What is reported of a delivery that was not handled. -/
def Awaited.failure (a : Awaited) (cause : String) : HandlerFailure :=
  ⟨a.receipt.subscriber, a.receipt.topic, a.eventType, a.eventId, cause⟩

/-- A dispatch under way. -/
inductive Dispatching
  | starting (envelopes : List Envelope)
  /-- Some messages are still to be published. -/
  | publishing (rest : List Posting) (awaited : List Awaited)
  /-- Some verdicts are still to come; the failures so far, the latest first. -/
  | awaiting (rest : List Awaited) (failures : List HandlerFailure)
  | done (result : Except DispatchError Unit)

namespace Dispatching

/-- The postings of a message under the topics of its event. -/
def postings (envelope : Envelope) (message : Message) : List Posting :=
  match EventType.topics envelope.event.eventType with
  | [] => []
  | topic :: rest =>
    ⟨topic, message, envelope.event.eventType, true⟩ ::
      rest.map fun topic => ⟨topic, message, envelope.event.eventType, false⟩

/-- The postings of envelopes, or the first that cannot be written. -/
def post : List Envelope → Except DispatchError (List Posting)
  | [] => .ok []
  | envelope :: rest =>
    match Message.ofEnvelope envelope with
    | .error e => .error (.encode envelope.id e)
    | .ok message =>
      match post rest with
      | .error e => .error e
      | .ok later => .ok (postings envelope message ++ later)

/-- The result once all verdicts are in. -/
def conclude (failures : List HandlerFailure) : Except DispatchError Unit :=
  match failures.reverse with
  | [] => .ok ()
  | failures => .error (.handlerFailures failures)

/-- Where a dispatch stands after a step. -/
structure Advance where
  next : Dispatching
  dispatcher : Dispatcher
  /-- The type of an event that has just been handed over. -/
  counted : Option String := none
  /-- The subscriptions that have something new in their inboxes. -/
  reached : List Nat := []

/-- The next step of a dispatch: to publish one message on one topic, or to take note of one
verdict. None while the next verdict has not come. -/
def step? (d : Dispatcher) : Dispatching → Option Advance
  | .starting envelopes =>
    if d.closed then some ⟨.done (.error .closed), d, none, []⟩
    else
      match post envelopes with
      | .error e => some ⟨.done (.error e), d, none, []⟩
      | .ok postings => some ⟨.publishing postings [], d, none, []⟩
  | .publishing [] awaited => some ⟨.awaiting awaited [], d, none, []⟩
  | .publishing (p :: rest) awaited =>
    let counted := if p.first then some p.eventType else none
    match d.transport.publish p.topic p.message with
    | .error e => some ⟨.done (.error (.transport e)), d, counted, []⟩
    | .ok (receipts, transport) =>
      some {
        next := .publishing rest
          (awaited ++ receipts.map fun receipt => ⟨receipt, p.eventType, p.message.id⟩)
        dispatcher := { d with transport }
        counted
        reached := receipts.map Receipt.subscription }
  | .awaiting [] failures => some ⟨.done (conclude failures), d, none, []⟩
  | .awaiting (a :: rest) failures =>
    match d.transport.verdict? a.receipt.ticket with
    | none => none
    | some (.ok ()) => some ⟨.awaiting rest failures, d, none, []⟩
    | some (.error cause) => some ⟨.awaiting rest (a.failure cause :: failures), d, none, []⟩
  | .done _ => none

/-- Whether a dispatch still waits for the verdict on a delivery. -/
def awaits (d : Dispatching) (ticket : Nat) : Bool :=
  match d with
  | .publishing _ awaited => awaited.any (·.receipt.ticket == ticket)
  | .awaiting rest _ => rest.any (·.receipt.ticket == ticket)
  | _ => false

end Dispatching

end EventJournal
