import EventJournal.Envelope
import EventJournal.Order.Command

/-!
# Orders

An order is the sum of its events. Commands are decided on its state, and the decided events are
applied to it.

* `Order`, the state after some events; `Order.begin`, `Order.apply`: the first and every later
  event;
* `Order.decideInitial`, `Order.decide`: the events that a command leads to, or why it is refused,
  and `Order.carryOut`, the state after them;
* `Order.replay`, the state after stored events, and `Order.ReplayError`.
-/

namespace EventJournal

/-- The state of an order. -/
structure Order where
  id : String
  version : Int
  customerId : Uuid
  items : List Order.Item
  status : Order.Status
  createdAt : Time
  updatedAt : Time
  trackingNumber : Option String
  carrier : Option String
  cancelledReason : Option String
  deriving DecidableEq

namespace Order

/-- Items may be ordered if there are some and every quantity is positive; the first that is not is
named. -/
def checkItems (items : List Item) : Except Error Unit :=
  match items with
  | [] => .error .emptyItems
  | items =>
    match items.find? (fun item => item.quantity.toInt ≤ 0) with
    | some item => .error (.invalidQuantity item.quantity)
    | none => .ok ()

/-- The order that its first event makes. -/
def begin (e : DomainEvent Event) : Except Error Order :=
  match e.data with
  | .created customerId items =>
    .ok {
      id := e.aggregateId
      version := e.sequenceNo
      customerId, items
      status := .created
      createdAt := e.createdAt
      updatedAt := e.createdAt
      trackingNumber := none
      carrier := none
      cancelledReason := none }
  | other => .error (.notInitialized other.eventType)

/-- What a later event changes, besides version and time. -/
def absorb (order : Order) : Event → Except Error Order
  | .created .. => .error .alreadyExists
  | .itemsUpdated items _ => .ok { order with items }
  | .confirmed _ => .ok { order with status := .confirmed }
  | .shipped trackingNumber carrier _ =>
    .ok { order with
      status := .shipped, trackingNumber := some trackingNumber, carrier := some carrier }
  | .delivered .. => .ok { order with status := .delivered }
  | .cancelled reason _ => .ok { order with status := .cancelled, cancelledReason := reason }

/-- The order after a later event. -/
def apply (order : Order) (e : DomainEvent Event) : Except Error Order :=
  (order.absorb e.data).map fun order =>
    { order with version := e.sequenceNo, updatedAt := e.createdAt }

/-- The events that a command leads to where there is no order yet. -/
def decideInitial : Command → Except Error (List Event)
  | .create customerId items =>
    match checkItems items with
    | .ok () => .ok [.created customerId items]
    | .error e => .error e
  | _ => .error .notFound

/-- The events that a command leads to at the time `now`. -/
def decide (order : Order) (now : Time) : Command → Except Error (List Event)
  | .create .. => .error .alreadyExists
  | .updateItems items reason =>
    match order.status with
    | .created =>
      match checkItems items with
      | .ok () => .ok [.itemsUpdated items reason]
      | .error e => .error e
    | .cancelled => .error .alreadyCancelled
    | status => .error (.invalidStatusTransition status)
  | .confirm =>
    match order.status with
    | .created => .ok [.confirmed now]
    | .confirmed => .error .alreadyConfirmed
    | .cancelled => .error .alreadyCancelled
    | status => .error (.invalidStatusTransition status)
  | .ship trackingNumber carrier =>
    match order.status with
    | .confirmed => .ok [.shipped trackingNumber carrier now]
    | .created => .error .notConfirmed
    | .cancelled => .error .alreadyCancelled
    | status => .error (.invalidStatusTransition status)
  | .deliver signature =>
    match order.status with
    | .shipped => .ok [.delivered now signature]
    | _ => .error .notShipped
  | .cancel reason cancelledBy =>
    match order.status with
    | .cancelled => .error .alreadyCancelled
    | .delivered => .error (.invalidStatusTransition .delivered)
    | _ => .ok [.cancelled reason cancelledBy]

/-- The events that a command leads to, with or without an order. -/
def decideOn (state : Option Order) (now : Time) (command : Command) : Except Error (List Event) :=
  match state with
  | none => decideInitial command
  | some order => order.decide now command

/-- The state after one more event, with or without an order before it. -/
def applyOn (state : Option Order) (e : DomainEvent Event) : Except Error Order :=
  match state with
  | none => begin e
  | some order => order.apply e

/-- The version of a state, 0 where there is no order. -/
def versionOf : Option Order → Int
  | none => 0
  | some order => order.version

/-- The state after some more events. -/
def applyAll (state : Option Order) : List (DomainEvent Event) → Except Error (Option Order)
  | [] => .ok state
  | e :: rest =>
    match applyOn state e with
    | .error err => .error err
    | .ok order => applyAll (some order) rest

/-- Carries a command out: the events that it leads to, which happen at the time `createdAt`, and
the state after them. -/
def carryOut (id : String) (createdAt now : Time) (state : Option Order) (command : Command) :
    Except Error (List Event × Option Order) :=
  match decideOn state now command with
  | .error e => .error e
  | .ok payloads =>
    match applyAll state (DomainEvent.sequence id createdAt (versionOf state) payloads) with
    | .error e => .error e
    | .ok after => .ok (payloads, after)

/-- Why stored events do not make an order. -/
inductive ReplayError
  | noEvents
  | unreadable (e : EventError)
  | first (e : Error)
  | later (sequenceNo : Int) (e : Error)
  deriving DecidableEq

/-- The wording of each error. -/
def ReplayError.message : ReplayError → String
  | .noEvents => "No events to load"
  | .unreadable e => e.message
  | .first e => "Failed to apply first event: " ++ e.message
  | .later sequenceNo e =>
    "Failed to apply event " ++ String.ofList (Numeral.integer sequenceNo) ++ ": " ++ e.message

/-- The order after further stored events. -/
def resume (order : Order) : List Envelope → Except ReplayError Order
  | [] => .ok order
  | envelope :: rest =>
    match DomainEvent.ofEnvelope envelope with
    | .error e => .error (.unreadable e)
    | .ok event =>
      match order.apply event with
      | .error e => .error (.later event.sequenceNo e)
      | .ok order => resume order rest

/-- The order after all its stored events. -/
def replay : List Envelope → Except ReplayError Order
  | [] => .error .noEvents
  | envelope :: rest =>
    match DomainEvent.ofEnvelope envelope with
    | .error e => .error (.unreadable e)
    | .ok event =>
      match begin event with
      | .error e => .error (.first e)
      | .ok order => resume order rest

/-- The order after stored events, none where there are none. -/
def replay? (envelopes : List Envelope) : Except ReplayError (Option Order) :=
  match envelopes with
  | [] => .ok none
  | envelopes => (replay envelopes).map some

end Order

end EventJournal
