import EventJournal.Event
import EventJournal.Json.Fields
import EventJournal.Registry

/-!
# Account events

A second family of payloads, with a variant that has no content.

* `Account.Event`, its codec and its instance of `Payload`;
* `Account.register` for its three event types.
-/

namespace EventJournal.Account

/-- What can happen to an account. -/
inductive Event
  | opened (owner : String)
  | deposited (amount : Int)
  | closed
  deriving DecidableEq, Repr

/-- The event types of accounts. -/
def eventTypes : List String := ["account.opened", "account.deposited", "account.closed"]

namespace Event

/-- The event type that an event states. -/
def eventType : Event → String
  | .opened _ => "account.opened"
  | .deposited _ => "account.deposited"
  | .closed => "account.closed"

/-- An event as a JSON value. -/
def toJson : Event → Json
  | .opened owner => .tagged "Opened" [("owner", .string owner)]
  | .deposited amount => .tagged "Deposited" [("amount", .ofInt amount)]
  | .closed => .taggedUnit "Closed"

/-- Reads an event. The variant without content also takes `null` for it. -/
def ofForm? (form : Json.Form) : Option Event := do
  match ← form.tagged? with
  | ("Opened", some content) =>
    let fields ← content.fields? ["owner"]
    let owner ← Json.required Json.Form.string? fields "owner"
    some (.opened owner)
  | ("Deposited", some content) =>
    let fields ← content.fields? ["amount"]
    let amount ←
      Json.required (Json.Form.integer? Numeral.minInt64 Numeral.maxInt64) fields "amount"
    some (.deposited amount)
  | ("Closed", none) => some .closed
  | ("Closed", some .null) => some .closed
  | _ => none

end Event

instance : Payload Event where
  eventType := Event.eventType
  encode e := some e.toJson.toBytes
  decode bytes := (Json.Form.ofBytes? bytes).bind Event.ofForm?

/-- Decodes every event type of accounts as account events. -/
def register (registry : Registry) : Registry := registry.register Event eventTypes

end EventJournal.Account
