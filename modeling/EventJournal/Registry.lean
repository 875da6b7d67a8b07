import EventJournal.Event
import EventJournal.Text.Quoted

/-!
# The registry of payload types

Stored bytes become events again through the decoder that is registered for their event type; bytes
of an unregistered type stay as they are.

* `Registry`, `Registry.register`: the last registration of a type counts;
* `Registry.decode`, tagged decoding;
* `Registry.eventTypes`, `Registry.describe`, what is registered.
-/

namespace EventJournal

/-- Makes an event of a header and its stored bytes. -/
abbrev Decoder := EventHeader → ByteArray → Except EventError Event

/-- The decoder of a payload type: the payload has to state the type of the header. -/
def Decoder.of (P : Type) [Payload P] : Decoder := fun header bytes =>
  match decodeTyped P header.eventType bytes with
  | .error e => .error e
  | .ok payload => .ok (DomainEvent.ofHeader header payload).toEvent

/-- The decoders of event types, the latest registration first. -/
structure Registry where
  decoders : List (String × Decoder) := []

namespace Registry

/-- The registry without decoders. -/
def empty : Registry := {}

/-- Decodes the given event types as payloads of type `P`. -/
def register (registry : Registry) (P : Type) [Payload P] (eventTypes : List String) : Registry :=
  eventTypes.foldl (fun r type => ⟨(type, Decoder.of P) :: r.decoders⟩) registry

/-- The decoder of an event type. -/
def decoder? (registry : Registry) (eventType : String) : Option Decoder :=
  registry.decoders.lookup eventType

/-- Whether an event type has a decoder. -/
def isRegistered (registry : Registry) (eventType : String) : Bool :=
  (registry.decoder? eventType).isSome

/-- The event of a header and its stored bytes. -/
def decode (registry : Registry) (header : EventHeader) (bytes : ByteArray) :
    Except EventError Event :=
  match registry.decoder? header.eventType with
  | some decoder => decoder header bytes
  | none => .ok (Event.raw header bytes)

/-- The registered event types in order, each once. -/
def eventTypes (registry : Registry) : List String :=
  ((registry.decoders.map Prod.fst).eraseDups).mergeSort (· ≤ ·)

/-- A line for logs that names the registered event types. -/
def describe (registry : Registry) : String :=
  "EventRegistry \x7b event_types: [" ++
    String.intercalate ", " (registry.eventTypes.map Text.debugQuote) ++ "] \x7d"

@[simp] theorem decode_empty (header : EventHeader) (bytes : ByteArray) :
    empty.decode header bytes = .ok (Event.raw header bytes) := rfl

end Registry

end EventJournal
