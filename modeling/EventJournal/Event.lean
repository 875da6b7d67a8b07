import EventJournal.Calendar.Time
import EventJournal.Text.Numeral

/-!
# Events

An event belongs to an aggregate, has a place in its stream, a type and a payload of bytes.

* `Event`, `EventHeader`: what the store and the transport know of an event;
* `EventError`, why an event cannot be written or read, and its wording;
* `Payload`, the codec of a type of payloads that state their own event types;
* `DomainEvent`, an event with a typed payload, and `DomainEvent.toEvent`, which forgets the type.
-/

namespace EventJournal

/-- Why an event cannot be written or read back. -/
inductive EventError
  | serialization (eventType : String)
  | deserialization (eventType : String)
  | typeMismatch (expected found : String)
  | missingField (field : String)
  | invalidField (field : String)
  | invalidNumber (field : String) (fault : Numeral.Fault)
  deriving DecidableEq, Repr

/-- The wording of each error. -/
def EventError.message : EventError → String
  | .serialization type => "failed to serialize " ++ type ++ " event"
  | .deserialization type => "failed to deserialize " ++ type ++ " event"
  | .typeMismatch expected found =>
    "decoded payload reports type " ++ found ++ ", expected " ++ expected
  | .missingField field => "missing field '" ++ field ++ "'"
  | .invalidField field => "field '" ++ field ++ "' is invalid"
  | .invalidNumber field fault => "field '" ++ field ++ "' is invalid: " ++ fault.message

/-- The name of each kind of error. -/
def EventError.code : EventError → String
  | .serialization _ => "Event.Serialization"
  | .deserialization _ => "Event.Deserialization"
  | .typeMismatch .. => "Event.TypeMismatch"
  | .missingField _ => "Event.MissingField"
  | .invalidField _ | .invalidNumber .. => "Event.InvalidField"

/-- What is known of an event besides its payload. -/
structure EventHeader where
  eventType : String
  aggregateId : String
  sequenceNo : Int
  createdAt : Time
  deriving DecidableEq

/-- An event: its header and its payload, or why the payload cannot be written. -/
structure Event extends EventHeader where
  payload : Except EventError ByteArray

/-- The event of a header and payload bytes that nobody has looked into. -/
def Event.raw (header : EventHeader) (payload : ByteArray) : Event :=
  { header with payload := .ok payload }

/-- The codec of a type of payloads, and the event type that each payload states. -/
class Payload (P : Type) where
  eventType : P → String
  /-- The bytes of a payload, if it can be written. -/
  encode : P → Option ByteArray
  /-- The payload on these bytes, if there is one. -/
  decode : ByteArray → Option P

/-- Writes a payload, naming the given type if that fails. -/
def encodeAs (eventType : String) : Option ByteArray → Except EventError ByteArray
  | some bytes => .ok bytes
  | none => .error (.serialization eventType)

/-- Reads a payload, naming the given type if that fails. -/
def decodeAs (P : Type) [Payload P] (eventType : String) (bytes : ByteArray) :
    Except EventError P :=
  match Payload.decode bytes with
  | some payload => .ok payload
  | none => .error (.deserialization eventType)

/-- Reads a payload that must state the given type. -/
def decodeTyped (P : Type) [Payload P] (eventType : String) (bytes : ByteArray) :
    Except EventError P :=
  match decodeAs P eventType bytes with
  | .error e => .error e
  | .ok payload =>
    if Payload.eventType payload = eventType then .ok payload
    else .error (.typeMismatch eventType (Payload.eventType payload))

/-- A typed payload with its place in the stream of an aggregate. -/
structure DomainEvent (P : Type) where
  aggregateId : String
  sequenceNo : Int
  createdAt : Time
  data : P

namespace DomainEvent

variable {P : Type} [Payload P]

/-- The event that states the type of its payload. -/
def toEvent (e : DomainEvent P) : Event where
  eventType := Payload.eventType e.data
  aggregateId := e.aggregateId
  sequenceNo := e.sequenceNo
  createdAt := e.createdAt
  payload := encodeAs (Payload.eventType e.data) (Payload.encode e.data)

/-- The domain event of a header, whose type gives way to that of the payload. -/
def ofHeader (header : EventHeader) (data : P) : DomainEvent P :=
  ⟨header.aggregateId, header.sequenceNo, header.createdAt, data⟩

/-- Numbers fresh payloads as the events that follow `version` in the stream of an aggregate. -/
def sequence (aggregateId : String) (createdAt : Time) (version : Int) : List P →
    List (DomainEvent P)
  | [] => []
  | payload :: rest =>
    ⟨aggregateId, version + 1, createdAt, payload⟩ ::
      sequence aggregateId createdAt (version + 1) rest

@[simp] theorem eventType_toEvent (e : DomainEvent P) :
    e.toEvent.eventType = Payload.eventType e.data := rfl

@[simp] theorem sequenceNo_toEvent (e : DomainEvent P) : e.toEvent.sequenceNo = e.sequenceNo := rfl

@[simp] theorem aggregateId_toEvent (e : DomainEvent P) :
    e.toEvent.aggregateId = e.aggregateId := rfl

end DomainEvent

end EventJournal
