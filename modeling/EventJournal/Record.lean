import EventJournal.Calendar.Reading
import EventJournal.Envelope
import EventJournal.Json.Form
import EventJournal.Json.Writing
import EventJournal.Registry

/-!
# Stored records

The form in which an event is kept: its header fields, its payload and its metadata as bytes. When
it happened is kept in the metadata.

* `Record`;
* `Record.ofEvent`, the record of an event together with its envelope;
* `Record.toEnvelope`, the envelope of a record, through a registry.
-/

namespace EventJournal

/-- Bytes are compared as arrays. -/
instance decidableEqBytes : DecidableEq ByteArray := ByteArray.decEq

/-- One stored event. -/
structure Record where
  id : Uuid
  aggregateId : String
  eventType : String
  sequenceNo : Int
  data : ByteArray
  metadata : ByteArray
  timestamp : Time
  deriving DecidableEq

/-- Reads metadata from a JSON text: an object. -/
def Metadata.read (s : String) : Option Metadata :=
  match Json.ofString s with
  | some (.object members) => some members
  | _ => none

namespace Record

/-- The record of an event, and the envelope that its saver is given. -/
def ofEvent (e : Event) (id : Uuid) (timestamp : Time) : Except EventError (Record × Envelope) :=
  match e.payload with
  | .error err => .error err
  | .ok data =>
    let metadata := deriveMetadata e
    .ok ({ id, aggregateId := e.aggregateId, eventType := e.eventType, sequenceNo := e.sequenceNo,
           data, metadata := (Json.object metadata).toBytes, timestamp },
         { event := e, id, timestamp, metadata })

/-- The metadata of a record. -/
def decodeMetadata (r : Record) : Except EventError Metadata :=
  match Json.ofBytes? r.metadata with
  | some (.object members) => .ok members
  | _ => .error (.deserialization r.eventType)

/-- When the event of a record happened, as its metadata states. -/
def createdAt (metadata : Metadata) : Except EventError Time :=
  match metadata.get? createdAtKey with
  | none => .error (.missingField createdAtKey)
  | some (.string s) =>
    match Time.ofString? s with
    | some time => .ok time
    | none => .error (.invalidField createdAtKey)
  | some _ => .error (.invalidField createdAtKey)

/-- The envelope of a record. -/
def toEnvelope (registry : Registry) (r : Record) : Except EventError Envelope := do
  let metadata ← r.decodeMetadata
  let createdAt ← createdAt metadata
  let event ← registry.decode ⟨r.eventType, r.aggregateId, r.sequenceNo, createdAt⟩ r.data
  return { event, id := r.id, timestamp := r.timestamp, metadata }

end Record

end EventJournal
