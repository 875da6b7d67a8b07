import EventJournal.Record

/-!
# Messages

What travels over the transport: payload bytes and headers of text. The id of a message is that of
the envelope, so that a receiver sees the identity that saving gave the event.

* `Message`, `Message.header`;
* `Message.ofEnvelope`, `Message.toEnvelope`, the two directions of the codec.
-/

namespace EventJournal

/-- A message with its headers. -/
structure Message where
  id : Uuid
  payload : ByteArray
  headers : List (String × String)
  deriving DecidableEq

namespace Message

/-- The value of a header. -/
def header (m : Message) (key : String) : Except EventError String :=
  match m.headers.lookup key with
  | some value => .ok value
  | none => .error (.missingField key)

/-- The message of an envelope. -/
def ofEnvelope (envelope : Envelope) : Except EventError Message :=
  match envelope.event.payload with
  | .error e => .error e
  | .ok payload =>
    .ok {
      id := envelope.id
      payload
      headers := [
        ("event_type", envelope.event.eventType),
        ("aggregate_id", envelope.event.aggregateId),
        ("sequence_no", String.ofList (Numeral.integer envelope.event.sequenceNo)),
        ("occurred_at", envelope.event.createdAt.toNanoString),
        ("timestamp", envelope.timestamp.toNanoString),
        ("metadata", (Json.object envelope.metadata).toString)] }

/-- A header as a signed 64-bit number. -/
def numberHeader (m : Message) (key : String) : Except EventError Int := do
  let text ← m.header key
  match Numeral.readInteger Numeral.minInt64 Numeral.maxInt64 text.toList with
  | .ok n => .ok n
  | .error fault => .error (.invalidNumber key fault)

/-- A header as a time in the strict grammar. -/
def timeHeader (m : Message) (key : String) : Except EventError Time := do
  let text ← m.header key
  match Time.ofStrictString? text with
  | some time => .ok time
  | none => .error (.invalidField key)

/-- A header as a metadata object. -/
def metadataHeader (m : Message) (key : String) : Except EventError Metadata := do
  let text ← m.header key
  match Metadata.read text with
  | some metadata => .ok metadata
  | none => .error (.invalidField key)

/-- The envelope of a message. The headers are read in this order, so the first bad one is named. -/
def toEnvelope (registry : Registry) (m : Message) : Except EventError Envelope := do
  let sequenceNo ← m.numberHeader "sequence_no"
  let createdAt ← m.timeHeader "occurred_at"
  let timestamp ← m.timeHeader "timestamp"
  let metadata ← m.metadataHeader "metadata"
  let eventType ← m.header "event_type"
  let aggregateId ← m.header "aggregate_id"
  let event ← registry.decode ⟨eventType, aggregateId, sequenceNo, createdAt⟩ m.payload
  return { event, id := m.id, timestamp, metadata }

end Message

end EventJournal
