import EventJournal.Event
import EventJournal.Json.Basic
import EventJournal.Uuid

/-!
# Envelopes

A saved event with the id, the time and the metadata that saving gave it.

* `Envelope`;
* `deriveMetadata`, the metadata that every saved event carries;
* `DomainEvent.ofEnvelope`, the typed event of an envelope.
-/

namespace EventJournal

/-- The members of a metadata object. -/
abbrev Metadata := Json.Members

/-- A saved event. -/
structure Envelope where
  event : Event
  id : Uuid
  /-- When the event was saved, as opposed to when it happened. -/
  timestamp : Time
  metadata : Metadata

/-- The key under which metadata states when an event happened. -/
def createdAtKey : String := "created_at"

/-- The metadata that every saved event carries. -/
def deriveMetadata (e : Event) : Metadata :=
  [("aggregate_id", .string e.aggregateId),
   ("event_type", .string e.eventType),
   ("sequence_no", .ofInt e.sequenceNo),
   (createdAtKey, .string e.createdAt.toNanoString)]

namespace Envelope

/-- The payload as a value of type `P`, whatever type it states. -/
def decodePayload (P : Type) [Payload P] (envelope : Envelope) : Except EventError P :=
  match envelope.event.payload with
  | .error e => .error e
  | .ok bytes => decodeAs P envelope.event.eventType bytes

end Envelope

/-- The typed event of an envelope; its payload has to state the type of the envelope. -/
def DomainEvent.ofEnvelope {P : Type} [Payload P] (envelope : Envelope) :
    Except EventError (DomainEvent P) :=
  match envelope.event.payload with
  | .error e => .error e
  | .ok bytes =>
    match decodeTyped P envelope.event.eventType bytes with
    | .error e => .error e
    | .ok data => .ok (DomainEvent.ofHeader envelope.event.toEventHeader data)

end EventJournal
