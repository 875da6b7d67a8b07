import EventJournal.Proofs.Dispatch.Relayed
import EventJournal.Proofs.Registry.Tagged

/-!
# Envelopes over the transport

An envelope is written as a message and read back at the other end. The headers give both times in
the strict grammar, which has no years but those of four digits; nothing else keeps an envelope from
arriving.

* `Envelope.Crosses`, what arrives of an envelope, and what is reported if it does not.

The main statement is `Envelope.crosses_of_decode`.
-/

namespace EventJournal

/-- What becomes of an envelope with these payload bytes on its way over the transport. -/
structure Envelope.Crosses (registry : Registry) (envelope : Envelope) (bytes : ByteArray) :
    Prop where
  /-- It arrives exactly if both years have four digits. -/
  arrives : (∃ envelope', envelope.relayed registry = .ok envelope') ↔
    envelope.event.createdAt.HasFourDigitYear ∧ envelope.timestamp.HasFourDigitYear
  /-- What arrives has the same identity, times and metadata. -/
  same : ∀ envelope', envelope.relayed registry = .ok envelope' →
    envelope'.id = envelope.id ∧ envelope'.timestamp = envelope.timestamp ∧
      envelope'.metadata = envelope.metadata ∧
      envelope'.event.eventType = envelope.event.eventType ∧
      envelope'.event.aggregateId = envelope.event.aggregateId ∧
      envelope'.event.sequenceNo = envelope.event.sequenceNo ∧
      envelope'.event.createdAt = envelope.event.createdAt
  /-- The bytes of an unregistered type are left as they are. -/
  untouched : registry.isRegistered envelope.event.eventType = false →
    ∀ envelope', envelope.relayed registry = .ok envelope' → envelope'.event.payload = .ok bytes
  /-- A registered type has a payload type. -/
  typed : registry.isRegistered envelope.event.eventType = true →
    ∃ (P : Type) (_ : Payload P),
      registry.decoder? envelope.event.eventType = some (Decoder.of P)
  /-- The bytes hold a payload of this type, and it is this payload, written anew, that arrives. -/
  canonical : ∀ (P : Type) [Payload P],
    registry.decoder? envelope.event.eventType = some (Decoder.of P) →
      ∃ payload : P, Payload.decode bytes = some payload ∧
        Payload.eventType payload = envelope.event.eventType ∧
        ∀ envelope', envelope.relayed registry = .ok envelope' →
          envelope'.event.payload = encodeAs envelope.event.eventType (Payload.encode payload)
  /-- The time when the event happened is reported first. -/
  occurredAt : ¬ envelope.event.createdAt.HasFourDigitYear →
    envelope.relayed registry = .error (.invalidField "occurred_at")
  /-- The time when it was saved is reported next. -/
  timestamp : envelope.event.createdAt.HasFourDigitYear → ¬ envelope.timestamp.HasFourDigitYear →
    envelope.relayed registry = .error (.invalidField "timestamp")

namespace Envelope

variable {registry : Registry} {envelope envelope' : Envelope} {bytes : ByteArray} {event : Event}

/-- What is read of the message of an envelope whose payload can be decoded. -/
theorem relayed_eq_ok_iff (int64 : Numeral.IsInt64 envelope.event.sequenceNo)
    (hpayload : envelope.event.payload = .ok bytes) (survives : envelope.metadata.Survives)
    (hdecode : registry.decode envelope.event.toEventHeader bytes = .ok event) :
    envelope.relayed registry = .ok envelope' ↔
      (envelope.event.createdAt.HasFourDigitYear ∧ envelope.timestamp.HasFourDigitYear) ∧
        envelope' = { envelope with event } := by
  rw [relayed_eq int64 hpayload survives, hdecode]
  by_cases hcreated : envelope.event.createdAt.HasFourDigitYear
  · by_cases htimestamp : envelope.timestamp.HasFourDigitYear
    · simp [hcreated, htimestamp, Except.map, eq_comm]
    · simp [hcreated, htimestamp]
  · simp [hcreated]

/-- An envelope with any metadata crosses the transport, if its payload can be decoded. -/
theorem crosses_of_decode (regular : registry.Regular)
    (int64 : Numeral.IsInt64 envelope.event.sequenceNo)
    (hpayload : envelope.event.payload = .ok bytes) (survives : envelope.metadata.Survives)
    (decodes : ∃ event, registry.decode envelope.event.toEventHeader bytes = .ok event) :
    envelope.Crosses registry bytes := by
  obtain ⟨event, hdecode⟩ := decodes
  have hrelayed : envelope.relayed registry = _ := relayed_eq int64 hpayload survives
  have hok : ∀ envelope', envelope.relayed registry = .ok envelope' ↔ _ :=
    fun _ => relayed_eq_ok_iff int64 hpayload survives hdecode
  constructor
  case arrives =>
    constructor
    · rintro ⟨envelope', h⟩
      exact ((hok _).1 h).1
    · exact fun years => ⟨_, (hok _).2 ⟨years, rfl⟩⟩
  case same =>
    intro envelope' h
    obtain ⟨-, rfl⟩ := (hok _).1 h
    have hheader := regular.toEventHeader_of_decode hdecode
    exact ⟨rfl, rfl, rfl, congrArg EventHeader.eventType hheader,
      congrArg EventHeader.aggregateId hheader, congrArg EventHeader.sequenceNo hheader,
      congrArg EventHeader.createdAt hheader⟩
  case untouched =>
    intro unregistered envelope' h
    obtain ⟨-, rfl⟩ := (hok _).1 h
    have hdecoder : registry.decoder? envelope.event.eventType = none := by
      simpa [Registry.isRegistered] using unregistered
    rw [Registry.decode, hdecoder] at hdecode
    exact Except.ok.inj hdecode ▸ rfl
  case typed =>
    intro registered
    obtain ⟨decoder, hdecoder⟩ := Option.isSome_iff_exists.1 registered
    obtain ⟨P, hP, rfl⟩ := regular.decoder? hdecoder
    exact ⟨P, hP, hdecoder⟩
  case canonical =>
    intro P _ hdecoder
    obtain ⟨payload, hread, htype, hevent⟩ := (Registry.decode_eq_ok_iff hdecoder).1 hdecode
    refine ⟨payload, hread, htype, fun envelope' h => ?_⟩
    obtain ⟨-, rfl⟩ := (hok _).1 h
    rw [← hevent]
    exact DomainEvent.payload_ofHeader htype
  case occurredAt =>
    intro hcreated
    rw [hrelayed, if_neg hcreated]
  case timestamp =>
    intro hcreated htimestamp
    rw [hrelayed, if_pos hcreated, if_neg htimestamp]

end Envelope

/-- Metadata that takes some escaping, and a member that is not about when an event happened. -/
def Metadata.unruly : Metadata :=
  [("\"", .array [.null, .object [("\\", .ofInt (-1)), ("", .string "\n\u2028")]]),
    ("created_at", .bool false)]

theorem Metadata.survives_unruly : unruly.Survives where
  plain := by
    simp [unruly, Json.Plain, Json.PlainMembers, Json.PlainElements, Json.ofInt,
      Json.FitsWord]
  depth := by decide

/-- The end of the last year with four digits. -/
def Time.lastOfFour : Time := ⟨⟨9999, 12, 31, by decide⟩, 23, 59, 60, 999999999, by decide⟩

/-- The first hour of the year after it has passed. -/
def Time.firstOfFive : Time := ⟨⟨10000, 1, 1, by decide⟩, 1, 0, 0, 0, by decide⟩

/-- A registry in which only orders are registered. -/
theorem Order.decoder?_register_empty {eventType : String} (h : eventType ∈ Order.eventTypes) :
    (Order.register .empty).decoder? eventType = some (Decoder.of Order.Event) := by
  rw [Order.register, Registry.decoder?_register, if_pos h]

namespace Envelope

/-- A cancellation in a leap second, with the least number there is and some metadata. -/
def ofCancellation (metadata : Metadata) (timestamp : Time) : Envelope where
  event := .raw { EventHeader.leaping "order.cancelled" with sequenceNo := Numeral.minInt64 }
    Order.cancellation
  id := .timed 0 1
  timestamp
  metadata

/-- The cancellation arrives as it would have been written if it was saved at the end of the last
year with four digits, and does not arrive if it was saved an hour later. -/
theorem crosses_ofCancellation :
    (∃ envelope', (ofCancellation .unruly .lastOfFour).relayed (Order.register .empty) =
        .ok envelope' ∧
      envelope'.event.payload = .ok (Order.Event.cancelled none none).toJson.toBytes) ∧
    (ofCancellation .unruly .firstOfFive).relayed (Order.register .empty) =
      .error (.invalidField "timestamp") := by
  have hdecoder : (Order.register .empty).decoder? "order.cancelled" =
      some (Decoder.of Order.Event) := Order.decoder?_register_empty (by decide)
  have crosses : ∀ timestamp,
      (ofCancellation .unruly timestamp).Crosses (Order.register .empty) Order.cancellation := by
    intro timestamp
    have int64 : Numeral.IsInt64 Numeral.minInt64 := by decide
    exact crosses_of_decode (Registry.regular_register Registry.regular_empty _ _) int64 rfl
      Metadata.survives_unruly
      ⟨_, (Registry.decode_eq_ok_iff hdecoder).2 ⟨_, Order.decode_cancellation, rfl, rfl⟩⟩
  constructor
  · obtain ⟨envelope', harrives⟩ := (crosses .lastOfFour).arrives.2 ⟨by decide, by decide⟩
    obtain ⟨payload, hread, -, hpayload⟩ := (crosses .lastOfFour).canonical Order.Event hdecoder
    obtain rfl := Option.some.inj (Order.decode_cancellation.symm.trans hread)
    exact ⟨envelope', harrives, hpayload envelope' harrives⟩
  · exact (crosses .firstOfFive).timestamp (by decide) (by decide)

end Envelope

end EventJournal
