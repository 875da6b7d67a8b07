import EventJournal.Proofs.Json.Fields
import EventJournal.Proofs.Store.Prepared

/-!
# Records read back

The envelope that the saver of an event was given is read back from the record, if the registry
decodes the payload of the event or leaves it as it is.

* `Registry.decode_eq_ok_iff`, `decode_of_undecodable` and `decode_of_mistyped`, the three outcomes
  of tagged decoding;
* `LawfulPayload`, the codecs that read back what they write;
* `Registry.Decodes`, that a registry gives an event back, and `decodes_toEvent`, when it does;
* `Registry.Regular`, that all decoders are those of payload types;
* `IsOf.decodeMetadata`, the metadata of a record.

The main statements are `Envelope.IsOf.toEnvelope_eq` and `Envelope.IsOf.toEnvelope`.
-/

namespace EventJournal

/-! ### Typed payloads -/

section Typed

variable {P : Type} [Payload P] {header : EventHeader} {eventType : String} {bytes : ByteArray}
  {payload : P}

/-- A typed payload is read where there is one on the bytes that states the type. -/
theorem decodeTyped_eq_ok_iff :
    decodeTyped P eventType bytes = .ok payload ↔
      Payload.decode bytes = some payload ∧ Payload.eventType payload = eventType := by
  unfold decodeTyped decodeAs
  cases Payload.decode (P := P) bytes with
  | none => simp
  | some found =>
    dsimp only
    split
    · next heq =>
      simp only [Except.ok.injEq, Option.some.injEq]
      exact ⟨fun h => ⟨h, h ▸ heq⟩, And.left⟩
    · next hne =>
      simp only [reduceCtorEq, Option.some.injEq, false_iff, not_and]
      rintro rfl
      exact hne

/-- The event of a payload that states the type of a header has that header. -/
theorem DomainEvent.toEventHeader_ofHeader (h : Payload.eventType payload = header.eventType) :
    (ofHeader header payload).toEvent.toEventHeader = header := by
  rw [toEvent, ofHeader, h]

/-- It is written for that type, too. -/
theorem DomainEvent.payload_ofHeader (h : Payload.eventType payload = header.eventType) :
    (ofHeader header payload).toEvent.payload =
      encodeAs header.eventType (Payload.encode payload) := by
  rw [← h]
  rfl

theorem Decoder.of_eq_ok_iff {e : Event} :
    Decoder.of P header bytes = .ok e ↔
      ∃ payload : P, decodeTyped P header.eventType bytes = .ok payload ∧
        (DomainEvent.ofHeader header payload).toEvent = e := by
  unfold Decoder.of
  cases decodeTyped P header.eventType bytes <;> simp

namespace Registry

variable {registry : Registry}

/-- What the decoder of a payload type reads: bytes with a payload that states the type of the
header. The event is that of the payload, with the header. -/
theorem decode_eq_ok_iff {e : Event}
    (registered : registry.decoder? header.eventType = some (Decoder.of P)) :
    registry.decode header bytes = .ok e ↔
      ∃ payload : P, Payload.decode bytes = some payload ∧
        Payload.eventType payload = header.eventType ∧
        (DomainEvent.ofHeader header payload).toEvent = e := by
  rw [decode, registered]
  simp only [Decoder.of_eq_ok_iff, decodeTyped_eq_ok_iff, and_assoc]

theorem decode_of_undecodable
    (registered : registry.decoder? header.eventType = some (Decoder.of P))
    (h : (Payload.decode bytes : Option P) = none) :
    registry.decode header bytes = .error (.deserialization header.eventType) := by
  rw [decode, registered]
  simp only [Decoder.of, decodeTyped, decodeAs, h]

theorem decode_of_mistyped
    (registered : registry.decoder? header.eventType = some (Decoder.of P))
    (h : Payload.decode bytes = some payload)
    (mistyped : Payload.eventType payload ≠ header.eventType) :
    registry.decode header bytes =
      .error (.typeMismatch header.eventType (Payload.eventType payload)) := by
  rw [decode, registered]
  simp only [Decoder.of, decodeTyped, decodeAs, h, if_neg mistyped]

end Registry

/-- The typed event of an envelope has its header and the payload on its bytes. -/
theorem DomainEvent.ofEnvelope_eq_ok_iff {envelope : Envelope} {e : DomainEvent P} :
    ofEnvelope envelope = .ok e ↔
      e.toEvent.toEventHeader = envelope.event.toEventHeader ∧
        ∃ data, envelope.event.payload = .ok data ∧ Payload.decode data = some e.data := by
  unfold ofEnvelope
  cases envelope.event.payload with
  | error err => simp
  | ok data =>
    dsimp only
    cases hread : decodeTyped P envelope.event.eventType data with
    | error err =>
      simp only [reduceCtorEq, Except.ok.injEq, exists_eq_left', false_iff, not_and]
      intro hheader hdecode
      have htype := congrArg EventHeader.eventType hheader
      simp [decodeTyped_eq_ok_iff.2 ⟨hdecode, htype⟩] at hread
    | ok payload =>
      obtain ⟨hdecode, htype⟩ := decodeTyped_eq_ok_iff.1 hread
      simp only [Except.ok.injEq, exists_eq_left', hdecode, Option.some.injEq]
      constructor
      · rintro rfl
        exact ⟨toEventHeader_ofHeader htype, rfl⟩
      · rintro ⟨hheader, rfl⟩
        rw [← hheader]
        rfl

end Typed

/-! ### What is read back -/

/-- A codec that reads back what it has written. -/
class LawfulPayload (P : Type) [Payload P] : Prop where
  decode_of_encode : ∀ {payload : P} {bytes : ByteArray}, Payload.encode payload = some bytes →
    Payload.decode bytes = some payload

namespace Registry

/-- A registry gives an event back from its header and its payload. -/
def Decodes (registry : Registry) (e : Event) : Prop :=
  ∀ data, e.payload = .ok data → registry.decode e.toEventHeader data = .ok e

/-- The events of a type are decoded as payloads of `P`, or left as they are. -/
def Suits (registry : Registry) (P : Type) [Payload P] (eventType : String) : Prop :=
  registry.decoder? eventType = none ∨ registry.decoder? eventType = some (Decoder.of P)

theorem suits_empty (P : Type) [Payload P] (eventType : String) :
    empty.Suits P eventType :=
  .inl rfl

/-- A type that has just been registered has the decoder of that registration, all others keep
theirs. -/
theorem decoder?_register (registry : Registry) (P : Type) [Payload P] (eventTypes : List String)
    (eventType : String) :
    (registry.register P eventTypes).decoder? eventType =
      if eventType ∈ eventTypes then some (Decoder.of P) else registry.decoder? eventType := by
  induction eventTypes generalizing registry with
  | nil => rfl
  | cons type rest ih =>
    show (register ⟨(type, Decoder.of P) :: registry.decoders⟩ P rest).decoder? eventType = _
    rw [ih, decoder?, List.lookup_cons]
    by_cases heq : eventType = type
    · subst heq
      simp
    · simp only [beq_false_of_ne heq, List.mem_cons, heq, false_or, decoder?]

/-- What has been registered for a type suits it. -/
theorem suits_register (registry : Registry) (P : Type) [Payload P] {eventTypes : List String}
    {eventType : String} (h : eventType ∈ eventTypes ∨ registry.Suits P eventType) :
    (registry.register P eventTypes).Suits P eventType := by
  rw [Suits, decoder?_register]
  split
  · exact .inr rfl
  · next hnot => exact h.resolve_left hnot

/-- All decoders are those of payload types. -/
def Regular (registry : Registry) : Prop :=
  ∀ entry ∈ registry.decoders, ∃ (P : Type) (_ : Payload P), entry.2 = Decoder.of P

theorem regular_empty : empty.Regular := by simp [Regular, empty]

theorem regular_register {registry : Registry} (h : registry.Regular) (P : Type) [Payload P]
    (eventTypes : List String) : (registry.register P eventTypes).Regular := by
  induction eventTypes generalizing registry with
  | nil => exact h
  | cons type rest ih =>
    have hregular : Regular ⟨(type, Decoder.of P) :: registry.decoders⟩ :=
      List.forall_mem_cons.2 ⟨⟨P, _, rfl⟩, h⟩
    exact ih hregular

namespace Regular

variable {registry : Registry}

/-- The decoder of an event type is that of a payload type. -/
theorem decoder? (h : registry.Regular) {eventType : String} {decoder : Decoder}
    (hdecoder : registry.decoder? eventType = some decoder) :
    ∃ (P : Type) (_ : Payload P), decoder = Decoder.of P := by
  obtain ⟨before, after, hsplit, -⟩ := List.lookup_eq_some_iff.1 hdecoder
  exact h (eventType, decoder) (by simp [hsplit])

/-- What is decoded keeps the header. -/
theorem toEventHeader_of_decode (regular : registry.Regular) {header : EventHeader}
    {bytes : ByteArray} {e : Event} (h : registry.decode header bytes = .ok e) :
    e.toEventHeader = header := by
  cases hdecoder : registry.decoder? header.eventType with
  | none =>
    rw [Registry.decode, hdecoder] at h
    exact Except.ok.inj h ▸ rfl
  | some decoder =>
    obtain ⟨P, hP, rfl⟩ := regular.decoder? hdecoder
    obtain ⟨payload, -, htype, rfl⟩ := (decode_eq_ok_iff hdecoder).1 h
    exact DomainEvent.toEventHeader_ofHeader htype

end Regular

end Registry

namespace DomainEvent

variable {P : Type} [Payload P] {e : DomainEvent P} {data : ByteArray}

theorem payload_toEvent_eq_ok_iff :
    e.toEvent.payload = .ok data ↔ Payload.encode e.data = some data := by
  show encodeAs _ _ = _ ↔ _
  cases Payload.encode e.data <;> simp [encodeAs]

variable [LawfulPayload P]

theorem decodeTyped_of_payload (h : e.toEvent.payload = .ok data) :
    decodeTyped P e.toEvent.eventType data = .ok e.data := by
  have hdecode := LawfulPayload.decode_of_encode (payload_toEvent_eq_ok_iff.1 h)
  exact decodeTyped_eq_ok_iff.2 ⟨hdecode, rfl⟩

/-- A registry that suits the type of an event gives it back. -/
theorem decodes_toEvent {registry : Registry} (e : DomainEvent P)
    (h : registry.Suits P (Payload.eventType e.data)) : registry.Decodes e.toEvent := by
  intro data hdata
  have htype : e.toEvent.toEventHeader.eventType = Payload.eventType e.data := rfl
  unfold Registry.decode
  rw [htype]
  rcases h with h | h
  · rw [h]
    show Except.ok (Event.raw e.toEvent.toEventHeader data) = .ok e.toEvent
    rw [Event.raw, ← hdata]
  · rw [h]
    exact Decoder.of_eq_ok_iff.2 ⟨e.data, decodeTyped_of_payload hdata, rfl⟩

/-- The typed event of an envelope is the one that was saved. -/
theorem ofEnvelope_of_event {envelope : Envelope} (h : envelope.event = e.toEvent)
    (hdata : e.toEvent.payload = .ok data) : ofEnvelope envelope = .ok e := by
  rw [ofEnvelope_eq_ok_iff, h]
  exact ⟨rfl, data, hdata, LawfulPayload.decode_of_encode (payload_toEvent_eq_ok_iff.1 hdata)⟩

end DomainEvent

namespace Envelope

variable {envelope : Envelope} {r : Record}

theorem IsOf.eq (h : envelope.IsOf r) :
    r.id = envelope.id ∧ r.timestamp = envelope.timestamp ∧
      envelope.metadata = deriveMetadata envelope.event := by
  obtain ⟨data, -, hr, henvelope⟩ := Record.ofEvent_eq_ok_iff.1 h
  have hmetadata := congrArg Envelope.metadata henvelope
  rw [hr]
  exact ⟨rfl, rfl, hmetadata⟩

theorem plain_deriveMetadata {e : Event} (int64 : Numeral.IsInt64 e.sequenceNo) :
    (Json.object (deriveMetadata e)).Plain := by
  have hfits : Json.FitsWord e.sequenceNo := by
    obtain ⟨hleast, hgreatest⟩ := int64
    rw [Numeral.minInt64] at hleast
    rw [Numeral.maxInt64] at hgreatest
    constructor <;> omega
  exact ⟨⟨trivial, trivial, hfits, trivial, trivial⟩, by simp [deriveMetadata, createdAtKey]⟩

/-- The metadata of a record is read back. -/
theorem IsOf.decodeMetadata (h : envelope.IsOf r) (int64 : Numeral.IsInt64 r.sequenceNo) :
    r.decodeMetadata = .ok envelope.metadata := by
  rw [h.sequenceNo] at int64
  have hdepth : (Json.object (deriveMetadata envelope.event)).toForm.depth = 1 := rfl
  have hread := Json.ofBytes?_toBytes (plain_deriveMetadata int64) (hdepth ▸ by decide)
  rw [Record.decodeMetadata, h.metadata, hread, h.eq.2.2]

/-- When an event happened is read back. -/
theorem createdAt_deriveMetadata (e : Event) :
    Record.createdAt (deriveMetadata e) = .ok e.createdAt := by
  have hget : Json.Members.get? (deriveMetadata e) createdAtKey =
      some (.string e.createdAt.toNanoString) := by
    simp [Json.Members.get?, deriveMetadata, createdAtKey, List.lookup_cons]
  rw [Record.createdAt, hget]
  simp only [Time.ofString?_toNanoString]

/-- What is read of a record: the envelope with the event that the registry makes of the payload. -/
theorem IsOf.toEnvelope_eq (h : envelope.IsOf r) (int64 : Numeral.IsInt64 r.sequenceNo)
    (registry : Registry) :
    r.toEnvelope registry =
      (registry.decode envelope.event.toEventHeader r.data).map
        fun event => { envelope with event } := by
  obtain ⟨hid, htimestamp, hmetadata⟩ := h.eq
  have hheader : envelope.event.toEventHeader =
      ⟨r.eventType, r.aggregateId, r.sequenceNo, envelope.event.createdAt⟩ := by
    rw [h.eventType, h.aggregateId, h.sequenceNo]
  have hcreated : Record.createdAt envelope.metadata = .ok envelope.event.createdAt := by
    rw [hmetadata, createdAt_deriveMetadata]
  rw [Record.toEnvelope, h.decodeMetadata int64]
  simp only [bind, Except.bind, hcreated, ← hheader, hid, htimestamp]
  cases registry.decode envelope.event.toEventHeader r.data <;> rfl

/-- The envelope of an event is read back from its record. -/
theorem IsOf.toEnvelope {registry : Registry} (h : envelope.IsOf r)
    (int64 : Numeral.IsInt64 r.sequenceNo) (decodes : registry.Decodes envelope.event) :
    r.toEnvelope registry = .ok envelope := by
  rw [h.toEnvelope_eq int64, decodes r.data h.payload]
  rfl

end Envelope

end EventJournal
