import EventJournal.Proofs.Dispatch.Assignments
import EventJournal.Proofs.Store.ReadBack

/-!
# Envelopes that have travelled

What a receiver makes of the message of an envelope. If the message can be read at all, it gives the
event the identity that saving gave it, and its payload is that of the record, or what the type of
the event makes of it.

* `Envelope.Tells`, that an envelope tells what a record says;
* `Metadata.Survives`, the metadata that is read back from its text;
* `Envelope.relayed_eq`, what comes of an envelope on its way.

The main statement is `Envelope.IsOf.tells_of_relayed`.
-/

namespace EventJournal

/-- A payload is the bytes of a record or, where its type is registered, the typed value on them,
written once more. -/
inductive Registry.Renders (registry : Registry) (r : Record) : Except EventError ByteArray → Prop
  | plain (unregistered : registry.isRegistered r.eventType = false) :
      registry.Renders r (.ok r.data)
  | typed {P : Type} [Payload P] {payload : P}
      (registered : registry.decoder? r.eventType = some (Decoder.of P))
      (read : decodeTyped P r.eventType r.data = .ok payload) :
      registry.Renders r (encodeAs r.eventType (Payload.encode payload))

/-- An envelope tells what a record says: identity, place, times and metadata are the same. -/
structure Envelope.Tells (registry : Registry) (envelope : Envelope) (r : Record) : Prop where
  id : envelope.id = r.id
  aggregateId : envelope.event.aggregateId = r.aggregateId
  eventType : envelope.event.eventType = r.eventType
  sequenceNo : envelope.event.sequenceNo = r.sequenceNo
  timestamp : envelope.timestamp = r.timestamp
  metadata : r.decodeMetadata = .ok envelope.metadata
  createdAt : Record.createdAt envelope.metadata = .ok envelope.event.createdAt
  payload : registry.Renders r envelope.event.payload

variable {registry : Registry} {envelope envelope' : Envelope} {r : Record}

/-- What a registry makes of the bytes of a record keeps the header. -/
theorem Registry.Regular.decode (regular : registry.Regular) {createdAt : Time} {e : Event}
    (h : registry.decode ⟨r.eventType, r.aggregateId, r.sequenceNo, createdAt⟩ r.data = .ok e) :
    e.toEventHeader = ⟨r.eventType, r.aggregateId, r.sequenceNo, createdAt⟩ ∧
      registry.Renders r e.payload := by
  refine ⟨regular.toEventHeader_of_decode h, ?_⟩
  cases hdecoder : registry.decoder? r.eventType with
  | none =>
    rw [Registry.decode, hdecoder] at h
    exact Except.ok.inj h ▸ .plain (by simp [isRegistered, hdecoder])
  | some decoder =>
    obtain ⟨P, hP, rfl⟩ := regular.decoder? hdecoder
    obtain ⟨payload, hdecode, htype, rfl⟩ := (decode_eq_ok_iff hdecoder).1 h
    rw [DomainEvent.payload_ofHeader htype]
    exact .typed hdecoder (decodeTyped_eq_ok_iff.2 ⟨hdecode, htype⟩)

/-! ### Messages -/

/-- Metadata that is read back from its text: without floating-point numbers, with the integers and
keys that a JSON value can have, and not nested too deeply. -/
structure Metadata.Survives (metadata : Metadata) : Prop where
  plain : (Json.object metadata).Plain
  depth : (Json.object metadata).toForm.depth ≤ Json.maxDepth

theorem Metadata.Survives.read {metadata : Metadata} (h : metadata.Survives) :
    Metadata.read (Json.object metadata).toString = some metadata := by
  rw [Metadata.read, Json.ofString_toString h.plain h.depth]

theorem survives_deriveMetadata {e : Event} (int64 : Numeral.IsInt64 e.sequenceNo) :
    (deriveMetadata e).Survives where
  plain := Envelope.plain_deriveMetadata int64
  depth := by
    have hdepth : (Json.object (deriveMetadata e)).toForm.depth = 1 := rfl
    rw [hdepth]
    decide

namespace Message

variable {m : Message} {key : String}

theorem header_of_ofEnvelope (h : ofEnvelope envelope = .ok m) :
    m.id = envelope.id ∧ envelope.event.payload = .ok m.payload ∧
      m.header "event_type" = .ok envelope.event.eventType ∧
      m.header "aggregate_id" = .ok envelope.event.aggregateId ∧
      m.header "sequence_no" = .ok (String.ofList (Numeral.integer envelope.event.sequenceNo)) ∧
      m.header "occurred_at" = .ok envelope.event.createdAt.toNanoString ∧
      m.header "timestamp" = .ok envelope.timestamp.toNanoString ∧
      m.header "metadata" = .ok (Json.object envelope.metadata).toString := by
  unfold ofEnvelope at h
  split at h
  · simp at h
  · next payload hpayload =>
    obtain rfl := Except.ok.inj h
    exact ⟨rfl, hpayload, rfl, rfl, rfl, rfl, rfl, rfl⟩

theorem numberHeader_eq {n : Int}
    (hheader : m.header key = .ok (String.ofList (Numeral.integer n))) :
    m.numberHeader key =
      if Numeral.IsInt64 n then .ok n
      else .error (.invalidNumber key (if 0 ≤ n then .tooLarge else .tooSmall)) := by
  simp only [numberHeader, hheader, bind, Except.bind, String.toList_ofList,
    Numeral.readInteger_integer]
  by_cases int64 : Numeral.IsInt64 n <;> simp [int64]

theorem timeHeader_eq {t : Time} (hheader : m.header key = .ok t.toNanoString) :
    m.timeHeader key = if t.HasFourDigitYear then .ok t else .error (.invalidField key) := by
  simp only [timeHeader, hheader, bind, Except.bind, Time.ofStrictString?_toNanoString]
  by_cases hyear : t.HasFourDigitYear <;> simp [hyear]

theorem metadataHeader_eq {metadata : Metadata} (survives : metadata.Survives)
    (hheader : m.header key = .ok (Json.object metadata).toString) :
    m.metadataHeader key = .ok metadata := by
  simp only [metadataHeader, hheader, bind, Except.bind, survives.read]

end Message

/-- What is read of the message of an envelope. The strict grammar of the headers is the one
obstacle, and `occurred_at` comes before `timestamp`. -/
theorem Envelope.relayed_eq {data : ByteArray} (int64 : Numeral.IsInt64 envelope.event.sequenceNo)
    (hdata : envelope.event.payload = .ok data) (survives : envelope.metadata.Survives) :
    envelope.relayed registry =
      if envelope.event.createdAt.HasFourDigitYear then
        if envelope.timestamp.HasFourDigitYear then
          (registry.decode envelope.event.toEventHeader data).map
            fun event => { envelope with event }
        else .error (.invalidField "timestamp")
      else .error (.invalidField "occurred_at") := by
  obtain ⟨m, hm⟩ : ∃ m, Message.ofEnvelope envelope = .ok m := by
    simp [Message.ofEnvelope, hdata]
  obtain ⟨hid, hpayload, htype, haggregate, hsequence, hoccurred, htimestamp, hmetadata⟩ :=
    Message.header_of_ofEnvelope hm
  obtain rfl := Except.ok.inj (hdata.symm.trans hpayload)
  have hnumber := (Message.numberHeader_eq hsequence).trans (if_pos int64)
  have hmembers := Message.metadataHeader_eq survives hmetadata
  rw [Envelope.relayed, hm]
  show m.toEnvelope registry = _
  rw [Message.toEnvelope, hnumber, Message.timeHeader_eq hoccurred,
    Message.timeHeader_eq htimestamp, hmembers, htype, haggregate]
  -- all headers but those of the times are read back, so the cases are those of the years
  split
  · split
    · show (registry.decode envelope.event.toEventHeader m.payload >>= fun event =>
        .ok (Envelope.mk event m.id envelope.timestamp envelope.metadata)) = _
      rw [hid]
      cases registry.decode envelope.event.toEventHeader m.payload <;> rfl
    · rfl
  · rfl

/-- An envelope whose message is read has a payload, and its number is a signed 64-bit word. -/
theorem Envelope.isInt64_of_relayed (h : envelope.relayed registry = .ok envelope') :
    (∃ data, envelope.event.payload = .ok data) ∧ Numeral.IsInt64 envelope.event.sequenceNo := by
  obtain ⟨m, hm, hread⟩ := exists_of_bind_eq_ok h
  obtain ⟨-, hpayload, -, -, hsequence, -⟩ := Message.header_of_ofEnvelope hm
  obtain ⟨sequenceNo, hnumber, -⟩ := exists_of_bind_eq_ok hread
  refine ⟨⟨_, hpayload⟩, ?_⟩
  by_contra int64
  rw [Message.numberHeader_eq hsequence, if_neg int64] at hnumber
  simp at hnumber

/-- What can be read of the message of an envelope: everything but the payload is the same. -/
theorem relayed_eq_ok (h : envelope.relayed registry = .ok envelope')
    (metadata : envelope.metadata = deriveMetadata envelope.event) :
    ∃ data, envelope.event.payload = .ok data ∧ Numeral.IsInt64 envelope.event.sequenceNo ∧
      registry.decode envelope.event.toEventHeader data = .ok envelope'.event ∧
      envelope'.id = envelope.id ∧ envelope'.timestamp = envelope.timestamp ∧
      envelope'.metadata = envelope.metadata := by
  obtain ⟨⟨data, hdata⟩, int64⟩ := Envelope.isInt64_of_relayed h
  rw [Envelope.relayed_eq int64 hdata (metadata ▸ survives_deriveMetadata int64)] at h
  split at h
  · split at h
    · cases hdecode : registry.decode envelope.event.toEventHeader data with
      | error err => simp [hdecode, Except.map] at h
      | ok event =>
        rw [hdecode] at h
        obtain rfl := Except.ok.inj h
        exact ⟨data, hdata, int64, hdecode, rfl, rfl, rfl⟩
    · simp at h
  · simp at h

/-- What a worker reads of a delivery is what can be read of the message of its envelope. -/
theorem relayed_of_envelope? {d : Dispatcher} {x : Errand} (isOf : x.posting.IsOf envelope)
    (h : d.envelope? x.delivery = .ok envelope') : envelope.relayed d.registry = .ok envelope' := by
  rw [Errand.delivery, Dispatcher.envelope?_of_isOf isOf] at h
  cases hrelayed : envelope.relayed d.registry with
  | error e => simp [hrelayed, Except.mapError] at h
  | ok received =>
    simp only [hrelayed, Except.mapError] at h
    exact congrArg Except.ok (Except.ok.inj h)

/-- An envelope that has been read from its message tells what the record of its event says. -/
theorem Envelope.IsOf.tells_of_relayed (isOf : envelope.IsOf r) (regular : registry.Regular)
    (h : envelope.relayed registry = .ok envelope') : envelope'.Tells registry r := by
  obtain ⟨hid, htimestamp, hmetadata⟩ := isOf.eq
  obtain ⟨data, hdata, int64, hdecode, hid', htimestamp', hmetadata'⟩ := relayed_eq_ok h hmetadata
  obtain rfl := Except.ok.inj (isOf.payload.symm.trans hdata)
  have hheader : envelope.event.toEventHeader =
      ⟨r.eventType, r.aggregateId, r.sequenceNo, envelope.event.createdAt⟩ := by
    rw [isOf.eventType, isOf.aggregateId, isOf.sequenceNo]
  rw [hheader] at hdecode
  obtain ⟨hsame, hrenders⟩ := regular.decode hdecode
  have hcreated : envelope'.event.createdAt = envelope.event.createdAt := by rw [hsame]
  constructor
  case id => exact hid'.trans hid.symm
  case aggregateId => exact congrArg EventHeader.aggregateId hsame
  case eventType => exact congrArg EventHeader.eventType hsame
  case sequenceNo => exact congrArg EventHeader.sequenceNo hsame
  case timestamp => exact htimestamp'.trans htimestamp.symm
  case metadata => rw [hmetadata', isOf.decodeMetadata (isOf.sequenceNo ▸ int64)]
  case createdAt => rw [hmetadata', hmetadata, hcreated, createdAt_deriveMetadata]
  case payload => exact hrenders

end EventJournal
