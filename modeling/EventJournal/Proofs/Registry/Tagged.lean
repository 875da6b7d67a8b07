import EventJournal.Proofs.Order.Replayed

/-!
# Tagged decoding

A registry decides by the type of a header what the bytes beside it are. An event with a typed
payload states the type of its payload, not that of the header; that it keeps its identity all the
same rests on the check of the tag wherever bytes are decoded.

* `ExactPayload`, the codecs that write every payload and read it back;
* `Enrolment`, one registration of a payload type, `Registry.ofEnrolments`, the registry after some
  of them, and `Enrolment.IsLast`, the one that counts for a type;
* `Registry.Identifies`, what is guaranteed of a header and bytes.

The main statement is `Registry.identifies_of_enrolments`.
-/

namespace EventJournal

/-- A codec that writes every payload, and reads back what it has written. -/
class ExactPayload (P : Type) [Payload P] : Prop extends LawfulPayload P where
  exists_encode : ∀ payload : P, ∃ bytes, Payload.encode payload = some bytes

/-! ### Registrations -/

/-- A payload type with an exact codec, and the event types that it is registered for. Whether it
ever states them is another matter. -/
structure Enrolment where
  P : Type
  [codec : Payload P]
  [exact : ExactPayload P]
  eventTypes : List String

attribute [instance] Enrolment.codec Enrolment.exact

namespace Enrolment

variable {enrolments : List Enrolment} {eventType : String} {x : Enrolment}

/-- Of some registrations in turn, the last one that names a type. -/
def IsLast (enrolments : List Enrolment) (eventType : String) (x : Enrolment) : Prop :=
  ∃ before after, enrolments = before ++ x :: after ∧ eventType ∈ x.eventTypes ∧
    ∀ later ∈ after, eventType ∉ later.eventTypes

/-- A type that some registration names has a last one. -/
theorem exists_isLast (h : ∃ x ∈ enrolments, eventType ∈ x.eventTypes) :
    ∃ x, IsLast enrolments eventType x := by
  induction enrolments with
  | nil => simp at h
  | cons first rest ih =>
    -- the first one counts only if none of the rest names the type
    by_cases hrest : ∃ x ∈ rest, eventType ∈ x.eventTypes
    · obtain ⟨x, before, after, rfl, named, unnamed⟩ := ih hrest
      exact ⟨x, first :: before, after, rfl, named, unnamed⟩
    · have hnot : ∀ later ∈ rest, eventType ∉ later.eventTypes := by simpa using hrest
      obtain ⟨x, hx, named⟩ := h
      obtain rfl : x = first := (List.mem_cons.1 hx).resolve_right fun hmem => hnot x hmem named
      exact ⟨x, [], rest, rfl, named, hnot⟩

end Enrolment

namespace Registry

/-- A registry after a further registration. -/
def enrol (registry : Registry) (x : Enrolment) : Registry := registry.register x.P x.eventTypes

/-- The registry after some registrations in turn. -/
def ofEnrolments (enrolments : List Enrolment) : Registry := enrolments.foldl enrol .empty

variable {enrolments : List Enrolment} {header : EventHeader} {eventType : String}
  {bytes : ByteArray} {x : Enrolment}

/-- Registrations that do not name a type leave its decoder alone. -/
theorem decoder?_foldl_enrol (registry : Registry)
    (h : ∀ x ∈ enrolments, eventType ∉ x.eventTypes) :
    (enrolments.foldl enrol registry).decoder? eventType = registry.decoder? eventType := by
  induction enrolments generalizing registry with
  | nil => rfl
  | cons x rest ih =>
    have hhead := h x (List.mem_cons_self ..)
    rw [List.foldl_cons, ih _ fun y hy => h y (List.mem_cons_of_mem _ hy), enrol, decoder?_register,
      if_neg hhead]

/-- The last registration of a type counts. -/
theorem decoder?_of_isLast (last : Enrolment.IsLast enrolments eventType x) :
    (ofEnrolments enrolments).decoder? eventType = some (Decoder.of x.P) := by
  obtain ⟨before, after, rfl, named, unnamed⟩ := last
  rw [ofEnrolments, List.foldl_append, List.foldl_cons, decoder?_foldl_enrol _ unnamed, enrol,
    decoder?_register, if_pos named]

/-- A type that no registration names has no decoder. -/
theorem decoder?_of_unnamed (h : ∀ x ∈ enrolments, eventType ∉ x.eventTypes) :
    (ofEnrolments enrolments).decoder? eventType = none :=
  decoder?_foldl_enrol .empty h

theorem decode_of_unnamed (h : ∀ x ∈ enrolments, header.eventType ∉ x.eventTypes) :
    (ofEnrolments enrolments).decode header bytes = .ok (.raw header bytes) := by
  rw [decode, decoder?_of_unnamed h]

theorem regular_ofEnrolments (enrolments : List Enrolment) : (ofEnrolments enrolments).Regular := by
  have hregular : ∀ registry : Registry, registry.Regular →
      (enrolments.foldl enrol registry).Regular := by
    induction enrolments with
    | nil => exact fun _ h => h
    | cons x rest ih => exact fun registry h => ih _ (regular_register h x.P x.eventTypes)
  exact hregular .empty regular_empty

/-- What a registry keeps of the identity of an event, given its header and bytes. -/
structure Identifies (enrolments : List Enrolment) (header : EventHeader) (bytes : ByteArray) :
    Prop where
  /-- Where no registration names the type, the event is that of the header and the bytes. -/
  unregistered : (∀ x ∈ enrolments, header.eventType ∉ x.eventTypes) →
    (ofEnrolments enrolments).isRegistered header.eventType = false ∧
      ∃ e, (ofEnrolments enrolments).decode header bytes = .ok e ∧ e.toEventHeader = header ∧
        e.payload = .ok bytes
  /-- Every other type is registered, and has a last registration. -/
  registered : (∃ x ∈ enrolments, header.eventType ∈ x.eventTypes) →
    (ofEnrolments enrolments).isRegistered header.eventType = true ∧
      ∃ x, Enrolment.IsLast enrolments header.eventType x
  /-- Bytes are decoded exactly if they hold a payload of the last registration that states the
  type of the header. -/
  decoded : ∀ x, Enrolment.IsLast enrolments header.eventType x →
    ((∃ e, (ofEnrolments enrolments).decode header bytes = .ok e) ↔
      ∃ payload : x.P, Payload.decode bytes = some payload ∧
        Payload.eventType payload = header.eventType)
  /-- The event has the header, and its payload is written so that it decodes to the same. -/
  kept : ∀ x, Enrolment.IsLast enrolments header.eventType x → ∀ e,
    (ofEnrolments enrolments).decode header bytes = .ok e →
      e.toEventHeader = header ∧
        ∃ (payload : x.P) (again : ByteArray), Payload.decode bytes = some payload ∧
          e.payload = .ok again ∧ Payload.decode again = some payload
  /-- Bytes without such a payload fail and name the type. -/
  undecodable : ∀ x, Enrolment.IsLast enrolments header.eventType x →
    (Payload.decode bytes : Option x.P) = none →
      (ofEnrolments enrolments).decode header bytes = .error (.deserialization header.eventType)
  /-- A payload that states another type fails, and both types are named. -/
  mistyped : ∀ x, Enrolment.IsLast enrolments header.eventType x → ∀ payload : x.P,
    Payload.decode bytes = some payload → Payload.eventType payload ≠ header.eventType →
      (ofEnrolments enrolments).decode header bytes =
        .error (.typeMismatch header.eventType (Payload.eventType payload))
  /-- An envelope with the decoded event has a typed event of any payload type exactly if its
  payload is one of that type which states the type of the header; the typed event has the header
  too. -/
  typed : ∀ envelope : Envelope,
    (ofEnrolments enrolments).decode header bytes = .ok envelope.event →
      ∀ (Q : Type) [Payload Q] (typed : DomainEvent Q),
        DomainEvent.ofEnvelope envelope = .ok typed ↔
          typed.toEvent.toEventHeader = header ∧
            ∃ data, envelope.event.payload = .ok data ∧ Payload.decode data = some typed.data
  /-- Where the type is not registered, this is the condition that bytes of a registered type have
  to meet. -/
  typedUnregistered : (∀ x ∈ enrolments, header.eventType ∉ x.eventTypes) → ∀ envelope : Envelope,
    (ofEnrolments enrolments).decode header bytes = .ok envelope.event →
      ∀ (Q : Type) [Payload Q],
        (∃ typed : DomainEvent Q, DomainEvent.ofEnvelope envelope = .ok typed) ↔
          ∃ payload : Q, Payload.decode bytes = some payload ∧
            Payload.eventType payload = header.eventType
  /-- Where the type is registered, it is met, and the typed event has the payload on the bytes. -/
  typedRegistered : ∀ x, Enrolment.IsLast enrolments header.eventType x → ∀ envelope : Envelope,
    (ofEnrolments enrolments).decode header bytes = .ok envelope.event →
      ∃ payload : x.P, Payload.decode bytes = some payload ∧
        Payload.eventType payload = header.eventType ∧
          DomainEvent.ofEnvelope envelope = .ok (DomainEvent.ofHeader header payload)

/-- Whatever has been registered, in whatever order, decoding does not change what an event is. -/
theorem identifies_of_enrolments (enrolments : List Enrolment) (header : EventHeader)
    (bytes : ByteArray) : Identifies enrolments header bytes := by
  constructor
  case unregistered =>
    intro unnamed
    refine ⟨?_, _, decode_of_unnamed unnamed, rfl, rfl⟩
    rw [isRegistered, decoder?_of_unnamed unnamed]
    rfl
  case registered =>
    intro named
    obtain ⟨x, last⟩ := Enrolment.exists_isLast named
    refine ⟨?_, x, last⟩
    rw [isRegistered, decoder?_of_isLast last]
    rfl
  case decoded =>
    intro x last
    have hread : ∀ e, (ofEnrolments enrolments).decode header bytes = .ok e ↔ _ :=
      fun _ => decode_eq_ok_iff (decoder?_of_isLast last)
    constructor
    · rintro ⟨e, he⟩
      obtain ⟨payload, hdecode, htype, -⟩ := (hread e).1 he
      exact ⟨payload, hdecode, htype⟩
    · rintro ⟨payload, hdecode, htype⟩
      exact ⟨_, (hread _).2 ⟨payload, hdecode, htype, rfl⟩⟩
  case kept =>
    intro x last e he
    obtain ⟨payload, hdecode, htype, rfl⟩ := (decode_eq_ok_iff (decoder?_of_isLast last)).1 he
    obtain ⟨again, hagain⟩ := ExactPayload.exists_encode payload
    exact ⟨DomainEvent.toEventHeader_ofHeader htype, payload, again, hdecode,
      DomainEvent.payload_toEvent_eq_ok_iff.2 hagain, LawfulPayload.decode_of_encode hagain⟩
  case undecodable =>
    intro x last hdecode
    exact decode_of_undecodable (decoder?_of_isLast last) hdecode
  case mistyped =>
    intro x last payload hdecode hne
    exact decode_of_mistyped (decoder?_of_isLast last) hdecode hne
  case typed =>
    intro envelope he Q _ typed
    rw [DomainEvent.ofEnvelope_eq_ok_iff,
      (regular_ofEnrolments enrolments).toEventHeader_of_decode he]
  case typedUnregistered =>
    intro unnamed envelope he Q _
    rw [decode_of_unnamed unnamed] at he
    have hevent := Except.ok.inj he
    constructor
    · rintro ⟨typed, htyped⟩
      obtain ⟨hheader, data, hdata, hdecode⟩ := DomainEvent.ofEnvelope_eq_ok_iff.1 htyped
      rw [← hevent] at hheader hdata
      obtain rfl := Except.ok.inj hdata
      exact ⟨typed.data, hdecode, congrArg EventHeader.eventType hheader⟩
    · rintro ⟨payload, hdecode, htype⟩
      refine ⟨DomainEvent.ofHeader header payload, DomainEvent.ofEnvelope_eq_ok_iff.2 ?_⟩
      rw [← hevent]
      exact ⟨DomainEvent.toEventHeader_ofHeader htype, bytes, rfl, hdecode⟩
  case typedRegistered =>
    intro x last envelope he
    obtain ⟨payload, hdecode, htype, hevent⟩ := (decode_eq_ok_iff (decoder?_of_isLast last)).1 he
    obtain ⟨again, hagain⟩ := ExactPayload.exists_encode payload
    refine ⟨payload, hdecode, htype, DomainEvent.ofEnvelope_eq_ok_iff.2 ?_⟩
    rw [← hevent]
    exact ⟨rfl, again, DomainEvent.payload_toEvent_eq_ok_iff.2 hagain,
      LawfulPayload.decode_of_encode hagain⟩

end Registry

/-! ### A registry with several payload types -/

instance : ExactPayload Order.Event where
  exists_encode payload := ⟨payload.toJson.toBytes, rfl⟩

/-- A remark on an order, written as a JSON string. -/
structure Order.Remark where
  text : String
  deriving DecidableEq

instance : Payload Order.Remark where
  eventType _ := "order.remarked"
  encode remark := some (Json.string remark.text).toBytes
  decode bytes :=
    match Json.ofBytes? bytes with
    | some (.string text) => some ⟨text⟩
    | _ => none

instance : ExactPayload Order.Remark where
  decode_of_encode := by
    rintro ⟨text⟩ bytes h
    obtain rfl := Option.some.inj h
    have hdepth : (Json.string text).toForm.depth = 0 := rfl
    have hread : Json.ofBytes? (Json.string text).toBytes = _ :=
      Json.ofBytes?_toBytes trivial (hdepth ▸ by decide)
    simp only [Payload.decode, hread]
  exists_encode remark := ⟨(Json.string remark.text).toBytes, rfl⟩

/-- Order events are registered for their types; remarks take one of these away from them and lose
their own to them. -/
def Enrolment.overlapping : List Enrolment :=
  [⟨Order.Event, Order.eventTypes⟩, ⟨Order.Remark, ["order.shipped", "order.remarked"]⟩,
    ⟨Order.Event, ["order.remarked"]⟩]

/-- A header of some type, with a leap second. -/
def EventHeader.leaping (eventType : String) : EventHeader :=
  ⟨eventType, "o", 1, ⟨⟨2016, 12, 31, by decide⟩, 23, 59, 60, 5, by decide⟩⟩

/-- A cancellation is decoded as one, unless its header says that it was shipped, and remarks have
taken that type away, or that it is a remark, which it does not say itself. -/
theorem Registry.identifies_of_overlapping :
    (∃ e, (ofEnrolments Enrolment.overlapping).decode (.leaping "order.cancelled")
        Order.cancellation = .ok e ∧ e.toEventHeader = .leaping "order.cancelled") ∧
    (ofEnrolments Enrolment.overlapping).decode (.leaping "order.shipped") Order.cancellation =
      .error (.deserialization "order.shipped") ∧
    (ofEnrolments Enrolment.overlapping).decode (.leaping "order.remarked") Order.cancellation =
      .error (.typeMismatch "order.remarked" "order.cancelled") := by
  have identifies : ∀ eventType,
      Identifies Enrolment.overlapping (.leaping eventType) Order.cancellation :=
    fun _ => identifies_of_enrolments _ _ _
  have hcancelled : Enrolment.IsLast Enrolment.overlapping "order.cancelled"
      ⟨Order.Event, Order.eventTypes⟩ :=
    ⟨[], _, rfl, by decide, by simp⟩
  have hshipped : Enrolment.IsLast Enrolment.overlapping "order.shipped"
      ⟨Order.Remark, ["order.shipped", "order.remarked"]⟩ :=
    ⟨[_], _, rfl, by decide, by simp⟩
  have hremarked : Enrolment.IsLast Enrolment.overlapping "order.remarked"
      ⟨Order.Event, ["order.remarked"]⟩ :=
    ⟨[_, _], _, rfl, by decide, by simp⟩
  have hremark : (Payload.decode Order.cancellation : Option Order.Remark) = none := by
    decide +kernel
  obtain ⟨e, he⟩ := ((identifies _).decoded _ hcancelled).2 ⟨_, Order.decode_cancellation, rfl⟩
  exact ⟨⟨e, he, ((identifies _).kept _ hcancelled e he).1⟩,
    (identifies _).undecodable _ hshipped hremark,
    (identifies _).mistyped _ hremarked _ Order.decode_cancellation (by decide)⟩

end EventJournal
