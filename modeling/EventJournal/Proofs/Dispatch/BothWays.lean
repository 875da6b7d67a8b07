import EventJournal.Proofs.Dispatch.Crossing

/-!
# Records and messages

An event leaves its saver in two forms: as a record, for whoever reads the stream later, and as a
message, for the handlers. Both are made of the same envelope, but the record keeps the time of the
event in its metadata, which are read in the relaxed grammar, and its own time as it is, while the
headers of the message are read in the strict grammar.

* `Envelope.GoesBothWays`, how what comes of the message compares with what comes of the record.

The main statement is `Record.goesBothWays_of_ofEvent`.
-/

namespace EventJournal

/-- What comes of the message of an envelope, compared with what comes of its record. -/
structure Envelope.GoesBothWays (registry : Registry) (envelope : Envelope) (r : Record) :
    Prop where
  /-- If both years have four digits, the outcome is the same, be it an envelope or an error. -/
  agree : envelope.event.createdAt.HasFourDigitYear → envelope.timestamp.HasFourDigitYear →
    envelope.relayed registry = r.toEnvelope registry
  /-- What comes of the record is up to the registry, whatever the years. -/
  stored : r.toEnvelope registry =
    (registry.decode envelope.event.toEventHeader r.data).map fun event => { envelope with event }
  /-- The message is not read if the event happened in another year. -/
  occurredAt : ¬ envelope.event.createdAt.HasFourDigitYear →
    envelope.relayed registry = .error (.invalidField "occurred_at")
  /-- Nor is it read if the event was saved in another year. -/
  timestamp : envelope.event.createdAt.HasFourDigitYear → ¬ envelope.timestamp.HasFourDigitYear →
    envelope.relayed registry = .error (.invalidField "timestamp")
  /-- What comes of the message always comes of the record, too. -/
  replayable : ∀ envelope', envelope.relayed registry = .ok envelope' →
    r.toEnvelope registry = .ok envelope'

variable {e : Event} {id : Uuid} {timestamp : Time} {r : Record} {envelope : Envelope}

/-- What is read of the message of an envelope is what is read of its record, as far as the headers
go. -/
theorem Envelope.IsOf.relayed_eq (isOf : envelope.IsOf r) (int64 : Numeral.IsInt64 r.sequenceNo)
    (registry : Registry) :
    envelope.relayed registry =
      if envelope.event.createdAt.HasFourDigitYear then
        if envelope.timestamp.HasFourDigitYear then r.toEnvelope registry
        else .error (.invalidField "timestamp")
      else .error (.invalidField "occurred_at") := by
  have int64' : Numeral.IsInt64 envelope.event.sequenceNo := isOf.sequenceNo ▸ int64
  have survives : envelope.metadata.Survives := isOf.eq.2.2 ▸ survives_deriveMetadata int64'
  rw [Envelope.relayed_eq int64' isOf.payload survives, isOf.toEnvelope_eq int64]

/-- However an event is made and whatever is registered, what can be delivered can be replayed, and
what can be replayed can be delivered if the years allow for it. -/
theorem Record.goesBothWays_of_ofEvent (registry : Registry)
    (int64 : Numeral.IsInt64 e.sequenceNo) (h : ofEvent e id timestamp = .ok (r, envelope)) :
    envelope.GoesBothWays registry r := by
  have isOf := isOf_of_ofEvent h
  have int64' : Numeral.IsInt64 r.sequenceNo := by
    obtain ⟨data, -, rfl, -⟩ := ofEvent_eq_ok_iff.1 h
    exact int64
  have hrelayed := isOf.relayed_eq int64' registry
  constructor
  case agree =>
    intro hcreated htimestamp
    rw [hrelayed, if_pos hcreated, if_pos htimestamp]
  case stored => exact isOf.toEnvelope_eq int64' registry
  case occurredAt =>
    intro hcreated
    rw [hrelayed, if_neg hcreated]
  case timestamp =>
    intro hcreated htimestamp
    rw [hrelayed, if_pos hcreated, if_neg htimestamp]
  case replayable =>
    intro envelope' hread
    rw [hrelayed] at hread
    split at hread
    · split at hread
      · exact hread
      · simp at hread
    · simp at hread

/-- The same cancellation under any type. -/
def Event.cancelledAs (eventType : String) : Event := .raw (.leaping eventType) Order.cancellation

/-- It is read back both ways under its own type, and under another type both ways fail alike. -/
theorem Record.goesBothWays_cancelledAs :
    (∃ r envelope,
      ofEvent (.cancelledAs "order.cancelled") (.timed 0 1) .lastOfFour = .ok (r, envelope) ∧
      ∃ envelope', envelope.relayed (Order.register .empty) = .ok envelope' ∧
        r.toEnvelope (Order.register .empty) = .ok envelope') ∧
    ∃ r envelope,
      ofEvent (.cancelledAs "order.shipped") (.timed 0 1) .lastOfFour = .ok (r, envelope) ∧
      envelope.relayed (Order.register .empty) =
        .error (.typeMismatch "order.shipped" "order.cancelled") ∧
      r.toEnvelope (Order.register .empty) =
        .error (.typeMismatch "order.shipped" "order.cancelled") := by
  have both : ∀ eventType, ∃ r envelope,
      ofEvent (.cancelledAs eventType) (.timed 0 1) .lastOfFour = .ok (r, envelope) ∧
        envelope.relayed (Order.register .empty) = r.toEnvelope (Order.register .empty) ∧
        r.toEnvelope (Order.register .empty) =
          ((Order.register .empty).decode (.leaping eventType) Order.cancellation).map
            fun event => { envelope with event } := by
    intro eventType
    have h : ofEvent (.cancelledAs eventType) (.timed 0 1) .lastOfFour = .ok (_, _) :=
      ofEvent_eq_ok_iff.2 ⟨Order.cancellation, rfl, rfl, rfl⟩
    have int64 : Numeral.IsInt64 (Event.cancelledAs eventType).sequenceNo :=
      (by decide : Numeral.IsInt64 1)
    have hyear : (Event.cancelledAs eventType).createdAt.HasFourDigitYear :=
      (by decide : (EventHeader.leaping "").createdAt.HasFourDigitYear)
    have hyear' : Time.lastOfFour.HasFourDigitYear := by decide
    have goes := goesBothWays_of_ofEvent (Order.register .empty) int64 h
    exact ⟨_, _, h, goes.agree hyear hyear', goes.stored⟩
  constructor
  · obtain ⟨r, envelope, h, hagree, hstored⟩ := both "order.cancelled"
    have hdecode : (Order.register .empty).decode (.leaping "order.cancelled") Order.cancellation =
        .ok _ :=
      (Registry.decode_eq_ok_iff (Order.decoder?_register_empty (by decide))).2
        ⟨_, Order.decode_cancellation, rfl, rfl⟩
    rw [hdecode] at hstored
    exact ⟨r, envelope, h, _, hagree.trans hstored, hstored⟩
  · obtain ⟨r, envelope, h, hagree, hstored⟩ := both "order.shipped"
    have hdecode : (Order.register .empty).decode (.leaping "order.shipped") Order.cancellation =
        .error (.typeMismatch "order.shipped" "order.cancelled") :=
      Registry.decode_of_mistyped (Order.decoder?_register_empty (by decide))
        Order.decode_cancellation (by decide)
    rw [hdecode] at hstored
    exact ⟨r, envelope, h, hagree.trans hstored, hstored⟩

/-- An event that happens after the last year with four digits. -/
def Event.belated : Event := .raw ⟨"account.credited", "A", 1, .firstOfFive⟩ "\x7b\x7d".toUTF8

/-- Without the condition on the years, an event can be replayed and yet not be delivered. -/
theorem Record.replayed_not_delivered :
    Numeral.IsInt64 Event.belated.sequenceNo ∧
      ∃ r envelope, ofEvent .belated (.timed 0 1) .lastOfFour = .ok (r, envelope) ∧
        r.toEnvelope .empty = .ok envelope ∧
        envelope.relayed .empty = .error (.invalidField "occurred_at") := by
  have int64 : Numeral.IsInt64 Event.belated.sequenceNo := by decide
  have h : ofEvent .belated (.timed 0 1) .lastOfFour = .ok (_, _) :=
    ofEvent_eq_ok_iff.2 ⟨_, rfl, rfl, rfl⟩
  have isOf := isOf_of_ofEvent h
  have hyear : ¬ Event.belated.createdAt.HasFourDigitYear := by decide
  refine ⟨int64, _, _, h, ?_, ?_⟩
  · rw [isOf.toEnvelope_eq int64]
    rfl
  · rw [isOf.relayed_eq int64, if_neg hyear]

end EventJournal
