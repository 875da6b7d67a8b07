import EventJournal.Order
import EventJournal.Proofs.Order.Codec
import EventJournal.Proofs.Store.ReadBack

/-!
# Orders replayed

A command that is accepted leads to one event, and that event fits the order on which the command
was decided. So the records of an order can be replayed again after each event that is added to
them.

* `decideOn_eq_ok`, what an accepted command leads to;
* `replay?_concat`, `Store.decodeAll_concat`: one event more;
* `Order.Readable`, the registries that order events can be read through;
* `Order.Replays`, what the records of an order replay to, and `Replays.unique`.

The main statement is `Replays.concat`.
-/

namespace EventJournal

instance : LawfulPayload Order.Event where
  decode_of_encode := by
    intro payload bytes h
    obtain rfl := Option.some.inj h
    exact payload.ofBytes?_toBytes

namespace Order

theorem exists_payload_toEvent (e : DomainEvent Event) : ∃ data, e.toEvent.payload = .ok data :=
  ⟨e.data.toJson.toBytes, rfl⟩

theorem eventType_mem_eventTypes (payload : Event) : Payload.eventType payload ∈ eventTypes := by
  cases payload <;> simp [Payload.eventType, Event.eventType, eventTypes]

section Decide

variable {now : Time} {command : Command} {payloads : List Event}

/-- What a first command leads to makes an order. -/
theorem decideInitial_eq_ok (h : decideInitial command = .ok payloads) :
    ∃ payload, payloads = [payload] ∧ ∀ id number createdAt,
      ∃ order, begin ⟨id, number, createdAt, payload⟩ = .ok order ∧ order.version = number := by
  unfold decideInitial at h
  split at h
  · split at h
    · obtain rfl := Except.ok.inj h
      exact ⟨_, rfl, fun _ _ _ => ⟨_, rfl, rfl⟩⟩
    · simp at h
  · simp at h

/-- What a later command leads to fits the order. -/
theorem decide_eq_ok {order : Order} (h : order.decide now command = .ok payloads) :
    ∃ payload, payloads = [payload] ∧ ∀ id number createdAt,
      ∃ order', order.apply ⟨id, number, createdAt, payload⟩ = .ok order' ∧
        order'.version = number := by
  have hone : ∀ payload, payloads = [payload] → (∃ order', order.absorb payload = .ok order') →
      ∃ payload, payloads = [payload] ∧ ∀ id number createdAt,
        ∃ order', order.apply ⟨id, number, createdAt, payload⟩ = .ok order' ∧
          order'.version = number := by
    rintro payload rfl ⟨order', habsorb⟩
    refine ⟨payload, rfl, fun id number createdAt => ?_⟩
    refine ⟨{ order' with version := number, updatedAt := createdAt }, ?_, rfl⟩
    simp only [apply, habsorb, Except.map]
  cases command with
  | create => simp [decide] at h
  | updateItems items reason =>
    simp only [decide] at h
    split at h
    · split at h
      · exact hone _ (Except.ok.inj h).symm ⟨_, rfl⟩
      · simp at h
    · simp at h
    · simp at h
  | _ =>
    simp only [decide] at h
    split at h
    all_goals first
      | exact hone _ (Except.ok.inj h).symm ⟨_, rfl⟩
      | simp at h

/-- A command that is accepted leads to one event, which fits the state. -/
theorem decideOn_eq_ok {state : Option Order} (h : decideOn state now command = .ok payloads) :
    ∃ payload, payloads = [payload] ∧ ∀ id number createdAt,
      ∃ order, applyOn state ⟨id, number, createdAt, payload⟩ = .ok order ∧
        order.version = number := by
  cases state with
  | none => exact decideInitial_eq_ok h
  | some order => exact decide_eq_ok h

end Decide

section Replay

variable {envelopes : List Envelope} {envelope : Envelope} {e : DomainEvent Event}

theorem resume_append (order : Order) (envelopes others : List Envelope) :
    resume order (envelopes ++ others) =
      (resume order envelopes).bind fun order => resume order others := by
  induction envelopes generalizing order with
  | nil => rfl
  | cons first rest ih =>
    rw [List.cons_append, resume, resume]
    cases DomainEvent.ofEnvelope (P := Event) first with
    | error e => rfl
    | ok e =>
      dsimp only
      cases order.apply e with
      | error err => rfl
      | ok order => exact ih order

theorem replay_append (first : Envelope) (rest others : List Envelope) :
    replay (first :: (rest ++ others)) =
      (replay (first :: rest)).bind fun order => resume order others := by
  rw [replay, replay]
  cases DomainEvent.ofEnvelope (P := Event) first with
  | error e => rfl
  | ok e =>
    dsimp only
    cases begin e with
    | error err => rfl
    | ok order => exact resume_append order rest others

/-- An event more, if it fits the state. -/
theorem replay?_concat {state : Option Order} {order : Order} (h : replay? envelopes = .ok state)
    (hread : DomainEvent.ofEnvelope envelope = .ok e) (happly : applyOn state e = .ok order) :
    replay? (envelopes ++ [envelope]) = .ok (some order) := by
  cases envelopes with
  | nil =>
    obtain rfl := Except.ok.inj h
    have hbegin : begin e = .ok order := happly
    simp only [List.nil_append, replay?, replay, hread, hbegin, resume]
    rfl
  | cons first rest =>
    cases hreplay : replay (first :: rest) with
    | error err =>
      simp only [replay?, hreplay] at h
      exact absurd h (by simp [Except.map])
    | ok before =>
      simp only [replay?, hreplay] at h
      obtain rfl := Except.ok.inj h
      have happly' : before.apply e = .ok order := happly
      show (replay (first :: (rest ++ [envelope]))).map some = _
      rw [replay_append, hreplay]
      simp only [Except.bind, resume, hread, happly']
      rfl

end Replay

end Order

theorem Store.decodeAll_concat {registry : Registry} {records : List Record} {r : Record}
    {envelopes : List Envelope} {envelope : Envelope}
    (h : decodeAll registry records = .ok envelopes) (hr : r.toEnvelope registry = .ok envelope) :
    decodeAll registry (records ++ [r]) = .ok (envelopes ++ [envelope]) := by
  induction records generalizing envelopes with
  | nil =>
    obtain rfl := Except.ok.inj h
    simp only [List.nil_append, decodeAll, hr]
  | cons first rest ih =>
    rw [decodeAll] at h
    split at h
    · simp at h
    · next head hhead =>
      split at h
      · simp at h
      · next tail htail =>
        obtain rfl := Except.ok.inj h
        rw [List.cons_append, decodeAll, hhead]
        simp only [ih htail, List.cons_append]

namespace Order

/-- Order events can be read through a registry: it decodes them as such or leaves them as they
are. -/
def Readable (registry : Registry) : Prop := ∀ type ∈ eventTypes, registry.Suits Event type

theorem readable_empty : Readable .empty := fun type _ => Registry.suits_empty Event type

/-- Some records of an order replay to a state. -/
def Replays (registry : Registry) (records : List Record) (state : Option Order) : Prop :=
  ∃ envelopes, Store.decodeAll registry records = .ok envelopes ∧ replay? envelopes = .ok state

variable {registry : Registry} {records : List Record} {state : Option Order}

theorem replays_nil (registry : Registry) : Replays registry [] none := ⟨[], rfl, rfl⟩

theorem Replays.unique {state' : Option Order} (h : Replays registry records state)
    (h' : Replays registry records state') : state = state' := by
  obtain ⟨envelopes, hdecode, hreplay⟩ := h
  obtain ⟨envelopes', hdecode', hreplay'⟩ := h'
  obtain rfl := Except.ok.inj (hdecode.symm.trans hdecode')
  exact Except.ok.inj (hreplay.symm.trans hreplay')

/-- Where there are no records there is no order, and nowhere else. -/
theorem Replays.eq_none_iff (h : Replays registry records state) : state = none ↔ records = [] := by
  obtain ⟨envelopes, hdecode, hreplay⟩ := h
  cases records with
  | nil =>
    obtain rfl := Except.ok.inj hdecode
    obtain rfl := Except.ok.inj hreplay
    simp
  | cons r rest =>
    rw [Store.decodeAll] at hdecode
    split at hdecode
    · simp at hdecode
    · split at hdecode
      · simp at hdecode
      · next first _ _ tail _ =>
        obtain rfl := Except.ok.inj hdecode
        cases hfirst : replay (first :: tail) with
        | error e => simp [replay?, hfirst, Except.map] at hreplay
        | ok order =>
          simp only [replay?, hfirst] at hreplay
          obtain rfl := Except.ok.inj hreplay
          simp

/-- The records of an order replay to the state after one more event, if it fits the state before.
-/
theorem Replays.concat {r : Record} {e : DomainEvent Event} {order : Order}
    (h : Replays registry records state) (readable : Readable registry) (keeps : r.Keeps e.toEvent)
    (int64 : Numeral.IsInt64 r.sequenceNo) (happly : applyOn state e = .ok order) :
    Replays registry (records ++ [r]) (some order) := by
  obtain ⟨envelopes, hdecode, hreplay⟩ := h
  obtain ⟨envelope, isOf, event⟩ := keeps
  obtain ⟨data, hdata⟩ := exists_payload_toEvent e
  have hread := DomainEvent.ofEnvelope_of_event event hdata
  have hdecodes : registry.Decodes envelope.event := by
    rw [event]
    exact DomainEvent.decodes_toEvent e (readable _ (eventType_mem_eventTypes e.data))
  have hr := isOf.toEnvelope int64 hdecodes
  exact ⟨envelopes ++ [envelope], Store.decodeAll_concat hdecode hr,
    replay?_concat hreplay hread happly⟩

end Order

end EventJournal
