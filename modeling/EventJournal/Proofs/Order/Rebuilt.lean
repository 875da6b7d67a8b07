import EventJournal.Proofs.Order.Replayed

/-!
# Orders rebuilt

Which envelopes make an order, what the order is then, and which envelope is to blame otherwise. The
envelopes may come from anywhere: nothing is presupposed of their events, not even that a command
could have led to them.

* `Envelope.Carries`, `Envelope.Fails`: the order event of an envelope, or why there is none;
* `Order.WellBegun`, that a creation comes first and only there, and `Order.Misfits`, why an
  envelope cannot come where it does;
* `Order.lastSaid`, the last word of some events on a matter, and `Order.Sums`, the order that is
  the sum of its events;
* `Order.Rebuilt`, what comes of envelopes.

The main statement is `Order.rebuilt_of_envelopes`.
-/

namespace EventJournal

/-- An envelope carries an order event: the payload on its bytes states the type of the envelope. -/
structure Envelope.Carries (envelope : Envelope) (e : DomainEvent Order.Event) : Prop where
  payload : ∃ data, envelope.event.payload = .ok data ∧ Payload.decode data = some e.data
  eventType : e.data.eventType = envelope.event.eventType
  aggregateId : e.aggregateId = envelope.event.aggregateId
  sequenceNo : e.sequenceNo = envelope.event.sequenceNo
  createdAt : e.createdAt = envelope.event.createdAt

/-- Why an envelope carries no order event. -/
inductive Envelope.Fails (envelope : Envelope) : EventError → Prop
  | unwritten {err : EventError} (payload : envelope.event.payload = .error err) :
    Fails envelope err
  | undecodable {data : ByteArray} (written : envelope.event.payload = .ok data)
      (decode : (Payload.decode data : Option Order.Event) = none) :
    Fails envelope (.deserialization envelope.event.eventType)
  | mistyped {data : ByteArray} {payload : Order.Event}
      (written : envelope.event.payload = .ok data) (decode : Payload.decode data = some payload)
      (eventType : payload.eventType ≠ envelope.event.eventType) :
    Fails envelope (.typeMismatch envelope.event.eventType payload.eventType)

namespace Order

/-- An event creates an order. -/
def Event.isCreation : Event → Bool
  | .created .. => true
  | _ => false

/-- The items that an event states. -/
def Event.items? : Event → Option (List Item)
  | .created _ items | .itemsUpdated items _ => some items
  | _ => none

/-- The status that an event leads to. -/
def Event.status? : Event → Option Status
  | .created .. => some .created
  | .itemsUpdated .. => none
  | .confirmed _ => some .confirmed
  | .shipped .. => some .shipped
  | .delivered .. => some .delivered
  | .cancelled .. => some .cancelled

/-- The tracking number and the carrier of a shipment. -/
def Event.shipment? : Event → Option (String × String)
  | .shipped trackingNumber carrier _ => some (trackingNumber, carrier)
  | _ => none

/-- The reason that a cancellation gives, which may be none. -/
def Event.reason? : Event → Option (Option String)
  | .cancelled reason _ => some reason
  | _ => none

/-- The last word of some events on a matter, if any of them says something. -/
def lastSaid {α : Type} (word : Event → Option α) (events : List (DomainEvent Event)) : Option α :=
  (events.filterMap fun e => word e.data).getLast?

/-- A creation comes first, and nowhere else. -/
def WellBegun : List (DomainEvent Event) → Prop
  | [] => True
  | first :: rest => first.data.isCreation = true ∧ ∀ e ∈ rest, e.data.isCreation = false

/-- Why an envelope cannot come where it does: in front or behind others. -/
inductive Misfits (envelope : Envelope) : Bool → ReplayError → Prop
  | unreadable {err : EventError} {front : Bool} (fails : envelope.Fails err) :
    Misfits envelope front (.unreadable err)
  | uncreated {e : DomainEvent Event} (carries : envelope.Carries e)
      (creation : e.data.isCreation = false) :
    Misfits envelope true (.first (.notInitialized e.data.eventType))
  | recreated {e : DomainEvent Event} (carries : envelope.Carries e)
      (creation : e.data.isCreation = true) :
    Misfits envelope false (.later e.sequenceNo .alreadyExists)

/-- An order is the sum of some events. -/
structure Sums (order : Order) (events : List (DomainEvent Event)) : Prop where
  first : ∃ e items, events.head? = some e ∧ e.data = .created order.customerId items ∧
    order.id = e.aggregateId ∧ order.createdAt = e.createdAt
  last : ∃ e, events.getLast? = some e ∧ order.version = e.sequenceNo ∧
    order.updatedAt = e.createdAt
  items : lastSaid Event.items? events = some order.items
  status : lastSaid Event.status? events = some order.status
  trackingNumber : order.trackingNumber = (lastSaid Event.shipment? events).map Prod.fst
  carrier : order.carrier = (lastSaid Event.shipment? events).map Prod.snd
  cancelledReason : order.cancelledReason = (lastSaid Event.reason? events).join

/-- What comes of envelopes. -/
structure Rebuilt (envelopes : List Envelope) : Prop where
  /-- They make an order exactly if there are some, each of them carries an order event, and a
  creation comes first and nowhere else. -/
  ok_iff : (∃ order, replay envelopes = .ok order) ↔ envelopes ≠ [] ∧
    ∃ events, List.Forall₂ Envelope.Carries envelopes events ∧ WellBegun events
  sums : ∀ order events, replay envelopes = .ok order →
    List.Forall₂ Envelope.Carries envelopes events → order.Sums events
  /-- Otherwise the first of them that does not fit is to blame. -/
  error_iff : ∀ err, replay envelopes = .error err ↔ envelopes = [] ∧ err = .noEvents ∨
    ∃ before events envelope after, envelopes = before ++ envelope :: after ∧
      List.Forall₂ Envelope.Carries before events ∧ WellBegun events ∧
      Misfits envelope before.isEmpty err
  /-- Further envelopes are read one after another, and their events applied to the order. -/
  append : envelopes ≠ [] → ∀ others order, replay (envelopes ++ others) = .ok order ↔
    ∃ before events, replay envelopes = .ok before ∧
      List.Forall₂ Envelope.Carries others events ∧
      applyAll (some before) events = .ok (some order)

variable {envelope : Envelope} {envelopes others : List Envelope} {e : DomainEvent Event}
  {events rest : List (DomainEvent Event)} {order order' : Order} {err : ReplayError}

/-! ### Envelopes -/

theorem carries_iff : envelope.Carries e ↔ DomainEvent.ofEnvelope envelope = .ok e := by
  rw [DomainEvent.ofEnvelope_eq_ok_iff]
  constructor
  · rintro ⟨hpayload, htype, hid, hnumber, htime⟩
    have hheader : e.toEvent.toEventHeader =
        ⟨e.data.eventType, e.aggregateId, e.sequenceNo, e.createdAt⟩ := rfl
    rw [hheader, htype, hid, hnumber, htime]
    exact ⟨rfl, hpayload⟩
  · rintro ⟨hheader, hpayload⟩
    exact ⟨hpayload, congrArg EventHeader.eventType hheader,
      congrArg EventHeader.aggregateId hheader, congrArg EventHeader.sequenceNo hheader,
      congrArg EventHeader.createdAt hheader⟩

theorem fails_iff {failure : EventError} : envelope.Fails failure ↔
    (DomainEvent.ofEnvelope envelope : Except EventError (DomainEvent Event)) = .error failure := by
  unfold DomainEvent.ofEnvelope decodeTyped decodeAs
  constructor
  · intro h
    cases h with
    | unwritten hpayload => simp only [hpayload]
    | undecodable written hdecode => simp only [written, hdecode]
    | @mistyped data payload written hdecode htype =>
      have htype' : Payload.eventType payload ≠ envelope.event.eventType := htype
      simp only [written, hdecode, if_neg htype']
      rfl
  · intro h
    cases hpayload : envelope.event.payload with
    | error failure' =>
      simp only [hpayload, Except.error.injEq] at h
      exact .unwritten (h ▸ hpayload)
    | ok data =>
      cases hdecode : (Payload.decode data : Option Event) with
      | none =>
        simp only [hpayload, hdecode, Except.error.injEq] at h
        exact h ▸ .undecodable hpayload hdecode
      | some payload =>
        by_cases htype : payload.eventType = envelope.event.eventType
        · have htype' : Payload.eventType payload = envelope.event.eventType := htype
          simp [hpayload, hdecode, htype'] at h
        · have htype' : Payload.eventType payload ≠ envelope.event.eventType := htype
          simp only [hpayload, hdecode, if_neg htype', Except.error.injEq] at h
          exact h ▸ .mistyped hpayload hdecode htype

theorem carries_unique {e' : DomainEvent Event} (h : envelope.Carries e)
    (h' : envelope.Carries e') : e = e' :=
  Except.ok.inj ((carries_iff.1 h).symm.trans (carries_iff.1 h'))

/-! ### Events one by one -/

/-- A later event that creates an order does not fit, and every other one does. -/
theorem apply_cases (order : Order) (e : DomainEvent Event) :
    e.data.isCreation = true ∧ order.apply e = .error .alreadyExists ∨
      e.data.isCreation = false ∧ ∃ order', order.apply e = .ok order' := by
  unfold apply
  cases e.data with
  | created => exact .inl ⟨rfl, rfl⟩
  | _ => exact .inr ⟨rfl, _, rfl⟩

/-- What an event says replaces what was there, and the rest stays. -/
theorem absorb_eq_ok {payload : Event} (h : order.absorb payload = .ok order') :
    order'.id = order.id ∧ order'.customerId = order.customerId ∧
      order'.createdAt = order.createdAt ∧
      order'.items = payload.items?.getD order.items ∧
      order'.status = payload.status?.getD order.status ∧
      order'.trackingNumber = (payload.shipment?.map Prod.fst).or order.trackingNumber ∧
      order'.carrier = (payload.shipment?.map Prod.snd).or order.carrier ∧
      order'.cancelledReason = payload.reason?.getD order.cancelledReason := by
  cases payload with
  | created => simp [absorb] at h
  | _ =>
    obtain rfl := Except.ok.inj h
    exact ⟨rfl, rfl, rfl, rfl, rfl, rfl, rfl, rfl⟩

theorem lastSaid_concat {α : Type} (word : Event → Option α) (events : List (DomainEvent Event))
    (e : DomainEvent Event) :
    lastSaid word (events ++ [e]) = (word e.data).or (lastSaid word events) := by
  unfold lastSaid
  rw [List.filterMap_append, List.getLast?_append]
  congr 1
  cases hword : word e.data <;> simp [hword]

theorem sums_of_begin (h : begin e = .ok order) : order.Sums [e] := by
  unfold begin at h
  cases hdata : e.data with
  | created customerId items =>
    rw [hdata] at h
    obtain rfl := Except.ok.inj h
    exact {
      first := ⟨e, items, rfl, hdata, rfl, rfl⟩
      last := ⟨e, rfl, rfl, rfl⟩
      items := by simp [lastSaid, hdata, Event.items?]
      status := by simp [lastSaid, hdata, Event.status?]
      trackingNumber := by simp [lastSaid, hdata, Event.shipment?]
      carrier := by simp [lastSaid, hdata, Event.shipment?]
      cancelledReason := by simp [lastSaid, hdata, Event.reason?] }
  | _ => simp [hdata] at h

/-- An order stays the sum of its events. -/
theorem Sums.apply (sums : order.Sums events) (h : order.apply e = .ok order') :
    order'.Sums (events ++ [e]) := by
  unfold Order.apply at h
  cases habsorb : order.absorb e.data with
  | error failure => simp [habsorb, Except.map] at h
  | ok absorbed =>
    rw [habsorb] at h
    obtain rfl := Except.ok.inj h
    obtain ⟨hid, hcustomer, hcreated, hitems, hstatus, htracking, hcarrier, hreason⟩ :=
      absorb_eq_ok habsorb
    obtain ⟨first, items, hfirst, hdata, hfirstId, hfirstTime⟩ := sums.first
    exact {
      first := by
        refine ⟨first, items, ?_, hcustomer ▸ hdata, hid.trans hfirstId, hcreated.trans hfirstTime⟩
        rw [List.head?_append, hfirst]
        rfl
      last := ⟨e, List.getLast?_concat, rfl, rfl⟩
      items := by
        rw [lastSaid_concat, sums.items, hitems]
        cases e.data.items? <;> rfl
      status := by
        rw [lastSaid_concat, sums.status, hstatus]
        cases e.data.status? <;> rfl
      trackingNumber := by
        rw [lastSaid_concat, htracking, sums.trackingNumber]
        cases e.data.shipment? <;> rfl
      carrier := by
        rw [lastSaid_concat, hcarrier, sums.carrier]
        cases e.data.shipment? <;> rfl
      cancelledReason := by
        rw [lastSaid_concat, hreason, sums.cancelledReason]
        cases e.data.reason? <;> rfl }

theorem Sums.applyAll (sums : order.Sums events)
    (h : applyAll (some order) rest = .ok (some order')) : order'.Sums (events ++ rest) := by
  induction rest generalizing order events with
  | nil =>
    obtain rfl := Option.some.inj (Except.ok.inj h)
    rwa [List.append_nil]
  | cons e rest ih =>
    rw [Order.applyAll] at h
    split at h
    · simp at h
    · next next happly =>
      have hsums := ih (sums.apply happly) h
      rwa [List.append_assoc] at hsums

/-- Later events make an order exactly if none of them is a creation. -/
theorem exists_applyAll_iff : (∃ order', applyAll (some order) rest = .ok (some order')) ↔
    ∀ e ∈ rest, e.data.isCreation = false := by
  induction rest generalizing order with
  | nil => simp [applyAll]
  | cons e rest ih =>
    rw [applyAll, List.forall_mem_cons]
    obtain ⟨hcreation, happly⟩ | ⟨hcreation, next, happly⟩ := order.apply_cases e
    · simp [applyOn, happly, hcreation]
    · simp [applyOn, happly, hcreation, ih]

/-! ### Envelopes one by one -/

theorem carries_or_fails (envelope : Envelope) :
    (∃ e, envelope.Carries e) ∨ ∃ failure, envelope.Fails failure := by
  cases hread : (DomainEvent.ofEnvelope envelope : Except EventError (DomainEvent Event)) with
  | error failure => exact .inr ⟨failure, fails_iff.2 hread⟩
  | ok e => exact .inl ⟨e, carries_iff.2 hread⟩

theorem resume_of_carries (carries : envelope.Carries e) (happly : order.apply e = .ok order')
    (rest : List Envelope) : resume order (envelope :: rest) = resume order' rest := by
  simp only [resume, carries_iff.1 carries, happly]

theorem resume_of_misfits (misfits : Misfits envelope false err) (rest : List Envelope) :
    resume order (envelope :: rest) = .error err := by
  rw [resume]
  cases misfits with
  | unreadable fails => simp only [fails_iff.1 fails]
  | @recreated e carries creation =>
    obtain ⟨-, happly⟩ | ⟨hcreation, -⟩ := order.apply_cases e
    · simp only [carries_iff.1 carries, happly]
    · simp [creation] at hcreation

/-- A later envelope leads to another order, or it does not fit. -/
theorem resume_cases (order : Order) (envelope : Envelope) :
    (∃ e order', envelope.Carries e ∧ e.data.isCreation = false ∧ order.apply e = .ok order') ∨
      ∃ err, Misfits envelope false err := by
  obtain ⟨e, carries⟩ | ⟨failure, fails⟩ := carries_or_fails envelope
  · obtain ⟨creation, -⟩ | ⟨creation, order', happly⟩ := order.apply_cases e
    · exact .inr ⟨_, .recreated carries creation⟩
    · exact .inl ⟨e, order', carries, creation, happly⟩
  · exact .inr ⟨_, .unreadable fails⟩

theorem resume_eq_ok_iff : resume order envelopes = .ok order' ↔
    ∃ events, List.Forall₂ Envelope.Carries envelopes events ∧
      applyAll (some order) events = .ok (some order') := by
  induction envelopes generalizing order with
  | nil => simp [resume, applyAll]
  | cons envelope rest ih =>
    constructor
    · intro h
      obtain ⟨e, next, carries, -, happly⟩ | ⟨err, misfits⟩ := resume_cases order envelope
      · rw [resume_of_carries carries happly] at h
        obtain ⟨events, hevents, hall⟩ := ih.1 h
        refine ⟨e :: events, .cons carries hevents, ?_⟩
        simpa only [applyAll, applyOn, happly] using hall
      · simp [resume_of_misfits misfits] at h
    · rintro ⟨_, ⟨⟩, hall⟩
      next e events carries hevents =>
        rw [applyAll, applyOn] at hall
        split at hall
        · simp at hall
        · next next happly =>
          rw [resume_of_carries carries happly]
          exact ih.2 ⟨events, hevents, hall⟩

/-- Later envelopes fail with the first that does not fit. -/
theorem resume_eq_error_iff : resume order envelopes = .error err ↔
    ∃ before events envelope after, envelopes = before ++ envelope :: after ∧
      List.Forall₂ Envelope.Carries before events ∧ (∀ e ∈ events, e.data.isCreation = false) ∧
      Misfits envelope false err := by
  constructor
  · intro h
    induction envelopes generalizing order with
    | nil => simp [resume] at h
    | cons envelope rest ih =>
      obtain ⟨e, next, carries, creation, happly⟩ | ⟨err', misfits⟩ := resume_cases order envelope
      · rw [resume_of_carries carries happly] at h
        obtain ⟨before, events, other, after, rfl, hbefore, hevents, misfits⟩ := ih h
        exact ⟨envelope :: before, e :: events, other, after, rfl, .cons carries hbefore,
          List.forall_mem_cons.2 ⟨creation, hevents⟩, misfits⟩
      · obtain rfl := Except.error.inj ((resume_of_misfits misfits rest).symm.trans h)
        exact ⟨[], [], envelope, rest, rfl, .nil, by simp, misfits⟩
  · rintro ⟨before, events, envelope, after, rfl, hbefore, hevents, misfits⟩
    obtain ⟨next, hall⟩ := exists_applyAll_iff.2 hevents
    rw [resume_append, resume_eq_ok_iff.2 ⟨events, hbefore, hall⟩]
    exact resume_of_misfits misfits after

theorem replay_of_carries (carries : envelope.Carries e) (hbegin : begin e = .ok order)
    (rest : List Envelope) : replay (envelope :: rest) = resume order rest := by
  simp only [replay, carries_iff.1 carries, hbegin]

/-- A first event makes an order exactly if it is a creation. -/
theorem begin_cases (e : DomainEvent Event) :
    e.data.isCreation = true ∧ (∃ order, begin e = .ok order) ∨
      e.data.isCreation = false ∧ begin e = .error (.notInitialized e.data.eventType) := by
  unfold begin
  cases e.data with
  | created => exact .inl ⟨rfl, _, rfl⟩
  | _ => exact .inr ⟨rfl, rfl⟩

theorem replay_of_misfits (misfits : Misfits envelope true err) (rest : List Envelope) :
    replay (envelope :: rest) = .error err := by
  rw [replay]
  cases misfits with
  | unreadable fails => simp only [fails_iff.1 fails]
  | @uncreated e carries creation =>
    obtain ⟨hcreation, -⟩ | ⟨-, hbegin⟩ := begin_cases e
    · simp [creation] at hcreation
    · simp only [carries_iff.1 carries, hbegin]

/-- A first envelope makes an order, or it does not fit. -/
theorem replay_cases (envelope : Envelope) :
    (∃ e order, envelope.Carries e ∧ e.data.isCreation = true ∧ begin e = .ok order) ∨
      ∃ err, Misfits envelope true err := by
  obtain ⟨e, carries⟩ | ⟨failure, fails⟩ := carries_or_fails envelope
  · obtain ⟨creation, order, hbegin⟩ | ⟨creation, -⟩ := begin_cases e
    · exact .inl ⟨e, order, carries, creation, hbegin⟩
    · exact .inr ⟨_, .uncreated carries creation⟩
  · exact .inr ⟨_, .unreadable fails⟩

/-- Envelopes that make an order carry the events that it is the sum of. -/
theorem exists_events_of_replay (h : replay envelopes = .ok order) :
    ∃ events, List.Forall₂ Envelope.Carries envelopes events ∧ WellBegun events ∧
      order.Sums events := by
  cases envelopes with
  | nil => simp [replay] at h
  | cons envelope rest =>
    obtain ⟨e, first, carries, creation, hbegin⟩ | ⟨err, misfits⟩ := replay_cases envelope
    · rw [replay_of_carries carries hbegin] at h
      obtain ⟨events, hevents, hall⟩ := resume_eq_ok_iff.1 h
      exact ⟨e :: events, .cons carries hevents,
        ⟨creation, exists_applyAll_iff.1 ⟨order, hall⟩⟩, (sums_of_begin hbegin).applyAll hall⟩
    · simp [replay_of_misfits misfits] at h

theorem exists_replay (nonempty : envelopes ≠ [])
    (carries : List.Forall₂ Envelope.Carries envelopes events) (begun : WellBegun events) :
    ∃ order, replay envelopes = .ok order := by
  cases carries with
  | nil => exact (nonempty rfl).elim
  | @cons envelope e rest events carries hevents =>
    obtain ⟨-, first, hbegin⟩ | ⟨hcreation, -⟩ := begin_cases e
    · obtain ⟨order, hall⟩ := exists_applyAll_iff.2 begun.2
      rw [replay_of_carries carries hbegin]
      exact ⟨order, resume_eq_ok_iff.2 ⟨events, hevents, hall⟩⟩
    · simp [begun.1] at hcreation

/-- Envelopes fail with the first that does not fit, or because there are none. -/
theorem replay_eq_error_iff : replay envelopes = .error err ↔ envelopes = [] ∧ err = .noEvents ∨
    ∃ before events envelope after, envelopes = before ++ envelope :: after ∧
      List.Forall₂ Envelope.Carries before events ∧ WellBegun events ∧
      Misfits envelope before.isEmpty err := by
  constructor
  · intro h
    cases envelopes with
    | nil => exact .inl ⟨rfl, (Except.error.inj h).symm⟩
    | cons envelope rest =>
      refine .inr ?_
      obtain ⟨e, first, carries, creation, hbegin⟩ | ⟨err', misfits⟩ := replay_cases envelope
      · rw [replay_of_carries carries hbegin] at h
        obtain ⟨before, events, other, after, rfl, hbefore, hevents, misfits⟩ :=
          resume_eq_error_iff.1 h
        exact ⟨envelope :: before, e :: events, other, after, rfl, .cons carries hbefore,
          ⟨creation, hevents⟩, misfits⟩
      · obtain rfl := Except.error.inj ((replay_of_misfits misfits rest).symm.trans h)
        exact ⟨[], [], envelope, rest, rfl, .nil, trivial, misfits⟩
  · rintro (⟨rfl, rfl⟩ | ⟨before, events, envelope, after, rfl, hbefore, begun, misfits⟩)
    · rfl
    · cases hbefore with
      | nil => exact replay_of_misfits misfits after
      | @cons first e before events carries hbefore =>
        obtain ⟨-, order, hbegin⟩ | ⟨hcreation, -⟩ := begin_cases e
        · rw [List.cons_append, replay_of_carries carries hbegin]
          exact resume_eq_error_iff.2
            ⟨before, events, envelope, after, rfl, hbefore, begun.2, misfits⟩
        · simp [begun.1] at hcreation

/-- Every list of envelopes makes the order that is the sum of its events, or fails with the first
envelope that does not fit. -/
theorem rebuilt_of_envelopes (envelopes : List Envelope) : Rebuilt envelopes where
  ok_iff := by
    constructor
    · rintro ⟨order, h⟩
      obtain ⟨events, carries, begun, -⟩ := exists_events_of_replay h
      refine ⟨?_, events, carries, begun⟩
      rintro rfl
      simp [replay] at h
    · rintro ⟨nonempty, events, carries, begun⟩
      exact exists_replay nonempty carries begun
  sums := by
    intro order events h carries
    obtain ⟨events', carries', -, sums⟩ := exists_events_of_replay h
    have hunique : Relator.RightUnique Envelope.Carries := fun _ _ _ => carries_unique
    rwa [List.right_unique_forall₂' hunique carries carries']
  error_iff _ := replay_eq_error_iff
  append := by
    intro nonempty others order
    cases envelopes with
    | nil => exact (nonempty rfl).elim
    | cons first rest =>
      rw [List.cons_append, replay_append]
      cases hreplay : replay (first :: rest) with
      | error err => simp [Except.bind]
      | ok before => simp [Except.bind, resume_eq_ok_iff]

/-- The event that creates an order without items. -/
def creation : DomainEvent Event where
  aggregateId := "o-1"
  sequenceNo := 1
  createdAt := ⟨⟨2024, 1, 15, by decide⟩, 10, 0, 1, 0, by decide⟩
  data := .created (.timed 0 0) []

/-- The envelope of this event. -/
def envelopeOfCreation : Envelope where
  event := creation.toEvent
  id := .timed 0 1
  timestamp := creation.createdAt
  metadata := deriveMetadata creation.toEvent

/-- There need not be an order to which the events of further envelopes are applied: a creation
makes one where there are no envelopes before it. -/
theorem not_append_of_nothing : ¬ ∀ envelopes others order,
    replay (envelopes ++ others) = .ok order ↔
      ∃ before events, replay envelopes = .ok before ∧
        List.Forall₂ Envelope.Carries others events ∧
        applyAll (some before) events = .ok (some order) := by
  intro h
  have carries : envelopeOfCreation.Carries creation :=
    carries_iff.2 (DomainEvent.ofEnvelope_of_event rfl rfl)
  obtain ⟨order, hbegin⟩ : ∃ order, begin creation = .ok order := ⟨_, rfl⟩
  have hreplay : replay ([] ++ [envelopeOfCreation]) = .ok order :=
    replay_of_carries carries hbegin []
  obtain ⟨before, events, hnothing, -⟩ := (h [] [envelopeOfCreation] order).1 hreplay
  simp [replay] at hnothing

end Order

end EventJournal
