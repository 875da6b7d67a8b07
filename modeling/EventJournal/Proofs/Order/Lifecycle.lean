import EventJournal.Proofs.Order.Replayed

/-!
# The life of an order

An order is made by its first command. From then on every command is either refused and changes
nothing, or decides one event, which the order takes up.

* `Order.Moves`, what an accepted command does to an order, and `Moves.of_carryOut`;
* `Order.Life`, an order with its events and its earlier states, and `Life.through`, its life
  through further commands;
* `Status.Climbs`, the stages before a stage, and `Status.IsPath`, the stages from the first on;
* `Life.Regular`, what holds of an order at any time of its life, with `regular_begin` and
  `Regular.move`.

The main statement is `lifecycle_of_create`.
-/

namespace EventJournal.Order

variable {id : String} {createdAt now : Time} {command : Command} {customerId : Uuid}
  {order : Order} {state : Option Order}

/-! ### Stages -/

namespace Status

/-- The stages of an order from the first on: it may be updated while it is created, then it goes on
to the last stage, unless it is cancelled on the way. -/
def IsPath (statuses : List Status) : Prop :=
  ∃ updates onward, statuses = List.replicate (updates + 1) .created ++ onward ∧
    (onward <+: [.confirmed, .shipped, .delivered] ∨
      ∃ before, before <+: [.confirmed, .shipped] ∧ onward = before ++ [.cancelled])

/-- The stages before a stage. -/
inductive Climbs : List Status → Status → Prop
  | created (updates : Nat) : Climbs (List.replicate updates .created) .created
  | confirmed {past : List Status} : Climbs past .created → Climbs (past ++ [.created]) .confirmed
  | shipped {past : List Status} : Climbs past .confirmed → Climbs (past ++ [.confirmed]) .shipped
  | delivered {past : List Status} : Climbs past .shipped → Climbs (past ++ [.shipped]) .delivered
  | cancelled {past : List Status} {status : Status} : Climbs past status →
      status.isTerminal = false → Climbs (past ++ [status]) .cancelled

namespace Climbs

variable {past : List Status}

theorem of_created (h : Climbs past .created) :
    ∃ updates, past = List.replicate updates .created := by
  cases h with
  | created updates => exact ⟨updates, rfl⟩

theorem of_confirmed (h : Climbs past .confirmed) :
    ∃ updates, past = List.replicate (updates + 1) .created := by
  cases h with
  | confirmed created =>
    obtain ⟨updates, rfl⟩ := created.of_created
    exact ⟨updates, List.replicate_succ'.symm⟩

theorem of_shipped (h : Climbs past .shipped) :
    ∃ updates, past = List.replicate (updates + 1) .created ++ [.confirmed] := by
  cases h with
  | shipped confirmed =>
    obtain ⟨updates, rfl⟩ := confirmed.of_confirmed
    exact ⟨updates, rfl⟩

theorem shipped_mem {status : Status} (h : Climbs past status)
    (hstatus : status = .shipped ∨ status = .delivered) : .shipped ∈ past ++ [status] := by
  rcases hstatus with rfl | rfl
  · simp
  · cases h with
    | delivered => simp

theorem shipped_not_mem {status : Status} (h : Climbs past status)
    (hstatus : status = .created ∨ status = .confirmed) : .shipped ∉ past ++ [status] := by
  rcases hstatus with rfl | rfl
  · obtain ⟨updates, rfl⟩ := h.of_created
    simp
  · obtain ⟨updates, rfl⟩ := h.of_confirmed
    simp

/-- The stages before a stage and the stage itself are a path. -/
theorem isPath {status : Status} (h : Climbs past status) : IsPath (past ++ [status]) := by
  cases h with
  | created updates => exact ⟨updates, [], by simp [List.replicate_succ'], .inl (by simp)⟩
  | confirmed created =>
    obtain ⟨updates, rfl⟩ := created.of_created
    exact ⟨updates, [.confirmed], by simp [List.replicate_succ'], .inl (by simp)⟩
  | shipped confirmed =>
    obtain ⟨updates, rfl⟩ := confirmed.of_confirmed
    exact ⟨updates, [.confirmed, .shipped], by simp, .inl (by simp)⟩
  | delivered shipped =>
    obtain ⟨updates, rfl⟩ := shipped.of_shipped
    exact ⟨updates, [.confirmed, .shipped, .delivered], by simp, .inl (by simp)⟩
  | @cancelled past status earlier hactive =>
    cases status with
    | created =>
      obtain ⟨updates, rfl⟩ := earlier.of_created
      exact ⟨updates, [.cancelled], by simp [List.replicate_succ'], .inr ⟨[], by simp⟩⟩
    | confirmed =>
      obtain ⟨updates, rfl⟩ := earlier.of_confirmed
      exact ⟨updates, [.confirmed, .cancelled], by simp, .inr ⟨[.confirmed], by simp⟩⟩
    | shipped =>
      obtain ⟨updates, rfl⟩ := earlier.of_shipped
      exact ⟨updates, [.confirmed, .shipped, .cancelled], by simp,
        .inr ⟨[.confirmed, .shipped], by simp⟩⟩
    | delivered => simp [isTerminal] at hactive
    | cancelled => simp [isTerminal] at hactive

end Climbs

end Status

/-! ### Commands that are carried out -/

theorem checkItems_eq_ok_iff {items : List Item} :
    checkItems items = .ok () ↔ items ≠ [] ∧ ∀ item ∈ items, 0 < item.quantity.toInt := by
  have hfind : items.find? (fun item => item.quantity.toInt ≤ 0) = none ↔
      ∀ item ∈ items, 0 < item.quantity.toInt := by
    rw [List.find?_eq_none]
    simp only [decide_eq_true_eq, Int.not_le]
  unfold checkItems
  split
  · simp
  · next hne =>
    rw [← hfind]
    split
    · next item hsome => simp [hsome]
    · next hnone => simpa [hnone] using hne

/-- What an accepted command does to an order: the event, and the order after it. -/
inductive Moves (order : Order) (createdAt : Time) : Event → Order → Prop
  | itemsUpdated {items : List Item} {reason : Option String} (status : order.status = .created)
      (fit : checkItems items = .ok ()) :
      order.Moves createdAt (.itemsUpdated items reason)
        { order with items, version := order.version + 1, updatedAt := createdAt }
  | confirmed {confirmedAt : Time} (status : order.status = .created) :
      order.Moves createdAt (.confirmed confirmedAt)
        { order with
          status := .confirmed, version := order.version + 1, updatedAt := createdAt }
  | shipped {trackingNumber carrier : String} {shippedAt : Time}
      (status : order.status = .confirmed) :
      order.Moves createdAt (.shipped trackingNumber carrier shippedAt)
        { order with
          status := .shipped, trackingNumber := some trackingNumber, carrier := some carrier
          version := order.version + 1, updatedAt := createdAt }
  | delivered {deliveredAt : Time} {signature : Option String} (status : order.status = .shipped) :
      order.Moves createdAt (.delivered deliveredAt signature)
        { order with
          status := .delivered, version := order.version + 1, updatedAt := createdAt }
  | cancelled {reason : Option String} {cancelledBy : Option Uuid}
      (status : order.status.isTerminal = false) :
      order.Moves createdAt (.cancelled reason cancelledBy)
        { order with
          status := .cancelled, cancelledReason := reason
          version := order.version + 1, updatedAt := createdAt }

namespace Moves

variable {payload : Event} {order' : Order}

theorem identity (moves : order.Moves createdAt payload order') :
    order'.id = order.id ∧ order'.customerId = order.customerId ∧
      order'.createdAt = order.createdAt := by
  cases moves <;> exact ⟨rfl, rfl, rfl⟩

theorem version (moves : order.Moves createdAt payload order') :
    order'.version = order.version + 1 := by
  cases moves <;> rfl

/-- Items change only while an order is created, and only to items that may be ordered. -/
theorem items (moves : order.Moves createdAt payload order') :
    order'.items = order.items ∨ order.status = .created ∧ checkItems order'.items = .ok () := by
  cases moves with
  | itemsUpdated status fit => exact .inr ⟨status, fit⟩
  | _ => exact .inl rfl

theorem trackingNumber (moves : order.Moves createdAt payload order') :
    order'.trackingNumber.isSome ↔ order.trackingNumber.isSome ∨ order'.status = .shipped := by
  cases moves <;> simp [*]

theorem carrier (moves : order.Moves createdAt payload order') :
    order'.carrier.isSome ↔ order.carrier.isSome ∨ order'.status = .shipped := by
  cases moves <;> simp [*]

/-- An order is given a reason only when it is cancelled, and stays so. -/
theorem cancelledReason (moves : order.Moves createdAt payload order')
    (h : order'.status ≠ .cancelled) :
    order'.cancelledReason = order.cancelledReason ∧ order.status ≠ .cancelled := by
  cases moves with
  | cancelled => exact absurd rfl h
  | _ status => exact ⟨rfl, by simp [status]⟩

/-- What an accepted command does to the stages. -/
theorem climbs (moves : order.Moves createdAt payload order') {past : List Status}
    (h : Status.Climbs past order.status) :
    Status.Climbs (past ++ [order.status]) order'.status := by
  cases moves with
  | itemsUpdated status =>
    rw [status] at h
    obtain ⟨updates, rfl⟩ := h.of_created
    dsimp only
    rw [status, ← List.replicate_succ']
    exact .created (updates + 1)
  | confirmed status =>
    rw [status] at h ⊢
    exact .confirmed h
  | shipped status =>
    rw [status] at h ⊢
    exact .shipped h
  | delivered status =>
    rw [status] at h ⊢
    exact .delivered h
  | cancelled status => exact .cancelled h status

end Moves

/-- A command to an order that is not refused decides one event, which moves the order. -/
theorem Moves.of_decide {payloads : List Event} (h : order.decide now command = .ok payloads)
    (id : String) (createdAt : Time) : ∃ payload order', payloads = [payload] ∧
      order.Moves createdAt payload order' ∧
      applyAll (some order) (DomainEvent.sequence id createdAt order.version payloads) =
        .ok (some order') := by
  have hone : ∀ payload order', payloads = [payload] → order.Moves createdAt payload order' →
      ∃ payload order', payloads = [payload] ∧ order.Moves createdAt payload order' ∧
        applyAll (some order) (DomainEvent.sequence id createdAt order.version payloads) =
          .ok (some order') := by
    rintro payload order' rfl moves
    refine ⟨payload, order', rfl, moves, ?_⟩
    cases moves <;> rfl
  cases command with
  | create => simp [decide] at h
  | updateItems items reason =>
    simp only [decide] at h
    split at h
    · next status =>
      split at h
      · next fit => exact hone _ _ (Except.ok.inj h).symm (.itemsUpdated status fit)
      · simp at h
    · simp at h
    · simp at h
  | confirm =>
    simp only [decide] at h
    split at h
    · next status => exact hone _ _ (Except.ok.inj h).symm (.confirmed status)
    all_goals simp at h
  | ship trackingNumber carrier =>
    simp only [decide] at h
    split at h
    · next status => exact hone _ _ (Except.ok.inj h).symm (.shipped status)
    all_goals simp at h
  | deliver signature =>
    simp only [decide] at h
    split at h
    · next status => exact hone _ _ (Except.ok.inj h).symm (.delivered status)
    · simp at h
  | cancel reason cancelledBy =>
    simp only [decide] at h
    split at h
    · simp at h
    · simp at h
    · next hcancelled hdelivered =>
      refine hone _ _ (Except.ok.inj h).symm (.cancelled ?_)
      cases hstatus : order.status with
      | cancelled => exact absurd hstatus hcancelled
      | delivered => exact absurd hstatus hdelivered
      | _ => rfl

/-- A command to an order that is carried out moves the order by one event. -/
theorem Moves.of_carryOut {events : List Event}
    (h : carryOut id createdAt now (some order) command = .ok (events, state)) :
    ∃ payload order', events = [payload] ∧ state = some order' ∧
      order.Moves createdAt payload order' := by
  rw [carryOut] at h
  split at h
  · simp at h
  · next payloads hdecide =>
    obtain ⟨payload, order', hpayloads, moves, happly⟩ := Moves.of_decide hdecide id createdAt
    rw [versionOf, happly] at h
    obtain ⟨rfl, rfl⟩ := Prod.mk.inj (Except.ok.inj h)
    exact ⟨payload, order', hpayloads, rfl, moves⟩

/-- The order that a first command makes. -/
theorem begin_of_carryOut {items : List Item} {events : List Event}
    (h : carryOut id createdAt now none (.create customerId items) = .ok (events, state)) :
    checkItems items = .ok () ∧ events = [.created customerId items] ∧
      state =
        some ⟨id, 1, customerId, items, .created, createdAt, createdAt, none, none, none⟩ := by
  cases hcheck : checkItems items with
  | error e => simp [carryOut, decideOn, decideInitial, hcheck] at h
  | ok =>
    simp only [carryOut, decideOn, decideInitial, hcheck] at h
    obtain ⟨rfl, rfl⟩ := Prod.mk.inj (Except.ok.inj h)
    exact ⟨rfl, rfl, rfl⟩

/-! ### Lives -/

/-- What an order has gone through: its events, its earlier states, the first of them in front, and
its state. -/
structure Life where
  events : List Event
  past : List Order
  order : Order

namespace Life

/-- The states of an order, the first of them in front. -/
def states (life : Life) : List Order := life.past ++ [life.order]

/-- The life of an order after one more command; one that is refused changes nothing. -/
def carryOut (life : Life) (createdAt now : Time) (command : Command) : Life :=
  match Order.carryOut life.order.id createdAt now (some life.order) command with
  | .ok (events, some order) => ⟨life.events ++ events, life.past ++ [life.order], order⟩
  | _ => life

/-- The life of an order after some more commands, each with the time of its events and the time at
which it is decided. -/
def through (life : Life) : List (Time × Time × Command) → Life
  | [] => life
  | (createdAt, now, command) :: rest => (life.carryOut createdAt now command).through rest

/-- What holds of an order at any time of its life. -/
structure Regular (life : Life) (id : String) (customerId : Uuid) (createdAt : Time) : Prop where
  items : checkItems life.order.items = .ok ()
  version : life.order.version = life.events.length
  events : life.events ≠ []
  identity : ∀ state ∈ life.states,
    state.id = id ∧ state.customerId = customerId ∧ state.createdAt = createdAt
  items_kept : ∀ earlier ∈ life.past, earlier.status ≠ .created → life.order.items = earlier.items
  climbs : Status.Climbs (life.past.map Order.status) life.order.status
  trackingNumber : life.order.trackingNumber.isSome ↔ .shipped ∈ life.states.map Order.status
  carrier : life.order.carrier.isSome ↔ .shipped ∈ life.states.map Order.status
  cancelledReason : life.order.status ≠ .cancelled → life.order.cancelledReason = none

variable {life : Life}

theorem carryOut_cases (life : Life) (createdAt now : Time) (command : Command) :
    life.carryOut createdAt now command = life ∨ ∃ payload order,
      life.order.Moves createdAt payload order ∧ life.carryOut createdAt now command =
        ⟨life.events ++ [payload], life.past ++ [life.order], order⟩ := by
  rw [carryOut]
  split
  · next events order h =>
    obtain ⟨payload, order', rfl, heq, moves⟩ := Moves.of_carryOut h
    obtain rfl := Option.some.inj heq
    exact .inr ⟨payload, order, moves, rfl⟩
  · exact .inl rfl

variable {life : Life}

theorem regular_begin {items : List Item} {events : List Event}
    (h : Order.carryOut id createdAt now none (.create customerId items) =
      .ok (events, some order)) :
    Regular ⟨events, [], order⟩ id customerId createdAt := by
  obtain ⟨fit, rfl, heq⟩ := begin_of_carryOut h
  obtain rfl := Option.some.inj heq
  constructor
  case items => exact fit
  case version => rfl
  case events => simp
  case identity => simp [states]
  case items_kept => simp
  case climbs => exact .created 0
  case trackingNumber => simp [states]
  case carrier => simp [states]
  case cancelledReason => exact fun _ => rfl

/-- An order is as regular after an accepted command as before. -/
theorem Regular.move {payload : Event} {order' : Order}
    (regular : life.Regular id customerId createdAt)
    (moves : life.order.Moves now payload order') :
    Regular ⟨life.events ++ [payload], life.past ++ [life.order], order'⟩ id customerId
      createdAt := by
  have hstates : states ⟨life.events ++ [payload], life.past ++ [life.order], order'⟩ =
      life.states ++ [order'] := rfl
  have horder : life.order ∈ life.states := by simp [states]
  constructor
  case items =>
    rcases moves.items with heq | ⟨-, fit⟩
    · exact heq ▸ regular.items
    · exact fit
  case version => simp [moves.version, regular.version]
  case events => simp
  case identity =>
    obtain ⟨hid, hcustomerId, hcreatedAt⟩ := moves.identity
    obtain ⟨hid', hcustomerId', hcreatedAt'⟩ := regular.identity _ horder
    rw [hstates]
    refine List.forall_mem_append.2 ⟨regular.identity, List.forall_mem_singleton.2 ?_⟩
    exact ⟨hid.trans hid', hcustomerId.trans hcustomerId', hcreatedAt.trans hcreatedAt'⟩
  case items_kept =>
    intro earlier hmem hleft
    rcases moves.items with heq | ⟨hcreated, -⟩
    · rcases List.mem_append.1 hmem with hmem | hmem
      · exact heq.trans (regular.items_kept earlier hmem hleft)
      · rw [heq, List.mem_singleton.1 hmem]
    · -- all states have been created so far
      obtain ⟨updates, hpast⟩ := (hcreated ▸ regular.climbs).of_created
      have hall : earlier.status ∈ List.replicate (updates + 1) Status.created := by
        rw [List.replicate_succ', ← hpast, ← hcreated]
        simpa using List.mem_map_of_mem (f := Order.status) hmem
      exact absurd (List.eq_of_mem_replicate hall) hleft
  case climbs =>
    rw [List.map_append, List.map_singleton]
    exact moves.climbs regular.climbs
  case trackingNumber =>
    rw [moves.trackingNumber, regular.trackingNumber, hstates]
    simp [eq_comm]
  case carrier =>
    rw [moves.carrier, regular.carrier, hstates]
    simp [eq_comm]
  case cancelledReason =>
    intro hstatus
    obtain ⟨heq, hstatus'⟩ := moves.cancelledReason hstatus
    exact heq.trans (regular.cancelledReason hstatus')

/-- An order is as regular after any further commands. -/
theorem Regular.through (regular : life.Regular id customerId createdAt)
    (commands : List (Time × Time × Command)) :
    (life.through commands).Regular id customerId createdAt := by
  induction commands generalizing life with
  | nil => exact regular
  | cons first rest ih =>
    obtain ⟨createdAt', now, command⟩ := first
    rw [Life.through]
    refine ih ?_
    rcases life.carryOut_cases createdAt' now command with heq | ⟨payload, order', moves, heq⟩
    · rwa [heq]
    · rw [heq]
      exact regular.move moves

/-- The rules that an order follows all its life. -/
structure Lawful (life : Life) (id : String) (customerId : Uuid) (createdAt : Time) : Prop where
  items_ne_nil : life.order.items ≠ []
  quantity_pos : ∀ item ∈ life.order.items, 0 < item.quantity.toInt
  version : life.order.version = life.events.length
  one_le_version : 1 ≤ life.order.version
  identity : ∀ state ∈ life.states,
    state.id = id ∧ state.customerId = customerId ∧ state.createdAt = createdAt
  items_kept : ∀ earlier ∈ life.past, earlier.status ≠ .created → life.order.items = earlier.items
  path : Status.IsPath (life.states.map Order.status)
  /-- An order has a shipment exactly from the time on when it is shipped. -/
  shipment_some : life.order.status = .shipped ∨ life.order.status = .delivered →
    life.order.trackingNumber.isSome ∧ life.order.carrier.isSome
  shipment_none : life.order.status = .created ∨ life.order.status = .confirmed →
    life.order.trackingNumber = none ∧ life.order.carrier = none
  shipment_cancelled : life.order.status = .cancelled →
    (life.order.trackingNumber.isSome ↔ ∃ earlier ∈ life.past, earlier.status = .shipped) ∧
    (life.order.carrier.isSome ↔ ∃ earlier ∈ life.past, earlier.status = .shipped)
  cancelledReason : life.order.status ≠ .cancelled → life.order.cancelledReason = none
  refuses : life.order.status = .delivered ∨ life.order.status = .cancelled →
    ∀ now command, ∃ e, life.order.decide now command = .error e
  /-- What a command leads to, the order takes up. -/
  accepts : ∀ {now command payloads}, life.order.decide now command = .ok payloads →
    ∀ createdAt, ∃ order', applyAll (some life.order)
      (DomainEvent.sequence life.order.id createdAt life.order.version payloads) = .ok (some order')

/-- An order that has been delivered or cancelled refuses every command. -/
theorem refuses_of_terminal (h : order.status = .delivered ∨ order.status = .cancelled) (now : Time)
    (command : Command) : ∃ e, order.decide now command = .error e := by
  cases hdecide : order.decide now command with
  | error e => exact ⟨e, rfl⟩
  | ok payloads =>
    obtain ⟨payload, order', -, moves, -⟩ := Moves.of_decide hdecide order.id now
    exfalso
    cases moves <;> rcases h with h | h <;> simp_all [Status.isTerminal]

theorem Regular.lawful (regular : life.Regular id customerId createdAt) :
    life.Lawful id customerId createdAt := by
  have hstatuses : life.states.map Order.status =
      life.past.map Order.status ++ [life.order.status] := by simp [states]
  constructor
  case items_ne_nil => exact (checkItems_eq_ok_iff.1 regular.items).1
  case quantity_pos => exact (checkItems_eq_ok_iff.1 regular.items).2
  case version => exact regular.version
  case one_le_version =>
    have hpos := List.length_pos_iff.2 regular.events
    rw [regular.version]
    omega
  case identity => exact regular.identity
  case items_kept => exact regular.items_kept
  case path => exact hstatuses ▸ regular.climbs.isPath
  case shipment_some =>
    intro hstatus
    have hmem := hstatuses ▸ regular.climbs.shipped_mem hstatus
    exact ⟨regular.trackingNumber.2 hmem, regular.carrier.2 hmem⟩
  case shipment_none =>
    intro hstatus
    have hmem := hstatuses ▸ regular.climbs.shipped_not_mem hstatus
    exact ⟨Option.not_isSome_iff_eq_none.1 (mt regular.trackingNumber.1 hmem),
      Option.not_isSome_iff_eq_none.1 (mt regular.carrier.1 hmem)⟩
  case shipment_cancelled =>
    intro hstatus
    have hmem : .shipped ∈ life.states.map Order.status ↔
        ∃ earlier ∈ life.past, earlier.status = .shipped := by
      rw [hstatuses, hstatus]
      simp
    exact ⟨regular.trackingNumber.trans hmem, regular.carrier.trans hmem⟩
  case cancelledReason => exact regular.cancelledReason
  case refuses => exact refuses_of_terminal
  case accepts =>
    intro now command payloads hdecide createdAt
    obtain ⟨-, order', -, -, happly⟩ := Moves.of_decide hdecide _ createdAt
    exact ⟨order', happly⟩

end Life

/-- An order that a first command has made follows the rules through any further commands. -/
theorem lifecycle_of_create {items : List Item} {events : List Event}
    (create : carryOut id createdAt now none (.create customerId items) = .ok (events, some order))
    (commands : List (Time × Time × Command)) :
    Life.Lawful (Life.through ⟨events, [], order⟩ commands) id customerId createdAt :=
  ((Life.regular_begin create).through commands).lawful

/-- The noon of a day in March. -/
def noon : Time := ⟨⟨2025, 3, 1, by decide⟩, 12, 0, 0, 0, by decide⟩

/-- An order for three pieces of one product. -/
def threePieces : Order :=
  ⟨"o", 1, .random 1, [⟨.random 2, 3⟩], .created, noon, noon, none, none, none⟩

/-- Commands to an order, of which the third and the last are refused. -/
def shippedAndCancelled : List (Time × Time × Command) :=
  [.updateItems [⟨.random 2, 4⟩] none, .confirm, .updateItems [⟨.random 2, 5⟩] none,
    .ship "t" "c", .cancel (some "lost") none, .deliver none].map fun command =>
      (noon, noon, command)

/-- An order that is cancelled after it was shipped keeps its shipment. -/
theorem lifecycle_of_shippedAndCancelled :
    carryOut "o" noon noon none (.create (.random 1) [⟨.random 2, 3⟩]) =
      .ok ([.created (.random 1) [⟨.random 2, 3⟩]], some threePieces) ∧
    (Life.through ⟨[.created (.random 1) [⟨.random 2, 3⟩]], [], threePieces⟩
      shippedAndCancelled).Lawful "o" (.random 1) noon ∧
    (Life.through ⟨[.created (.random 1) [⟨.random 2, 3⟩]], [], threePieces⟩
      shippedAndCancelled).order =
        { threePieces with
          version := 5, items := [⟨.random 2, 4⟩], status := .cancelled
          trackingNumber := some "t", carrier := some "c", cancelledReason := some "lost" } := by
  have create : carryOut "o" noon noon none (.create (.random 1) [⟨.random 2, 3⟩]) =
      .ok ([.created (.random 1) [⟨.random 2, 3⟩]], some threePieces) := by decide +kernel
  exact ⟨create, lifecycle_of_create create shippedAndCancelled, by decide +kernel⟩

end EventJournal.Order
