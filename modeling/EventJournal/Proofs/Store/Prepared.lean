import EventJournal.Store
import Mathlib.Data.List.Forall2

/-!
# Prepared events

What a store makes of events before it writes anything: a record and an envelope of each.

* `Event.place`, the place that an event wants;
* `Envelope.IsOf`, the envelope that goes with a record, and `Record.Keeps`, its event;
* `map_event_of_prepare`, `isOf_of_prepare`: the entries of events, in their order;
* `exists_prepare`, when there are entries, and `prepare_eq_error_iff`, which event fails.
-/

namespace EventJournal

theorem exists_of_bind_eq_ok {ε α β : Type} {x : Except ε α} {f : α → Except ε β} {b : β}
    (h : x >>= f = .ok b) : ∃ a, x = .ok a ∧ f a = .ok b := by
  cases x with
  | error e => exact (nomatch h)
  | ok a => exact ⟨a, rfl, h⟩

/-- Lists whose entries agree, one by one, in what is read off them. -/
theorem map_eq_map_of_forall₂ {α β γ : Type} {f : α → γ} {g : β → γ} {as : List α} {bs : List β}
    (h : List.Forall₂ (fun a b => f a = g b) as bs) : as.map f = bs.map g := by
  rwa [← List.forall₂_eq_eq_eq, List.forall₂_map_left_iff, List.forall₂_map_right_iff]

/-- The place that an event wants. -/
def Event.place (e : Event) : String × Int := (e.aggregateId, e.sequenceNo)

/-- The envelope that the saver of an event gets when the event is kept as a record. -/
def Envelope.IsOf (envelope : Envelope) (r : Record) : Prop :=
  Record.ofEvent envelope.event envelope.id envelope.timestamp = .ok (r, envelope)

namespace Record

variable {e : Event} {id : Uuid} {timestamp : Time} {r : Record} {envelope : Envelope}

theorem ofEvent_eq_ok_iff :
    ofEvent e id timestamp = .ok (r, envelope) ↔
      ∃ data, e.payload = .ok data ∧
        r = { id, aggregateId := e.aggregateId, eventType := e.eventType,
              sequenceNo := e.sequenceNo, data,
              metadata := (Json.object (deriveMetadata e)).toBytes, timestamp } ∧
        envelope = { event := e, id, timestamp, metadata := deriveMetadata e } := by
  unfold ofEvent
  cases e.payload with
  | error err => simp
  | ok data => simp [eq_comm]

theorem isOf_of_ofEvent (h : ofEvent e id timestamp = .ok (r, envelope)) : envelope.IsOf r := by
  obtain ⟨data, hdata, rfl, rfl⟩ := ofEvent_eq_ok_iff.1 h
  exact ofEvent_eq_ok_iff.2 ⟨data, hdata, rfl, rfl⟩

end Record

namespace Envelope

variable {envelope : Envelope} {r : Record}

theorem IsOf.payload (h : envelope.IsOf r) : envelope.event.payload = .ok r.data := by
  obtain ⟨data, hdata, rfl, -⟩ := Record.ofEvent_eq_ok_iff.1 h
  exact hdata

theorem IsOf.aggregateId (h : envelope.IsOf r) : r.aggregateId = envelope.event.aggregateId := by
  obtain ⟨data, -, rfl, -⟩ := Record.ofEvent_eq_ok_iff.1 h
  rfl

theorem IsOf.sequenceNo (h : envelope.IsOf r) : r.sequenceNo = envelope.event.sequenceNo := by
  obtain ⟨data, -, rfl, -⟩ := Record.ofEvent_eq_ok_iff.1 h
  rfl

theorem IsOf.place (h : envelope.IsOf r) : r.place = envelope.event.place := by
  rw [Record.place, h.aggregateId, h.sequenceNo]
  rfl

theorem IsOf.eventType (h : envelope.IsOf r) : r.eventType = envelope.event.eventType := by
  obtain ⟨data, -, rfl, -⟩ := Record.ofEvent_eq_ok_iff.1 h
  rfl

theorem IsOf.metadata (h : envelope.IsOf r) :
    r.metadata = (Json.object (deriveMetadata envelope.event)).toBytes := by
  obtain ⟨data, -, hr, -⟩ := Record.ofEvent_eq_ok_iff.1 h
  rw [hr]

end Envelope

theorem map_place_of_isOf {envelopes : List Envelope} {records : List Record}
    (h : List.Forall₂ Envelope.IsOf envelopes records) :
    envelopes.map (·.event.place) = records.map Record.place :=
  map_eq_map_of_forall₂ (h.imp fun _ _ isOf => isOf.place.symm)

/-- A record is what the store has made of an event, with some id and at some time. -/
def Record.Keeps (r : Record) (e : Event) : Prop :=
  ∃ envelope : Envelope, envelope.IsOf r ∧ envelope.event = e

namespace Record.Keeps

variable {r : Record} {e : Event}

theorem aggregateId (h : r.Keeps e) : r.aggregateId = e.aggregateId := by
  obtain ⟨envelope, isOf, rfl⟩ := h
  exact isOf.aggregateId

theorem sequenceNo (h : r.Keeps e) : r.sequenceNo = e.sequenceNo := by
  obtain ⟨envelope, isOf, rfl⟩ := h
  exact isOf.sequenceNo

end Record.Keeps

section Prepare

variable {newId : Nat → Uuid} {now : Time} {first : Nat} {events : List Event}
  {entries : List (Record × Envelope)}

theorem prepare_cons_eq_ok_iff {e : Event} {rest : List Event} :
    prepare newId now first (e :: rest) = .ok entries ↔
      ∃ entry later, Record.ofEvent e (newId first) now = .ok entry ∧
        prepare newId now (first + 1) rest = .ok later ∧ entries = entry :: later := by
  rw [prepare]
  cases Record.ofEvent e (newId first) now with
  | error err => simp
  | ok entry =>
    cases prepare newId now (first + 1) rest with
    | error err => simp
    | ok later => simp [eq_comm]

theorem map_event_of_prepare (h : prepare newId now first events = .ok entries) :
    entries.map (fun entry => entry.2.event) = events := by
  induction events generalizing first entries with
  | nil =>
    obtain rfl := Except.ok.inj h
    rfl
  | cons e rest ih =>
    obtain ⟨⟨r, envelope⟩, later, hentry, hlater, rfl⟩ := prepare_cons_eq_ok_iff.1 h
    obtain ⟨data, -, -, rfl⟩ := Record.ofEvent_eq_ok_iff.1 hentry
    rw [List.map_cons, ih hlater]

theorem isOf_of_prepare (h : prepare newId now first events = .ok entries) :
    ∀ entry ∈ entries, entry.2.IsOf entry.1 := by
  induction events generalizing first entries with
  | nil =>
    obtain rfl := Except.ok.inj h
    simp
  | cons e rest ih =>
    obtain ⟨entry, later, hentry, hlater, rfl⟩ := prepare_cons_eq_ok_iff.1 h
    rintro other hother
    rcases List.mem_cons.1 hother with rfl | hother
    · exact Record.isOf_of_ofEvent hentry
    · exact ih hlater other hother

/-- Events that can all be written have entries. -/
theorem exists_prepare (newId : Nat → Uuid) (now : Time) (first : Nat)
    (h : ∀ e ∈ events, ∃ data, e.payload = .ok data) :
    ∃ entries, prepare newId now first events = .ok entries := by
  induction events generalizing first with
  | nil => exact ⟨[], rfl⟩
  | cons e rest ih =>
    obtain ⟨data, hdata⟩ := h e (List.mem_cons_self ..)
    obtain ⟨later, hlater⟩ := ih (first + 1) fun e' he' => h e' (List.mem_cons_of_mem _ he')
    exact ⟨_, prepare_cons_eq_ok_iff.2
      ⟨_, later, Record.ofEvent_eq_ok_iff.2 ⟨data, hdata, rfl, rfl⟩, hlater, rfl⟩⟩

theorem map_envelope_of_prepare (h : prepare newId now first events = .ok entries) :
    (entries.map Prod.snd).map Envelope.event = events := by
  rw [List.map_map]
  exact map_event_of_prepare h

theorem forall₂_isOf_of_prepare
    (h : prepare newId now first events = .ok entries) :
    List.Forall₂ Envelope.IsOf (entries.map Prod.snd) (entries.map Prod.fst) := by
  have hentries := isOf_of_prepare h
  clear h
  induction entries with
  | nil => exact .nil
  | cons entry rest ih =>
    refine .cons (hentries entry (List.mem_cons_self ..)) (ih fun other hother => ?_)
    exact hentries other (List.mem_cons_of_mem _ hother)

/-- The records of events have the places that the events want. -/
theorem map_place_of_prepare (h : prepare newId now first events = .ok entries) :
    (entries.map Prod.fst).map Record.place = events.map Event.place := by
  rw [← map_place_of_isOf (forall₂_isOf_of_prepare h), ← map_envelope_of_prepare h, List.map_map,
    List.map_map, List.map_map]
  rfl

/-- The entries of events fail with the first event that cannot be written. -/
theorem prepare_eq_error_iff {err : EventError} :
    prepare newId now first events = .error err ↔
      ∃ before e after, events = before ++ e :: after ∧
        (∀ e' ∈ before, ∃ data, e'.payload = .ok data) ∧ e.payload = .error err := by
  induction events generalizing first with
  | nil => simp [prepare]
  | cons e rest ih =>
    cases hpayload : e.payload with
    | error failure =>
      have hentry : Record.ofEvent e (newId first) now = .error failure := by
        simp [Record.ofEvent, hpayload]
      simp only [prepare, hentry, Except.error.injEq]
      constructor
      · rintro rfl
        exact ⟨[], e, rest, rfl, by simp, hpayload⟩
      · rintro ⟨before, e', after, heq, hbefore, herr⟩
        cases before with
        | nil =>
          obtain ⟨rfl, rfl⟩ := List.cons.inj heq
          exact Except.error.inj (hpayload.symm.trans herr)
        | cons e₁ before =>
          -- the event that fails would be one that can be written
          obtain ⟨rfl, rfl⟩ := List.cons.inj heq
          obtain ⟨data, hdata⟩ := hbefore e (List.mem_cons_self ..)
          simp [hpayload] at hdata
    | ok data =>
      obtain ⟨entry, hentry⟩ : ∃ entry, Record.ofEvent e (newId first) now = .ok entry := by
        simp [Record.ofEvent, hpayload]
      have hrest : prepare newId now first (e :: rest) = .error err ↔
          prepare newId now (first + 1) rest = .error err := by
        rw [prepare, hentry]
        cases prepare newId now (first + 1) rest <;> simp
      rw [hrest, ih]
      constructor
      · rintro ⟨before, e', after, rfl, hbefore, herr⟩
        refine ⟨e :: before, e', after, rfl, fun e'' he'' => ?_, herr⟩
        rcases List.mem_cons.1 he'' with rfl | he''
        · exact ⟨data, hpayload⟩
        · exact hbefore e'' he''
      · rintro ⟨before, e', after, heq, hbefore, herr⟩
        cases before with
        | nil =>
          obtain ⟨rfl, rfl⟩ := List.cons.inj heq
          simp [hpayload] at herr
        | cons e₁ before =>
          obtain ⟨rfl, rfl⟩ := List.cons.inj heq
          exact ⟨before, e', after, rfl, fun e'' he'' => hbefore e'' (List.mem_cons_of_mem _ he''),
            herr⟩

end Prepare

end EventJournal
