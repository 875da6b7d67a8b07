import EventJournal.Proofs.Order.Commands

/-!
# Snapshots of orders

A call decides a command on the state that it has found, which may be out of date when the event is
committed. But the place of the event is the one after that state, so it is free only if the state
is still current.

* `Order.Kept`, that the records of an order are numbered and replay to their number;
* `Order.Kept.current`, that a state is current if the place after it is free;
* `Run.saves_of_asks`, `Run.origin`: where a record of an order comes from;
* `History.Decides`, that a call has decided its command on the current state.

The main statement is `Run.kept`.
-/

namespace EventJournal

open Record (place Numbered numbersOf)

/-- The records of an aggregate in the order in which they were committed. -/
def Record.of (aggregateId : String) (records : List Record) : List Record :=
  records.filter (·.aggregateId == aggregateId)

namespace Record

variable {aggregateId : String} {records others : List Record}

theorem of_append (aggregateId : String) (records others : List Record) :
    of aggregateId (records ++ others) = of aggregateId records ++ of aggregateId others :=
  List.filter_append ..

theorem of_singleton (r : Record) : of r.aggregateId [r] = [r] := by simp [of]

theorem of_eq_nil (h : ∀ r ∈ records, r.aggregateId ≠ aggregateId) :
    of aggregateId records = [] := by
  simpa [of] using h

theorem of_isPrefix (h : records <+: others) : of aggregateId records <+: of aggregateId others :=
  h.filter _

theorem mem_of {r : Record} :
    r ∈ of aggregateId records ↔ r ∈ records ∧ r.aggregateId = aggregateId := by
  simp [of]

theorem length_of (aggregateId : String) (records : List Record) :
    (of aggregateId records).length = (numbersOf aggregateId records).length :=
  (List.length_map _).symm

/-- The number of a record that goes on from the end of its stream. -/
theorem numbersOf_next {r : Record}
    (h : r.sequenceNo = (of r.aggregateId records).length + 1) :
    numbersOf r.aggregateId [r] =
      numbersFrom ((numbersOf r.aggregateId records).length + 1) 1 := by
  rw [← length_of, ← h]
  simp [numbersOf, numbersFrom]

theorem map_sequenceNo_of (h : Numbered aggregateId records) :
    (of aggregateId records).map Record.sequenceNo =
      numbersFrom 1 (of aggregateId records).length := by
  rw [length_of]
  exact h

theorem nodup_of (h : Numbered aggregateId records) : (of aggregateId records).Nodup := by
  refine List.Nodup.of_map Record.sequenceNo ?_
  rw [map_sequenceNo_of h]
  exact nodup_numbersFrom ..

end Record

namespace Journal

variable {aggregateId : String} {j : Journal}

theorem stream_eq_of (h : Numbered aggregateId j.records) :
    j.stream aggregateId = Record.of aggregateId j.records :=
  stream_of_numbered h

theorem length_stream (j : Journal) (aggregateId : String) :
    (j.stream aggregateId).length = (Record.of aggregateId j.records).length :=
  Record.length_ordered ..

/-- A load reads all of a numbered stream. -/
theorem query_eq_of (h : Numbered aggregateId j.records) :
    j.query aggregateId Numeral.minInt64 = Record.of aggregateId j.records := by
  rw [query, stream_eq_of h, List.filter_eq_self]
  intro r hr
  have hnumber : r.sequenceNo ∈ (Record.of aggregateId j.records).map Record.sequenceNo :=
    List.mem_map_of_mem hr
  rw [Record.map_sequenceNo_of h] at hnumber
  have hle := (mem_numbersFrom.1 hnumber).1
  rw [decide_eq_true_iff, Numeral.minInt64]
  omega

end Journal

namespace Order

/-- The records of an order are numbered, and at each point they replay to a state whose version is
their number. -/
structure Kept (registry : Registry) (orderId : String) (records : List Record) : Prop where
  numbered : Numbered orderId records
  replays : ∀ {earlier}, earlier <+: Record.of orderId records →
    ∃ state, Replays registry earlier state ∧ versionOf state = earlier.length

variable {registry : Registry} {orderId : String} {records earlier others : List Record}
  {state : Option Order} {r : Record}

theorem kept_nil (registry : Registry) (orderId : String) : Kept registry orderId [] := by
  refine ⟨Record.numbered_nil orderId, @fun earlier hearlier => ?_⟩
  obtain rfl := List.prefix_nil.1 hearlier
  exact ⟨none, replays_nil registry, rfl⟩

theorem Kept.of_isPrefix (kept : Kept registry orderId records) (hgrown : earlier <+: records) :
    Kept registry orderId earlier :=
  ⟨kept.numbered.of_isPrefix hgrown,
    fun hearlier => kept.replays (hearlier.trans (Record.of_isPrefix hgrown))⟩

/-- Records of others change nothing. -/
theorem Kept.append_of_others (kept : Kept registry orderId records)
    (hothers : ∀ r ∈ others, r.aggregateId ≠ orderId) :
    Kept registry orderId (records ++ others) := by
  have hnone : Record.of orderId others = [] := Record.of_eq_nil hothers
  have hsame : Record.of orderId (records ++ others) = Record.of orderId records := by
    rw [Record.of_append, hnone, List.append_nil]
  refine ⟨?_, fun hearlier => kept.replays (hsame ▸ hearlier)⟩
  have hnumbers : numbersOf orderId (records ++ others) = numbersOf orderId records :=
    congrArg (List.map Record.sequenceNo) hsame
  unfold Numbered
  rw [hnumbers]
  exact kept.numbered

/-- What has been found once is the current state, if the place after it is free. -/
theorem Kept.current (kept : Kept registry orderId records) (hgrown : earlier <+: records)
    (finds : Replays registry ((⟨earlier⟩ : Journal).query orderId Numeral.minInt64) state)
    (haggregate : r.aggregateId = orderId) (hsequence : r.sequenceNo = versionOf state + 1)
    (free : Journal.firstClash? (records.map place) [r] = none) :
    Record.of orderId earlier = Record.of orderId records ∧
      versionOf state = (Record.of orderId records).length := by
  subst haggregate
  have before := kept.of_isPrefix hgrown
  rw [Journal.query_eq_of before.numbered] at finds
  obtain ⟨state', hreplays, hversion⟩ := before.replays List.prefix_rfl
  obtain rfl := finds.unique hreplays
  have hle := Record.length_numbersOf_le hgrown r.aggregateId
  have hnumbers := Record.numbersOf_next (hversion ▸ hsequence)
  -- the place is free, so the stream ends where it ended then
  have hlength :=
    (Journal.eq_length_of_free kept.numbered hle hnumbers free).resolve_left (by decide)
  rw [← Record.length_of, ← Record.length_of] at hlength
  have hsame := (Record.of_isPrefix hgrown).eq_of_length hlength
  exact ⟨hsame, by rw [hversion, hlength]⟩

/-- An event that was decided on the current state is added to the records. -/
theorem Kept.concat {e : DomainEvent Event} {now : Time} {command : Command}
    (kept : Kept registry orderId records) (readable : Readable registry)
    (replays : Replays registry (Record.of orderId records) state)
    (version : versionOf state = (Record.of orderId records).length)
    (decide : decideOn state now command = .ok [e.data]) (keeps : r.Keeps e.toEvent)
    (haggregate : r.aggregateId = orderId) (hsequence : r.sequenceNo = versionOf state + 1)
    (int64 : Numeral.IsInt64 r.sequenceNo)
    (free : Journal.firstClash? (records.map place) [r] = none) :
    Kept registry orderId (records ++ [r]) ∧
      ∃ order, applyOn state e = .ok order ∧
        Replays registry (Record.of orderId records ++ [r]) (some order) := by
  subst haggregate
  obtain ⟨payload, heq, happlies⟩ := decideOn_eq_ok decide
  obtain rfl := (List.cons.inj heq).1
  obtain ⟨order, happly, horder⟩ := happlies e.aggregateId e.sequenceNo e.createdAt
  have hnumber : e.sequenceNo = r.sequenceNo := keeps.sequenceNo.symm
  have hadded := replays.concat readable keeps int64 happly
  refine ⟨⟨?_, @fun earlier hearlier => ?_⟩, order, happly, hadded⟩
  · have hnumbers := Record.numbersOf_next (version ▸ hsequence)
    exact kept.numbered.append (Nat.le_refl _) hnumbers free
  · rw [Record.of_append, Record.of_singleton, List.prefix_concat_iff] at hearlier
    rcases hearlier with rfl | hearlier
    · refine ⟨some order, hadded, ?_⟩
      show order.version = _
      rw [horder, hnumber, hsequence, version, List.length_append, List.length_singleton]
      rfl
    · exact kept.replays hearlier

end Order

/-- A call has decided its command on the state that the earlier records of the order replay to. The
event, which the record keeps, fits that state. -/
structure History.Decides (h : History) (registry : Registry) (orderId : String)
    (earlier : List Record) (r : Record) (call : Nat) (command : Order.Command) (load : Moment)
    (state : Option Order) (e : DomainEvent Order.Event) : Prop where
  accepts : h.Accepts call orderId command load state e
  keeps : r.Keeps e.toEvent
  /-- The earlier records are those that the call has loaded. -/
  current : load.before.storage.journal.stream orderId = earlier
  replays : Order.Replays registry earlier state
  version : Order.versionOf state = earlier.length
  first : state = none ↔ earlier = []
  fits : ∃ order, Order.applyOn state e = .ok order ∧
    Order.Replays registry (earlier ++ [r]) (some order)

namespace Run

variable {s₀ s : System} {h : History}

theorem registry_of_mem {m : Moment} (run : Run s₀ h s) (fresh : s₀.Fresh)
    (undisturbed : h.Undisturbed) (hm : m ∈ h) : m.before.registry = s₀.registry := by
  obtain ⟨h₁, h₂, rfl, hbefore, -⟩ := run.split hm
  exact (hbefore.growth fresh (History.undisturbed_append.1 undisturbed).1).registry

/-- A call that carries out a command to an order saves the event that it led to, and nothing else.
-/
theorem saves_of_asks (run : Run s₀ h s) (fresh : s₀.Fresh) (undisturbed : h.Undisturbed)
    {orderId : String} {command : Order.Command} {call : Nat} {stage : Call.Stage}
    {records : List Record} (hget : s.calls.get? call = some stage)
    (asks : h.Asks call (.handle orderId command))
    (completes : s.ledger.Completes stage records) :
    ∃ load state e r, h.Accepts call orderId command load state e ∧ records = [r] ∧
      r.Keeps e.toEvent := by
  obtain ⟨purpose, envelopes, since, save, storage, rfl, -, -, isOf⟩ := completes
  cases purpose with
  | itself => exact (run.handles fresh undisturbed hget asks).elim
  | commit unit =>
    obtain ⟨⟨load, state, e, accepts, hevents⟩, -⟩ := run.handles fresh undisturbed hget asks
    obtain ⟨envelope, r, rfl, rfl, hr, hevent⟩ := exists_isOf_of_singleton hevents isOf
    exact ⟨load, state, e, r, accepts, rfl, envelope, hr, hevent⟩

/-- A call that saves a record of an order, whose events nobody else brings into the system, carries
out a command to it. -/
theorem origin (run : Run s₀ h s) (fresh : s₀.Fresh) (undisturbed : h.Undisturbed)
    {orderId : String} (foreign : ∀ e, h.Brings e → e.aggregateId ≠ orderId) {call : Nat}
    {stage : Call.Stage} {records : List Record} (hget : s.calls.get? call = some stage)
    (completes : s.ledger.Completes stage records) :
    (∀ r ∈ records, r.aggregateId ≠ orderId) ∨
      ∃ command, h.Asks call (.handle orderId command) := by
  rcases run.given fresh hget with ⟨id, command, asks⟩ | given
  · by_cases hid : id = orderId
    · exact .inr ⟨command, hid ▸ asks⟩
    · obtain ⟨load, state, e, r, accepts, rfl, keeps⟩ :=
        run.saves_of_asks fresh undisturbed hget asks completes
      refine .inl fun r' hr' => ?_
      obtain rfl := List.mem_singleton.1 hr'
      rw [accepts.aggregateId_of_keeps keeps]
      exact hid
  · obtain ⟨purpose, envelopes, since, save, storage, rfl, -, -, isOf⟩ := completes
    refine .inl fun r hr => ?_
    obtain ⟨envelope, henvelope, hisOf⟩ := exists_left_of_forall₂ isOf hr
    rw [hisOf.aggregateId]
    exact foreign _ (given _ (List.mem_map_of_mem henvelope))

/-- An event that has been accepted is added to the records of its order only if it was decided on
their current state. -/
theorem decides_of_accepts (run : Run s₀ h s) (fresh : s₀.Fresh) (undisturbed : h.Undisturbed)
    (readable : Order.Readable s₀.registry) {call : Nat} {orderId : String}
    {command : Order.Command} {load : Moment} {state : Option Order}
    {e : DomainEvent Order.Event} {r : Record}
    (kept : Order.Kept s₀.registry orderId s.storage.journal.records)
    (accepts : h.Accepts call orderId command load state e) (keeps : r.Keeps e.toEvent)
    (free : Journal.firstClash? (s.storage.journal.records.map place) [r] = none)
    (bounded :
      ((Record.of orderId s.storage.journal.records).length : Int) + 1 ≤ Numeral.maxInt64) :
    h.Decides s₀.registry orderId (Record.of orderId s.storage.journal.records) r call command load
        state e ∧
      Order.Kept s₀.registry orderId (s.storage.journal.records ++ [r]) := by
  obtain ⟨read, decide, rest, hsteps, hdecide, -⟩ := accepts.steps
  have hload : load ∈ h := accepts.load_mem
  have hgrown := (run.growth fresh undisturbed).isPrefix hload
  have hnumbered := (kept.of_isPrefix hgrown).numbered
  have finds := accepts.finds
  rw [Moment.Finds, run.registry_of_mem fresh undisturbed hload] at finds
  have haggregate := accepts.aggregateId_of_keeps keeps
  have hsequence := accepts.sequenceNo_of_keeps keeps
  obtain ⟨hsame, version⟩ := kept.current hgrown finds haggregate hsequence free
  rw [Journal.query_eq_of hnumbered, hsame] at finds
  have int64 : Numeral.IsInt64 r.sequenceNo := by
    constructor
    · rw [Numeral.minInt64]
      omega
    · omega
  obtain ⟨hkept, hfits⟩ :=
    kept.concat readable finds version hdecide keeps haggregate hsequence int64 free
  refine ⟨⟨accepts, keeps, ?_, finds, version, finds.eq_none_iff, hfits⟩, hkept⟩
  rw [Journal.stream_eq_of hnumbered, hsame]

/-- In a run in which the events of an order come from commands to it alone, its records are
numbered and replay to their number, as long as this is a 64-bit integer. -/
theorem kept (run : Run s₀ h s) (fresh : s₀.Fresh) (undisturbed : h.Undisturbed)
    (readable : Order.Readable s₀.registry) {orderId : String}
    (foreign : ∀ e, h.Brings e → e.aggregateId ≠ orderId)
    (bounded : ((Record.of orderId s.storage.journal.records).length : Int) ≤ Numeral.maxInt64) :
    Order.Kept s₀.registry orderId s.storage.journal.records := by
  induction run with
  | nil =>
    rw [fresh.records]
    exact Order.kept_nil s₀.registry orderId
  | @snoc h s s' a run known perform ih =>
    obtain ⟨hold, quiet⟩ := History.undisturbed_concat.1 undisturbed
    have foreignOld : ∀ e, h.Brings e → e.aggregateId ≠ orderId :=
      fun e brings => foreign e (brings.append _)
    obtain ⟨new, hgrows, hnew⟩ :=
      run.grows fresh known perform quiet
    rw [hgrows.records, Record.of_append, List.length_append] at bounded
    have before := ih hold foreignOld (by omega)
    rw [hgrows.records]
    rcases hnew with rfl | ⟨call, stage, -, hget, hcompletes⟩
    · rwa [List.append_nil]
    · rcases run.origin fresh hold foreignOld hget hcompletes with hothers | ⟨command, asks⟩
      · exact before.append_of_others hothers
      · obtain ⟨load, state, e, r, accepts, rfl, keeps⟩ :=
          run.saves_of_asks fresh hold hget asks hcompletes
        obtain rfl := accepts.aggregateId_of_keeps keeps
        rw [Record.of_singleton, List.length_singleton] at bounded
        exact (run.decides_of_accepts fresh hold readable before accepts keeps hgrows.free
          (by omega)).2

end Run

end EventJournal
