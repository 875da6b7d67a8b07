import EventJournal.Proofs.Store.Solitary

/-!
# Continuations

A strict store that nobody else uses takes those events which go on with its streams, in whatever
order their aggregates come, and tells of the first event that does not. What it takes never wants a
place that is taken.

* `GoOn`, that places go on from the next numbers, and `firstGap?_eq_none_iff`,
  `firstGap?_eq_some_iff`, where they do not;
* `Journal.Continues`, that events go on with the streams of a journal;
* `Journal.StrictSave`, what a strict store makes of events.

The main statement is `Journal.strictSave_of_writable`.
-/

namespace EventJournal

open Record (place lastOf)

/-- Places go on from the next numbers: those of each aggregate are numbered from its next number
on, in their order. -/
def GoOn (next : String → Int) (places : List (String × Int)) : Prop :=
  ∀ aggregateId, numbersAt aggregateId places =
    numbersFrom (next aggregateId) (numbersAt aggregateId places).length

section Places

variable {next : String → Int} {aggregateId : String} {number : Int}
  {places rest : List (String × Int)}

theorem numbersAt_cons_self (aggregateId : String) (number : Int) (rest : List (String × Int)) :
    numbersAt aggregateId ((aggregateId, number) :: rest) =
      number :: numbersAt aggregateId rest := by
  simp [numbersAt]

theorem numbersAt_cons_of_ne {other : String} (hne : other ≠ aggregateId) :
    numbersAt other ((aggregateId, number) :: rest) = numbersAt other rest := by
  simp [numbersAt, Ne.symm hne]

theorem mem_numbersAt : number ∈ numbersAt aggregateId places ↔ (aggregateId, number) ∈ places := by
  simp [numbersAt]

/-- Places are different if the numbers of each aggregate are. -/
theorem nodup_of_numbersAt (h : ∀ aggregateId, (numbersAt aggregateId places).Nodup) :
    places.Nodup := by
  induction places with
  | nil => exact .nil
  | cons p rest ih =>
    obtain ⟨aggregateId, number⟩ := p
    have hself := h aggregateId
    rw [numbersAt_cons_self, List.nodup_cons, mem_numbersAt] at hself
    refine List.nodup_cons.2 ⟨hself.1, ih fun other => ?_⟩
    by_cases heq : other = aggregateId
    · exact heq ▸ hself.2
    · exact numbersAt_cons_of_ne heq ▸ h other

theorem goOn_nil (next : String → Int) : GoOn next [] := fun _ => rfl

/-- The first of some places that go on has the next number, and those after it go on from there. -/
theorem goOn_cons : GoOn next ((aggregateId, number) :: rest) ↔
    number = next aggregateId ∧ GoOn (Function.update next aggregateId (number + 1)) rest := by
  have hself : (numbersAt aggregateId ((aggregateId, number) :: rest) =
      numbersFrom (next aggregateId)
        (numbersAt aggregateId ((aggregateId, number) :: rest)).length) ↔
      number = next aggregateId ∧ numbersAt aggregateId rest =
        numbersFrom (number + 1) (numbersAt aggregateId rest).length := by
    rw [numbersAt_cons_self, List.length_cons, numbersFrom, List.cons.injEq]
    constructor
    · rintro ⟨rfl, hrest⟩
      exact ⟨rfl, hrest⟩
    · rintro ⟨rfl, hrest⟩
      exact ⟨rfl, hrest⟩
  constructor
  · intro h
    obtain ⟨hnumber, hrest⟩ := hself.1 (h aggregateId)
    refine ⟨hnumber, fun other => ?_⟩
    by_cases heq : other = aggregateId
    · subst heq
      rwa [Function.update_self]
    · rw [Function.update_of_ne heq]
      exact numbersAt_cons_of_ne heq ▸ h other
  · rintro ⟨hnumber, hrest⟩ other
    by_cases heq : other = aggregateId
    · subst heq
      have htail := hrest other
      rw [Function.update_self] at htail
      exact hself.2 ⟨hnumber, htail⟩
    · rw [numbersAt_cons_of_ne heq, hrest other, Function.update_of_ne heq, length_numbersFrom]

/-- There is no gap among places exactly if they go on, unless a number is the greatest. -/
theorem firstGap?_eq_none_iff (small : ∀ p ∈ places, p.2 < Numeral.maxInt64) :
    firstGap? next places = none ↔ GoOn next places := by
  induction places generalizing next with
  | nil => simp [firstGap?, goOn_nil]
  | cons p rest ih =>
    obtain ⟨hsmall, hrest⟩ := List.forall_mem_cons.1 small
    rw [firstGap?, goOn_cons, Numeral.nextInt64_of_lt hsmall]
    by_cases hnumber : p.2 = next p.1
    · rw [if_pos hnumber, ih hrest, and_iff_right hnumber]
    · simp [hnumber]

/-- A gap is at the first place that does not go on with the places before it. -/
theorem firstGap?_eq_some_iff (small : ∀ p ∈ places, p.2 < Numeral.maxInt64) {gap : Gap} :
    firstGap? next places = some gap ↔
      ∃ before after, places = before ++ (gap.aggregateId, gap.found) :: after ∧
        GoOn next before ∧
        gap.expected = next gap.aggregateId + (numbersAt gap.aggregateId before).length ∧
        gap.found ≠ gap.expected := by
  induction places generalizing next with
  | nil => simp [firstGap?]
  | cons p rest ih =>
    obtain ⟨aggregateId, number⟩ := p
    obtain ⟨hsmall, hrest⟩ := List.forall_mem_cons.1 small
    rw [firstGap?, Numeral.nextInt64_of_lt hsmall]
    by_cases hnumber : number = next aggregateId
    · -- what would be the next number counts the place in front as well
      have hcount : ∀ before : List (String × Int),
          Function.update next aggregateId (number + 1) gap.aggregateId +
              (numbersAt gap.aggregateId before).length =
            next gap.aggregateId +
              (numbersAt gap.aggregateId ((aggregateId, number) :: before)).length := by
        intro before
        by_cases heq : gap.aggregateId = aggregateId
        · rw [heq, Function.update_self, numbersAt_cons_self, List.length_cons, hnumber]
          omega
        · rw [Function.update_of_ne heq, numbersAt_cons_of_ne heq]
      rw [if_pos hnumber, ih hrest]
      constructor
      · rintro ⟨before, after, rfl, hbefore, hexpected, hfound⟩
        exact ⟨(aggregateId, number) :: before, after, rfl, goOn_cons.2 ⟨hnumber, hbefore⟩,
          hexpected.trans (hcount before), hfound⟩
      · rintro ⟨before, after, heq, hbefore, hexpected, hfound⟩
        cases before with
        | nil =>
          -- the place in front is no gap
          obtain ⟨rfl, rfl⟩ := Prod.mk.inj (List.cons.inj heq).1
          exact absurd (hnumber.trans (by simpa [numbersAt] using hexpected.symm)) hfound
        | cons p before =>
          obtain ⟨rfl, rfl⟩ := List.cons.inj heq
          exact ⟨before, after, rfl, (goOn_cons.1 hbefore).2, hexpected.trans (hcount before).symm,
            hfound⟩
    · rw [if_neg hnumber]
      constructor
      · intro heq
        obtain rfl := Option.some.inj heq
        exact ⟨[], rest, rfl, goOn_nil next, by simp [numbersAt], hnumber⟩
      · rintro ⟨before, after, heq, hbefore, hexpected, -⟩
        cases before with
        | nil =>
          obtain ⟨rfl, rfl⟩ := Prod.mk.inj (List.cons.inj heq).1
          have hnext : gap.expected = next gap.aggregateId := by simpa [numbersAt] using hexpected
          rw [← hnext]
        | cons p before =>
          obtain ⟨rfl, rfl⟩ := List.cons.inj heq
          exact absurd (goOn_cons.1 hbefore).1 hnumber

end Places

namespace Journal

variable {j j' : Journal} {records : List Record}

/-- The number of a stream that comes after the last one. -/
def nextNumber (j : Journal) (aggregateId : String) : Int :=
  Record.lastOf aggregateId j.records + 1

/-- The last number of a stream is stored, or it is 0. -/
theorem lastOf_eq (j : Journal) (aggregateId : String) :
    lastOf aggregateId j.records = 0 ∨
      ∃ r ∈ j.records, lastOf aggregateId j.records = r.sequenceNo := by
  unfold lastOf greatest?
  cases hmax : (Record.numbersOf aggregateId j.records).max? with
  | none => exact .inl rfl
  | some last =>
    obtain ⟨r, hr, rfl⟩ := List.mem_map.1 (List.max?_eq_some_iff.1 hmax).1
    exact .inr ⟨r, List.mem_of_mem_filter hr, rfl⟩

/-- What a check expects is the next number, unless the last one is the greatest. -/
theorem expectedNumber_eq (small : ∀ r ∈ j.records, r.sequenceNo < Numeral.maxInt64) :
    j.expectedNumber = j.nextNumber := by
  funext aggregateId
  refine Numeral.nextInt64_of_lt ?_
  rcases j.lastOf_eq aggregateId with hzero | ⟨r, hr, hlast⟩
  · rw [hzero]
    decide
  · rw [hlast]
    exact small r hr

/-- Records that go on with the streams are committed: their places are free. -/
theorem commit_of_goOn (h : GoOn j.nextNumber (records.map place)) :
    j.commit ⟨records⟩ = .ok ⟨j.records ++ records⟩ := by
  have hdistinct : (records.map place).Nodup := by
    refine nodup_of_numbersAt fun aggregateId => ?_
    rw [h aggregateId]
    exact nodup_numbersFrom ..
  have hfree : ∀ p ∈ records.map place, p ∉ j.records.map place := by
    intro p hp htaken
    -- a taken number is not after the last one
    have hnew : p.2 ∈ numbersAt p.1 (records.map place) := mem_numbersAt.2 hp
    rw [h p.1, mem_numbersFrom] at hnew
    have hold : p.2 ≤ lastOf p.1 j.records := Record.le_lastOf (Record.mem_numbersOf.2 htaken)
    unfold nextNumber at hnew
    omega
  exact Journal.commit_eq_ok_iff.2 ⟨Journal.firstClash?_eq_none_iff.2 ⟨hdistinct, hfree⟩, rfl⟩

/-- A strict journal takes records exactly if they go on with its streams. It never tells of a place
that is taken. -/
theorem extend_strict (stored : ∀ r ∈ j.records, r.sequenceNo < Numeral.maxInt64)
    (given : ∀ p ∈ records.map place, p.2 < Numeral.maxInt64) :
    j.extend .strict records =
      match firstGap? j.nextNumber (records.map place) with
      | some gap => .error gap.error
      | none => .ok ⟨j.records ++ records⟩ := by
  rw [extend, gap?, expectedNumber_eq stored]
  cases hgap : firstGap? j.nextNumber (records.map place) with
  | some gap => rfl
  | none => simp only [commit_of_goOn ((firstGap?_eq_none_iff given).1 hgap)]

/-- Events go on with the streams of a journal: those of each aggregate have the numbers after the
last one of its stream, in their order. -/
def Continues (j : Journal) (events : List Event) : Prop :=
  GoOn j.nextNumber (events.map Event.place)

/-- The number that the next event of an aggregate should have, after some events that go on with
the streams. -/
def numberAfter (j : Journal) (events : List Event) (aggregateId : String) : Int :=
  j.nextNumber aggregateId + (numbersAt aggregateId (events.map Event.place)).length

/-- What a strict store makes of events. -/
structure StrictSave (j : Journal) (events : List Event)
    (answer : Except StoreError (List Envelope)) (j' : Journal) : Prop where
  /-- It takes them exactly if they go on with the streams. -/
  ok_iff : (∃ envelopes, answer = .ok envelopes) ↔ j.Continues events
  saved : ∀ envelopes, answer = .ok envelopes → envelopes.map Envelope.event = events ∧
    ∃ records, List.Forall₂ Envelope.IsOf envelopes records ∧ j'.records = j.records ++ records
  /-- Otherwise it tells of the first event that does not go on with those before it. -/
  error_iff : ∀ e, answer = .error e ↔ ∃ before event after,
    events = before ++ event :: after ∧ j.Continues before ∧
      event.sequenceNo ≠ j.numberAfter before event.aggregateId ∧
      e = .sequenceConflict event.aggregateId (j.numberAfter before event.aggregateId)
        event.sequenceNo
  unchanged : ∀ e, answer = .error e → j' = j
  /-- A number that is stored or repeated is a gap and no duplicate. -/
  not_duplicate : ∀ message, answer ≠ .error (.duplicate message)
  /-- No number that is expected leaves the 64 bits, unless one is stored or given that is the
  greatest of them. -/
  int64 : (∀ n ∈ j.records.map Record.sequenceNo ++ events.map (·.sequenceNo),
      Numeral.IsInt64 n ∧ n < Numeral.maxInt64) →
    ∀ before after, events = before ++ after → j.Continues before →
      ∀ aggregateId, Numeral.IsInt64 (j.numberAfter before aggregateId)

variable {events before after : List Event}

/-- The numbers that are expected after events which go on with the streams are of 64 bits, if those
that are stored and given are and none of them is the greatest. -/
theorem isInt64_numberAfter (stored : ∀ r ∈ j.records, Numeral.IsInt64 r.sequenceNo ∧
      r.sequenceNo < Numeral.maxInt64)
    (given : ∀ e ∈ events, Numeral.IsInt64 e.sequenceNo ∧ e.sequenceNo < Numeral.maxInt64)
    (continues : j.Continues events) (aggregateId : String) :
    Numeral.IsInt64 (j.numberAfter events aggregateId) := by
  have hlast : Numeral.minInt64 ≤ lastOf aggregateId j.records ∧
      lastOf aggregateId j.records < Numeral.maxInt64 := by
    rcases j.lastOf_eq aggregateId with hzero | ⟨r, hr, hlast⟩
    · rw [hzero]
      decide
    · rw [hlast]
      exact ⟨(stored r hr).1.1, (stored r hr).2⟩
  have hnumbers := continues aggregateId
  unfold numberAfter
  cases hcount : (numbersAt aggregateId (events.map Event.place)).length with
  | zero =>
    unfold nextNumber Numeral.IsInt64
    omega
  | succ count =>
    -- the number before it is that of an event
    rw [hcount] at hnumbers
    have hmem : j.nextNumber aggregateId + count ∈
        numbersAt aggregateId (events.map Event.place) := by
      rw [hnumbers, mem_numbersFrom]
      omega
    obtain ⟨e, he, hplace⟩ := List.mem_map.1 (mem_numbersAt.1 hmem)
    have hnumber : e.sequenceNo = j.nextNumber aggregateId + count := (Prod.mk.inj hplace).2
    obtain ⟨-, hlt⟩ := given e he
    unfold nextNumber at hnumber ⊢
    unfold Numeral.IsInt64
    omega

/-- The gap among the places of events is at the first event that does not go on with those before
it. -/
theorem firstGap?_events (small : ∀ p ∈ events.map Event.place, p.2 < Numeral.maxInt64)
    {gap : Gap} :
    firstGap? j.nextNumber (events.map Event.place) = some gap ↔ ∃ before event after,
      events = before ++ event :: after ∧ j.Continues before ∧
        event.sequenceNo ≠ j.numberAfter before event.aggregateId ∧
        gap = ⟨event.aggregateId, j.numberAfter before event.aggregateId, event.sequenceNo⟩ := by
  rw [firstGap?_eq_some_iff small]
  constructor
  · rintro ⟨places, others, heq, hbefore, hexpected, hfound⟩
    obtain ⟨before, rest, rfl, rfl, hrest⟩ := List.map_eq_append_iff.1 heq
    obtain ⟨event, after, rfl, hplace, -⟩ := List.map_eq_cons_iff.1 hrest
    obtain ⟨aggregateId, expected, found⟩ := gap
    obtain ⟨rfl, rfl⟩ := Prod.mk.inj hplace
    obtain rfl : expected = j.numberAfter before event.aggregateId := hexpected
    exact ⟨before, event, after, rfl, hbefore, hfound, rfl⟩
  · rintro ⟨before, event, after, rfl, hbefore, hfound, rfl⟩
    refine ⟨before.map Event.place, after.map Event.place, ?_, hbefore, rfl, hfound⟩
    rw [List.map_append]
    rfl

/-- A strict store that nobody else uses takes exactly the events that go on with the streams. -/
theorem strictSave_of_writable {registry : Registry} {request : SaveRequest}
    {answer : Except StoreError (List Envelope)}
    (strict : request.options.sequenceCheck = .strict)
    (writable : ∀ e ∈ request.events, ∃ data, e.payload = .ok data)
    (small : ∀ n ∈ j.records.map Record.sequenceNo ++ request.events.map (·.sequenceNo),
      n < Numeral.maxInt64)
    (h : j.save registry request = (answer, j')) : j.StrictSave request.events answer j' := by
  obtain ⟨entries, hprepare⟩ := exists_prepare request.newId request.now request.first writable
  have stored : ∀ r ∈ j.records, r.sequenceNo < Numeral.maxInt64 := fun r hr =>
    small _ (List.mem_append_left _ (List.mem_map_of_mem hr))
  have given : ∀ p ∈ request.events.map Event.place, p.2 < Numeral.maxInt64 := by
    intro p hp
    obtain ⟨e, he, rfl⟩ := List.mem_map.1 hp
    exact small _ (List.mem_append_right _ (List.mem_map_of_mem he))
  rw [j.save_of_prepare hprepare, strict,
    extend_strict stored (map_place_of_prepare hprepare ▸ given),
    map_place_of_prepare hprepare] at h
  have int64 : (∀ n ∈ j.records.map Record.sequenceNo ++ request.events.map (·.sequenceNo),
      Numeral.IsInt64 n ∧ n < Numeral.maxInt64) →
      ∀ before after, request.events = before ++ after → j.Continues before →
        ∀ aggregateId, Numeral.IsInt64 (j.numberAfter before aggregateId) := by
    intro hsmall before after heq continues
    refine isInt64_numberAfter (fun r hr => hsmall _ ?_) (fun e he => hsmall _ ?_) continues
    · exact List.mem_append_left _ (List.mem_map_of_mem hr)
    · rw [heq]
      exact List.mem_append_right _ (List.mem_map_of_mem (List.mem_append_left _ he))
  cases hgap : firstGap? j.nextNumber (request.events.map Event.place) with
  | none =>
    rw [hgap] at h
    obtain ⟨rfl, rfl⟩ := Prod.mk.inj h
    exact {
      ok_iff := ⟨fun _ => (firstGap?_eq_none_iff given).1 hgap, fun _ => ⟨_, rfl⟩⟩
      saved := by
        rintro envelopes ⟨⟩
        exact ⟨map_envelope_of_prepare hprepare, _, forall₂_isOf_of_prepare hprepare, rfl⟩
      error_iff := by
        refine fun e => ⟨by simp, ?_⟩
        rintro ⟨before, event, after, hsplit, hbefore, hfound, -⟩
        have hsome :=
          (firstGap?_events given).2 ⟨before, event, after, hsplit, hbefore, hfound, rfl⟩
        simp [hgap] at hsome
      unchanged := by simp
      not_duplicate := by simp
      int64 }
  | some gap =>
    rw [hgap] at h
    obtain ⟨rfl, rfl⟩ := Prod.mk.inj h
    exact {
      ok_iff := by
        refine ⟨by simp, fun continues => ?_⟩
        have hnone := (firstGap?_eq_none_iff given).2 continues
        simp [hgap] at hnone
      saved := by simp
      error_iff := by
        intro e
        constructor
        · intro he
          obtain rfl := Except.error.inj he
          obtain ⟨before, event, after, hsplit, hbefore, hfound, rfl⟩ :=
            (firstGap?_events given).1 hgap
          exact ⟨before, event, after, hsplit, hbefore, hfound, rfl⟩
        · rintro ⟨before, event, after, hsplit, hbefore, hfound, rfl⟩
          have hsome :=
            (firstGap?_events given).2 ⟨before, event, after, hsplit, hbefore, hfound, rfl⟩
          obtain rfl := Option.some.inj (hgap.symm.trans hsome)
          rfl
      unchanged := fun _ _ => rfl
      not_duplicate := by simp [Gap.error]
      int64 }

/-- A journal with one record of each of two aggregates. -/
def ofTwo : Journal := ⟨[.noted "a" 7, .noted "b" (-4)]⟩

/-- Events of three aggregates in turn, one of which repeats a number. -/
def repeatedNumber : SaveRequest where
  options := System.blank.options
  newId := System.blank.newId
  now := System.blank.clock
  first := 0
  events := [.noted "a" 8, .noted "b" (-3), .noted "c" 1, .noted "a" 9, .noted "b" (-3),
    .noted "c" 2]

/-- The repeated number is reported as a gap. -/
theorem strictSave_of_repeatedNumber :
    repeatedNumber.options.sequenceCheck = .strict ∧
      (∀ e ∈ repeatedNumber.events, ∃ data, e.payload = .ok data) ∧
      (∀ n ∈ ofTwo.records.map Record.sequenceNo ++ repeatedNumber.events.map (·.sequenceNo),
        n < Numeral.maxInt64) ∧
      ∃ answer j', ofTwo.save .empty repeatedNumber = (answer, j') ∧
        ofTwo.StrictSave repeatedNumber.events answer j' ∧
        answer.map (fun _ => ()) = .error (.sequenceConflict "b" (-2) (-3)) := by
  have writable : ∀ e ∈ repeatedNumber.events, ∃ data, e.payload = .ok data := by
    simp [repeatedNumber, Event.noted, Event.raw]
  have small : ∀ n ∈ ofTwo.records.map Record.sequenceNo ++
      repeatedNumber.events.map (·.sequenceNo), n < Numeral.maxInt64 := by
    decide +kernel
  exact ⟨rfl, writable, small, _, _, rfl, strictSave_of_writable rfl writable small rfl,
    by decide +kernel⟩

end Journal

end EventJournal
