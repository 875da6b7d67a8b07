import EventJournal.Settings
import EventJournal.Proofs.Store.Solitary

/-!
# Batches

How many records a store inserts at once is its own affair: whatever size it is given, a save into a
journal ends in the same way. Only the ids and the time that a save gives to its events are its own.

* `pieces`, `cut?`, a list cut into pieces, which fails at size 0;
* `StoreOptions.Configured`, the ways in which a store is given a size;
* `Record.Alike`, `Envelope.Alike`, `Journal.Alike`: equal but for the ids and the times;
* `SameAnswer`, `Journal.SameSaves`: that two saves cannot be told apart;
* `Journal.Alike.saveAll`, the same for one save after another.

The main statement is `Journal.sameSaves_of_configured`.
-/

namespace EventJournal

/-- A list in pieces that are one longer than `size`, the last one possibly shorter. -/
def pieces (size : Nat) : List Record → List (List Record)
  | [] => []
  | r :: rest => (r :: rest.take size) :: pieces size (rest.drop size)
termination_by records => records.length
decreasing_by simp only [List.length_drop, List.length_cons]; omega

/-- The cut of a list into pieces of a size; there is none into pieces of size 0, not even of the
empty list. -/
def cut? : Nat → List Record → Option (List (List Record))
  | 0, _ => none
  | size + 1, records => some (pieces size records)

/-- A batch that has been begun is filled before the next one is. -/
theorem batchesFrom_of_begun {size room : Nat} {current : List Record} (begun : current ≠ [])
    (records : List Record) :
    batchesFrom size (room + 1) current records =
      (current.reverse ++ records.take (room + 1)) :: batches size (records.drop (room + 1)) := by
  induction records generalizing room current with
  | nil => simp [batchesFrom, batches, begun]
  | cons r rest ih =>
    rw [batchesFrom]
    cases room with
    | zero => simp [batches]
    | succ room =>
      rw [if_neg (by omega), Nat.add_sub_cancel, ih (List.cons_ne_nil r current)]
      simp

theorem batches_cons (size : Nat) (r : Record) (rest : List Record) :
    batches (size + 1) (r :: rest) =
      (r :: rest.take size) :: batches (size + 1) (rest.drop size) := by
  rw [batches, batchesFrom]
  cases size with
  | zero => simp [batches]
  | succ size =>
    rw [if_neg (by omega), Nat.add_sub_cancel, batchesFrom_of_begun (List.cons_ne_nil r [])]
    rfl

theorem batches_eq_pieces (size : Nat) (records : List Record) :
    batches (size + 1) records = pieces size records := by
  induction records using pieces.induct size with
  | case1 => simp [batches, batchesFrom, pieces]
  | case2 r rest ih => rw [batches_cons, pieces, ih]

theorem bounded_of_mem_pieces {size : Nat} {records piece : List Record}
    (h : piece ∈ pieces size records) : piece ≠ [] ∧ piece.length ≤ size + 1 := by
  induction records using pieces.induct size with
  | case1 => simp [pieces] at h
  | case2 r rest ih =>
    rw [pieces] at h
    rcases List.mem_cons.1 h with rfl | h
    · exact ⟨List.cons_ne_nil _ _, by simp⟩
    · exact ih h

namespace StoreOptions

/-- The ways in which a store is given the size of its batches. -/
inductive Configured : Nat → StoreOptions → Prop
  | withBatchSize (o : StoreOptions) (size : Nat) : Configured size (o.withBatchSize size)
  | withConfig {σ τ : Type} (store : Store σ τ) (config : StoreConfig) :
    Configured config.batchSize (store.withConfig config).options
  /-- The size is among the values that a program is told. -/
  | told {lookup : String → Option String} {settings : Settings} {value : String} {size : Nat}
    (given : Settings.given? lookup Settings.Key.batchSize = some value)
    (read : Settings.readCount Settings.maxUInt64 (Text.trimmed value) = .ok size)
    (settled : Settings.ofLookup lookup = .ok settings) : Configured size settings.store
  /-- No size is among them. -/
  | untold {lookup : String → Option String} {settings : Settings}
    (missing : Settings.given? lookup Settings.Key.batchSize = none)
    (settled : Settings.ofLookup lookup = .ok settings) :
    Configured Settings.default.store.batchSize settings.store

end StoreOptions

namespace Settings

variable {lookup : String → Option String} {settings : Settings}

/-- A value that is missing leaves the settings as they are, one that is there can be read and is
put into them. -/
theorem absorb_cases {α : Type} {key : String} {read : String → Except String α}
    {put : Settings → α → Settings} {s s' : Settings} (h : absorb lookup key read put s = .ok s') :
    given? lookup key = none ∧ s' = s ∨
      ∃ value a, given? lookup key = some value ∧ read (Text.trimmed value) = .ok a ∧
        s' = put s a := by
  unfold absorb at h
  cases hgiven : given? lookup key with
  | none =>
    rw [hgiven] at h
    exact .inl ⟨rfl, (Except.ok.inj h).symm⟩
  | some value =>
    rw [hgiven] at h
    cases hread : read (Text.trimmed value) with
    | error reason => simp [hread] at h
    | ok a =>
      simp only [hread] at h
      exact .inr ⟨value, a, rfl, hread, (Except.ok.inj h).symm⟩

/-- The size of the batches is the one that is told, or else the default. -/
theorem batchSize_of_ofLookup (settled : ofLookup lookup = .ok settings) :
    given? lookup Key.batchSize = none ∧
        settings.store.batchSize = default.store.batchSize ∨
      ∃ value size, given? lookup Key.batchSize = some value ∧
        readCount maxUInt64 (Text.trimmed value) = .ok size ∧
        settings.store.batchSize = max size 1 := by
  obtain ⟨s₁, h₁, rest⟩ := exists_of_bind_eq_ok settled
  obtain ⟨s₂, h₂, rest⟩ := exists_of_bind_eq_ok rest
  obtain ⟨s₃, h₃, rest⟩ := exists_of_bind_eq_ok rest
  obtain ⟨s₄, h₄, rest⟩ := exists_of_bind_eq_ok rest
  obtain rfl := Except.ok.inj rest
  -- no other value touches the size
  have hcheck : s₂.store.batchSize = s₁.store.batchSize := by
    obtain ⟨-, rfl⟩ | ⟨_, _, -, -, rfl⟩ := absorb_cases h₂ <;> rfl
  have hmode : s₃.store = s₂.store := by
    obtain ⟨-, rfl⟩ | ⟨_, _, -, -, rfl⟩ := absorb_cases h₃ <;> rfl
  have hconnections : s₄.store = s₃.store := by
    obtain ⟨-, rfl⟩ | ⟨_, _, -, -, rfl⟩ := absorb_cases h₄ <;> rfl
  rw [hconnections, hmode, hcheck]
  obtain ⟨missing, rfl⟩ | ⟨value, size, given, read, rfl⟩ := absorb_cases h₁
  · exact .inl ⟨missing, rfl⟩
  · exact .inr ⟨value, size, given, read, rfl⟩

end Settings

/-- Whatever way it has come, a size of 0 counts as 1. -/
theorem StoreOptions.Configured.batchSize_eq {size : Nat} {o : StoreOptions}
    (h : o.Configured size) : o.batchSize = max size 1 := by
  cases h with
  | withBatchSize o => rfl
  | withConfig store config => rfl
  | told given read settled =>
    obtain ⟨missing, -⟩ | ⟨value', size', given', read', hsize⟩ :=
      Settings.batchSize_of_ofLookup settled
    · simp [missing] at given
    · obtain rfl := Option.some.inj (given.symm.trans given')
      obtain rfl := Except.ok.inj (read.symm.trans read')
      exact hsize
  | untold missing settled =>
    obtain ⟨-, hsize⟩ | ⟨value, size, given, -⟩ := Settings.batchSize_of_ofLookup settled
    · exact hsize
    · simp [missing] at given

/-- A store that has been given a size can cut any records into batches. -/
structure StoreOptions.Cuts (size : Nat) (o : StoreOptions) : Prop where
  batchSize_eq : o.batchSize = max size 1
  cut : ∀ records, cut? o.batchSize records = some (batches o.batchSize records)
  flatten : ∀ records, (batches o.batchSize records).flatten = records
  bounded : ∀ records, ∀ batch ∈ batches o.batchSize records,
    batch ≠ [] ∧ batch.length ≤ o.batchSize

theorem StoreOptions.Configured.cuts {size : Nat} {o : StoreOptions} (h : o.Configured size) :
    o.Cuts size := by
  obtain ⟨n, hn⟩ := Nat.exists_eq_add_one.2 o.batchSize_pos
  exact {
    batchSize_eq := h.batchSize_eq
    cut := fun records => by rw [hn, cut?, batches_eq_pieces]
    flatten := flatten_batches o.batchSize
    bounded := by
      intro records batch hbatch
      rw [hn, batches_eq_pieces] at hbatch
      rw [hn]
      exact bounded_of_mem_pieces hbatch }

/-! ### Saves that differ in their ids and times -/

/-- Records that are equal but for their ids and the times of their saves. -/
def Record.Alike (r r' : Record) : Prop := { r with id := r'.id, timestamp := r'.timestamp } = r'

/-- Envelopes that are equal but for their ids and the times of their saves. -/
def Envelope.Alike (envelope envelope' : Envelope) : Prop :=
  { envelope with id := envelope'.id, timestamp := envelope'.timestamp } = envelope'

/-- Journals whose records, in their order, are equal but for their ids and the times of their
saves. -/
def Journal.Alike (j j' : Journal) : Prop := List.Forall₂ Record.Alike j.records j'.records

/-- Saves answer in the same way: with envelopes that are equal but for their ids and times, or with
one and the same error. -/
inductive SameAnswer :
    Except StoreError (List Envelope) → Except StoreError (List Envelope) → Prop
  | saved {envelopes envelopes' : List Envelope}
    (alike : List.Forall₂ Envelope.Alike envelopes envelopes') :
    SameAnswer (.ok envelopes) (.ok envelopes')
  | refused (e : StoreError) : SameAnswer (.error e) (.error e)

namespace Record

variable {r r' : Record} {records records' : List Record}

theorem Alike.place (h : r.Alike r') : r.place = r'.place := by
  rw [← h]
  rfl

theorem map_place_of_alike (h : List.Forall₂ Alike records records') :
    records.map Record.place = records'.map Record.place :=
  map_eq_map_of_forall₂ (h.imp fun _ _ alike => alike.place)

theorem alike_ordered (h : List.Forall₂ Alike records records') :
    List.Forall₂ Alike (ordered records) (ordered records') :=
  forall₂_orderedBy (fun _ _ alike => (Prod.mk.inj alike.place).2) h

end Record

namespace Journal

open Record (place)

variable {j j' : Journal} {records records' : List Record}

/-- The streams of journals that are alike are alike. -/
theorem Alike.stream (h : j.Alike j') (aggregateId : String) :
    List.Forall₂ Record.Alike (j.stream aggregateId) (j'.stream aggregateId) := by
  refine Record.alike_ordered (List.rel_filter (fun r r' alike => ?_) h)
  show (r.aggregateId == aggregateId) = true ↔ (r'.aggregateId == aggregateId) = true
  rw [(Prod.mk.inj alike.place).1]

/-- Which place is taken depends on the places only. -/
theorem map_place_firstClash? (h : records.map place = records'.map place)
    (taken : List (String × Int)) :
    (firstClash? taken records).map place = (firstClash? taken records').map place := by
  induction records generalizing records' taken with
  | nil => rw [List.map_eq_nil_iff.1 h.symm]
  | cons r rest ih =>
    obtain ⟨r', rest', rfl, hr, hrest⟩ := List.map_eq_cons_iff.1 h.symm
    rw [firstClash?, firstClash?, hr]
    split
    · exact congrArg some hr.symm
    · exact ih hrest.symm _

theorem clash_of_place {r r' : Record} (h : r.place = r'.place) : clash r = clash r' := by
  obtain ⟨haggregate, hnumber⟩ := Prod.mk.inj h
  rw [clash, haggregate, hnumber, clash]

/-- Journals that are alike take records that are alike, or both refuse them. -/
theorem Alike.extend (h : j.Alike j') (hrecords : List.Forall₂ Record.Alike records records')
    (check : SequenceCheck) :
    (∃ e, j.extend check records = .error e ∧ j'.extend check records' = .error e) ∨
      j.extend check records = .ok ⟨j.records ++ records⟩ ∧
        j'.extend check records' = .ok ⟨j'.records ++ records'⟩ := by
  have hold := Record.map_place_of_alike h
  have hnew := Record.map_place_of_alike hrecords
  have hgap : j.gap? (records.map place) check = j'.gap? (records'.map place) check := by
    unfold gap?
    rw [hnew, expectedNumber_of_places hold]
  have hclash := map_place_firstClash? hnew (j'.records.map place)
  unfold Journal.extend Journal.commit
  rw [hgap, hold]
  cases j'.gap? (records'.map place) check with
  | some gap => exact .inl ⟨gap.error, rfl, rfl⟩
  | none =>
    cases hfirst : firstClash? (j'.records.map place) records with
    | none =>
      rw [hfirst, Option.map_none, eq_comm, Option.map_eq_none_iff] at hclash
      rw [hclash]
      exact .inr ⟨rfl, rfl⟩
    | some r =>
      rw [hfirst, Option.map_some, eq_comm, Option.map_eq_some_iff] at hclash
      obtain ⟨r', hfirst', hplace⟩ := hclash
      simp only [hfirst', clash_of_place hplace]
      exact .inl ⟨_, rfl, rfl⟩

end Journal

/-- Two records and two envelopes of one event are alike. -/
theorem Record.alike_of_ofEvent {e : Event} {id id' : Uuid} {timestamp timestamp' : Time}
    {r r' : Record} {envelope envelope' : Envelope}
    (h : ofEvent e id timestamp = .ok (r, envelope))
    (h' : ofEvent e id' timestamp' = .ok (r', envelope')) :
    r.Alike r' ∧ envelope.Alike envelope' := by
  obtain ⟨data, hdata, rfl, rfl⟩ := ofEvent_eq_ok_iff.1 h
  obtain ⟨data', hdata', rfl, rfl⟩ := ofEvent_eq_ok_iff.1 h'
  obtain rfl := Except.ok.inj (hdata.symm.trans hdata')
  exact ⟨by rw [Alike], by rw [Envelope.Alike]⟩

section Prepare

variable {newId newId' : Nat → Uuid} {now now' : Time} {first first' : Nat} {events : List Event}
  {entries entries' : List (Record × Envelope)}

/-- Two savers make records and envelopes of events that are alike. -/
theorem alike_of_prepare (h : prepare newId now first events = .ok entries)
    (h' : prepare newId' now' first' events = .ok entries') :
    List.Forall₂ Record.Alike (entries.map Prod.fst) (entries'.map Prod.fst) ∧
      List.Forall₂ Envelope.Alike (entries.map Prod.snd) (entries'.map Prod.snd) := by
  induction events generalizing first first' entries entries' with
  | nil =>
    obtain rfl := Except.ok.inj h
    obtain rfl := Except.ok.inj h'
    exact ⟨.nil, .nil⟩
  | cons e rest ih =>
    obtain ⟨entry, later, hentry, hlater, rfl⟩ := prepare_cons_eq_ok_iff.1 h
    obtain ⟨entry', later', hentry', hlater', rfl⟩ := prepare_cons_eq_ok_iff.1 h'
    obtain ⟨hrecord, henvelope⟩ := Record.alike_of_ofEvent hentry hentry'
    obtain ⟨hrecords, henvelopes⟩ := ih hlater hlater'
    exact ⟨.cons hrecord hrecords, .cons henvelope henvelopes⟩

end Prepare

namespace Journal

variable {j j' : Journal} {registry registry' : Registry} {request request' : SaveRequest}

/-- Saves into journals that are alike answer in the same way and leave journals that are alike. -/
theorem Alike.save (h : j.Alike j') (sameEvents : request'.events = request.events)
    (sameCheck : request'.options.sequenceCheck = request.options.sequenceCheck) :
    SameAnswer (j.save registry request).1 (j'.save registry' request').1 ∧
      (j.save registry request).2.Alike (j'.save registry' request').2 := by
  have hfail : ∀ {e},
      prepare request'.newId request'.now request'.first request'.events = .error e ↔
        prepare request.newId request.now request.first request.events = .error e := by
    intro e
    rw [sameEvents, prepare_eq_error_iff, prepare_eq_error_iff]
  cases hprepare : prepare request.newId request.now request.first request.events with
  | error e =>
    rw [j.save_of_prepare_error hprepare, j'.save_of_prepare_error (hfail.2 hprepare)]
    exact ⟨.refused _, h⟩
  | ok entries =>
    cases hprepare' : prepare request'.newId request'.now request'.first request'.events with
    | error e => simp [hfail.1 hprepare'] at hprepare
    | ok entries' =>
      rw [j.save_of_prepare hprepare, j'.save_of_prepare hprepare', sameCheck]
      rw [sameEvents] at hprepare'
      obtain ⟨records, envelopes⟩ := alike_of_prepare hprepare hprepare'
      obtain ⟨e, hextend, hextend'⟩ | ⟨hextend, hextend'⟩ :=
        h.extend records request.options.sequenceCheck
      · rw [hextend, hextend']
        exact ⟨.refused e, h⟩
      · rw [hextend, hextend']
        exact ⟨.saved envelopes, List.rel_append h records⟩

/-- One save after another, each answered in the same way, leaves journals that are alike. -/
theorem Alike.saveAll {requests requests' : List SaveRequest} (h : j.Alike j')
    (same : List.Forall₂ (fun request request' => request'.events = request.events ∧
      request'.options.sequenceCheck = request.options.sequenceCheck) requests requests') :
    List.Forall₂ SameAnswer (saveAll registry requests j).1 (saveAll registry' requests' j').1 ∧
      (saveAll registry requests j).2.Alike (saveAll registry' requests' j').2 := by
  induction same generalizing j j' with
  | nil => exact ⟨.nil, h⟩
  | cons hsame _ ih =>
    obtain ⟨hanswer, halike⟩ := h.save hsame.1 hsame.2
    obtain ⟨hanswers, hfinal⟩ := ih halike
    exact ⟨.cons hanswer hanswers, hfinal⟩

/-- A save depends on the events, on what is given to them and on the check, and on nothing else. -/
theorem save_congr (sameEvents : request'.events = request.events)
    (sameCheck : request'.options.sequenceCheck = request.options.sequenceCheck)
    (sameIds : request'.newId = request.newId ∧ request'.first = request.first)
    (sameTime : request'.now = request.now) :
    j.save registry' request' = j.save registry request := by
  have hsame : prepare request'.newId request'.now request'.first request'.events =
      prepare request.newId request.now request.first request.events := by
    rw [sameEvents, sameIds.1, sameIds.2, sameTime]
  cases hprepare : prepare request.newId request.now request.first request.events with
  | error e =>
    rw [j.save_of_prepare_error hprepare, j.save_of_prepare_error (hsame.trans hprepare)]
  | ok entries =>
    rw [j.save_of_prepare hprepare, j.save_of_prepare (hsame.trans hprepare), sameCheck]

/-- Two saves into a journal cannot be told apart. -/
structure SameSaves (j : Journal) (registry registry' : Registry) (request request' : SaveRequest) :
    Prop where
  answers : SameAnswer (j.save registry request).1 (j.save registry' request').1
  streams : ∀ aggregateId, List.Forall₂ Record.Alike
    ((j.save registry request).2.stream aggregateId)
    ((j.save registry' request').2.stream aggregateId)
  /-- With the same ids and at the same time there is no difference at all. -/
  equal : request'.newId = request.newId ∧ request'.first = request.first →
    request'.now = request.now → j.save registry' request' = j.save registry request

/-- Whatever sizes two stores are given, in whatever ways, they can cut their records into batches
and save events into a journal in the same way. -/
theorem sameSaves_of_configured {size size' : Nat} (j : Journal) (registry registry' : Registry)
    (configured : request.options.Configured size) (configured' : request'.options.Configured size')
    (sameEvents : request'.events = request.events)
    (sameCheck : request'.options.sequenceCheck = request.options.sequenceCheck) :
    j.SameSaves registry registry' request request' ∧
      request.options.Cuts size ∧ request'.options.Cuts size' := by
  have hself : j.Alike j := List.forall₂_same.2 fun _ _ => rfl
  obtain ⟨answers, alike⟩ := hself.save sameEvents sameCheck
  have same : j.SameSaves registry registry' request request' :=
    ⟨answers, alike.stream, save_congr sameEvents sameCheck⟩
  exact ⟨same, configured.cuts, configured'.cuts⟩

end Journal

/-- A program is told to insert no records at once. -/
def Settings.toldZero (key : String) : Option String :=
  if key = Key.batchSize then some " 0 " else none

/-- A store is asked to insert as many records at once as a word can tell. -/
def StoreConfig.greedy : StoreConfig := { batchSize := Settings.maxUInt64.toNat }

/-- Three events of two aggregates. -/
def SaveRequest.ofThree (options : StoreOptions) (first : Nat) : SaveRequest where
  options
  newId := fun n => .timed n n
  now := System.blank.clock
  first
  events := [.noted "a" 1, .noted "b" 1, .noted "a" 2]

/-- Records that are inserted one by one are saved like all of them at once. -/
theorem Journal.sameSaves_of_toldZero :
    ∃ settings, Settings.ofLookup Settings.toldZero = .ok settings ∧
      settings.store.Configured 0 ∧
      StoreConfig.greedy.options.Configured Settings.maxUInt64.toNat ∧
      Journal.empty.SameSaves .empty .empty (.ofThree settings.store 0)
        (.ofThree StoreConfig.greedy.options 7) ∧
      (Journal.empty.save .empty (.ofThree settings.store 0)).2.count = 3 := by
  have given : Settings.given? Settings.toldZero Settings.Key.batchSize = some " 0 " := rfl
  have configured : ∀ settings, Settings.ofLookup Settings.toldZero = .ok settings →
      settings.store.Configured 0 := fun _ settled => .told given rfl settled
  have greedy : StoreConfig.greedy.options.Configured Settings.maxUInt64.toNat :=
    .withConfig (Journal.store {} .empty) .greedy
  refine ⟨_, rfl, configured _ rfl, greedy, ?_, ?_⟩
  · exact And.left (sameSaves_of_configured _ _ _ (configured _ rfl) greedy rfl rfl)
  · decide +kernel

end EventJournal
