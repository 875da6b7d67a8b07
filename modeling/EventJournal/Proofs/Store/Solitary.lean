import EventJournal.Proofs.Store.Checked
import EventJournal.Proofs.Store.History

/-!
# Solitary saves

A save into a journal while nobody else asks anything of it. What its requests come to is one look
at the numbers of the records and one commit of all of them.

* `numbersAt`, the numbers of an aggregate among places;
* `Gap`, `firstGap?`, the first place that is not the next one of its stream;
* `Journal.extend`, the journal with some more records, or why it does not take them;
* `Saving.run_opening`, all steps of a save at once.

The main statement is `Journal.save_of_prepare`.
-/

namespace EventJournal

open Record (place)

/-- The sequence numbers of an aggregate among places. -/
def numbersAt (aggregateId : String) (places : List (String × Int)) : List Int :=
  (places.filter (·.1 == aggregateId)).map Prod.snd

/-- A place that is not the next one of its stream, and the number that would be. -/
structure Gap where
  aggregateId : String
  expected : Int
  found : Int
  deriving DecidableEq

/-- The error that tells of a gap. -/
def Gap.error (gap : Gap) : StoreError :=
  .sequenceConflict gap.aggregateId gap.expected gap.found

/-- The first of some places that is not the next one of its stream, given the next numbers; each
place that fits moves the one of its stream on. -/
def firstGap? (next : String → Int) : List (String × Int) → Option Gap
  | [] => none
  | (aggregateId, number) :: rest =>
    if number = next aggregateId then
      firstGap? (Function.update next aggregateId (Numeral.nextInt64 number)) rest
    else some ⟨aggregateId, next aggregateId, number⟩

namespace Journal

/-- The number that a check expects after those of a stream. -/
def expectedNumber (j : Journal) (aggregateId : String) : Int :=
  Numeral.nextInt64 (Record.lastOf aggregateId j.records)

/-- The gap that a check finds, if it is made. -/
def gap? (j : Journal) (places : List (String × Int)) : SequenceCheck → Option Gap
  | .strict => firstGap? j.expectedNumber places
  | .unchecked => none

/-- The journal with some more records, or why it does not take them. -/
def extend (j : Journal) (check : SequenceCheck) (records : List Record) :
    Except StoreError Journal :=
  match j.gap? (records.map place) check with
  | some gap => .error gap.error
  | none =>
    match j.commit ⟨records⟩ with
    | .error e => .error (.ofBackend .commit e)
    | .ok j' => .ok j'

/-- The answer to a save that has led to another journal, or to none. -/
def afterwards {α : Type} (j : Journal) (a : α) :
    Except StoreError Journal → Except StoreError α × Journal
  | .ok j' => (.ok a, j')
  | .error e => (.error e, j)

theorem numbersAt_map_place (aggregateId : String) (records : List Record) :
    numbersAt aggregateId (records.map place) = Record.numbersOf aggregateId records := by
  simp [numbersAt, Record.numbersOf, List.filter_map, Function.comp_def, place]

/-- What a check expects depends on the places only. -/
theorem expectedNumber_of_places {j j' : Journal} (h : j.records.map place = j'.records.map place) :
    j.expectedNumber = j'.expectedNumber := by
  funext aggregateId
  rw [expectedNumber, Record.lastOf, ← numbersAt_map_place, h, numbersAt_map_place]
  rfl

theorem commit_nil (j : Journal) : j.commit {} = .ok j := by
  rw [Journal.commit_eq_ok_iff]
  exact ⟨rfl, by rw [List.append_nil]⟩

theorem extend_nil (j : Journal) (check : SequenceCheck) : j.extend check [] = .ok j := by
  cases check <;> simp [extend, gap?, firstGap?, commit_nil]

end Journal

namespace Saving

variable {o : StoreOptions} {j : Journal}

/-- Batches that are inserted one after another are committed as one. -/
theorem run_writing (tx : Transaction) (rest : List (List Record)) :
    (writing tx rest).run Journal.backend o j =
      j.afterwards () (j.extend .unchecked (tx.staged ++ rest.flatten)) := by
  induction rest generalizing tx with
  | nil =>
    rw [run_of_going rfl, List.flatten_nil, List.append_nil]
    cases hcommit : j.commit tx <;>
      simp [step, Journal.backend, Journal.extend, Journal.gap?, Journal.afterwards, hcommit]
  | cons batch rest ih =>
    rw [run_of_going rfl]
    show (writing (tx.stage batch) rest).run Journal.backend o j = _
    rw [ih, Transaction.staged_stage, List.append_assoc, List.flatten_cons]

/-- The numbers that a check keeps, and those that it has still to ask for, are the next ones. -/
theorem run_checking {tx : Transaction} (staged : tx.staged = []) {expected : List (String × Int)}
    {next : String → Int} (unchecked records : List Record)
    (counts : ∀ aggregateId, (expected.lookup aggregateId).getD (j.expectedNumber aggregateId) =
      next aggregateId) :
    (checking tx expected unchecked records).run Journal.backend o j =
      match firstGap? next (unchecked.map place) with
      | some gap => (.error gap.error, j)
      | none => j.afterwards () (j.extend .unchecked records) := by
  induction unchecked generalizing expected next with
  | nil =>
    rw [run_of_going rfl]
    show (writing tx (batches o.batchSize records)).run Journal.backend o j = _
    rw [run_writing, staged, flatten_batches]
    rfl
  | cons r rest ih =>
    -- whether the number is kept or asked for, it is the next one
    have hjudge : (checking tx expected (r :: rest) records).step Journal.backend o j =
        (judge tx expected r rest records (next r.aggregateId), j) := by
      have hnext := counts r.aggregateId
      cases hlookup : expected.lookup r.aggregateId with
      | some number =>
        rw [hlookup, Option.getD_some] at hnext
        simp only [step, hlookup, hnext]
      | none =>
        rw [hlookup, Option.getD_none] at hnext
        simp only [step, hlookup, Journal.backend, Transaction.getD_lastSequence? staged, ← hnext]
        rfl
    rw [run_of_going rfl, hjudge, List.map_cons, Record.place, firstGap?, judge]
    by_cases hnumber : r.sequenceNo = next r.aggregateId
    · rw [if_pos hnumber, if_pos hnumber]
      refine ih fun aggregateId => ?_
      by_cases heq : aggregateId = r.aggregateId
      · subst heq
        simp [hnumber]
      · simp [List.lookup_cons, beq_false_of_ne heq, Function.update_of_ne heq, counts]
    · rw [if_neg hnumber, if_neg hnumber, run_of_going rfl]
      simp [step, Journal.backend, Gap.error]

/-- A save of records into a journal is one check and one commit, whatever the size of its
batches. -/
theorem run_opening (records : List Record) :
    (opening records).run Journal.backend o j =
      j.afterwards () (j.extend o.sequenceCheck records) := by
  rw [run_of_going rfl]
  cases hcheck : o.sequenceCheck with
  | unchecked =>
    have hstep : (opening records).step Journal.backend o j =
        (writing {} (batches o.batchSize records), j) := by
      simp [step, Journal.backend, hcheck]
    rw [hstep, run_writing, flatten_batches]
    rfl
  | strict =>
    have hstep : (opening records).step Journal.backend o j =
        (checking {} [] records records, j) := by
      simp [step, Journal.backend, hcheck]
    have counts : ∀ aggregateId, (List.lookup aggregateId []).getD (j.expectedNumber aggregateId) =
        j.expectedNumber aggregateId := fun _ => rfl
    rw [hstep, run_checking rfl records records counts]
    simp only [Journal.extend, Journal.gap?]
    cases firstGap? j.expectedNumber (records.map place) <;> rfl

end Saving

/-- A save of events of which one cannot be written. -/
theorem Journal.save_of_prepare_error {registry : Registry} {request : SaveRequest} {e : EventError}
    (j : Journal)
    (hprepare : prepare request.newId request.now request.first request.events = .error e) :
    j.save registry request = (.error (.event e), j) :=
  Store.save_of_prepare_error hprepare

/-- A save of events that can all be written into a journal. -/
theorem Journal.save_of_prepare {registry : Registry} {request : SaveRequest}
    {entries : List (Record × Envelope)} (j : Journal)
    (hprepare : prepare request.newId request.now request.first request.events = .ok entries) :
    j.save registry request =
      j.afterwards (entries.map Prod.snd)
        (j.extend request.options.sequenceCheck (entries.map Prod.fst)) := by
  by_cases nonempty : request.events = []
  · rw [nonempty] at hprepare
    obtain rfl := Except.ok.inj hprepare
    simp [Journal.save, Store.save, nonempty, extend_nil, afterwards]
  · have hrun := Saving.run_opening (o := request.options) (j := j) (entries.map Prod.fst)
    rw [Journal.save, Store.save_of_prepare nonempty hprepare hrun]
    cases j.extend request.options.sequenceCheck (entries.map Prod.fst) <;> rfl

end EventJournal
