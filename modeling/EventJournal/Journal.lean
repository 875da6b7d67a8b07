import EventJournal.Ordered
import EventJournal.Record

/-!
# The journal

Committed records in the order in which they were committed. A stream is the journal seen from one
aggregate: its records by sequence number. Records are staged in a transaction and committed
together, or not at all.

* `Journal`, `Journal.stream`, `Journal.query`, `Journal.lastSequence?`;
* `Transaction`, `Transaction.stage`, `Transaction.lastSequence?`;
* `Journal.firstClash?`, the first staged record whose place in its stream is taken;
* `Journal.commit`, all staged records or a conflict.
-/

namespace EventJournal

/-- Why a backend does not do what it is asked. -/
inductive BackendError
  /-- The place of a record in its stream is taken. -/
  | conflict (message : String)
  | failed (operation message : String)
  deriving DecidableEq, Repr

/-- The wording of each error. -/
def BackendError.message : BackendError → String
  | .conflict message => message
  | .failed operation message => operation ++ " failed: " ++ message

/-- The name of each kind of error. -/
def BackendError.code : BackendError → String
  | .conflict _ => "Backend.Conflict"
  | .failed .. => "Backend.Failed"

/-- The place of a record: its aggregate and its number there. -/
def Record.place (r : Record) : String × Int := (r.aggregateId, r.sequenceNo)

/-- Records by sequence number, those of one number in their given order. -/
def Record.ordered (records : List Record) : List Record := orderedBy Record.sequenceNo records

/-- Committed records, the oldest commit first. -/
structure Journal where
  records : List Record := []

/-- Records that wait for a commit. -/
structure Transaction where
  staged : List Record := []

/-- The greatest of the numbers, if there are any. -/
def greatest? (numbers : List Int) : Option Int := numbers.max?

/-- The sequence numbers of an aggregate among records. -/
def Record.numbersOf (aggregateId : String) (records : List Record) : List Int :=
  (records.filter (·.aggregateId == aggregateId)).map Record.sequenceNo

namespace Journal

/-- The journal without records. -/
def empty : Journal := {}

/-- The records of an aggregate by sequence number. -/
def stream (j : Journal) (aggregateId : String) : List Record :=
  Record.ordered (j.records.filter (·.aggregateId == aggregateId))

/-- The records of an aggregate from a sequence number on. -/
def query (j : Journal) (aggregateId : String) (fromSequence : Int) : List Record :=
  (j.stream aggregateId).filter (fromSequence ≤ ·.sequenceNo)

/-- The number of records. -/
def count (j : Journal) : Nat := j.records.length

/-- The greatest sequence number of an aggregate. -/
def lastSequence? (j : Journal) (aggregateId : String) : Option Int :=
  greatest? (Record.numbersOf aggregateId j.records)

/-- The first of some records whose place is among the taken ones or that of an earlier one. -/
def firstClash? (taken : List (String × Int)) : List Record → Option Record
  | [] => none
  | r :: rest => if taken.contains r.place then some r else firstClash? (r.place :: taken) rest

/-- The conflict over the place of a record. -/
def clash (r : Record) : BackendError :=
  .conflict ("aggregate " ++ r.aggregateId ++ " already has an event with sequence " ++
    String.ofList (Numeral.integer r.sequenceNo))

/-- The journal with all staged records, unless a place is taken. -/
def commit (j : Journal) (tx : Transaction) : Except BackendError Journal :=
  match firstClash? (j.records.map Record.place) tx.staged with
  | some r => .error (clash r)
  | none => .ok ⟨j.records ++ tx.staged⟩

end Journal

namespace Transaction

/-- Stages further records. -/
def stage (tx : Transaction) (records : List Record) : Transaction := ⟨tx.staged ++ records⟩

/-- The greatest sequence number of an aggregate that the transaction sees: in the journal or among
its own staged records. -/
def lastSequence? (tx : Transaction) (j : Journal) (aggregateId : String) : Option Int :=
  greatest? (Record.numbersOf aggregateId (j.records ++ tx.staged))

end Transaction

@[simp] theorem Transaction.staged_stage (tx : Transaction) (records : List Record) :
    (tx.stage records).staged = tx.staged ++ records := rfl

@[simp] theorem Journal.records_empty : Journal.empty.records = [] := rfl

/-- A commit adds the staged records at the end, or it reports a conflict. -/
theorem Journal.commit_eq_ok_iff {j j' : Journal} {tx : Transaction} :
    j.commit tx = .ok j' ↔
      Journal.firstClash? (j.records.map Record.place) tx.staged = none ∧
        j' = ⟨j.records ++ tx.staged⟩ := by
  unfold Journal.commit
  cases h : Journal.firstClash? (j.records.map Record.place) tx.staged with
  | none =>
    constructor
    · intro heq
      exact ⟨rfl, (Except.ok.inj heq).symm⟩
    · rintro ⟨-, rfl⟩
      rfl
  | some r => simp

end EventJournal
