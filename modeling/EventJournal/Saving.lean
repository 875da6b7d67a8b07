import EventJournal.Backend

/-!
# Saving

A save writes its records in one transaction of a backend: it opens it, checks that the records
continue their streams if it is asked to, inserts them batch by batch and commits. A refusal before
the commit undoes the transaction.

* `StoreError`, why a save or a load fails;
* `SequenceCheck`, `StoreOptions`: how a store saves, and `StoreConfig`, how it is asked to;
* `Saving`, a save under way, `Saving.step`, its next request, and `Saving.run`, all of them;
* `batches`, the cut of the records into batches.
-/

namespace EventJournal

/-- The steps of a store that a backend may refuse. -/
inductive Operation
  | begin
  | lastSequence
  | insert
  | commit
  | query
  deriving DecidableEq, Repr

/-- The name of a step. -/
def Operation.name : Operation → String
  | .begin => "begin_transaction"
  | .lastSequence => "last_sequence"
  | .insert => "insert_records"
  | .commit => "commit_transaction"
  | .query => "query_records"

/-- Why a save or a load fails. -/
inductive StoreError
  | event (e : EventError)
  | sequenceConflict (aggregateId : String) (expected found : Int)
  | duplicate (message : String)
  | persistence (operation : Operation) (source : BackendError)
  deriving DecidableEq, Repr

namespace StoreError

/-- The error that a refusal during a step becomes. -/
def ofBackend (operation : Operation) : BackendError → StoreError
  | .conflict message => .duplicate message
  | source => .persistence operation source

/-- Whether somebody else was there first, so that trying again with fresh numbers may help. -/
def isConflict : StoreError → Bool
  | .sequenceConflict .. | .duplicate _ => true
  | _ => false

/-- The wording of each error. -/
def message : StoreError → String
  | .event e => e.message
  | .sequenceConflict aggregateId expected found =>
    "sequence conflict for aggregate " ++ aggregateId ++ ": expected " ++
      String.ofList (Numeral.integer expected) ++ ", got " ++ String.ofList (Numeral.integer found)
  | .duplicate message => "duplicate event rejected by backend: " ++ message
  | .persistence operation source =>
    "persistence failure during " ++ operation.name ++ ": " ++ source.message

/-- The name of each kind of error. -/
def code : StoreError → String
  | .event e => e.code
  | .sequenceConflict .. => "Store.SequenceConflict"
  | .duplicate _ => "Store.Duplicate"
  | .persistence .. => "Store.Persistence"

end StoreError

/-- What a save demands of the sequence numbers of its events. -/
inductive SequenceCheck
  /-- The events of an aggregate continue its stream without gaps. -/
  | strict
  /-- Any numbers that are not taken. -/
  | unchecked
  deriving DecidableEq, Repr

/-- The name of a check. -/
def SequenceCheck.name : SequenceCheck → String
  | .strict => "Strict"
  | .unchecked => "Unchecked"

/-- How a store saves. -/
structure StoreOptions where
  /-- How many records are inserted at once. -/
  batchSize : Nat := 100
  sequenceCheck : SequenceCheck := .strict
  batchSize_pos : 0 < batchSize := by decide
  deriving DecidableEq, Repr

/-- The same options with another batch size; 0 counts as 1. -/
def StoreOptions.withBatchSize (o : StoreOptions) (n : Nat) : StoreOptions :=
  { o with batchSize := max n 1, batchSize_pos := by omega }

/-- How a store is asked to save, with any batch size. -/
structure StoreConfig where
  batchSize : Nat := 100
  sequenceCheck : SequenceCheck := .strict
  deriving DecidableEq, Repr

/-- The options that a store is asked for; a batch size of 0 counts as 1. -/
def StoreConfig.options (config : StoreConfig) : StoreOptions where
  batchSize := max config.batchSize 1
  sequenceCheck := config.sequenceCheck
  batchSize_pos := by omega

/-- Collects the records that still fit the current batch, then goes on with the next one. -/
def batchesFrom (size : Nat) (room : Nat) (current : List Record) : List Record → List (List Record)
  | [] => if current.isEmpty then [] else [current.reverse]
  | r :: rest =>
    if room ≤ 1 then (r :: current).reverse :: batchesFrom size size [] rest
    else batchesFrom size (room - 1) (r :: current) rest

/-- The records in batches of one size, the last one possibly smaller. -/
def batches (size : Nat) (records : List Record) : List (List Record) :=
  batchesFrom size size [] records

theorem length_batchesFrom (size room : Nat) (current records : List Record) :
    (batchesFrom size room current records).length ≤ records.length + 1 ∧
      (current = [] → (batchesFrom size room current records).length ≤ records.length) := by
  induction records generalizing room current with
  | nil => cases current <;> simp [batchesFrom]
  | cons r rest ih =>
    unfold batchesFrom
    split
    · have h := (ih size []).2 rfl
      simp only [List.length_cons]
      omega
    · have h := (ih (room - 1) (r :: current)).1
      simp only [List.length_cons]
      omega

/-- There are not more batches than records. -/
theorem length_batches_le (size : Nat) (records : List Record) :
    (batches size records).length ≤ records.length :=
  (length_batchesFrom size size [] records).2 rfl

theorem flatten_batchesFrom (size room : Nat) (current records : List Record) :
    (batchesFrom size room current records).flatten = current.reverse ++ records := by
  induction records generalizing room current with
  | nil => cases current <;> simp [batchesFrom]
  | cons r rest ih =>
    unfold batchesFrom
    split <;> simp [ih]

/-- The batches hold the records in their order. -/
@[simp] theorem flatten_batches (size : Nat) (records : List Record) :
    (batches size records).flatten = records := by
  simp [batches, flatten_batchesFrom]

/-- A save under way. -/
inductive Saving (τ : Type)
  /-- The transaction is still to be opened. -/
  | opening (records : List Record)
  /-- Some records are still to be checked; `expected` holds the next number of each
  aggregate met. -/
  | checking (tx : τ) (expected : List (String × Int)) (unchecked records : List Record)
  /-- Some batches are still to be inserted, then comes the commit. -/
  | writing (tx : τ) (rest : List (List Record))
  /-- The transaction is to be undone. -/
  | undoing (tx : τ) (cause : StoreError)
  | done (result : Except StoreError Unit)

namespace Saving

variable {σ τ : Type}

/-- The check of one record against the number that its aggregate expects. Numbers are of 64 bits,
so that the least is expected after the greatest. -/
def judge (tx : τ) (expected : List (String × Int)) (r : Record) (rest records : List Record)
    (number : Int) : Saving τ :=
  if r.sequenceNo = number then
    .checking tx ((r.aggregateId, Numeral.nextInt64 number) :: expected) rest records
  else .undoing tx (.sequenceConflict r.aggregateId number r.sequenceNo)

/-- The next step of a save, one request at most. -/
def step (b : Backend σ τ) (o : StoreOptions) (s : σ) : Saving τ → Saving τ × σ
  | .opening records =>
    match b.begin s with
    | (.error e, s) => (.done (.error (.ofBackend .begin e)), s)
    | (.ok tx, s) =>
      match o.sequenceCheck with
      | .strict => (.checking tx [] records records, s)
      | .unchecked => (.writing tx (batches o.batchSize records), s)
  | .checking tx _ [] records => (.writing tx (batches o.batchSize records), s)
  | .checking tx expected (r :: rest) records =>
    match expected.lookup r.aggregateId with
    | some number => (judge tx expected r rest records number, s)
    | none =>
      match b.lastSequence s tx r.aggregateId with
      | (.error e, s) => (.undoing tx (.ofBackend .lastSequence e), s)
      | (.ok last, s) => (judge tx expected r rest records (Numeral.nextInt64 (last.getD 0)), s)
  | .writing tx (batch :: rest) =>
    match b.insert s tx batch with
    | (.error e, s) => (.undoing tx (.ofBackend .insert e), s)
    | (.ok tx, s) => (.writing tx rest, s)
  | .writing tx [] =>
    match b.commit s tx with
    | (.error e, s) => (.done (.error (.ofBackend .commit e)), s)
    | (.ok (), s) => (.done (.ok ()), s)
  | .undoing tx cause => (.done (.error cause), (b.rollback s tx).2)
  | .done result => (.done result, s)

/-- A bound on the steps that are left. -/
def size : Saving τ → Nat
  | .opening records => 2 * records.length + 4
  | .checking _ _ unchecked records => unchecked.length + records.length + 3
  | .writing _ rest => rest.length + 2
  | .undoing .. => 1
  | .done _ => 0

/-- Whether the save has ended. -/
def isDone : Saving τ → Bool
  | .done _ => true
  | _ => false

theorem size_judge_le (tx : τ) (expected : List (String × Int)) (r : Record)
    (rest records : List Record) (number : Int) :
    (judge tx expected r rest records number).size ≤ rest.length + records.length + 3 := by
  unfold judge
  split <;> simp only [size] <;> omega

/-- Every step brings a save nearer to its end. -/
theorem size_step_lt (b : Backend σ τ) (o : StoreOptions) (s : σ) {w : Saving τ}
    (h : w.isDone = false) : ((step b o s w).1).size < w.size := by
  cases w with
  | opening records =>
    have hb := length_batches_le o.batchSize records
    simp only [step]
    split
    · simp only [size]
      omega
    · split <;> simp only [size] <;> omega
  | checking tx expected unchecked records =>
    cases unchecked with
    | nil =>
      have hb := length_batches_le o.batchSize records
      simp only [step, size, List.length_nil]
      omega
    | cons r rest =>
      have hs : (checking tx expected (r :: rest) records).size =
          rest.length + 1 + records.length + 3 := rfl
      rw [hs]
      simp only [step]
      split
      · next number _ =>
        exact Nat.lt_of_le_of_lt (size_judge_le tx expected r rest records number) (by omega)
      · split
        · show 1 < _
          omega
        · next last s' _ =>
          exact Nat.lt_of_le_of_lt
            (size_judge_le tx expected r rest records (Numeral.nextInt64 (last.getD 0))) (by omega)
  | writing tx rest =>
    cases rest with
    | nil => simp only [step]; split <;> simp [size]
    | cons batch rest => simp only [step]; split <;> simp only [size, List.length_cons] <;> omega
  | undoing tx cause => simp [step, size]
  | done result => simp [isDone] at h

/-- All steps of a save, without anybody in between. -/
def run (b : Backend σ τ) (o : StoreOptions) (s : σ) (w : Saving τ) : Except StoreError Unit × σ :=
  match w with
  | .done result => (result, s)
  | .opening records =>
    let next := step b o s (.opening records)
    run b o next.2 next.1
  | .checking tx expected unchecked records =>
    let next := step b o s (.checking tx expected unchecked records)
    run b o next.2 next.1
  | .writing tx rest =>
    let next := step b o s (.writing tx rest)
    run b o next.2 next.1
  | .undoing tx cause =>
    let next := step b o s (.undoing tx cause)
    run b o next.2 next.1
termination_by w.size
decreasing_by all_goals exact size_step_lt b o s rfl

end Saving

end EventJournal
