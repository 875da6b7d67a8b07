import EventJournal.Journal

/-!
# Backends

What a store asks of the place where records are kept. Every request leads from one state of that
place to the next, whether it is granted or not.

* `Backend`, the requests;
* `Journal.backend`, the journal in memory, which grants everything but a clashing commit;
* `ClosedPool.backend`, a database whose connections are closed, which grants nothing;
* `Watched`, a journal that writes down the requests made of it and refuses some on demand.
-/

namespace EventJournal

/-- The requests of a store, over states `σ` and open transactions `τ`. A transaction that is given
up needs no request. -/
structure Backend (σ τ : Type) where
  begin : σ → Except BackendError τ × σ
  lastSequence : σ → τ → String → Except BackendError (Option Int) × σ
  insert : σ → τ → List Record → Except BackendError τ × σ
  commit : σ → τ → Except BackendError Unit × σ
  rollback : σ → τ → Except BackendError Unit × σ
  query : σ → String → Int → Except BackendError (List Record) × σ

/-- The journal in memory as a backend. -/
def Journal.backend : Backend Journal Transaction where
  begin j := (.ok {}, j)
  lastSequence j tx aggregateId := (.ok (tx.lastSequence? j aggregateId), j)
  insert j tx records := (.ok (tx.stage records), j)
  commit j tx :=
    match j.commit tx with
    | .ok j' => (.ok (), j')
    | .error e => (.error e, j)
  rollback j _ := (.ok (), j)
  query j aggregateId fromSequence := (.ok (j.query aggregateId fromSequence), j)

/-- A database that has no connections any more. -/
structure ClosedPool where

namespace ClosedPool

/-- The refusal of every request. -/
def refusal (operation : String) : BackendError := .failed operation "connection pool closed"

/-- Begins a transaction, in vain. -/
def begin : Except BackendError Transaction := .error (refusal "begin_transaction")

/-- Asks for records, in vain. -/
def query : Except BackendError (List Record) := .error (refusal "query_records")

/-- Creates the tables, in vain. -/
def ensureSchema : Except BackendError Unit := .error (refusal "ensure_schema")

/-- A connection to a database that cannot be reached, in vain. -/
def connect : Except BackendError ClosedPool :=
  .error (.failed "connect" "no database can be reached")

/-- The closed pool as a backend. -/
def backend : Backend ClosedPool Transaction where
  begin s := (begin, s)
  lastSequence s _ _ := (.error (refusal "last_sequence"), s)
  insert s _ _ := (.error (refusal "insert_records"), s)
  commit s _ := (.error (refusal "commit_transaction"), s)
  rollback s _ := (.error (refusal "rollback"), s)
  query s _ _ := (query, s)

end ClosedPool

/-- The kinds of requests. -/
inductive Request.Kind
  | begin
  | lastSequence
  | insert
  | commit
  | rollback
  | query
  deriving DecidableEq, Repr

/-- The name of a kind of request. -/
def Request.Kind.name : Request.Kind → String
  | .begin => "begin"
  | .lastSequence => "last_sequence"
  | .insert => "insert"
  | .commit => "commit"
  | .rollback => "rollback"
  | .query => "query"

/-- A request as it is written down. -/
inductive Request
  | begin
  | lastSequence (aggregateId : String)
  | insert (count : Nat)
  | commit
  | rollback
  | query (aggregateId : String) (fromSequence : Int)
  deriving DecidableEq, Repr

/-- The kind of a request. -/
def Request.kind : Request → Request.Kind
  | .begin => .begin
  | .lastSequence _ => .lastSequence
  | .insert _ => .insert
  | .commit => .commit
  | .rollback => .rollback
  | .query .. => .query

/-- The line that a request is written down as. -/
def Request.line : Request → String
  | .lastSequence aggregateId => "last_sequence " ++ aggregateId
  | .insert count => "insert " ++ String.ofList (Numeral.natural count)
  | .query aggregateId fromSequence =>
    "query " ++ aggregateId ++ " " ++ String.ofList (Numeral.integer fromSequence)
  | request => request.kind.name

/-- A refusal to come: of the request of one kind after `skip` more that are let through. -/
structure Fault where
  kind : Request.Kind
  skip : Nat
  error : BackendError
  deriving DecidableEq, Repr

/-- A journal that writes down the requests made of it, and refuses some on demand. -/
structure Watched where
  journal : Journal := {}
  /-- The refusals to come; those of one kind wait for each other. -/
  faults : List Fault := []
  /-- The requests so far. -/
  requests : List Request := []

namespace Watched

/-- The refusal of a request of one kind, if it is due, and the refusals that are left. -/
def due (kind : Request.Kind) : List Fault → Option BackendError × List Fault
  | [] => (none, [])
  | fault :: rest =>
    if fault.kind = kind then
      match fault.skip with
      | 0 => (some fault.error, rest)
      | skip + 1 => (none, { fault with skip } :: rest)
    else
      let (error, rest) := due kind rest
      (error, fault :: rest)

/-- Writes a request down and passes it on to the journal, unless a refusal is due. -/
def ask {α : Type} (request : Request) (grant : Journal → Except BackendError α × Journal)
    (w : Watched) : Except BackendError α × Watched :=
  let (error, faults) := due request.kind w.faults
  let requests := w.requests ++ [request]
  match error with
  | some error => (.error error, { w with faults, requests })
  | none =>
    let (answer, journal) := grant w.journal
    (answer, { journal, faults, requests })

/-- The watched journal as a backend. -/
def backend : Backend Watched Transaction where
  begin := ask .begin Journal.backend.begin
  lastSequence w tx aggregateId :=
    w.ask (.lastSequence aggregateId) fun j => Journal.backend.lastSequence j tx aggregateId
  insert w tx records :=
    w.ask (.insert records.length) fun j => Journal.backend.insert j tx records
  commit w tx := w.ask .commit fun j => Journal.backend.commit j tx
  rollback w tx := w.ask .rollback fun j => Journal.backend.rollback j tx
  query w aggregateId fromSequence :=
    w.ask (.query aggregateId fromSequence) fun j =>
      Journal.backend.query j aggregateId fromSequence

end Watched

end EventJournal
