import EventJournal.Dispatcher
import EventJournal.Saving

/-!
# Units of work

A unit of work gathers events and saves them together, once. While a commit saves them and after it
has done so the unit takes no more; if the save fails, the unit gathers again.

* `UnitOfWork`, `UnitOfWork.Phase`, `DispatchMode`;
* `UnitOfWork.register`, `UnitOfWork.rollback`, what may be done while it gathers;
* `UnitOfWork.begin`, `UnitOfWork.complete`, `UnitOfWork.reopen`, the steps of a commit;
* `CommitError`, why a commit or a rollback fails.
-/

namespace EventJournal

/-- How saved events get to the handlers. -/
inductive DispatchMode
  /-- A commit waits until they have been handled. -/
  | synchronous
  /-- A commit puts them into a queue. -/
  | detached
  deriving DecidableEq, Repr

/-- The name of a mode. -/
def DispatchMode.name : DispatchMode → String
  | .synchronous => "Synchronous"
  | .detached => "Detached"

/-- Why a commit or a rollback fails. -/
inductive CommitError
  | alreadyCommitted
  | rollbackAfterCommit
  | commitInProgress
  | store (source : StoreError)
  /-- The events are saved, but not all handlers have handled them. -/
  | dispatch (envelopes : List Envelope) (source : DispatchError)

namespace CommitError

/-- The wording of each error. -/
def message : CommitError → String
  | .alreadyCommitted => "unit of work already committed"
  | .rollbackAfterCommit => "cannot roll back a committed unit of work"
  | .commitInProgress => "a commit is in progress"
  | .store source => "failed to persist events: " ++ source.message
  | .dispatch envelopes source =>
    String.ofList (Numeral.natural envelopes.length) ++
      " event(s) persisted but dispatch failed: " ++ source.message

/-- The name of each kind of error. -/
def code : CommitError → String
  | .alreadyCommitted => "UnitOfWork.AlreadyCommitted"
  | .rollbackAfterCommit => "UnitOfWork.RollbackAfterCommit"
  | .commitInProgress => "UnitOfWork.CommitInProgress"
  | .store _ => "UnitOfWork.Store"
  | .dispatch .. => "UnitOfWork.Dispatch"

/-- The events that are saved in spite of the error. -/
def persisted : CommitError → List Envelope
  | .dispatch envelopes _ => envelopes
  | _ => []

end CommitError

namespace UnitOfWork

/-- Where a unit of work stands. -/
inductive Phase
  | gathering
  | committing
  | committed
  deriving DecidableEq, Repr

/-- The name of a phase. -/
def Phase.name : Phase → String
  | .gathering => "open"
  | .committing => "committing"
  | .committed => "committed"

/-- How a commit ends, as it is counted. -/
inductive Ending
  | committed
  | empty
  | storeFailed
  | dispatchFailed
  deriving DecidableEq, Repr

/-- The name under which an ending is counted. -/
def Ending.label : Ending → String
  | .committed => "committed"
  | .empty => "empty"
  | .storeFailed => "store_failed"
  | .dispatchFailed => "dispatch_failed"

/-- How a commit of saved events ends with their dispatch. -/
def Ending.ofDispatch : Except DispatchError Unit → Ending
  | .ok () => .committed
  | .error _ => .dispatchFailed

end UnitOfWork

/-- Events gathered for one save. Commits, known by their numbers, pass its gate one at a time. -/
structure UnitOfWork where
  id : Uuid
  mode : DispatchMode := .synchronous
  phase : UnitOfWork.Phase := .gathering
  /-- The events in the order in which they were registered. -/
  events : List Event := []
  gate : Gate Nat := .single

namespace UnitOfWork

/-- What is said to somebody who registers events too late. -/
def lateMessage (u : UnitOfWork) : String :=
  "cannot register events on unit of work " ++ u.id.toString ++ " while it is " ++ u.phase.name

/-- Further events; a message if it is too late. -/
def register (u : UnitOfWork) (events : List Event) : Except String UnitOfWork :=
  match u.phase with
  | .gathering => .ok { u with events := u.events ++ events }
  | _ => .error u.lateMessage

/-- Drops the events gathered. -/
def rollback (u : UnitOfWork) : Except CommitError UnitOfWork :=
  match u.phase with
  | .gathering => .ok { u with events := [] }
  | .committing => .error .commitInProgress
  | .committed => .error .rollbackAfterCommit

/-- A commit that has passed the gate begins: the events to be saved, none if there are none. -/
def begin (u : UnitOfWork) : Except CommitError (List Event × UnitOfWork) :=
  match u.phase with
  | .committed => .error .alreadyCommitted
  | .committing => .error .commitInProgress
  | .gathering =>
    if u.events.isEmpty then .ok ([], { u with phase := .committed })
    else .ok (u.events, { u with phase := .committing })

/-- The events have been saved. -/
def complete (u : UnitOfWork) : UnitOfWork := { u with phase := .committed }

/-- The save of a commit has failed or was given up. -/
def reopen (u : UnitOfWork) : UnitOfWork :=
  match u.phase with
  | .committing => { u with phase := .gathering }
  | _ => u

/-- A commit leaves and lets the next one pass. -/
def leave (u : UnitOfWork) : UnitOfWork := { u with gate := u.gate.release 1 }

/-- Whether the events have been saved. -/
def isCommitted (u : UnitOfWork) : Bool := u.phase = .committed

@[simp] theorem events_complete (u : UnitOfWork) : u.complete.events = u.events := rfl

@[simp] theorem events_reopen (u : UnitOfWork) : u.reopen.events = u.events := by
  unfold reopen
  split <;> rfl

@[simp] theorem events_leave (u : UnitOfWork) : u.leave.events = u.events := rfl

/-- Events can be registered exactly while the unit gathers. -/
theorem register_eq_ok_iff {u u' : UnitOfWork} {events : List Event} :
    u.register events = .ok u' ↔
      u.phase = .gathering ∧ u' = { u with events := u.events ++ events } := by
  unfold register
  cases u.phase with
  | gathering =>
    constructor
    · intro h
      exact ⟨rfl, (Except.ok.inj h).symm⟩
    · rintro ⟨-, rfl⟩
      rfl
  | committing => simp
  | committed => simp

end UnitOfWork

end EventJournal
