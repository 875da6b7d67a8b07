import EventJournal.Order
import EventJournal.Store
import EventJournal.UnitOfWork

/-!
# Calls

A call is something that a caller asks of a system and that takes several steps: a save, a commit, a
command to an order, a dispatch, a shutdown. Other calls may take steps in between.

* `Call.Stage`, where a call stands;
* `Call.Outcome`, how it ends, with `Call.Error` and its wording.
-/

namespace EventJournal.Call

/-- Why a call does not succeed. -/
inductive Error
  | store (source : StoreError)
  | commit (source : CommitError)
  | dispatch (source : DispatchError)
  /-- The events of an order could not be loaded. -/
  | loadOrder (orderId : String) (source : StoreError)
  | replay (source : Order.ReplayError)
  | rule (source : Order.Error)

/-- The wording of each error. -/
def Error.message : Error → String
  | .store source => source.message
  | .commit source => source.message
  | .dispatch source => source.message
  | .loadOrder orderId _ => "Failed to load order " ++ orderId
  | .replay source => source.message
  | .rule source => source.message

/-- What a call that succeeds gives to its caller. -/
inductive Reply
  | saved (envelopes : List Envelope)
  | nothing

/-- How a call ends. -/
abbrev Outcome := Except Error Reply

/-- What events are saved for. -/
inductive Purpose
  /-- The caller only wants them saved. -/
  | itself
  /-- A commit of the unit of work with this number. -/
  | commit (unit : Nat)
  deriving DecidableEq, Repr

/-- Where a call stands. -/
inductive Stage
  /-- The events of an order are to be loaded for a command. -/
  | loading (orderId : String) (command : Order.Command)
  /-- The order of a command is as it was loaded. The time of the decision is to be read. -/
  | loaded (orderId : String) (command : Order.Command) (order : Option Order)
  /-- A command is to be decided at a time on the order as it was loaded. -/
  | deciding (orderId : String) (command : Order.Command) (order : Option Order) (now : Time)
  /-- The gate of a unit of work is to be passed. -/
  | queued (unit : Nat)
  /-- The gate has been passed, the events of the unit are to be fixed. -/
  | entered (unit : Nat)
  /-- Events are to be saved, if need be after a permit. -/
  | held (purpose : Purpose) (events : List Event)
  /-- Events are being saved since a time. -/
  | saving (purpose : Purpose) (envelopes : List Envelope) (since : Time)
      (save : Saving Transaction)
  /-- The events of a unit are saved, the handlers are to be told. -/
  | saved (unit : Nat) (envelopes : List Envelope)
  /-- Events are being dispatched, in the end of a commit those of its unit. -/
  | dispatching (commit : Option (Nat × List Envelope)) (dispatch : Dispatching)
  /-- Stored events are to be loaded for another dispatch. -/
  | reloading (aggregateId : String)
  /-- The worker of the queue is to end. -/
  | draining
  | finished (outcome : Outcome)

/-- The outcome of a call that has ended. -/
def Stage.outcome? : Stage → Option Outcome
  | .finished outcome => some outcome
  | _ => none

/-- Whether a call waits for the verdict on a delivery. -/
def Stage.awaits (stage : Stage) (ticket : Nat) : Bool :=
  match stage with
  | .dispatching _ dispatch => dispatch.awaits ticket
  | _ => false

end EventJournal.Call
