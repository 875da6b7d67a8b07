import EventJournal.System.Control

/-!
# Rest

A system comes to rest when no agent has anything to do. Those that may have something to do are
served in turn: the one in front takes steps until it has to wait or has had its share, then comes
the next.

* `System.share`, what an agent may be charged before others get their turn;
* `System.serve`, a bounded number of turns;
* `System.settle`, as many turns as it takes.
-/

namespace EventJournal.System

/-- What an agent may be charged before others get their turn. -/
def share : Nat := 128

/-- What the next step of an agent is charged; none if it may always take it. -/
def charge? (s : System) : Agent → Option Nat
  | .worker subscription => s.dispatcher.charge? subscription
  | .call _ | .queue => none

/-- Serves the agents in turn, for a number of turns at most. The one in front goes on until it has
nothing to do or what is `left` of its share is used up; then it goes to the back. -/
def serve : Nat → Nat → System → System
  | 0, _, s => s
  | turns + 1, left, s =>
    match s.ready with
    | [] => s
    | agent :: rest =>
      let charge := s.charge? agent
      if charge.isSome && left == 0 then serve turns share { s with ready := rest ++ [agent] }
      else
        match s.step? agent with
        | some s => serve turns (left - charge.getD 0) s
        | none => serve turns share { s with ready := rest }

/-- How many events a call may still have to save and to dispatch. -/
def callLoad (s : System) : Call.Stage → Nat
  | .loading .. | .loaded .. | .deciding .. => 1
  | .queued unit | .entered unit => ((s.units.get? unit).map (·.events.length)).getD 0
  | .held _ events => events.length
  | .saving _ envelopes _ _ => envelopes.length
  | .saved _ envelopes => envelopes.length
  | .dispatching _ (.starting envelopes) => envelopes.length
  | .dispatching _ (.publishing rest awaited) => rest.length + awaited.length
  | .dispatching _ (.awaiting rest _) => rest.length
  | .dispatching _ (.done _) => 0
  | .reloading _ => s.storage.journal.count
  | .draining => 0
  | .finished _ => 0

/-- How many events may still have to be saved and dispatched. -/
def workload (s : System) : Nat :=
  let calls := (s.calls.entries.map fun (_, stage) => s.callLoad stage).foldr (· + ·) 0
  let waiting :=
    match s.queue with
    | none => 0
    | some queue =>
      (queue.waiting.map (·.envelopes.length)).foldr (· + ·) 0 +
        ((queue.working.map fun dispatch => s.callLoad (.dispatching none dispatch)).getD 0)
  let inboxes :=
    (s.dispatcher.transport.inboxes.entries.map fun (_, waiting) => waiting.length).foldr (· + ·) 0
  calls + waiting + inboxes

/-- A bound on the steps until a system comes to rest: every event may reach every registration
under each of its four topics, and each delivery takes a few steps. -/
def turns (s : System) : Nat :=
  let deliveries := 4 * (s.dispatcher.registrations.length + 2)
  let agents := s.calls.entries.length + s.dispatcher.registrations.length + 2
  let batches := (s.queue.map (·.waiting.length)).getD 0
  16 * (s.workload * deliveries + 4 * agents + 4 * batches + s.ready.length + 4)

/-- The system at rest. -/
def settle (s : System) : System := serve s.turns share s

theorem serve_of_ready_nil {s : System} (h : s.ready = []) (turns left : Nat) :
    serve turns left s = s := by
  cases turns with
  | zero => rfl
  | succ turns => simp [serve, h]

/-- A system at rest stays as it is. -/
@[simp] theorem settle_of_ready_nil {s : System} (h : s.ready = []) : s.settle = s :=
  serve_of_ready_nil h s.turns share

end EventJournal.System
