import EventJournal.Proofs.Dispatch.Blamed
import EventJournal.Proofs.System.Passages
import EventJournal.Proofs.UnitOfWork.Outcome

/-!
# What happens in a run

Saves and commits end, events are handed to the dispatcher, dispatches end and handlers fail. When
they do so can be read off a moment: from the stages that a call leaves and comes to, the step of a
dispatch and the step of a worker.

* `Incidents`, what happens and is worth counting;
* `Call.Stage.loses`, `Call.Stage.ends`: what it means that a call goes from one stage to another;
* `Moment.incidents`, and what it is made of, for one moment;
* `History.incidents`, and what it is made of, for a history.
-/

namespace EventJournal

open UnitOfWork (Ending)

/-- What happens in a system and is worth counting. -/
structure Incidents where
  /-- The envelopes of the saves that have succeeded. -/
  saved : List (List Envelope) := []
  /-- The envelopes of the saves that have failed. -/
  lost : List (List Envelope) := []
  /-- How commits have ended. -/
  ended : List Ending := []
  /-- The types of the events that have been handed to the dispatcher. -/
  announced : List String := []
  /-- The handlers that have failed on a delivery, once for each. -/
  blamed : List String := []

namespace Incidents

/-- The incidents of one time and those of another. -/
def append (i j : Incidents) : Incidents where
  saved := i.saved ++ j.saved
  lost := i.lost ++ j.lost
  ended := i.ended ++ j.ended
  announced := i.announced ++ j.announced
  blamed := i.blamed ++ j.blamed

instance : Append Incidents := ⟨append⟩

theorem announced_append_ended (announced : List String) (ended : List Ending) :
    ({ announced } : Incidents) ++ { ended } = { ended, announced } := by
  show append _ _ = _
  simp [append]

end Incidents

/-! ### The incidents of a moment -/

namespace Call.Stage

/-- The save that has failed if a call goes from one stage to another. -/
def loses : Call.Stage → Call.Stage → List (List Envelope)
  | .saving _ envelopes _ _, .finished (.error _) => [envelopes]
  | _, _ => []

/-- How a commit has ended if its call goes from one stage to another: there was nothing to save,
the save has failed, the queue has refused the events, or they have been dispatched. A commit whose
events the queue has taken ends later. -/
def ends : Call.Stage → Call.Stage → List Ending
  | .entered _, .finished (.ok _) => [.empty]
  | .held (.commit _) _, .finished (.error _) => [.storeFailed]
  | .saving (.commit _) .., .finished (.error _) => [.storeFailed]
  | .saved .., .finished (.error _) => [.dispatchFailed]
  | .dispatching (some _) _, .finished (.ok _) => [.committed]
  | .dispatching (some _) _, .finished (.error _) => [.dispatchFailed]
  | _, _ => []

end Call.Stage

/-- The result of a dispatch that is done. -/
def Dispatching.result? : Dispatching → Option (Except DispatchError Unit)
  | .done result => some result
  | _ => none

/-- The envelopes of a dispatch that gets past the encoding of its messages in its next step. -/
def Dispatching.accepted (d : Dispatcher) : Dispatching → List Envelope
  | .starting envelopes =>
    if d.closed then []
    else
      match post envelopes with
      | .ok _ => envelopes
      | .error _ => []
  | _ => []

/-- The failures that the result of a dispatch reports. -/
def Dispatching.reported : Except DispatchError Unit → List HandlerFailure
  | .ok () => []
  | .error e => e.failures

theorem Dispatching.result?_of_going {x : Dispatching} (h : ∀ result, x ≠ .done result) :
    x.result? = none := by
  unfold result?
  split
  · exact (h _ rfl).elim
  · rfl

namespace Moment

/-- The agent that takes a step in a moment. -/
def agent? (m : Moment) : Option Agent :=
  match m.action with
  | .step agent => some agent
  | _ => none

/-- The call that takes a step in a moment, with the stages before and after it. -/
def passing? (m : Moment) : Option (Nat × Call.Stage × Call.Stage) :=
  match m.action with
  | .step (.call call) =>
    (m.before.calls.get? call).bind fun stage =>
      (m.after.calls.get? call).map fun stage' => (call, stage, stage')
  | _ => none

/-- The saves that succeed in a moment. -/
def saved (m : Moment) : List (List Envelope) :=
  m.passing?.toList.flatMap fun p => p.2.1.saves p.2.2

/-- The saves that fail in a moment. -/
def lost (m : Moment) : List (List Envelope) :=
  m.passing?.toList.flatMap fun p => p.2.1.loses p.2.2

/-- The commits that end in a moment, by the number of the call. -/
def endings (m : Moment) : List (Nat × Ending) :=
  m.passing?.toList.flatMap fun p => (p.2.1.ends p.2.2).map (p.1, ·)

/-- The dispatch that takes a step in a moment. -/
def dispatch? (m : Moment) : Option Dispatching := m.agent?.bind m.before.dispatching?

/-- The step that a dispatch takes in a moment. -/
def advance? (m : Moment) : Option Dispatching.Advance :=
  m.dispatch?.bind (·.step? m.before.dispatcher)

/-- The types of the events that are handed to the dispatcher in a moment. -/
def announced (m : Moment) : List String := (m.advance?.bind Dispatching.Advance.counted).toList

/-- The envelopes of a dispatch that gets past encoding in a moment. -/
def accepted (m : Moment) : List Envelope :=
  (m.dispatch?.map (·.accepted m.before.dispatcher)).getD []

/-- The result of a dispatch that ends in a moment. -/
def results (m : Moment) : List (Except DispatchError Unit) :=
  (m.advance?.bind (·.next.result?)).toList

/-- The result of a dispatch of the queue that ends in a moment. -/
def delivered (m : Moment) : List (Except DispatchError Unit) :=
  match m.action with
  | .step .queue => m.results
  | _ => []

/-- The handlers that fail on a delivery in a moment. -/
def blamed (m : Moment) : List String :=
  (m.before.works m.action).filterMap fun p => p.2.blamed?

/-- What happens in a moment and is counted. -/
def incidents (m : Moment) : Incidents where
  saved := m.saved
  lost := m.lost
  ended := m.endings.map Prod.snd ++ m.delivered.map Ending.ofDispatch
  announced := m.announced
  blamed := m.blamed

end Moment

namespace History

/-- The envelopes of the saves that have succeeded. -/
def saved (h : History) : List (List Envelope) := h.flatMap Moment.saved

/-- The envelopes of the saves that have failed. -/
def lost (h : History) : List (List Envelope) := h.flatMap Moment.lost

/-- The commits that have ended with their calls. -/
def endings (h : History) : List (Nat × Ending) := h.flatMap Moment.endings

/-- The types of the events that have been handed to the dispatcher. -/
def announced (h : History) : List String := h.flatMap Moment.announced

/-- The envelopes of the dispatches that have got past encoding. -/
def accepted (h : History) : List Envelope := h.flatMap Moment.accepted

/-- The results of all dispatches. -/
def results (h : History) : List (Except DispatchError Unit) := h.flatMap Moment.results

/-- The failures that all dispatches have reported. -/
def reported (h : History) : List HandlerFailure := h.results.flatMap Dispatching.reported

/-- The results of the dispatches of the queue. -/
def delivered (h : History) : List (Except DispatchError Unit) := h.flatMap Moment.delivered

/-- The handlers that have failed on a delivery, once for each. -/
def blamed (h : History) : List String := h.flatMap Moment.blamed

/-- What has happened and is counted. -/
def incidents (h : History) : Incidents where
  saved := h.saved
  lost := h.lost
  ended := h.flatMap fun m => m.endings.map Prod.snd ++ m.delivered.map Ending.ofDispatch
  announced := h.announced
  blamed := h.blamed

theorem incidents_concat (h : History) (m : Moment) :
    incidents (h ++ [m]) = h.incidents ++ m.incidents := by
  show _ = Incidents.append _ _
  simp [incidents, Incidents.append, Moment.incidents, saved, lost, announced, blamed]

end History

namespace Moment

variable {s s' : System} {a : Action} {call : Nat} {stage stage' : Call.Stage}

/-- Nothing is counted but steps of agents. -/
theorem incidents_of_other (other : ∀ agent, a ≠ .step agent) :
    incidents ⟨s, a, s'⟩ = {} := by
  cases a with
  | step agent => exact (other agent rfl).elim
  | _ => rfl

/-- A step of a call that dispatches nothing. -/
theorem incidents_of_passing (hget : s.calls.get? call = some stage)
    (hget' : s'.calls.get? call = some stage') (plain : stage.dispatch? = none) :
    incidents ⟨s, .step (.call call), s'⟩ =
      { saved := stage.saves stage', lost := stage.loses stage', ended := stage.ends stage' } := by
  simp [incidents, saved, lost, endings, delivered, announced, blamed, passing?, advance?,
    dispatch?, agent?, System.dispatching?, System.works, hget, hget', plain]

/-- A step of a call that dispatches something. -/
theorem incidents_of_dispatching {commit : Option (Nat × List Envelope)} {dispatch : Dispatching}
    {advance : Dispatching.Advance} (hget : s.calls.get? call = some (.dispatching commit dispatch))
    (hget' : s'.calls.get? call = some stage')
    (hstep : dispatch.step? s.dispatcher = some advance) :
    incidents ⟨s, .step (.call call), s'⟩ =
      { ended := Call.Stage.ends (.dispatching commit dispatch) stage'
        announced := advance.counted.toList } := by
  simp [incidents, saved, lost, endings, delivered, announced, blamed, passing?, advance?,
    dispatch?, agent?, System.dispatching?, System.works, hget, hget', hstep, Call.Stage.dispatch?,
    Call.Stage.saves, Call.Stage.loses]

/-- A step of the worker of the queue. -/
theorem incidents_of_queue :
    incidents ⟨s, .step .queue, s'⟩ =
      { ended := (results ⟨s, .step .queue, s'⟩).map Ending.ofDispatch
        announced := announced ⟨s, .step .queue, s'⟩ } := by
  rfl

/-- A step of the worker of a subscription. -/
theorem incidents_of_worker {id : Nat} {step : WorkerStep} {d : Dispatcher}
    (hwork : s.dispatcher.work? id = some (step, d)) :
    incidents ⟨s, .step (.worker id), s'⟩ = { blamed := step.blamed?.toList } := by
  cases hblamed : step.blamed? <;>
    simp [incidents, saved, lost, endings, delivered, announced, blamed, passing?, advance?,
      dispatch?, agent?, System.dispatching?, System.works, hwork, hblamed]

end Moment

end EventJournal
