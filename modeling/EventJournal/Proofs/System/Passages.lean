import EventJournal.Proofs.Dispatch.Accounts
import EventJournal.Proofs.System.Outlets
import EventJournal.Proofs.System.Ledger

/-!
# Passages through the outlets

What an action does to the dispatcher and the queue. Events come out of the hands of a commit or
into the queue, the worker of the queue takes them in their order, and dispatches publish them.

* `System.dispatching?`, the dispatch in the hands of an agent;
* `System.sends`, `System.works`: what an action publishes, and what a worker does in it;
* `System.Passage`, what an action does to the outlets.

The main statement is `System.passage_of_perform`.
-/

namespace EventJournal

/-- The dispatch of a call. -/
def Call.Stage.dispatch? : Call.Stage → Option Dispatching
  | .dispatching _ dispatch => some dispatch
  | _ => none

/-- The batch at work goes on with its dispatch, or is done. -/
def DispatchQueue.goOn {α : Type} (q : DispatchQueue α Dispatching) :
    Dispatching → DispatchQueue α Dispatching
  | .done _ => q.finish
  | next => q.advance next

namespace DispatchQueue

variable {α β : Type} {q q' : DispatchQueue α β}

theorem eq_of_enqueue {batch : α} (h : q.enqueue? batch = some q') :
    q' = { q with waiting := q.waiting ++ [batch] } := by
  unfold enqueue? at h
  split at h
  · simp at h
  · exact (Option.some.inj h).symm

/-- A free worker takes the oldest batch. -/
theorem exists_of_take {start : α → β} (h : q.take? start = some q') :
    q.working = none ∧ ∃ batch, q.waiting = batch :: q'.waiting ∧
      q'.working = some (start batch) := by
  unfold take? at h
  split at h
  · next batch rest _ hworking hwaiting =>
    obtain rfl := Option.some.inj h
    exact ⟨hworking, batch, hwaiting, rfl⟩
  · simp at h

/-- A worker that ends is free. -/
theorem eq_of_end (h : q.end? = some q') : q.working = none ∧ q' = { q with ended := true } := by
  unfold end? at h
  split at h
  · next hworking _ => exact ⟨hworking, (Option.some.inj h).symm⟩
  · simp at h

end DispatchQueue

/-- Whether an action brings events to the handlers other than through a commit. -/
def Action.bypassesCommits : Action → Bool
  | .dispatch _ | .redispatch _ | .enqueue .. | .replaceDispatch .. => true
  | _ => false

/-- Whether an action leaves the dispatcher and the queue alone. -/
def Action.sparesOutlets : Action → Bool
  | .step _ | .shutdown | .subscribe .. | .unsubscribe _ | .close | .enqueue ..
  | .releaseHandler .. | .replaceDispatch .. => false
  | _ => true

namespace System

/-- The dispatch in the hands of an agent. -/
def dispatching? (s : System) : Agent → Option Dispatching
  | .call call => (s.calls.get? call).bind Call.Stage.dispatch?
  | .queue => s.queue.bind DispatchQueue.working
  | .worker _ => none

/-- What an action publishes. -/
def sends (s : System) : Action → List Errand
  | .step agent => ((s.dispatching? agent).map s.dispatcher.sends).getD []
  | _ => []

/-- What a worker does in an action. -/
def works (s : System) : Action → List (Nat × WorkerStep)
  | .step (.worker id) => ((s.dispatcher.work? id).map fun (step, _) => (id, step)).toList
  | _ => []

/-- What an action does to the dispatcher and the queue. -/
inductive Passage (s : System) : Action → Dispatcher × Option (DispatchQueue Batch Dispatching) →
    Prop
  | keeps {a : Action} (sends : s.sends a = []) (works : s.works a = []) : Passage s a s.outlets
  | hands {call unit : Nat} {u : UnitOfWork} {envelopes : List Envelope}
      {q q' : DispatchQueue Batch Dispatching}
      (stage : s.calls.get? call = some (.saved unit envelopes))
      (get : s.units.get? unit = some u) (queue : s.queue = some q)
      (enqueue : q.enqueue? ⟨u.id, envelopes⟩ = some q') :
      Passage s (.step (.call call)) (s.dispatcher, some q')
  | puts {unit : Uuid} {envelopes : List Envelope} {q q' : DispatchQueue Batch Dispatching}
      (queue : s.queue = some q) (enqueue : q.enqueue? ⟨unit, envelopes⟩ = some q') :
      Passage s (.enqueue unit envelopes) (s.dispatcher, some q')
  | takes {q q' : DispatchQueue Batch Dispatching} (queue : s.queue = some q)
      (take : q.take? (fun batch => .starting batch.envelopes) = some q') :
      Passage s (.step .queue) (s.dispatcher, some q')
  | ends {q q' : DispatchQueue Batch Dispatching} (queue : s.queue = some q)
      (ending : q.end? = some q') : Passage s (.step .queue) (s.dispatcher, some q')
  | drives {q : DispatchQueue Batch Dispatching} {dispatch : Dispatching}
      {advance : Dispatching.Advance} (queue : s.queue = some q)
      (working : q.working = some dispatch) (step : dispatch.step? s.dispatcher = some advance) :
      Passage s (.step .queue) (advance.dispatcher, some (q.goOn advance.next))
  | goes {call : Nat} {commit : Option (Nat × List Envelope)} {dispatch : Dispatching}
      {advance : Dispatching.Advance}
      (stage : s.calls.get? call = some (.dispatching commit dispatch))
      (step : dispatch.step? s.dispatcher = some advance) :
      Passage s (.step (.call call)) (advance.dispatcher, s.queue)
  | acts {id : Nat} {step : WorkerStep} {d : Dispatcher}
      (work : s.dispatcher.work? id = some (step, d)) :
      Passage s (.step (.worker id)) (d, s.queue)
  | turns {a : Action} {d : Dispatcher} (sends : s.sends a = []) (works : s.works a = [])
      (move : s.dispatcher.Move [] d) : Passage s a (d, s.queue)
  | shuts {q : DispatchQueue Batch Dispatching} (queue : s.queue = some q) :
      Passage s .shutdown (s.dispatcher, some q.shutdown.2)
  | replaces (d : Dispatcher) (queue : Option (DispatchQueue Batch Dispatching)) :
      Passage s (.replaceDispatch d queue) (d, queue)

variable {s s' : System} {a : Action} {call : Nat}

theorem sends_of_stage {stage : Call.Stage} (hget : s.calls.get? call = some stage)
    (h : stage.dispatch? = none) : s.sends (.step (.call call)) = [] := by
  simp [sends, dispatching?, hget, h]

theorem sends_of_dispatching {commit : Option (Nat × List Envelope)} {dispatch : Dispatching}
    (hget : s.calls.get? call = some (.dispatching commit dispatch)) :
    s.sends (.step (.call call)) = s.dispatcher.sends dispatch := by
  simp [sends, dispatching?, hget, Call.Stage.dispatch?]

theorem sends_of_working {q : DispatchQueue Batch Dispatching} (hqueue : s.queue = some q) :
    s.sends (.step .queue) = (q.working.map s.dispatcher.sends).getD [] := by
  simp [sends, dispatching?, hqueue]

theorem outlets_noteDispatch (advance : Dispatching.Advance) :
    (s.noteDispatch advance).outlets = (advance.dispatcher, s.queue) := by
  unfold noteDispatch
  rw [outlets_wakeAll]
  split <;> rfl

theorem outlets_endDispatch (commit : Option (Nat × List Envelope))
    (result : Except DispatchError Unit) :
    (s.endDispatch call commit result).outlets = s.outlets := by
  cases commit with
  | none => cases result <;> rfl
  | some pair => exact outlets_endCommit ..

theorem outlets_noteWorker (done : WorkerStep) : (s.noteWorker done).outlets = s.outlets := by
  unfold noteWorker
  split
  · rfl
  · rfl
  · rfl
  · exact outlets_wakeAwaiting ..
  · exact outlets_wakeAwaiting (s.count _) _

theorem outlets_dropSave (purpose : Call.Purpose) :
    (s.dropSave call purpose).outlets = s.outlets := by
  unfold dropSave
  cases purpose with
  | itself => exact outlets_wakeAll { s with saveGate := _ } _
  | commit unit =>
    exact (outlets_leaveUnit { wakeAll { s with saveGate := _ } _ with units := _ } unit).trans
      (outlets_wakeAll { s with saveGate := _ } _)

theorem outlets_abort? (h : s.abort? call = some s') : s'.outlets = s.outlets := by
  unfold abort? at h
  split at h
  · simp at h
  · next stage _ =>
    cases stage with
    | held purpose | saving purpose =>
      obtain rfl := Option.some.inj h
      exact outlets_dropSave purpose
    | queued unit =>
      obtain rfl := Option.some.inj h
      show (s.leaveQueue call unit).outlets = _
      unfold leaveQueue
      split
      · rfl
      · exact outlets_wakeAll ..
    | dispatching commit =>
      cases commit with
      | none =>
        obtain rfl := Option.some.inj h
        rfl
      | some pair =>
        obtain rfl := Option.some.inj h
        exact outlets_leaveUnit s pair.1
    | loading | reloading | draining =>
      obtain rfl := Option.some.inj h
      rfl
    | _ => simp at h

/-- An action that leaves the outlets alone. -/
theorem outlets_of_spares (h : s.perform? a = some s') (spares : a.sparesOutlets = true) :
    s'.outlets = s.outlets := by
  cases a with
  | save events =>
    obtain rfl := Option.some.inj h
    exact outlets_wake ..
  | commit unit =>
    obtain rfl := Option.some.inj h
    unfold commit
    split
    · exact outlets_start ..
    · exact outlets_wake ..
  | handle | dispatch | redispatch =>
    obtain rfl := Option.some.inj h
    exact outlets_start ..
  | abort call => exact outlets_abort? h
  | register unit events =>
    obtain rfl := Option.some.inj h
    unfold register
    split
    · rfl
    · split <;> rfl
  | rollback unit =>
    obtain rfl := Option.some.inj h
    unfold rollback
    split
    · rfl
    · split <;> rfl
  | release n =>
    obtain rfl := Option.some.inj h
    unfold release
    split
    · rfl
    · exact outlets_wakeAll ..
  | inject records =>
    obtain rfl := Option.some.inj h
    unfold inject
    split <;> rfl
  | newUnit | tick | fetch | schedule | fault | replaceStorage =>
    obtain rfl := Option.some.inj h
    rfl
  | _ => simp [Action.sparesOutlets] at spares

theorem passage_stepCall? (h : s.stepCall? call = some s') :
    s.Passage (.step (.call call)) s'.outlets := by
  cases hget : s.calls.get? call with
  | none => simp [stepCall?, hget] at h
  | some stage =>
    have hkept : stage.dispatch? = none → s'.outlets = s.outlets →
        s.Passage (.step (.call call)) s'.outlets :=
      fun hnone heq => heq ▸ .keeps (sends_of_stage hget hnone) rfl
    cases stage with
    | dispatching commit dispatch =>
      simp only [stepCall?, hget, advanceDispatch?] at h
      split at h
      · simp at h
      · next advance hstep =>
        have hnote := outlets_noteDispatch (s := s) advance
        split at h
        · obtain rfl := Option.some.inj h
          rw [outlets_endDispatch, hnote]
          exact .goes hget hstep
        · obtain rfl := Option.some.inj h
          show s.Passage _ (s.noteDispatch advance).outlets
          rw [hnote]
          exact .goes hget hstep
    | saved unit envelopes =>
      simp only [stepCall?, hget, Option.some.injEq] at h
      subst h
      cases hu : s.units.get? unit with
      | none => exact hkept rfl (by simp only [handOver, hu]; rfl)
      | some u =>
        cases hmode : u.mode with
        | synchronous =>
          rw [handOver_synchronous hu hmode] at hkept ⊢
          exact hkept rfl rfl
        | detached =>
          rw [outlets_handOver_detached hu hmode] at hkept ⊢
          cases hput : s.queue.bind (·.enqueue? ⟨u.id, envelopes⟩) with
          | none => exact .keeps (sends_of_stage hget rfl) rfl
          | some q' =>
            obtain ⟨q, hqueue, henqueue⟩ := Option.bind_eq_some_iff.1 hput
            exact .hands hget hu hqueue henqueue
    | _ => exact hkept rfl (outlets_stepCall? h hget rfl)

theorem passage_stepQueue? (h : s.stepQueue? = some s') : s.Passage (.step .queue) s'.outlets := by
  unfold stepQueue? at h
  split at h
  · simp at h
  · next q hqueue =>
    split at h
    · split at h
      · next q' htake =>
        obtain rfl := Option.some.inj h
        exact .takes hqueue htake
      · split at h
        · next q' hend =>
          obtain rfl := Option.some.inj h
          rw [outlets_wakeAll]
          exact .ends hqueue hend
        · simp at h
    · next dispatch hworking =>
      split at h
      · simp at h
      · next advance hstep =>
        have hnote : (s.noteDispatch advance).dispatcher = advance.dispatcher :=
          congrArg Prod.fst (outlets_noteDispatch advance)
        have hdrives := Passage.drives hqueue hworking hstep
        dsimp only at h
        split at h
        · next hdone =>
          obtain rfl := Option.some.inj h
          rw [hdone, ← hnote] at hdrives
          exact hdrives
        · next hgoing =>
          obtain rfl := Option.some.inj h
          have hgoOn : q.goOn advance.next = q.advance advance.next := by
            unfold DispatchQueue.goOn
            split
            · next hdone => exact (hgoing _ hdone).elim
            · rfl
          rw [hgoOn, ← hnote] at hdrives
          exact hdrives

/-- The dispatch of a call goes on, or the call ends. -/
theorem stage_of_dispatching {commit : Option (Nat × List Envelope)} {dispatch : Dispatching}
    (h : s.stepCall? call = some s')
    (hget : s.calls.get? call = some (.dispatching commit dispatch)) :
    ∃ advance, dispatch.step? s.dispatcher = some advance ∧
      ∀ stage, s'.calls.get? call = some stage →
        stage = .dispatching commit advance.next ∨ ∃ outcome, stage = .finished outcome := by
  simp only [stepCall?, hget, advanceDispatch?] at h
  split at h
  · simp at h
  · next advance hstep =>
    refine ⟨advance, hstep, fun stage hstage => ?_⟩
    split at h
    · next result _ =>
      obtain rfl := Option.some.inj h
      refine .inr ?_
      have hfinish : ∀ (t : System) (outcome : Call.Outcome),
          (t.finish call outcome).calls.get? call = some stage →
          ∃ outcome, stage = .finished outcome := fun t outcome heq =>
        ⟨outcome, Option.some.inj (heq.symm.trans (Table.get?_set_self ..))⟩
      cases commit with
      | none => cases result <;> exact hfinish _ _ hstage
      | some pair => exact hfinish _ _ hstage
    · obtain rfl := Option.some.inj h
      exact .inl (Option.some.inj (hstage.symm.trans (Table.get?_set_self ..)))

/-- What an action does to the dispatcher and the queue. -/
theorem passage_of_perform (h : s.perform? a = some s') : s.Passage a s'.outlets := by
  by_cases spares : a.sparesOutlets = true
  · have hkeeps : s.sends a = [] ∧ s.works a = [] := by
      cases a with
      | step => simp [Action.sparesOutlets] at spares
      | _ => exact ⟨rfl, rfl⟩
    exact outlets_of_spares h spares ▸ .keeps hkeeps.1 hkeeps.2
  cases a with
  | step agent =>
    cases agent with
    | call call => exact passage_stepCall? h
    | queue => exact passage_stepQueue? h
    | worker id =>
      change s.stepWorker? id = some s' at h
      unfold stepWorker? at h
      split at h
      · simp at h
      · next done d hwork =>
        obtain rfl := Option.some.inj h
        rw [outlets_noteWorker]
        exact .acts hwork
  | shutdown =>
    obtain rfl := Option.some.inj h
    cases hqueue : s.queue with
    | none =>
      simp only [shutdown, hqueue]
      rw [outlets_start]
      exact .keeps rfl rfl
    | some q =>
      have hshuts := Passage.shuts hqueue
      simp only [shutdown, hqueue]
      split
      · next heq =>
        rw [outlets_start, outlets_wake]
        rwa [heq] at hshuts
      · next heq =>
        rw [outlets_start, outlets_wake]
        rwa [heq] at hshuts
  | subscribe handler topics =>
    obtain rfl := Option.some.inj h
    exact .turns rfl rfl (.subscribes handler topics)
  | unsubscribe id =>
    obtain rfl := Option.some.inj h
    show s.Passage _ ((wakeAwaiting { s with dispatcher := _ } _).wakeAll _).outlets
    rw [outlets_wakeAll, outlets_wakeAwaiting]
    exact .turns rfl rfl (.unsubscribes id)
  | close =>
    obtain rfl := Option.some.inj h
    show s.Passage _ (wakeAwaiting { s with dispatcher := _ } _).outlets
    rw [outlets_wakeAwaiting]
    exact .turns rfl rfl .closes
  | enqueue unit envelopes =>
    obtain rfl := Option.some.inj h
    unfold enqueue
    split
    · next q' hput =>
      obtain ⟨q, hqueue, henqueue⟩ := Option.bind_eq_some_iff.1 hput
      rw [outlets_wake]
      exact .puts hqueue henqueue
    · exact .keeps rfl rfl
  | releaseHandler label n =>
    obtain rfl := Option.some.inj h
    show s.Passage _ (wakeAll { s with dispatcher := _ } _).outlets
    rw [outlets_wakeAll]
    exact .turns rfl rfl (.releases label n)
  | replaceDispatch d queue =>
    obtain rfl := Option.some.inj h
    exact .replaces d queue
  | _ => exact (spares rfl).elim

end System

/-! ### The dispatcher in a run -/

/-- A system whose dispatcher has no registrations yet, and whose queue has not been used. -/
structure System.Unused (s : System) : Prop where
  dispatcher : s.dispatcher = { registry := s.dispatcher.registry }
  queue : ∀ q, s.queue = some q → q = {}

theorem System.unused_queued : System.queued.Unused :=
  ⟨rfl, fun _ hq => (Option.some.inj hq).symm⟩

namespace History

/-- What dispatches have published. -/
def sent (h : History) : List Errand := h.flatMap fun m => m.before.sends m.action

/-- What the workers have done. -/
def worked (h : History) : List (Nat × WorkerStep) := h.flatMap fun m => m.before.works m.action

/-- Events have come to the handlers only through commits. -/
def OnlyCommits (h : History) : Prop := ∀ m ∈ h, m.action.bypassesCommits = false

theorem sent_concat (h : History) (m : Moment) :
    sent (h ++ [m]) = h.sent ++ m.before.sends m.action := by
  simp [sent]

theorem worked_concat (h : History) (m : Moment) :
    worked (h ++ [m]) = h.worked ++ m.before.works m.action := by
  simp [worked]

theorem onlyCommits_concat {h : History} {m : Moment} :
    OnlyCommits (h ++ [m]) ↔ h.OnlyCommits ∧ m.action.bypassesCommits = false := by
  rw [OnlyCommits, List.forall_mem_append, List.forall_mem_singleton]
  rfl

/-- Actions that come to the handlers only through commits do so in every course. -/
theorem onlyCommits_course {s : System} {actions : List Action}
    (h : ∀ a ∈ actions, a.bypassesCommits = false) : (s.course actions).OnlyCommits :=
  System.forall_action_course h

end History

/-- Whatever passes the outlets keeps deliveries in their lines. -/
theorem System.Passage.busy {s : System} {a : Action}
    {outlets : Dispatcher × Option (DispatchQueue Batch Dispatching)} {base : Dispatcher}
    {made : List Registration} {sent : List Errand} {log : List (Nat × WorkerStep)}
    (passage : s.Passage a outlets) (plain : a.bypassesCommits = false)
    (busy : base.Busy made sent log s.dispatcher) :
    (∃ more, base.Busy (made ++ more) (sent ++ s.sends a) (log ++ s.works a) outlets.1) ∧
      s.dispatcher.Later outlets.1 := by
  have hmoves : ∀ {d : Dispatcher}, s.sends a = [] → s.works a = [] → s.dispatcher.Move [] d →
      (∃ more, base.Busy (made ++ more) (sent ++ s.sends a) (log ++ s.works a) d) ∧
        s.dispatcher.Later d := by
    intro d hsends hworks move
    rw [hsends, hworks, List.append_nil]
    exact busy.move move
  have hdispatches : ∀ {dispatch : Dispatching} {advance : Dispatching.Advance},
      s.sends a = s.dispatcher.sends dispatch → s.works a = [] →
      dispatch.step? s.dispatcher = some advance →
      (∃ more, base.Busy (made ++ more) (sent ++ s.sends a) (log ++ s.works a)
        advance.dispatcher) ∧ s.dispatcher.Later advance.dispatcher := by
    intro dispatch advance hsends hworks hstep
    obtain ⟨busy', later⟩ := busy.dispatch hstep
    rw [hsends, hworks, List.append_nil]
    exact ⟨⟨[], by rwa [List.append_nil]⟩, later⟩
  cases passage with
  | keeps hsends hworks => exact hmoves hsends hworks .keeps
  | hands stage => exact hmoves (sends_of_stage stage rfl) rfl .keeps
  | puts => simp [Action.bypassesCommits] at plain
  | takes queue take =>
    have hfree := (DispatchQueue.exists_of_take take).1
    exact hmoves (by simp [sends_of_working queue, hfree]) rfl .keeps
  | ends queue ending =>
    have hfree := (DispatchQueue.eq_of_end ending).1
    exact hmoves (by simp [sends_of_working queue, hfree]) rfl .keeps
  | drives queue working step =>
    exact hdispatches (by simp [sends_of_working queue, working]) rfl step
  | goes stage step => exact hdispatches (sends_of_dispatching stage) rfl step
  | @acts id step d work =>
    have hworks : s.works (.step (.worker id)) = [(id, step)] := by simp [works, work]
    have hsends : s.sends (.step (.worker id)) = [] := rfl
    rw [hworks, hsends, List.append_nil]
    exact busy.move (.works work)
  | turns hsends hworks move => exact hmoves hsends hworks move
  | shuts => exact hmoves rfl rfl .keeps
  | replaces => simp [Action.bypassesCommits] at plain

/-- In a run the dispatcher is busy with what has been published. -/
theorem Run.busy {s₀ s : System} {h : History} (run : Run s₀ h s) (unused : s₀.Unused)
    (own : h.OnlyCommits) : ∃ made, s₀.dispatcher.Busy made h.sent h.worked s.dispatcher := by
  induction run with
  | nil =>
    rw [unused.dispatcher]
    exact ⟨[], .new _⟩
  | @snoc h s s' a run known perform ih =>
    obtain ⟨hown, plain⟩ := History.onlyCommits_concat.1 own
    obtain ⟨made, busy⟩ := ih hown
    obtain ⟨⟨more, busy'⟩, -⟩ := (System.passage_of_perform perform).busy plain busy
    rw [History.sent_concat, History.worked_concat]
    exact ⟨_, busy'⟩

end EventJournal
