import EventJournal.Proofs.System.Couriers
import EventJournal.Proofs.UnitOfWork.Report

/-!
# How commits are settled

A commit that is not refused is settled once: with the end of its call, or, if the queue has taken
its events, when the queue is done with their dispatch. The worker of the queue dispatches the
batches one after another, so that the results come in the order of the batches.

* `History.handed`, the batches that calls have put into the queue, with the calls;
* `History.settled`, the commits that have been settled, and how;
* `Settlement`, the ways in which a commit can be settled;
* `Run.served`, that results come in the order of the batches.

The main statements are `Run.settlement_of_finished`, for a call that has ended, `Run.settlement`,
at rest, and `Run.commits_of_settled`, that nothing else is settled.
-/

namespace EventJournal

open UnitOfWork (Ending)

/-! ### The queue -/

/-- The batches that a call puts into the queue in a moment, with the call. -/
def Moment.handed (m : Moment) : List (Nat × Batch) :=
  match m.action with
  | .step (.call call) => m.enqueued.map (call, ·)
  | _ => []

namespace History

/-- The batches that calls have put into the queue, in this order, with the calls. -/
def handed (h : History) : List (Nat × Batch) := h.flatMap Moment.handed

/-- The batches that calls have put into the queue, with the calls and the results of their
dispatches. -/
def served (h : History) : List ((Nat × Batch) × Except DispatchError Unit) :=
  h.handed.zip h.delivered

/-- The commits that have been settled, by the number of the call, and how: those that have ended
with their calls, and those that the queue has taken, with the result of the dispatch. -/
def settled (h : History) : List (Nat × Ending) :=
  h.endings ++ h.served.map fun p => (p.1.1, .ofDispatch p.2)

/-- How the commit of a call has been settled. -/
def settledBy (h : History) (call : Nat) : List Ending :=
  (h.settled.filter (·.1 = call)).map Prod.snd

/-- The batches that a call has put into the queue, with the results of their dispatches. -/
def servedBy (h : History) (call : Nat) : List (Batch × Except DispatchError Unit) :=
  (h.served.filter (·.1.1 = call)).map fun p => (p.1.2, p.2)

/-- How the commit of a call has ended with the call. -/
def endedBy (h : History) (call : Nat) : List Ending :=
  (h.stepsOf call).flatMap fun m => m.endings.map Prod.snd

/-- The batches that a call has put into the queue. -/
def handedBy (h : History) (call : Nat) : List Batch :=
  (h.stepsOf call).flatMap fun m => m.handed.map Prod.snd

theorem endedBy_concat (h : History) (m : Moment) (call : Nat) :
    endedBy (h ++ [m]) call =
      h.endedBy call ++ if m.isStepOf call then m.endings.map Prod.snd else [] := by
  rw [endedBy, stepsOf_concat, List.flatMap_append]
  cases m.isStepOf call <;> simp [endedBy]

theorem handedBy_concat (h : History) (m : Moment) (call : Nat) :
    handedBy (h ++ [m]) call =
      h.handedBy call ++ if m.isStepOf call then m.handed.map Prod.snd else [] := by
  rw [handedBy, stepsOf_concat, List.flatMap_append]
  cases m.isStepOf call <;> simp [handedBy]

/-- What calls have done, picked out for one of them. -/
theorem filter_flatMap {β : Type} {f : Moment → List (Nat × β)}
    (own : ∀ m, ∀ p ∈ f m, m.isStepOf p.1 = true) (h : History) (call : Nat) :
    (h.flatMap f).filter (·.1 = call) =
      ((h.stepsOf call).flatMap fun m => (f m).map Prod.snd).map (call, ·) := by
  induction h with
  | nil => rfl
  | cons m rest ih =>
    rw [List.flatMap_cons, List.filter_append, ih, ← List.singleton_append, stepsOf_append,
      List.flatMap_append, List.map_append]
    congr 1
    cases hstep : m.isStepOf call with
    | true =>
      have hcall : ∀ p ∈ f m, p.1 = call := fun p hp => Moment.call_unique (own m p hp) hstep
      have hall : (f m).filter (·.1 = call) = f m :=
        List.filter_eq_self.2 fun p hp => by simpa using hcall p hp
      have hpair : ((f m).map Prod.snd).map (call, ·) = f m := by
        rw [List.map_map]
        refine (List.map_congr_left fun p hp => ?_).trans (List.map_id _)
        rw [Function.comp_apply, ← hcall p hp, id]
      rw [hall]
      simpa [stepsOf, hstep] using hpair.symm
    | false =>
      have hnone : (f m).filter (·.1 = call) = [] := by
        refine List.filter_eq_nil_iff.2 fun p hp heq => ?_
        have hown := own m p hp
        rw [of_decide_eq_true heq, hstep] at hown
        simp at hown
      rw [hnone]
      simp [stepsOf, hstep]

end History

namespace Moment

variable {s s' : System} {a : Action} {call : Nat} {stage stage' : Call.Stage}

theorem endings_of_get? (hget : s.calls.get? call = some stage)
    (hget' : s'.calls.get? call = some stage') :
    endings ⟨s, .step (.call call), s'⟩ = (stage.ends stage').map (call, ·) := by
  simp [endings, passing?, hget, hget']

/-- Calls end their commits in their own steps. -/
theorem isStepOf_of_mem_endings {m : Moment} {p : Nat × Ending} (hp : p ∈ m.endings) :
    m.isStepOf p.1 = true := by
  obtain ⟨s, a, s'⟩ := m
  obtain ⟨⟨call, stage, stage'⟩, hpassing, hends⟩ := List.mem_flatMap.1 hp
  obtain ⟨ending, -, rfl⟩ := List.mem_map.1 hends
  rw [Option.mem_toList] at hpassing
  unfold passing? at hpassing
  split at hpassing
  · next other haction =>
    obtain ⟨before, -, hsome⟩ := Option.bind_eq_some_iff.1 hpassing
    obtain ⟨after, -, heq⟩ := Option.map_eq_some_iff.1 hsome
    obtain ⟨rfl, -⟩ := Prod.mk.inj heq
    obtain rfl : a = _ := haction
    exact isStepOf_self ..
  · simp at hpassing

/-- Calls put batches into the queue in their own steps. -/
theorem isStepOf_of_mem_handed {m : Moment} {p : Nat × Batch} (hp : p ∈ m.handed) :
    m.isStepOf p.1 = true := by
  obtain ⟨s, a, s'⟩ := m
  unfold handed at hp
  split at hp
  · next call haction =>
    obtain ⟨batch, -, rfl⟩ := List.mem_map.1 hp
    obtain rfl : a = _ := haction
    exact isStepOf_self ..
  · simp at hp

theorem get?_of_passing? {m : Moment} (h : m.passing? = some (call, stage, stage')) :
    m.before.calls.get? call = some stage := by
  unfold passing? at h
  split at h
  · obtain ⟨before, hbefore, hsome⟩ := Option.bind_eq_some_iff.1 h
    obtain ⟨after, -, heq⟩ := Option.map_eq_some_iff.1 hsome
    obtain ⟨rfl, rfl, -⟩ := heq
    exact hbefore
  · simp at h

theorem delivered_of_other {m : Moment} (other : m.action ≠ .step .queue) : m.delivered = [] := by
  unfold delivered
  split
  · next haction => exact (other haction).elim
  · rfl

end Moment

namespace System

variable {s s' : System} {a : Action} {call unit : Nat} {u : UnitOfWork}
  {envelopes : List Envelope}

/-- The batches that wait after a plain action. -/
theorem queueing_of_plain (h : s.perform? a = some s') (plain : a.isPlain = true) :
    s.Queueing a s' := by
  cases hbypasses : a.bypassesCommits with
  | false => exact queueing_of_perform h hbypasses
  | true =>
    obtain ⟨-, -, outlets⟩ := outlets_of_bypasses h plain hbypasses
    have hqueue : s'.queue = s.queue := congrArg Prod.snd outlets
    exact .rests (by rw [waiting, waiting, hqueue])

/-- A step of a call puts nothing into the queue, unless it hands over what it has saved. -/
theorem enqueued_of_stage {stage : Call.Stage} (h : s.stepCall? call = some s')
    (hget : s.calls.get? call = some stage)
    (other : ∀ unit envelopes, stage ≠ .saved unit envelopes) :
    Moment.enqueued ⟨s, .step (.call call), s'⟩ = [] := by
  have hqueueing : s.Queueing (.step (.call call)) s' := queueing_of_perform h rfl
  rcases hqueueing.enqueued with hnone | ⟨acting, unit, envelopes, id, action, hsaved, -⟩
  · exact hnone
  · obtain rfl : call = acting := by simpa using action
    exact (other unit envelopes (Option.some.inj (hget.symm.trans hsaved))).elim

/-- What becomes of the events of a commit when they are handed over. -/
inductive HandsOver (s : System) (call unit : Nat) (u : UnitOfWork) (envelopes : List Envelope)
    (s' : System) : Prop
  | dispatches (telling : u.telling envelopes = .dispatched envelopes)
      (enqueued : Moment.enqueued ⟨s, .step (.call call), s'⟩ = [])
      (get : s'.calls.get? call =
        some (.dispatching (some (unit, envelopes)) (.starting envelopes)))
  | accepted (telling : u.telling envelopes = .enqueued u.id envelopes)
      (enqueued : Moment.enqueued ⟨s, .step (.call call), s'⟩ = [⟨u.id, envelopes⟩])
      (get : s'.calls.get? call = some (.finished (.ok (.saved envelopes))))
  | refused (telling : u.telling envelopes = .enqueued u.id envelopes)
      (enqueued : Moment.enqueued ⟨s, .step (.call call), s'⟩ = [])
      (get : s'.calls.get? call =
        some (.finished (commitOutcome envelopes (.error .closed))))

theorem handsOver_of_saved (h : s.stepCall? call = some s')
    (hget : s.calls.get? call = some (.saved unit envelopes))
    (hu : s.units.get? unit = some u) : s.HandsOver call unit u envelopes s' := by
  simp only [stepCall?, hget, Option.some.injEq] at h
  subst h
  cases hmode : u.mode with
  | synchronous =>
    have htelling : u.telling envelopes = .dispatched envelopes := by
      simp [UnitOfWork.telling, hmode]
    rw [handOver_synchronous hu hmode]
    exact .dispatches htelling (Moment.of_same rfl).1 (get?_putCall ..)
  | detached =>
    have htelling : u.telling envelopes = .enqueued u.id envelopes := by
      simp [UnitOfWork.telling, hmode]
    have houtlets : (s.handOver call unit envelopes).queue = _ :=
      congrArg Prod.snd (outlets_handOver_detached hu hmode)
    cases hput : s.queue.bind (·.enqueue? ⟨u.id, envelopes⟩) with
    | none =>
      have hqueue : (s.handOver call unit envelopes).queue = s.queue := by
        rw [hput] at houtlets
        exact houtlets
      refine .refused htelling (Moment.of_same ?_).1 ?_
      · exact congrArg (fun queue => (queue.map DispatchQueue.waiting).getD []) hqueue
      · simp only [handOver, hu, hmode, hput]
        exact get?_putCall ..
    | some q' =>
      obtain ⟨q, hq, henqueue⟩ := Option.bind_eq_some_iff.1 hput
      have hqueue : (s.handOver call unit envelopes).queue = some q' := by
        rw [hput] at houtlets
        exact houtlets
      obtain rfl := DispatchQueue.eq_of_enqueue henqueue
      refine .accepted htelling (Moment.of_append ?_).1 ?_
      · rw [waiting_of_queue hqueue, waiting_of_queue hq]
      · simp only [handOver, hu, hmode, hput]
        exact get?_putCall ..

/-- In one step, the batches that wait and those that come are taken or go on waiting, and the
dispatches under way and those that begin have results or are still under way. -/
theorem handed_of_step (h : s.perform? a = some s') (plain : a.isPlain = true) :
    s.waiting ++ (Moment.handed ⟨s, a, s'⟩).map Prod.snd =
        Moment.taken ⟨s, a, s'⟩ ++ s'.waiting ∧
      (s.dispatching? .queue).toList.length + (Moment.taken ⟨s, a, s'⟩).length =
        (Moment.delivered ⟨s, a, s'⟩).length + (s'.dispatching? .queue).toList.length := by
  by_cases hqueue : a = .step .queue
  · subst hqueue
    have hresults : Moment.delivered ⟨s, .step .queue, s'⟩ =
        Moment.results ⟨s, .step .queue, s'⟩ := rfl
    rw [hresults]
    cases queueStep_of_stepQueue? h with
    | takes free waiting starts =>
      obtain ⟨-, htaken⟩ := Moment.of_cons (m := ⟨s, .step .queue, s'⟩) waiting
      obtain ⟨-, -, hresults, -⟩ := Moment.nothing_of_free s' free
      rw [htaken, hresults, waiting, free, starts]
      exact ⟨List.append_nil _, rfl⟩
    | ends free waiting ends =>
      obtain ⟨-, htaken⟩ := Moment.of_same (m := ⟨s, .step .queue, s'⟩) waiting
      obtain ⟨-, -, hresults, -⟩ := Moment.nothing_of_free s' free
      rw [htaken, hresults, waiting, free, ends]
      exact ⟨List.append_nil _, rfl⟩
    | @goes dispatch advance before waiting step after =>
      obtain ⟨-, htaken⟩ := Moment.of_same (m := ⟨s, .step .queue, s'⟩) waiting
      obtain ⟨-, -, hresults, -⟩ := Moment.telling_of_step s' before step
      rw [htaken, hresults, waiting, before, after]
      refine ⟨List.append_nil _, ?_⟩
      -- a dispatch that goes on has no result yet
      cases advance.next <;> rfl
  · rw [Moment.delivered_of_other (m := ⟨s, a, s'⟩) hqueue,
      dispatching?_queue_of_other h plain hqueue]
    cases queueing_of_plain h plain with
    | rests waiting =>
      obtain ⟨henqueued, htaken⟩ := Moment.of_same (m := ⟨s, a, s'⟩) waiting
      have hnone : Moment.handed ⟨s, a, s'⟩ = [] := by
        unfold Moment.handed
        rw [henqueued]
        split <;> rfl
      rw [hnone, htaken, waiting]
      exact ⟨List.append_nil _, Nat.add_comm ..⟩
    | gets action stage get waiting =>
      obtain ⟨henqueued, htaken⟩ := Moment.of_append (m := ⟨s, a, s'⟩) waiting
      subst action
      rw [Moment.handed, henqueued, htaken, waiting]
      exact ⟨rfl, Nat.add_comm ..⟩
    | gives action => exact (hqueue action).elim

end System

namespace Run

variable {s₀ s : System} {h : History}

/-- The worker of the queue dispatches what calls have put there, in the same order and one batch
after another. -/
theorem handed_of_plain (run : Run s₀ h s) (fresh : s₀.Fresh) (unused : s₀.Unused)
    (plain : h.Plain) :
    h.handed.map Prod.snd = h.dispatched ++ s.waiting ∧
      h.dispatched.length = h.delivered.length + (s.dispatching? .queue).toList.length := by
  induction run with
  | nil =>
    have hnone : s₀.waiting = [] := by
      cases hqueue : s₀.queue with
      | none => simp [System.waiting, hqueue]
      | some q => simp [System.waiting, hqueue, unused.queue q hqueue]
    rw [hnone, System.dispatching?_of_unused fresh unused]
    exact ⟨rfl, rfl⟩
  | @snoc h s s' a run known perform ih =>
    obtain ⟨hplain, still⟩ := History.plain_concat.1 plain
    obtain ⟨hhanded, hlength⟩ := ih hplain
    obtain ⟨hwaiting, hserved⟩ := System.handed_of_step perform still
    have hconcat : History.handed (h ++ [⟨s, a, s'⟩]) = h.handed ++ Moment.handed ⟨s, a, s'⟩ := by
      simp [History.handed]
    have hdelivered : History.delivered (h ++ [⟨s, a, s'⟩]) =
        h.delivered ++ Moment.delivered ⟨s, a, s'⟩ := by
      simp [History.delivered]
    rw [hconcat, hdelivered, History.dispatched_concat]
    constructor
    · rw [List.map_append, hhanded, List.append_assoc, hwaiting, List.append_assoc]
    · rw [List.length_append, List.length_append, hlength]
      omega

end Run

/-! ### Commits -/

/-- How a commit can be settled: its successful saves, what it has handed over, how it has been
settled, what the queue has taken from it with the result of the dispatch, and its outcome. -/
inductive Settlement : List (List Envelope) → List Telling → List Ending →
    List (Batch × Except DispatchError Unit) → Call.Outcome → Prop
  /-- It was refused, and is not settled. -/
  | refused : Settlement [] [] [] [] (.error (.commit .alreadyCommitted))
  /-- There was nothing to save. -/
  | empty : Settlement [] [] [.empty] [] (.ok (.saved []))
  /-- The save has failed. -/
  | storeFailed (e : StoreError) :
      Settlement [] [] [.storeFailed] [] (.error (.commit (.store e)))
  /-- It has dispatched its events itself, with this result. -/
  | dispatched {envelopes : List Envelope} (nonempty : envelopes ≠ [])
      (result : Except DispatchError Unit) :
      Settlement [envelopes] [.dispatched envelopes] [.ofDispatch result] []
        (System.commitOutcome envelopes result)
  /-- The queue has refused its events. -/
  | turnedAway {envelopes : List Envelope} (nonempty : envelopes ≠ []) (id : Uuid) :
      Settlement [envelopes] [.enqueued id envelopes] [.dispatchFailed] []
        (System.commitOutcome envelopes (.error .closed))
  /-- The queue has taken its events and dispatched them, with this result. -/
  | delivered {envelopes : List Envelope} (nonempty : envelopes ≠ []) (id : Uuid)
      (result : Except DispatchError Unit) :
      Settlement [envelopes] [.enqueued id envelopes] [.ofDispatch result]
        [(⟨id, envelopes⟩, result)] (.ok (.saved envelopes))

/-- A commit that has not been refused is settled once. -/
theorem Settlement.once {saved : List (List Envelope)} {told : List Telling} {ended : List Ending}
    {served : List (Batch × Except DispatchError Unit)} {outcome : Call.Outcome}
    (h : Settlement saved told ended served outcome) :
    outcome = .error (.commit .alreadyCommitted) ∧ ended = [] ∨
      outcome ≠ .error (.commit .alreadyCommitted) ∧ ∃ ending, ended = [ending] := by
  cases h with
  | refused => exact .inl ⟨rfl, rfl⟩
  | dispatched _ result => exact .inr ⟨by cases result <;> simp [System.commitOutcome], _, rfl⟩
  | _ => exact .inr ⟨by simp [System.commitOutcome], _, rfl⟩

theorem Settlement.length_served_le {saved : List (List Envelope)} {told : List Telling}
    {ended : List Ending} {served : List (Batch × Except DispatchError Unit)}
    {outcome : Call.Outcome} (h : Settlement saved told ended served outcome) :
    served.length ≤ 1 := by
  cases h <;> simp

/-- How a commit that ends with handing over is settled, whatever comes of the batch that the queue
may have taken. -/
theorem System.HandsOver.settlement {s s' : System} {call unit : Nat} {u : UnitOfWork}
    {envelopes : List Envelope} {outcome : Call.Outcome}
    (handsOver : s.HandsOver call unit u envelopes s') (nonempty : envelopes ≠ [])
    (hget' : s'.calls.get? call = some (.finished outcome)) (result : Except DispatchError Unit) :
    Settlement [envelopes] [u.telling envelopes]
      (Call.Stage.ends (.saved unit envelopes) (.finished outcome) ++
        (Moment.enqueued ⟨s, .step (.call call), s'⟩).map fun _ => .ofDispatch result)
      ((Moment.enqueued ⟨s, .step (.call call), s'⟩).map (·, result)) outcome := by
  cases handsOver with
  | dispatches _ _ hdispatching => simp [hget'] at hdispatching
  | accepted telling enqueued hfinished =>
    rw [hget', Option.some.injEq, Call.Stage.finished.injEq] at hfinished
    rw [hfinished, telling, enqueued]
    exact .delivered nonempty u.id result
  | refused telling enqueued hfinished =>
    rw [hget', Option.some.injEq, Call.Stage.finished.injEq] at hfinished
    rw [hfinished, telling, enqueued]
    exact .turnedAway nonempty u.id

/-- Whoever ends a commit stands with a unit of work. -/
theorem Call.Stage.role?_of_mem_ends {stage stage' : Call.Stage} {ending : Ending}
    (h : ending ∈ stage.ends stage') : ∃ unit role, stage.role? = some (unit, role) := by
  unfold ends at h
  split at h <;> first | exact ⟨_, _, rfl⟩ | simp at h

/-- The save of a commit has failed if the commit ends so once it has begun. -/
theorem Call.Stage.ends_of_failed {stage : Call.Stage} {unit : Nat} {role : Role} (e : StoreError)
    (hrole : stage.role? = some (unit, role)) (plain : stage.isHanding = false)
    (admitted : stage ≠ .queued unit) (begun : stage ≠ .entered unit) :
    stage.ends (.finished (.error (.commit (.store e)))) = [.storeFailed] := by
  cases stage with
  | queued other => exact (admitted (congrArg _ (Prod.mk.inj (Option.some.inj hrole)).1)).elim
  | entered other => exact (begun (congrArg _ (Prod.mk.inj (Option.some.inj hrole)).1)).elim
  | held purpose | saving purpose =>
    cases purpose with
    | itself => simp [role?] at hrole
    | commit => rfl
  | saved | dispatching => simp [isHanding] at plain
  | _ => simp [role?] at hrole

theorem Call.Stage.ends_of_going {stage stage' : Call.Stage} (going : stage'.outcome? = none) :
    stage.ends stage' = [] := by
  unfold ends
  split <;> first | rfl | simp [outcome?] at going

namespace Ledger.CallStep

variable {l l' : Ledger} {call unit : Nat} {stage : Call.Stage}

/-- A commit that waits at the gate does not end. -/
theorem going_of_queued {outcome : Call.Outcome} (h : l.CallStep call (.queued unit) l') :
    l'.calls.get? call ≠ some (.finished outcome) := by
  intro hget'
  cases h with
  | entered => exact (nomatch eq_of_set rfl hget')

/-- Whoever stands with a unit of work has stood with it before, or has just come to it. -/
theorem came {stage' : Call.Stage} {role : Role} (h : l.CallStep call stage l')
    (hget' : l'.calls.get? call = some stage') (hrole : stage'.role? = some (unit, role)) :
    stage' = .queued unit ∨ ∃ role, stage.role? = some (unit, role) := by
  have hstage : ∀ {next : Call.Stage}, l'.calls = l.calls.set call next →
      next.role? = some (unit, role) :=
    fun hcalls => eq_of_set hcalls hget' ▸ hrole
  have hnone : ∀ {next : Call.Stage}, l'.calls = l.calls.set call next → next.role? = none →
      stage' = .queued unit ∨ ∃ role, stage.role? = some (unit, role) := by
    intro next hcalls hnext
    simp [hstage hcalls] at hnext
  cases h with
  | decided =>
    obtain ⟨rfl, -⟩ := Prod.mk.inj (Option.some.inj (hstage rfl))
    exact .inl (eq_of_set rfl hget').symm
  | entered | fixed | dispatches =>
    obtain ⟨rfl, -⟩ := Prod.mk.inj (Option.some.inj (hstage rfl))
    exact .inr ⟨_, rfl⟩
  | unprepared _ _ failed => cases failed <;> exact hnone rfl rfl
  | failed _ failed => cases failed <;> exact hnone rfl rfl
  | @prepared purpose =>
    cases purpose with
    | itself => exact hnone rfl rfl
    | commit other =>
      obtain ⟨rfl, -⟩ := Prod.mk.inj (Option.some.inj (hstage rfl))
      exact .inr ⟨_, rfl⟩
  | @asked purpose =>
    cases purpose with
    | itself => exact hnone rfl rfl
    | commit other =>
      obtain ⟨rfl, -⟩ := Prod.mk.inj (Option.some.inj (hstage rfl))
      exact .inr ⟨_, rfl⟩
  | stored _ completed =>
    cases completed with
    | itself => exact hnone rfl rfl
    | commit =>
      obtain ⟨rfl, -⟩ := Prod.mk.inj (Option.some.inj (hstage rfl))
      exact .inr ⟨_, rfl⟩
  | @tells commit =>
    cases commit with
    | none => exact hnone rfl rfl
    | some pair =>
      obtain ⟨rfl, -⟩ := Prod.mk.inj (Option.some.inj (hstage rfl))
      exact .inr ⟨_, rfl⟩
  | _ => exact hnone rfl rfl

/-- A commit that dispatches events has been about to hand them over, in a unit of work that is not
detached, or has dispatched them before. -/
theorem of_dispatching {envelopes : List Envelope} {dispatch : Dispatching}
    (h : l.CallStep call stage l')
    (hget' : l'.calls.get? call = some (.dispatching (some (unit, envelopes)) dispatch)) :
    (∃ u, l.units.get? unit = some u ∧ u.mode = .synchronous ∧ stage = .saved unit envelopes) ∨
      ∃ before, stage = .dispatching (some (unit, envelopes)) before := by
  have hstage : ∀ {next : Call.Stage}, l'.calls = l.calls.set call next →
      next = .dispatching (some (unit, envelopes)) dispatch :=
    fun hcalls => eq_of_set hcalls hget'
  cases h with
  | unprepared _ _ failed => cases failed <;> exact (nomatch hstage rfl)
  | failed _ failed => cases failed <;> exact (nomatch hstage rfl)
  | stored step completed => cases completed <;> exact (nomatch hstage rfl)
  | dispatches get mode =>
    cases hstage rfl
    exact .inl ⟨_, get, mode, rfl⟩
  | tells next =>
    cases hstage rfl
    exact .inr ⟨_, rfl⟩
  | _ => exact (nomatch hstage rfl)

end Ledger.CallStep

theorem History.commits_concat {h : History} {m : Moment} {call unit : Nat} :
    Commits (h ++ [m]) call unit ↔
      h.Commits call unit ∨ m.after.calls.get? call = some (.queued unit) := by
  simp only [Commits, List.mem_append, List.mem_singleton, or_and_right, exists_or, exists_eq_left]

namespace Run

variable {s₀ s : System} {h : History} {call unit : Nat}

theorem handedBy_step (h : History) (s s' : System) (call : Nat) :
    History.handedBy (h ++ [⟨s, .step (.call call), s'⟩]) call =
      h.handedBy call ++ Moment.enqueued ⟨s, .step (.call call), s'⟩ := by
  rw [History.handedBy_concat, Moment.isStepOf_self, if_pos rfl, Moment.handed, List.map_map]
  exact congrArg (_ ++ ·) (List.map_id _)

theorem endedBy_step (h : History) {s s' : System} {stage stage' : Call.Stage}
    (hget : s.calls.get? call = some stage) (hget' : s'.calls.get? call = some stage') :
    History.endedBy (h ++ [⟨s, .step (.call call), s'⟩]) call =
      h.endedBy call ++ stage.ends stage' := by
  rw [History.endedBy_concat, Moment.isStepOf_self, if_pos rfl, Moment.endings_of_get? hget hget',
    List.map_map]
  exact congrArg (_ ++ ·) (List.map_id _)

theorem by_of_other {m : Moment} (hstep : m.isStepOf call = false) :
    History.endedBy (h ++ [m]) call = h.endedBy call ∧
      History.handedBy (h ++ [m]) call = h.handedBy call := by
  rw [History.endedBy_concat, History.handedBy_concat, hstep]
  simp

/-- What a call that is still going has come to: nothing. -/
theorem unsettled (run : Run s₀ h s) (fresh : s₀.Fresh) {stage : Call.Stage}
    (hget : s.calls.get? call = some stage) (going : stage.outcome? = none) :
    h.endedBy call = [] ∧ h.handedBy call = [] := by
  refine run.stage_induction (P := fun h _ call stage => stage.outcome? = none →
    h.endedBy call = [] ∧ h.handedBy call = []) fresh ?_ ?_ ?_ hget going
  · intro h s s' a stage _ _ _ _ _ hnone _
    rw [History.endedBy, History.handedBy, hnone]
    exact ⟨rfl, rfl⟩
  · intro h s s' call stage stage' run perform hget callStep hget' ih going
    have hbefore : stage.outcome? = none := by
      cases stage with
      | finished => exact (Ledger.CallStep.not_finished callStep).elim
      | _ => rfl
    obtain ⟨hended, hhanded⟩ := ih hbefore
    have henqueued : Moment.enqueued ⟨s, .step (.call call), s'⟩ = [] := by
      by_cases hsaved : ∃ unit envelopes, stage = .saved unit envelopes
      · obtain ⟨unit, envelopes, rfl⟩ := hsaved
        obtain ⟨u, hu⟩ := (run.tidy fresh).1.unit_of_role (Ledger.roles_of_role? hget rfl)
        cases System.handsOver_of_saved perform hget hu with
        | dispatches _ enqueued => exact enqueued
        | refused _ enqueued => exact enqueued
        | accepted _ _ hfinished =>
          obtain rfl := Option.some.inj (hget'.symm.trans hfinished)
          simp [Call.Stage.outcome?] at going
      · exact System.enqueued_of_stage perform hget fun unit envelopes heq =>
          hsaved ⟨unit, envelopes, heq⟩
    rw [endedBy_step h hget hget', handedBy_step, hended, hhanded, henqueued,
      Call.Stage.ends_of_going going]
    exact ⟨rfl, rfl⟩
  · intro h s s' a call stage _ _ _ hstep _ _ ih going
    obtain ⟨hended, hhanded⟩ := by_of_other (h := h) hstep
    rw [hended, hhanded]
    exact ih going

/-- A commit that dispatches events itself has handed them over to this dispatch. -/
theorem told_of_dispatching (run : Run s₀ h s) (fresh : s₀.Fresh) {envelopes : List Envelope}
    {dispatch : Dispatching}
    (hget : s.calls.get? call = some (.dispatching (some (unit, envelopes)) dispatch)) :
    h.toldBy call = [.dispatched envelopes] := by
  refine run.stage_induction (P := fun h _ call stage => ∀ dispatch,
    stage = .dispatching (some (unit, envelopes)) dispatch →
      h.toldBy call = [.dispatched envelopes]) fresh ?_ ?_ ?_ hget dispatch rfl
  · rintro h s s' a stage - - - begins - - dispatch rfl
    rcases begins with starts | ⟨unit, -, heq⟩
    · cases starts
    · simp at heq
  · rintro h s s' call stage stage' run - hget callStep hget' ih dispatch rfl
    rw [History.toldBy_step h s' hget]
    rcases callStep.of_dispatching hget' with ⟨u, hu, mode, rfl⟩ | ⟨before, rfl⟩
    · obtain ⟨-, hnone⟩ := run.told fresh hget
      rw [hnone, Ledger.tells_saved hu]
      simp [UnitOfWork.telling, mode]
    · rw [ih before rfl]
      rfl
  · rintro h s s' a call stage - - - hstep - - ih dispatch rfl
    rw [History.toldBy_of_other h hstep]
    exact ih dispatch rfl

/-- A commit that is not about to hand anything over has saved and told nothing, and puts nothing
into the queue. -/
theorem nothing_of_plain {s' : System} (run : Run s₀ h s) (fresh : s₀.Fresh) {stage : Call.Stage}
    {role : Role} (perform : s.stepCall? call = some s') (hget : s.calls.get? call = some stage)
    (hrole : stage.role? = some (unit, role)) (plain : stage.isHanding = false) :
    h.savedBy call = [] ∧ h.toldBy call ++ s.ledger.tells stage = [] ∧
      Moment.enqueued ⟨s, .step (.call call), s'⟩ = [] := by
  obtain ⟨hsaved, htold, -⟩ := run.told_of_plain fresh perform hget hrole plain
  rw [History.toldBy_step h s' hget] at htold
  refine ⟨hsaved, htold, System.enqueued_of_stage perform hget ?_⟩
  rintro unit envelopes rfl
  simp [Call.Stage.isHanding] at plain

/-- How a commit that ends with a step is settled, whatever comes of the batch that the queue may
have taken. -/
theorem settlement_of_step {s' : System} (run : Run s₀ h s) (fresh : s₀.Fresh)
    {stage : Call.Stage} {role : Role} {outcome : Call.Outcome}
    (perform : s.stepCall? call = some s')
    (hget : s.calls.get? call = some stage) (callStep : s.ledger.CallStep call stage s'.ledger)
    (hrole : stage.role? = some (unit, role))
    (hget' : s'.calls.get? call = some (.finished outcome)) (result : Except DispatchError Unit) :
    Settlement (h.savedBy call ++ stage.saves (.finished outcome))
      (h.toldBy call ++ s.ledger.tells stage)
      (stage.ends (.finished outcome) ++
        (Moment.enqueued ⟨s, .step (.call call), s'⟩).map fun _ => .ofDispatch result)
      ((Moment.enqueued ⟨s, .step (.call call), s'⟩).map (·, result)) outcome := by
  have tidy := (run.tidy fresh).1
  obtain ⟨v, u, hv, -, hend⟩ := callStep.commitEnd tidy hget hrole hget'
  have htold := run.told fresh hget
  have hplain := run.nothing_of_plain fresh perform hget hrole
  cases hend with
  | refused entered =>
    subst entered
    obtain ⟨hsaved, hnone, henqueued⟩ := hplain rfl
    rw [hsaved, hnone, henqueued]
    exact .refused
  | empty entered =>
    subst entered
    obtain ⟨hsaved, hnone, henqueued⟩ := hplain rfl
    rw [hsaved, hnone, henqueued]
    exact .empty
  | failed plain e committing =>
    obtain ⟨hsaved, hnone, henqueued⟩ := hplain plain
    have hadmitted : stage ≠ .queued unit := by
      rintro rfl
      exact callStep.going_of_queued hget'
    have hbegun : stage ≠ .entered unit := by
      -- a commit that has not begun does not find its own save under way
      rintro rfl
      obtain ⟨-, rfl⟩ := Prod.mk.inj (Option.some.inj hrole)
      have hfits := ((tidy.sound hv).locked (Ledger.roles_of_role? hget rfl) rfl).2.2.2
      exact hfits committing
    rw [hsaved, hnone, henqueued, Call.Stage.saves_error,
      Call.Stage.ends_of_failed e hrole plain hadmitted hbegun]
    exact .storeFailed e
  | @told envelopes told handing nonempty =>
    rcases handing with rfl | ⟨dispatch, rfl⟩
    · obtain ⟨hsaved, hnone⟩ := htold
      rw [hsaved, hnone, Ledger.tells_saved hv]
      exact (System.handsOver_of_saved perform hget hv).settlement nonempty hget' result
    · obtain ⟨hsaved, -⟩ := htold
      have henqueued := System.enqueued_of_stage perform hget (by simp)
      rw [hsaved, run.told_of_dispatching fresh hget, henqueued]
      cases told with
      | ok _ => exact .dispatched nonempty (.ok ())
      | error e => exact .dispatched nonempty (.error e)

/-- How a commit that has ended is settled, whatever comes of the batch that the queue may have
taken. -/
theorem settlement_of_finished (run : Run s₀ h s) (fresh : s₀.Fresh) {outcome : Call.Outcome}
    (commits : h.Commits call unit) (hget : s.calls.get? call = some (.finished outcome))
    (result : Except DispatchError Unit) :
    Settlement (h.savedBy call) (h.toldBy call)
      (h.endedBy call ++ (h.handedBy call).map fun _ => .ofDispatch result)
      ((h.handedBy call).map (·, result)) outcome := by
  refine run.stage_induction (P := fun h _ call stage => ∀ outcome, stage = .finished outcome →
    h.Commits call unit → Settlement (h.savedBy call) (h.toldBy call)
      (h.endedBy call ++ (h.handedBy call).map fun _ => .ofDispatch result)
      ((h.handedBy call).map (·, result)) outcome) fresh ?_ ?_ ?_ hget outcome rfl commits
  · rintro h s s' a stage run - - - hget' - outcome rfl commits
    rcases History.commits_concat.1 commits with commits | hqueued
    · have hle := run.commits_le fresh commits
      omega
    · exact (nomatch hget'.symm.trans hqueued)
  · rintro h s s' call stage stage' run perform hget callStep hget' - outcome rfl commits
    rcases History.commits_concat.1 commits with commits | hqueued
    · rcases run.stands fresh hget commits with ⟨role, hrole⟩ | ⟨_, rfl⟩
      · have going : stage.outcome? = none := by
          cases stage with
          | finished => simp [Call.Stage.role?] at hrole
          | _ => rfl
        obtain ⟨hended, hhanded⟩ := run.unsettled fresh hget going
        rw [endedBy_step h hget hget', handedBy_step, hended, hhanded,
          History.savedBy_step h hget hget', History.toldBy_step h s' hget]
        exact run.settlement_of_step fresh perform hget callStep hrole hget' result
      · exact callStep.not_finished.elim
    · exact (nomatch hget'.symm.trans hqueued)
  · rintro h s s' a call stage - - - hstep - hget' ih outcome rfl commits
    obtain ⟨hended, hhanded⟩ := by_of_other (h := h) hstep
    rw [hended, hhanded, History.savedBy_of_other h hstep, History.toldBy_of_other h hstep]
    rcases History.commits_concat.1 commits with commits | hqueued
    · exact ih outcome rfl commits
    · exact (nomatch hget'.symm.trans hqueued)

/-- Whoever stands with a unit of work has come to it. -/
theorem commits_of_role (run : Run s₀ h s) (fresh : s₀.Fresh) {stage : Call.Stage} {role : Role}
    (hget : s.calls.get? call = some stage) (hrole : stage.role? = some (unit, role)) :
    h.Commits call unit := by
  refine run.stage_induction (P := fun h _ call stage => ∀ role,
    stage.role? = some (unit, role) → h.Commits call unit) fresh ?_ ?_ ?_ hget role hrole
  · rintro h s s' a stage - - - begins hget' - role hrole
    rcases begins with starts | ⟨_, -, rfl⟩
    · simp [Ledger.role?_of_starts starts] at hrole
    · obtain ⟨rfl, -⟩ := Prod.mk.inj (Option.some.inj hrole)
      exact History.commits_concat.2 (.inr hget')
  · rintro h s s' call stage stage' - - hget callStep hget' ih role hrole
    rcases callStep.came hget' hrole with rfl | ⟨role', hrole'⟩
    · exact History.commits_concat.2 (.inr hget')
    · exact History.commits_concat.2 (.inl (ih role' hrole'))
  · rintro h s s' a call stage - - - - - - ih role hrole
    exact History.commits_concat.2 (.inl (ih role hrole))

/-- At rest, calls have put the batches into the queue that its worker has dispatched, in the same
order, and each dispatch has had a result. -/
theorem handed_of_rest (run : Run s₀ h s) (fresh : s₀.Fresh) (unused : s₀.Unused) (plain : h.Plain)
    (rest : s.AtRest) :
    h.handed.map Prod.snd = h.dispatched ∧ h.delivered.length = h.handed.length := by
  obtain ⟨hhanded, hlength⟩ := run.handed_of_plain fresh unused plain
  rw [rest.waiting, List.append_nil] at hhanded
  rw [rest.free, Option.toList_none, List.length_nil, Nat.add_zero] at hlength
  refine ⟨hhanded, ?_⟩
  rw [← hlength, ← hhanded, List.length_map]

/-- At rest, all batches of a call have been served. -/
theorem fst_servedBy (run : Run s₀ h s) (fresh : s₀.Fresh) (unused : s₀.Unused) (plain : h.Plain)
    (rest : s.AtRest) (call : Nat) : (h.servedBy call).map Prod.fst = h.handedBy call := by
  have hlength := (run.handed_of_rest fresh unused plain rest).2
  have hzip : h.served.map Prod.fst = h.handed := List.map_fst_zip (Nat.le_of_eq hlength.symm)
  have hfilter : (h.served.filter (·.1.1 = call)).map Prod.fst =
      h.handed.filter (·.1 = call) := by
    rw [← hzip, List.filter_map]
    rfl
  have hown := History.filter_flatMap (fun m p hp => Moment.isStepOf_of_mem_handed hp) h call
  have hsnd : (h.servedBy call).map Prod.fst =
      ((h.served.filter (·.1.1 = call)).map Prod.fst).map Prod.snd := by
    rw [History.servedBy, List.map_map, List.map_map]
    rfl
  rw [hsnd, hfilter, History.handed, hown, List.map_map]
  exact List.map_id _

/-- A commit is settled with its call, or by what comes of its batch. -/
theorem settledBy_eq (h : History) (call : Nat) :
    h.settledBy call = h.endedBy call ++ (h.servedBy call).map fun p => .ofDispatch p.2 := by
  have hown := History.filter_flatMap (fun m p hp => Moment.isStepOf_of_mem_endings hp) h call
  rw [History.settledBy, History.settled, List.filter_append, List.map_append, History.endings,
    hown, List.map_map, List.filter_map, List.map_map, History.servedBy, List.map_map]
  exact congrArg (· ++ _) (List.map_id _)

/-- At rest, every commit that has ended is settled in one of these ways. -/
theorem settlement (run : Run s₀ h s) (fresh : s₀.Fresh) (unused : s₀.Unused) (plain : h.Plain)
    (rest : s.AtRest) {outcome : Call.Outcome} (commits : h.Commits call unit)
    (hget : s.calls.get? call = some (.finished outcome)) :
    Settlement (h.savedBy call) (h.toldBy call) (h.settledBy call) (h.servedBy call) outcome := by
  have hsettlement := run.settlement_of_finished fresh commits hget
  have hfst := run.fst_servedBy fresh unused plain rest call
  rw [settledBy_eq]
  have hlength := (hsettlement (.ok ())).length_served_le
  rw [List.length_map, ← hfst, List.length_map] at hlength
  rw [← hfst] at hsettlement
  match hserved : h.servedBy call with
  | [] =>
    rw [hserved] at hsettlement
    exact hsettlement (.ok ())
  | [(batch, result)] =>
    rw [hserved] at hsettlement
    exact hsettlement result
  | _ :: _ :: _ => simp [hserved] at hlength

/-- Nothing is settled but commits. -/
theorem commits_of_settled (run : Run s₀ h s) (fresh : s₀.Fresh) {p : Nat × Ending}
    (hp : p ∈ h.settled) : ∃ unit, h.Commits p.1 unit := by
  have hrole : ∀ {m : Moment} {call : Nat} {stage : Call.Stage}, m ∈ h →
      m.before.calls.get? call = some stage →
      (∃ unit role, stage.role? = some (unit, role)) → ∃ unit, h.Commits call unit := by
    rintro m call stage hm hget ⟨unit, role, hrole⟩
    obtain ⟨h₁, h₂, rfl, before, -⟩ := run.split hm
    obtain ⟨m', hm', hqueued⟩ := before.commits_of_role fresh hget hrole
    exact ⟨unit, m', List.mem_append_left _ hm', hqueued⟩
  rcases List.mem_append.1 hp with hended | hserved
  · obtain ⟨m, hm, hends⟩ := List.mem_flatMap.1 hended
    obtain ⟨⟨call, stage, stage'⟩, hpassing, hmem⟩ := List.mem_flatMap.1 hends
    obtain ⟨ending, hending, rfl⟩ := List.mem_map.1 hmem
    exact hrole hm (Moment.get?_of_passing? (Option.mem_toList.1 hpassing))
      (Call.Stage.role?_of_mem_ends hending)
  · obtain ⟨⟨⟨call, batch⟩, result⟩, hmem, rfl⟩ := List.mem_map.1 hserved
    obtain ⟨m, hm, hhanded⟩ := List.mem_flatMap.1 (List.of_mem_zip hmem).1
    obtain ⟨-, -, -, -, -, perform⟩ := run.split hm
    obtain ⟨s, a, s'⟩ := m
    have haction := Moment.action_of_isStepOf (Moment.isStepOf_of_mem_handed hhanded)
    obtain rfl : a = _ := haction
    have henqueued : batch ∈ Moment.enqueued ⟨s, .step (.call call), s'⟩ := by
      obtain ⟨other, hother, heq⟩ := List.mem_map.1 hhanded
      obtain ⟨-, rfl⟩ := Prod.mk.inj heq
      exact hother
    have hqueueing : s.Queueing (.step (.call call)) s' := System.queueing_of_perform perform rfl
    rcases hqueueing.enqueued with hnone | ⟨acting, unit, envelopes, id, action, hsaved, -⟩
    · simp [hnone] at henqueued
    · obtain rfl : call = acting := by simpa using action
      exact hrole hm hsaved ⟨_, _, rfl⟩

/-- At rest, what has been counted of commits is how they have been settled. -/
theorem perm_settled (run : Run s₀ h s) (fresh : s₀.Fresh) (unused : s₀.Unused) (plain : h.Plain)
    (rest : s.AtRest) : h.incidents.ended.Perm (h.settled.map Prod.snd) := by
  have hlength := (run.handed_of_rest fresh unused plain rest).2
  have hzip : h.served.map Prod.snd = h.delivered := List.map_snd_zip (Nat.le_of_eq hlength)
  have hsettled : h.settled.map Prod.snd =
      (h.flatMap fun m => m.endings.map Prod.snd) ++
        h.flatMap fun m => m.delivered.map Ending.ofDispatch := by
    rw [History.settled, List.map_append, List.map_map, ← List.map_flatMap, ← List.map_flatMap]
    refine congrArg (_ ++ ·) ?_
    rw [← History.delivered, ← hzip, List.map_map]
    rfl
  rw [hsettled]
  exact (List.flatMap_append_perm h _ _).symm

end Run

end EventJournal
