import EventJournal.Proofs.Queue.Backlog
import EventJournal.Proofs.System.Detached

/-!
# The backlog of a system

Commits, requests, shutdowns and its own worker use the queue of a system. Whatever they do there is
an incident at a backlog, or a few of them, so that what is known of backlogs is known of runs. The
worker of a system does not break.

* `Batch.start`, the stage at which the dispatch of a batch begins;
* `History.KeepsQueue`, that the queue has not been exchanged for another one;
* `System.Backlogged`, that a backlog tells what has happened at the queue of a system.

The main statements are `Run.backlogged` and, of a worker that has ended, `Run.dispatched_of_ended`.
-/

namespace EventJournal

/-- The stage at which the dispatch of a batch begins. -/
def Batch.start (batch : Batch) : Dispatching := .starting batch.envelopes

/-- The dispatcher and the queue have not been exchanged for others. -/
def History.KeepsQueue (h : History) : Prop :=
  ∀ m ∈ h, ∀ d queue, m.action ≠ .replaceDispatch d queue

theorem History.keepsQueue_concat {h : History} {m : Moment} :
    KeepsQueue (h ++ [m]) ↔ h.KeepsQueue ∧ ∀ d queue, m.action ≠ .replaceDispatch d queue := by
  rw [KeepsQueue, List.forall_mem_append, List.forall_mem_singleton]
  rfl

namespace Backlog

variable {α β : Type} {t : Backlog α β} {q : DispatchQueue α β} {start : α → β}

theorem perform?_of_enqueue (start : α → β) {batch : α} (h : t.queue.enqueue? batch = some q) :
    t.perform? start (.enqueues batch) =
      some { t with queue := q, accepted := t.accepted ++ [batch] } := by
  simp only [perform?, h]

theorem perform?_of_take {batch : α} {rest : List α} (waiting : t.queue.waiting = batch :: rest)
    (h : t.queue.take? start = some q) :
    t.perform? start .takes = some { t with queue := q, started := t.started ++ [batch] } := by
  simp only [perform?, h, waiting, List.head?_cons]

/-- A shutdown that nobody interrupts before it looks for the worker. -/
theorem exists_shutdown (t : Backlog α β) (start : α → β) :
    ∃ shutdowns, t.after? start [.shuts, .claims t.shutdowns.length] =
      some { t with queue := t.queue.shutdown.2, shutdowns } := by
  let t₁ : Backlog α β :=
    { t with queue := t.queue.refuse, shutdowns := t.shutdowns ++ [.refusing] }
  have hstage : t₁.shutdowns[t.shutdowns.length]? = some .refusing := List.getElem?_concat_length
  have hclaim : t₁.queue.claim = (!t.queue.claimed, t.queue.shutdown.2) := rfl
  have hclaims : ∃ shutdowns, t₁.perform? start (.claims t.shutdowns.length) =
      some { t with queue := t.queue.shutdown.2, shutdowns } := by
    cases hclaimed : t.queue.claimed with
    | false =>
      rw [hclaimed, Bool.not_false] at hclaim
      refine ⟨t₁.shutdowns.set t.shutdowns.length .waiting, ?_⟩
      simp only [perform?, hstage, hclaim]
      rfl
    | true =>
      rw [hclaimed, Bool.not_true] at hclaim
      refine ⟨t₁.shutdowns.set t.shutdowns.length .spared, ?_⟩
      simp only [perform?, hstage, hclaim]
      rfl
  obtain ⟨shutdowns, hclaims⟩ := hclaims
  exact ⟨shutdowns, after?_singleton hclaims⟩

/-- A dispatch that goes on gets to another stage, or returns. -/
theorem Kept.exists_goOn {t : Backlog α Dispatching} {x : Dispatching} (kept : t.Kept)
    (start : α → Dispatching) (working : t.queue.working = some x) (next : Dispatching) :
    ∃ incident returned, t.perform? start incident =
      some { t with queue := t.queue.goOn next, returned } := by
  have hadvances : t.perform? start (.advances next) =
      some { t with queue := t.queue.advance next } := by
    simp only [perform?, working]
  cases next with
  | done result =>
    obtain ⟨batch, hstarted⟩ := kept.busy (by simp [working])
    have hlast : t.started.getLast? = some batch := by simp [hstarted]
    refine ⟨.returns result, t.returned ++ [(batch, result)], ?_⟩
    simp only [perform?, working, hlast]
    rfl
  | _ => exact ⟨_, t.returned, hadvances⟩

end Backlog

/-- A backlog tells what has happened at the queue of a system: how the queue stands, which batches
have been put there and which of them the worker has taken. -/
structure System.Backlogged (h : History) (s : System) (t : Backlog Batch Dispatching) : Prop where
  path : ∃ incidents, Backlog.after? Batch.start {} incidents = some t
  queue : s.queue = some t.queue
  accepted : t.accepted = h.enqueued
  started : t.started = h.dispatched
  whole : t.broken = false

namespace System.Backlogged

variable {h : History} {s s' : System} {a : Action} {t t' : Backlog Batch Dispatching}
  {incidents : List (Backlog.Incident Batch Dispatching)}

theorem kept (told : s.Backlogged h t) : t.Kept := by
  obtain ⟨incidents, hafter⟩ := told.path
  exact .of_after hafter

theorem extend (told : s.Backlogged h t) (after : t.after? Batch.start incidents = some t')
    (queue : s'.queue = some t'.queue)
    (accepted : t'.accepted = t.accepted ++ Moment.enqueued ⟨s, a, s'⟩)
    (started : t'.started = t.started ++ Moment.taken ⟨s, a, s'⟩)
    (whole : t'.broken = t.broken) : s'.Backlogged (h ++ [⟨s, a, s'⟩]) t' where
  path := by
    obtain ⟨before, hbefore⟩ := told.path
    exact ⟨before ++ incidents, by rw [Backlog.after?_append, hbefore, Option.bind_some, after]⟩
  queue := queue
  accepted := by rw [accepted, told.accepted, History.enqueued_concat]
  started := by rw [started, told.started, History.dispatched_concat]
  whole := whole.trans told.whole

/-- What is done does not concern the batches that wait. -/
theorem keep (told : s.Backlogged h t) (after : t.after? Batch.start incidents = some t')
    (queue : s'.queue = some t'.queue) (waiting : t'.queue.waiting = t.queue.waiting)
    (accepted : t'.accepted = t.accepted) (started : t'.started = t.started)
    (whole : t'.broken = t.broken) : s'.Backlogged (h ++ [⟨s, a, s'⟩]) t' := by
  have hwaiting : s'.waiting = s.waiting := by
    rw [waiting_of_queue queue, waiting_of_queue told.queue, waiting]
  obtain ⟨henqueued, htaken⟩ := Moment.of_same (m := ⟨s, a, s'⟩) hwaiting
  refine told.extend after queue ?_ ?_ whole
  · rw [henqueued, List.append_nil, accepted]
  · rw [htaken, List.append_nil, started]

/-- A batch is put into the queue. -/
theorem put (told : s.Backlogged h t) {q q' : DispatchQueue Batch Dispatching} {batch : Batch}
    (before : s.queue = some q) (enqueue : q.enqueue? batch = some q')
    (queue : s'.queue = some q') : ∃ t', s'.Backlogged (h ++ [⟨s, a, s'⟩]) t' := by
  obtain rfl := Option.some.inj (told.queue.symm.trans before)
  have hwaiting : s'.waiting = s.waiting ++ [batch] := by
    rw [waiting_of_queue queue, waiting_of_queue before, DispatchQueue.eq_of_enqueue enqueue]
  obtain ⟨henqueued, htaken⟩ := Moment.of_append (m := ⟨s, a, s'⟩) hwaiting
  have hafter := Backlog.after?_singleton (Backlog.perform?_of_enqueue Batch.start enqueue)
  exact ⟨_, told.extend hafter queue (by rw [henqueued]) (by rw [htaken, List.append_nil]) rfl⟩

/-- The worker takes a batch. -/
theorem take (told : s.Backlogged h t) {q q' : DispatchQueue Batch Dispatching}
    (before : s.queue = some q) (take : q.take? Batch.start = some q')
    (queue : s'.queue = some q') : ∃ t', s'.Backlogged (h ++ [⟨s, a, s'⟩]) t' := by
  obtain rfl := Option.some.inj (told.queue.symm.trans before)
  obtain ⟨-, batch, hqueued, -⟩ := DispatchQueue.exists_of_take take
  have hwaiting : s.waiting = batch :: s'.waiting := by
    rw [waiting_of_queue queue, waiting_of_queue before, hqueued]
  obtain ⟨henqueued, htaken⟩ := Moment.of_cons (m := ⟨s, a, s'⟩) hwaiting
  have hafter := Backlog.after?_singleton (Backlog.perform?_of_take hqueued take)
  exact ⟨_, told.extend hafter queue (by rw [henqueued, List.append_nil]) (by rw [htaken]) rfl⟩

/-- Whatever passes the outlets is told, unless they are exchanged. -/
theorem passage (told : s.Backlogged h t) (perform : s.perform? a = some s')
    (stays : ∀ d queue, a ≠ .replaceDispatch d queue) :
    ∃ t', s'.Backlogged (h ++ [⟨s, a, s'⟩]) t' := by
  have passage := passage_of_perform perform
  generalize houtlets : s'.outlets = outlets at passage
  have hqueue : s'.queue = outlets.2 := congrArg Prod.snd houtlets
  -- the queue that the passage is about is the one of the backlog
  have hsame : ∀ {q}, s.queue = some q → q = t.queue := fun hq =>
    Option.some.inj (hq.symm.trans told.queue)
  cases passage with
  | keeps | goes | acts | turns =>
    have hnothing : t.after? Batch.start [] = some t := rfl
    exact ⟨t, told.keep hnothing (hqueue.trans told.queue) rfl rfl rfl rfl⟩
  | hands stage get queue enqueue => exact told.put queue enqueue hqueue
  | puts queue enqueue => exact told.put queue enqueue hqueue
  | takes queue take => exact told.take queue take hqueue
  | @ends q q' queue ending =>
    obtain rfl := hsame queue
    have hperform : t.perform? Batch.start .ends = some { t with queue := q' } := by
      simp only [Backlog.perform?, ending, Option.map_some]
    have hwaiting : q'.waiting = t.queue.waiting := by
      rw [(DispatchQueue.eq_of_end ending).2]
    exact ⟨_, told.keep (Backlog.after?_singleton hperform) hqueue hwaiting rfl rfl rfl⟩
  | drives queue working step =>
    obtain rfl := hsame queue
    obtain ⟨incident, returned, hperform⟩ := told.kept.exists_goOn Batch.start working _
    exact ⟨_, told.keep (Backlog.after?_singleton hperform) hqueue
      (DispatchQueue.waiting_goOn ..) rfl rfl rfl⟩
  | shuts queue =>
    obtain rfl := hsame queue
    obtain ⟨shutdowns, hafter⟩ := t.exists_shutdown Batch.start
    exact ⟨_, told.keep hafter hqueue rfl rfl rfl rfl⟩
  | replaces d queue => exact (stays d queue rfl).elim

end System.Backlogged

namespace Run

variable {s₀ s : System} {h : History}

/-- In every run a backlog tells what happens at the queue. -/
theorem backlogged (run : Run s₀ h s) (new : s₀.queue = some {}) (keeps : h.KeepsQueue) :
    ∃ t, s.Backlogged h t := by
  induction run with
  | nil => exact ⟨{}, ⟨[], rfl⟩, new, rfl, rfl, rfl⟩
  | snoc run known perform ih =>
    obtain ⟨hkeeps, stays⟩ := History.keepsQueue_concat.1 keeps
    obtain ⟨t, told⟩ := ih hkeeps
    exact told.passage perform stays

/-- A worker that has ended has dispatched all batches that were put into its queue, in the order in
which they were put there. -/
theorem dispatched_of_ended (run : Run s₀ h s) (new : s₀.queue = some {}) (keeps : h.KeepsQueue)
    {q : DispatchQueue Batch Dispatching} (queue : s.queue = some q) (ended : q.ended = true) :
    h.dispatched = h.enqueued := by
  obtain ⟨t, told⟩ := run.backlogged new keeps
  obtain rfl := Option.some.inj (told.queue.symm.trans queue)
  obtain ⟨-, hwaiting⟩ := told.kept.ended ended
  rw [← told.accepted, told.kept.line told.whole, hwaiting, List.append_nil, told.started]

end Run

end EventJournal
