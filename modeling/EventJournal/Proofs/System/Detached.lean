import EventJournal.Proofs.System.Growth
import EventJournal.Proofs.System.Passages

/-!
# Detached commits

Where all commits are detached, events get to the handlers through the queue alone. Its worker takes
the batches in the order in which they were put there and dispatches one after another.

* `System.waiting`, and what a moment does to it: `Moment.enqueued`, `Moment.taken`;
* `System.Queueing`, the ways in which an action changes the queue, and `System.QueueClosed`;
* `System.Detached`, that calls dispatch nothing themselves;
* `System.working`, the dispatch of the batch at work;
* `System.Lines`, what has been published, told by an account of each batch.

The main statements are `Run.enqueued_eq` and `Run.lines`.
-/

namespace EventJournal

/-! ### The batches in the queue -/

/-- The batches that wait in the queue. -/
def System.waiting (s : System) : List Batch := (s.queue.map DispatchQueue.waiting).getD []

namespace Moment

/-- The batches that are put into the queue in a moment. -/
def enqueued (m : Moment) : List Batch := m.after.waiting.drop m.before.waiting.length

/-- The batches that the worker of the queue takes in a moment, to dispatch them. -/
def taken (m : Moment) : List Batch :=
  m.before.waiting.take (m.before.waiting.length - m.after.waiting.length)

theorem of_same {m : Moment} (h : m.after.waiting = m.before.waiting) :
    m.enqueued = [] ∧ m.taken = [] := by
  simp [enqueued, taken, h]

theorem of_append {m : Moment} {new : List Batch}
    (h : m.after.waiting = m.before.waiting ++ new) : m.enqueued = new ∧ m.taken = [] := by
  simp [enqueued, taken, h]

theorem of_cons {m : Moment} {batch : Batch} (h : m.before.waiting = batch :: m.after.waiting) :
    m.enqueued = [] ∧ m.taken = [batch] := by
  simp [enqueued, taken, h]

end Moment

namespace History

/-- The batches that have been put into the queue, in this order. -/
def enqueued (h : History) : List Batch := h.flatMap Moment.enqueued

/-- The batches that the worker of the queue has started to dispatch, in this order. -/
def dispatched (h : History) : List Batch := h.flatMap Moment.taken

theorem enqueued_concat (h : History) (m : Moment) :
    enqueued (h ++ [m]) = h.enqueued ++ m.enqueued := by
  simp [enqueued]

theorem dispatched_concat (h : History) (m : Moment) :
    dispatched (h ++ [m]) = h.dispatched ++ m.taken := by
  simp [dispatched]

end History

namespace DispatchQueue

variable {α β : Type}

theorem waiting_goOn (q : DispatchQueue α Dispatching) (next : Dispatching) :
    (q.goOn next).waiting = q.waiting := by
  cases next <;> rfl

theorem isClosed_goOn (q : DispatchQueue α Dispatching) (next : Dispatching) :
    (q.goOn next).isClosed = q.isClosed := by
  cases next <;> rfl

theorem isClosed_of_take {q q' : DispatchQueue α β} {start : α → β} (h : q.take? start = some q') :
    q'.isClosed = q.isClosed := by
  unfold take? at h
  split at h
  · obtain rfl := Option.some.inj h
    rfl
  · simp at h

end DispatchQueue

namespace System

variable {s s' : System} {a : Action}

/-- The queue refuses further batches. -/
def QueueClosed (s : System) : Prop := ∃ q, s.queue = some q ∧ q.isClosed = true

theorem waiting_of_queue {q : DispatchQueue Batch Dispatching} (h : s.queue = some q) :
    s.waiting = q.waiting := by
  simp [waiting, h]

/-- What an action does to the batches that wait. -/
inductive Queueing (s : System) (a : Action) (s' : System) : Prop
  | rests (waiting : s'.waiting = s.waiting)
  /-- A commit hands its batch over. -/
  | gets {call unit : Nat} {envelopes : List Envelope} {u : UnitOfWork}
      (action : a = .step (.call call))
      (stage : s.calls.get? call = some (.saved unit envelopes))
      (get : s.units.get? unit = some u)
      (waiting : s'.waiting = s.waiting ++ [⟨u.id, envelopes⟩])
  /-- The worker takes the oldest batch. -/
  | gives {batch : Batch} (action : a = .step .queue) (waiting : s.waiting = batch :: s'.waiting)

/-- The batches that wait after an action that does not bypass commits. -/
theorem queueing_of_perform (h : s.perform? a = some s') (plain : a.bypassesCommits = false) :
    s.Queueing a s' := by
  have passage := passage_of_perform h
  generalize houtlets : s'.outlets = outlets at passage
  have hqueue : s'.queue = outlets.2 := congrArg Prod.snd houtlets
  cases passage with
  | keeps | goes | acts | turns => exact .rests (by rw [waiting, hqueue]; rfl)
  | hands stage get queue enqueue =>
    refine .gets rfl stage get ?_
    rw [waiting_of_queue hqueue, waiting_of_queue queue, DispatchQueue.eq_of_enqueue enqueue]
  | puts => simp [Action.bypassesCommits] at plain
  | takes queue take =>
    obtain ⟨-, batch, hwaiting, -⟩ := DispatchQueue.exists_of_take take
    have hfirst : s.waiting = batch :: s'.waiting := by
      rw [waiting_of_queue hqueue, waiting_of_queue queue, hwaiting]
    exact .gives rfl hfirst
  | ends queue ending =>
    refine .rests ((waiting_of_queue hqueue).trans ?_)
    rw [waiting_of_queue queue, (DispatchQueue.eq_of_end ending).2]
  | drives queue working step =>
    refine .rests ((waiting_of_queue hqueue).trans ?_)
    rw [waiting_of_queue queue, DispatchQueue.waiting_goOn]
  | shuts queue => exact .rests ((waiting_of_queue hqueue).trans (waiting_of_queue queue).symm)
  | replaces => simp [Action.bypassesCommits] at plain

/-- A moment puts nothing into the queue, unless a commit hands its batch over. -/
theorem Queueing.enqueued (queueing : s.Queueing a s') :
    Moment.enqueued ⟨s, a, s'⟩ = [] ∨ ∃ call unit envelopes id, a = .step (.call call) ∧
      s.calls.get? call = some (.saved unit envelopes) ∧
      Moment.enqueued ⟨s, a, s'⟩ = [⟨id, envelopes⟩] := by
  cases queueing with
  | rests waiting => exact .inl (Moment.of_same (m := ⟨s, a, s'⟩) waiting).1
  | gets action stage get waiting =>
    exact .inr ⟨_, _, _, _, action, stage, (Moment.of_append (m := ⟨s, a, s'⟩) waiting).1⟩
  | gives action waiting => exact .inl (Moment.of_cons (m := ⟨s, a, s'⟩) waiting).1

/-- A queue that is closed stays closed. -/
theorem QueueClosed.perform (closed : s.QueueClosed) (h : s.perform? a = some s')
    (plain : a.bypassesCommits = false) : s'.QueueClosed := by
  obtain ⟨q₀, hq₀, hclosed⟩ := closed
  have passage := passage_of_perform h
  generalize houtlets : s'.outlets = outlets at passage
  have hqueue : s'.queue = outlets.2 := congrArg Prod.snd houtlets
  -- the queue that the passage is about is the one that is closed
  have hsame : ∀ {q}, s.queue = some q → q.isClosed = true := fun hq =>
    Option.some.inj (hq₀.symm.trans hq) ▸ hclosed
  cases passage with
  | keeps | goes | acts | turns => exact ⟨q₀, hqueue.trans hq₀, hclosed⟩
  | hands stage get queue enqueue =>
    simp [DispatchQueue.enqueue?_eq_none_iff.2 (hsame queue)] at enqueue
  | takes queue take =>
    exact ⟨_, hqueue, (DispatchQueue.isClosed_of_take take).trans (hsame queue)⟩
  | ends queue ending =>
    exact ⟨_, hqueue, by simp [(DispatchQueue.eq_of_end ending).2, DispatchQueue.isClosed]⟩
  | drives queue => exact ⟨_, hqueue, (DispatchQueue.isClosed_goOn ..).trans (hsame queue)⟩
  | shuts => exact ⟨_, hqueue, DispatchQueue.isClosed_shutdown _⟩
  | puts | replaces => simp [Action.bypassesCommits] at plain

/-- A queue that is not closed gets the batch of a commit. -/
theorem enqueued_of_saved {call unit : Nat} {u : UnitOfWork} {envelopes : List Envelope}
    {q : DispatchQueue Batch Dispatching} (h : s.stepCall? call = some s')
    (stage : s.calls.get? call = some (.saved unit envelopes)) (get : s.units.get? unit = some u)
    (mode : u.mode = .detached) (queue : s.queue = some q) (accepts : q.isClosed = false) :
    Moment.enqueued ⟨s, .step (.call call), s'⟩ = [⟨u.id, envelopes⟩] := by
  simp only [stepCall?, stage, Option.some.injEq] at h
  subst h
  have hqueue : (s.handOver call unit envelopes).queue =
      some { q with waiting := q.waiting ++ [⟨u.id, envelopes⟩] } := by
    have houtlets : (s.handOver call unit envelopes).outlets = _ :=
      outlets_handOver_detached get mode
    rw [queue, Option.bind_some, DispatchQueue.enqueue?, accepts] at houtlets
    exact congrArg Prod.snd houtlets
  refine (Moment.of_append ?_).1
  rw [waiting_of_queue hqueue, waiting_of_queue queue]

end System

namespace Run

variable {s₀ s : System} {h : History}

/-- The queue is first in, first out. -/
theorem enqueued_eq (run : Run s₀ h s) (unused : s₀.Unused) (own : h.OnlyCommits) :
    h.enqueued = h.dispatched ++ s.waiting := by
  induction run with
  | nil =>
    have hnone : s₀.waiting = [] := by
      cases hqueue : s₀.queue with
      | none => simp [System.waiting, hqueue]
      | some q => simp [System.waiting, hqueue, unused.queue q hqueue]
    rw [hnone]
    rfl
  | @snoc h s s' a run known perform ih =>
    obtain ⟨hown, plain⟩ := History.onlyCommits_concat.1 own
    rw [History.enqueued_concat, History.dispatched_concat, ih hown]
    cases System.queueing_of_perform perform plain with
    | rests waiting =>
      obtain ⟨henqueued, htaken⟩ := Moment.of_same (m := ⟨s, a, s'⟩) waiting
      rw [henqueued, htaken, waiting, List.append_nil, List.append_nil]
    | gets action stage get waiting =>
      obtain ⟨henqueued, htaken⟩ := Moment.of_append (m := ⟨s, a, s'⟩) waiting
      rw [henqueued, htaken, waiting, List.append_nil, List.append_assoc]
    | gives action waiting =>
      obtain ⟨henqueued, htaken⟩ := Moment.of_cons (m := ⟨s, a, s'⟩) waiting
      rw [henqueued, htaken, waiting, List.append_nil, List.append_assoc]
      rfl

end Run

/-! ### Calls that dispatch nothing themselves -/

/-- A call neither dispatches events nor is about to. -/
def Call.Stage.IsDetached : Call.Stage → Prop
  | .dispatching .. | .reloading _ => False
  | _ => True

/-- There is a queue, all units of work use it, and no call dispatches anything itself. -/
structure System.Detached (s : System) : Prop where
  queue : s.queue.isSome = true
  units : ∀ unit u, s.units.get? unit = some u → u.mode = .detached
  calls : ∀ call stage, s.calls.get? call = some stage → stage.IsDetached

/-- All units of work that are made on request are detached. -/
def History.Detached (h : History) : Prop := ∀ m ∈ h, m.action ≠ .newUnit .synchronous

theorem History.detached_concat {h : History} {m : Moment} :
    Detached (h ++ [m]) ↔ h.Detached ∧ m.action ≠ .newUnit .synchronous := by
  rw [Detached, List.forall_mem_append, List.forall_mem_singleton]
  rfl

/-- Requests for detached units of work alone make a detached course. -/
theorem History.detached_course {s : System} {actions : List Action}
    (h : ∀ a ∈ actions, a ≠ .newUnit .synchronous) : (s.course actions).Detached :=
  System.forall_action_course h

/-- What happens at a desk leaves the mode of the unit alone. -/
theorem Desk.Step.mode_eq {d d' : Desk} {deed : Deed} (h : d.Step deed d') :
    d'.unit.mode = d.unit.mode := by
  cases h with
  | register ok => rw [(UnitOfWork.register_eq_ok_iff.1 ok).2]
  | rollback ok => rw [(UnitOfWork.rollback_eq_ok_iff.1 ok).2]
  | pass role begin | fix role begin =>
    obtain ⟨-, -, rfl⟩ := UnitOfWork.begin_eq_ok_iff.1 begin
    rfl
  | fail role =>
    show d.unit.reopen.mode = d.unit.mode
    unfold UnitOfWork.reopen
    split <;> rfl
  | _ => rfl

namespace Ledger

variable {l l' : Ledger} {a : Action}

/-- Units of work are made on request or for a command. -/
theorem Change.makes_unit (h : l.Change a l') :
    l'.lastUnit = l.lastUnit ∨ (∃ mode, a = .newUnit mode) ∨
      ∃ call orderId command order now, a = .step (.call call) ∧
        l.calls.get? call = some (.deciding orderId command order now) := by
  cases h with
  | steps get step =>
    cases step with
    | decided => exact .inr (.inr ⟨_, _, _, _, _, rfl, get⟩)
    | unprepared _ _ failed => cases failed <;> exact .inl rfl
    | stored _ completed => cases completed <;> exact .inl rfl
    | failed _ failed => cases failed <;> exact .inl rfl
    | _ => exact .inl rfl
  | drops _ dropped => cases dropped <;> exact .inl rfl
  | makes mode => exact .inr (.inl ⟨mode, rfl⟩)
  | _ => exact .inl rfl

end Ledger

namespace System

variable {s s' : System} {a : Action}

/-- A unit of work that is made for a command has the mode of the system. -/
theorem mode_of_decideCommand {call : Nat} {orderId : String} {command : Order.Command}
    {order : Option Order} {now : Time} {u : UnitOfWork}
    (free : s.units.get? (s.lastUnit + 1) = none)
    (hget : (s.decideCommand call orderId command order now).units.get? (s.lastUnit + 1) =
      some u) : u.mode = s.mode := by
  unfold decideCommand at hget
  split at hget
  · have hget' : s.units.get? (s.lastUnit + 1) = some u := hget
    simp [free] at hget'
  · simp only [approach, putUnit, putCall, Table.get?_set_self] at hget
    exact Option.some.inj hget ▸ rfl

/-- The next unit of work has the mode that it is asked for, or that of the system. -/
theorem mode_of_next (perform : s.perform? a = some s') (change : s.ledger.Change a s'.ledger)
    (last : s'.lastUnit = s.lastUnit + 1) (free : s.units.get? (s.lastUnit + 1) = none)
    {u : UnitOfWork} (hget : s'.units.get? (s.lastUnit + 1) = some u) :
    a = .newUnit u.mode ∨ u.mode = s.mode := by
  rcases change.makes_unit with hsame | ⟨mode, rfl⟩ |
    ⟨call, orderId, command, order, now, rfl, hstage⟩
  · have hsame' : s'.lastUnit = s.lastUnit := hsame
    omega
  · obtain rfl := Option.some.inj perform
    have hnew : (s.newUnit mode).2.units.get? (s.lastUnit + 1) = _ := Table.get?_set_self ..
    obtain rfl := Option.some.inj (hnew.symm.trans hget)
    exact .inl rfl
  · have hstage' : s.calls.get? call = some (.deciding orderId command order now) := hstage
    change s.stepCall? call = some s' at perform
    simp only [stepCall?, hstage', Option.some.injEq] at perform
    subst perform
    exact .inr (mode_of_decideCommand free hget)

/-- A unit of work has the mode that it had, or that it was asked for, or that of the system. -/
theorem mode_of_unit (perform : s.perform? a = some s') (tidy : s.ledger.Tidy)
    (change : s.ledger.Change a s'.ledger) {unit : Nat} {u : UnitOfWork}
    (hget : s'.units.get? unit = some u) :
    (∃ v, s.units.get? unit = some v ∧ u.mode = v.mode) ∨ a = .newUnit u.mode ∨
      u.mode = s.mode := by
  cases change.move tidy with
  | keeps units =>
    have hunits : s'.units = s.units := units
    exact .inl ⟨u, hunits ▸ hget, rfl⟩
  | @does other v v' deed get units last others step =>
    have hunits : s'.units = s.units.set other v' := units
    rw [hunits, Table.get?_set] at hget
    split at hget
    · next heq =>
      obtain rfl := Option.some.inj hget
      exact .inl ⟨v, heq ▸ get, step.mode_eq⟩
    · exact .inl ⟨u, hget, rfl⟩
  | @makes v units last others sound phase saved buffered =>
    by_cases hunit : unit = s.lastUnit + 1
    · subst hunit
      have hfree : s.units.get? (s.lastUnit + 1) = none := by
        refine Option.eq_none_iff_forall_ne_some.2 fun w hold => ?_
        have hle : s.lastUnit + 1 ≤ s.lastUnit := tidy.unit_le hold
        omega
      exact .inr (mode_of_next perform change last hfree hget)
    · have hunits : s'.units = s.units.set (s.lastUnit + 1) v := units
      rw [hunits, Table.get?_set, if_neg hunit] at hget
      exact .inl ⟨u, hget, rfl⟩

/-- An action that does not bypass commits leaves a queue in its place. -/
theorem Passage.isSome_queue {outlets : Dispatcher × Option (DispatchQueue Batch Dispatching)}
    (passage : s.Passage a outlets) (plain : a.bypassesCommits = false)
    (queue : s.queue.isSome = true) : outlets.2.isSome = true := by
  cases passage with
  | puts | replaces => simp [Action.bypassesCommits] at plain
  | keeps | goes | acts | turns => exact queue
  | _ => rfl

end System

/-- Where units of work are detached, a call does not come to dispatch anything itself. -/
theorem Ledger.CallStep.isDetached {l l' : Ledger} {call : Nat} {stage : Call.Stage}
    (h : l.CallStep call stage l') (isDetached : stage.IsDetached)
    (units : ∀ unit u, l.units.get? unit = some u → u.mode = .detached) :
    ∃ stage', l'.calls = l.calls.set call stage' ∧ stage'.IsDetached := by
  cases h with
  | unprepared _ _ failed => cases failed <;> exact ⟨_, rfl, trivial⟩
  | stored _ completed => cases completed <;> exact ⟨_, rfl, trivial⟩
  | failed _ failed => cases failed <;> exact ⟨_, rfl, trivial⟩
  | dispatches get mode => simp [units _ _ get] at mode
  | tells | reloaded => exact isDetached.elim
  | _ => exact ⟨_, rfl, trivial⟩

theorem isDetached_of_begins {a : Action} {stage : Call.Stage} (begins : a.Begins stage)
    (plain : a.bypassesCommits = false) : stage.IsDetached := by
  rcases begins with starts | ⟨unit, -, rfl⟩
  · cases starts with
    | dispatch | redispatch => simp [Action.bypassesCommits] at plain
    | _ => trivial
  · trivial

namespace Run

variable {s₀ s : System} {h : History}

/-- In a run with detached units of work, only the queue dispatches. -/
theorem detached (run : Run s₀ h s) (fresh : s₀.Fresh) (queue : s₀.queue.isSome = true)
    (own : h.OnlyCommits) (detached : h.Detached) : s.Detached := by
  induction run with
  | nil => exact ⟨queue, by simp [fresh.units], by simp [fresh.calls]⟩
  | @snoc h s s' a run known perform ih =>
    obtain ⟨hown, plain⟩ := History.onlyCommits_concat.1 own
    obtain ⟨hdetached, hmode⟩ := History.detached_concat.1 detached
    have before := ih hown hdetached
    have change := run.change fresh known perform
    constructor
    case queue => exact (System.passage_of_perform perform).isSome_queue plain before.queue
    case units =>
      intro unit u hget
      rcases System.mode_of_unit perform (run.tidy fresh).1 change hget with
        ⟨v, hv, heq⟩ | rfl | heq
      · exact heq.trans (before.units unit v hv)
      · cases hu : u.mode with
        | synchronous => exact (hmode (congrArg Action.newUnit hu)).elim
        | detached => rfl
      · rw [heq, System.mode, before.queue, if_pos rfl]
    case calls =>
      intro call stage hget
      cases change.turn with
      | rests _ calls =>
        have hcalls : s'.calls = s.calls := calls
        exact before.calls call stage (hcalls ▸ hget)
      | @begins first _ begins calls =>
        have hcalls : s'.calls = s.calls.set (s.lastCall + 1) first := calls
        rw [hcalls, Table.get?_set] at hget
        split at hget
        · obtain rfl := Option.some.inj hget
          exact isDetached_of_begins begins plain
        · exact before.calls call stage hget
      | @goes acting old new _ get step calls =>
        have hcalls : s'.calls = s.calls.set acting new := calls
        obtain ⟨next, hnext, isDetached⟩ :=
          step.isDetached (before.calls acting old get) before.units
        rw [hcalls, Table.get?_set] at hget
        split at hget
        · obtain rfl := Option.some.inj hget
          exact Ledger.eq_of_set hnext (Ledger.get?_of_set calls) ▸ isDetached
        · exact before.calls call stage hget
      | @ends dropped _ calls =>
        have hcalls : s'.calls = s.calls.erase dropped := calls
        rw [hcalls, Table.get?_erase] at hget
        split at hget
        · simp at hget
        · exact before.calls call stage hget

end Run

/-! ### What the batches have come to -/

/-- The dispatch of the batch at work. -/
def System.working (s : System) : Option Dispatching := s.queue.bind DispatchQueue.working

theorem System.working_of_queue {s : System} {q : DispatchQueue Batch Dispatching}
    (h : s.queue = some q) : s.working = q.working := by
  rw [working, h, Option.bind_some]

/-- What has been published in a run with detached units of work, told by an account of each batch
that the worker of the queue has taken: of those whose dispatch has ended, and of the one at
work. -/
structure System.Lines (h : History) (s : System) (past current : List Account) : Prop where
  batches : (past ++ current).map Account.envelopes = h.dispatched.map Batch.envelopes
  sent : h.sent = (past ++ current).flatMap Account.own
  known : ∀ account ∈ past ++ current, ∀ r ∈ account.start.registrations,
    r.id ≤ s.dispatcher.transport.lastId
  ended : ∀ account ∈ past, ∃ result, account.Reaches s.dispatcher (.done result)
  working : List.Forall₂ (fun account x => account.Reaches s.dispatcher x) current
    s.working.toList

namespace System.Lines

variable {h : History} {s s' : System} {a : Action} {past current : List Account}

/-- Each batch has been sent in part at least, and nothing else has. -/
theorem within (lines : s.Lines h past current) :
    ∀ account ∈ past ++ current, account.Within s.dispatcher := by
  intro account haccount
  rcases List.mem_append.1 haccount with hpast | hcurrent
  · obtain ⟨result, reaches⟩ := lines.ended account hpast
    exact reaches.within
  · obtain ⟨x, -, reaches⟩ := exists_right_of_forall₂ lines.working hcurrent
    exact reaches.within

theorem known_mono (lines : s.Lines h past current) {d : Dispatcher}
    (later : s.dispatcher.Later d) : ∀ account ∈ past ++ current,
      ∀ r ∈ account.start.registrations, r.id ≤ d.transport.lastId :=
  fun account haccount r hr => le_trans (lines.known account haccount r hr) later.lastId

theorem ended_mono (lines : s.Lines h past current) {d : Dispatcher}
    (later : s.dispatcher.Later d) :
    ∀ account ∈ past, ∃ result, account.Reaches d (.done result) := by
  intro account haccount
  obtain ⟨result, reaches⟩ := lines.ended account haccount
  exact ⟨result, reaches.mono (lines.known account (List.mem_append_left _ haccount)) later⟩

/-- Nothing is taken or published, and the batch at work stays where it is. -/
theorem keep (lines : s.Lines h past current) (later : s.dispatcher.Later s'.dispatcher)
    (sends : s.sends a = []) (taken : Moment.taken ⟨s, a, s'⟩ = [])
    (same : s'.working = s.working) : s'.Lines (h ++ [⟨s, a, s'⟩]) past current where
  batches := by rw [History.dispatched_concat, taken, List.append_nil, lines.batches]
  sent := by rw [History.sent_concat, sends, List.append_nil, lines.sent]
  known := lines.known_mono later
  ended := lines.ended_mono later
  working := by
    rw [same]
    refine ((List.forall₂_and_left _ _).2 ⟨fun account haccount => ?_, lines.working⟩).imp
      fun account x h => h.2.mono h.1 later
    exact lines.known account (List.mem_append_right _ haccount)

/-- The worker takes a batch. -/
theorem take (lines : s.Lines h past current) {batch : Batch}
    (known : ∀ r ∈ s.dispatcher.registrations, r.id ≤ s.dispatcher.transport.lastId)
    (dispatcher : s'.dispatcher = s.dispatcher) (sends : s.sends a = [])
    (taken : Moment.taken ⟨s, a, s'⟩ = [batch]) (free : s.working = none)
    (working : s'.working = some (.starting batch.envelopes)) :
    s'.Lines (h ++ [⟨s, a, s'⟩]) past
      [{ start := s.dispatcher, envelopes := batch.envelopes }] := by
  obtain rfl : current = [] := by
    have hworking := lines.working
    rw [free] at hworking
    cases hworking
    rfl
  have hpast := lines.batches
  rw [List.append_nil] at hpast
  constructor
  case batches =>
    rw [History.dispatched_concat, taken, List.map_append, List.map_append, hpast]
    rfl
  case sent =>
    rw [History.sent_concat, sends, List.append_nil, lines.sent]
    simp
  case known =>
    rw [dispatcher]
    have hknown := lines.known
    rw [List.append_nil] at hknown
    exact List.forall_mem_append.2 ⟨hknown, List.forall_mem_singleton.2 known⟩
  case ended =>
    rw [dispatcher]
    exact lines.ended
  case working =>
    rw [working]
    exact .cons (.starting rfl) .nil

/-- The dispatch of the batch at work takes a step. -/
theorem drive (lines : s.Lines h past current) {base : Dispatcher} {made : List Registration}
    {sent : List Errand} {log : List (Nat × WorkerStep)}
    (busy : base.Busy made sent log s.dispatcher)
    {q : DispatchQueue Batch Dispatching} {x : Dispatching} {advance : Dispatching.Advance}
    (atWork : s.working = some x) (step : x.step? s.dispatcher = some advance)
    (later : s.dispatcher.Later advance.dispatcher)
    (dispatcher : s'.dispatcher = advance.dispatcher)
    (sends : s.sends a = s.dispatcher.sends x) (taken : Moment.taken ⟨s, a, s'⟩ = [])
    (queue : s'.queue = some (q.goOn advance.next)) :
    ∃ past' current', s'.Lines (h ++ [⟨s, a, s'⟩]) past' current' := by
  obtain ⟨last, rfl, reaches⟩ : ∃ last, current = [last] ∧ last.Reaches s.dispatcher x := by
    have hworking := lines.working
    rw [atWork] at hworking
    obtain ⟨last, rest, reaches, hrest, rfl⟩ := List.forall₂_cons_right_iff.1 hworking
    exact ⟨last, by rw [List.forall₂_nil_right_iff.1 hrest], reaches⟩
  have hreaches := reaches.advance busy step
  have hbatches : (past ++ [last.add (s.dispatcher.sends x)]).map Account.envelopes =
      (History.dispatched (h ++ [⟨s, a, s'⟩])).map Batch.envelopes := by
    rw [History.dispatched_concat, taken, List.append_nil, ← lines.batches]
    simp [Account.add]
  have hsent : History.sent (h ++ [⟨s, a, s'⟩]) =
      (past ++ [last.add (s.dispatcher.sends x)]).flatMap Account.own := by
    rw [History.sent_concat, sends, lines.sent]
    simp [Account.add]
  have hknown : ∀ account ∈ past ++ [last.add (s.dispatcher.sends x)],
      ∀ r ∈ account.start.registrations, r.id ≤ s'.dispatcher.transport.lastId := by
    obtain ⟨hpast, hlast⟩ := List.forall_mem_append.1 (lines.known_mono later)
    rw [dispatcher]
    exact List.forall_mem_append.2
      ⟨hpast, List.forall_mem_singleton.2 (List.forall_mem_singleton.1 hlast)⟩
  rw [← dispatcher] at hreaches later
  have hended := lines.ended_mono later
  -- a dispatch that has ended is no longer at work
  cases hnext : advance.next with
  | done result =>
    rw [hnext] at hreaches queue
    refine ⟨past ++ [last.add (s.dispatcher.sends x)], [], ?_⟩
    rw [← List.append_nil (past ++ [last.add (s.dispatcher.sends x)])] at hbatches hsent hknown
    refine ⟨hbatches, hsent, hknown,
      List.forall_mem_append.2 ⟨hended, List.forall_mem_singleton.2 ⟨result, hreaches⟩⟩, ?_⟩
    rw [System.working_of_queue queue]
    exact .nil
  | _ =>
    rw [hnext] at hreaches queue
    refine ⟨past, [last.add (s.dispatcher.sends x)], hbatches, hsent, hknown, hended, ?_⟩
    rw [System.working_of_queue queue]
    exact .cons hreaches .nil

end System.Lines

namespace Run

variable {s₀ s : System} {h : History}

/-- In a run with detached units of work, each batch that the worker of the queue has taken has an
account, and nothing else has been published. -/
theorem lines (run : Run s₀ h s) (fresh : s₀.Fresh) (unused : s₀.Unused)
    (queue : s₀.queue.isSome = true) (own : h.OnlyCommits) (detached : h.Detached) :
    ∃ past current, s.Lines h past current := by
  induction run with
  | nil =>
    have hfree : s₀.working = none := by
      cases hqueue : s₀.queue with
      | none => rw [System.working, hqueue, Option.bind_none]
      | some q => rw [System.working_of_queue hqueue, unused.queue q hqueue]
    exact ⟨[], [], rfl, rfl, by simp, by simp, by rw [hfree]; exact .nil⟩
  | @snoc h s s' a run known perform ih =>
    obtain ⟨hown, plain⟩ := History.onlyCommits_concat.1 own
    obtain ⟨hdetached, -⟩ := History.detached_concat.1 detached
    obtain ⟨past, current, lines⟩ := ih hown hdetached
    have before := run.detached fresh queue hown hdetached
    obtain ⟨made, busy⟩ := run.busy unused hown
    have passage := System.passage_of_perform perform
    have later : s.dispatcher.Later s'.dispatcher := (passage.busy plain busy).2
    generalize houtlets : s'.outlets = outlets at passage
    have hdispatcher : s'.dispatcher = outlets.1 := congrArg Prod.fst houtlets
    have hqueue : s'.queue = outlets.2 := congrArg Prod.snd houtlets
    have hsame : s'.queue = s.queue → s.sends a = [] →
        ∃ past current, s'.Lines (h ++ [⟨s, a, s'⟩]) past current := by
      intro heq sends
      have hwaiting : s'.waiting = s.waiting := by rw [System.waiting, System.waiting, heq]
      exact ⟨past, current, lines.keep later sends (Moment.of_same (m := ⟨s, a, s'⟩) hwaiting).2
        (by rw [System.working, System.working, heq])⟩
    -- the queue may have changed, but not what is at work
    have hqueued : ∀ {q q' : DispatchQueue Batch Dispatching} {new : List Batch},
        s.queue = some q → s'.queue = some q' → q'.waiting = q.waiting ++ new →
        q'.working = q.working → s.sends a = [] →
        ∃ past current, s'.Lines (h ++ [⟨s, a, s'⟩]) past current := by
      intro q q' new hq hq' hwaiting hworking sends
      rw [← System.waiting_of_queue hq, ← System.waiting_of_queue hq'] at hwaiting
      rw [← System.working_of_queue hq, ← System.working_of_queue hq'] at hworking
      exact ⟨past, current, lines.keep later sends
        (Moment.of_append (m := ⟨s, a, s'⟩) hwaiting).2 hworking⟩
    cases passage with
    | keeps sends | turns sends => exact hsame hqueue sends
    | acts => exact hsame hqueue (by simp [System.sends, System.dispatching?])
    | goes stage => exact (before.calls _ _ stage).elim
    | hands stage get queue enqueue =>
      obtain rfl := DispatchQueue.eq_of_enqueue enqueue
      exact hqueued queue hqueue rfl rfl (System.sends_of_stage stage rfl)
    | puts | replaces => simp [Action.bypassesCommits] at plain
    | takes queue take =>
      obtain ⟨hfree, batch, hwaiting, hworking⟩ := DispatchQueue.exists_of_take take
      rw [← System.waiting_of_queue queue, ← System.waiting_of_queue hqueue] at hwaiting
      exact ⟨past, _, lines.take (fun r => busy.known) hdispatcher
        (by simp [System.sends_of_working queue, hfree])
        (Moment.of_cons (m := ⟨s, _, s'⟩) hwaiting).2
        ((System.working_of_queue queue).trans hfree)
        ((System.working_of_queue hqueue).trans hworking)⟩
    | ends queue ending =>
      obtain ⟨hfree, rfl⟩ := DispatchQueue.eq_of_end ending
      exact hqueued queue hqueue (List.append_nil _).symm rfl
        (by simp [System.sends_of_working queue, hfree])
    | @drives q x advance queue working step =>
      have hwaiting : s'.waiting = s.waiting := by
        rw [System.waiting_of_queue hqueue, System.waiting_of_queue queue,
          DispatchQueue.waiting_goOn]
      rw [hdispatcher] at later
      exact lines.drive busy ((System.working_of_queue queue).trans working) step later
        hdispatcher (by simp [System.sends_of_working queue, working])
        (Moment.of_same (m := ⟨s, _, s'⟩) hwaiting).2 hqueue
    | shuts queue => exact hqueued queue hqueue (List.append_nil _).symm rfl rfl

end Run

end EventJournal
