import EventJournal.Proofs.Order.Snapshots
import Mathlib.Data.List.Induction

/-!
# Serial orders

However the steps of commands to an order are interleaved, its stream is what the commands whose
events were stored lead to when they are carried out one after another.

* `Order.execute`, commands carried out one after another, and `Order.Executes`, the calls behind
  records;
* `Run.addedBy_of_asks`, what a call adds that carries out a command;
* `Commanded`, the runs in which the events of an order come from commands to it alone;
* `Commanded.decided`, what a record of an order has been decided on.

The main statement is `Commanded.executes`.
-/

namespace EventJournal

open Record (Numbered)

namespace Order

/-- Commands to an order that are carried out one after another: the events that they lead to, and
the state after them. Each command comes with the time at which its event is created and the time
for which it is decided. -/
def execute (id : String) (state : Option Order) :
    List (Time × Time × Command) → Except Error (List (DomainEvent Event) × Option Order)
  | [] => .ok ([], state)
  | (createdAt, now, command) :: rest =>
    match carryOut id createdAt now state command with
    | .error e => .error e
    | .ok (payloads, after) =>
      match execute id after rest with
      | .error e => .error e
      | .ok (events, final) =>
        .ok (DomainEvent.sequence id createdAt (versionOf state) payloads ++ events, final)

/-- A call that carries out a command to an order, with its two times. -/
structure Turn where
  call : Nat
  createdAt : Time
  now : Time
  command : Command

variable {id : String} {state state' : Option Order} {createdAt now : Time} {command : Command}
  {payload : Event} {order : Order}

theorem carryOut_eq_ok (decide : decideOn state now command = .ok [payload])
    (fits : applyOn state ⟨id, versionOf state + 1, createdAt, payload⟩ = .ok order) :
    carryOut id createdAt now state command = .ok ([payload], some order) := by
  simp only [carryOut, decide, DomainEvent.sequence, applyAll, fits]

/-- One command more. -/
theorem execute_concat {commands : List (Time × Time × Command)}
    {events : List (DomainEvent Event)}
    (h : execute id state commands = .ok (events, state'))
    (carry : carryOut id createdAt now state' command = .ok ([payload], some order)) :
    execute id state (commands ++ [(createdAt, now, command)]) =
      .ok (events ++ [⟨id, versionOf state' + 1, createdAt, payload⟩], some order) := by
  induction commands generalizing state events with
  | nil =>
    obtain ⟨rfl, rfl⟩ := Prod.mk.inj (Except.ok.inj h)
    simp only [List.nil_append, execute, carry, DomainEvent.sequence, List.append_nil]
  | cons head rest ih =>
    obtain ⟨earlierCreated, earlier, first⟩ := head
    rw [execute] at h
    split at h
    · simp at h
    · next payloads after hfirst =>
      split at h
      · simp at h
      · next events' final hrest =>
        obtain ⟨rfl, rfl⟩ := Prod.mk.inj (Except.ok.inj h)
        rw [List.cons_append, execute]
        simp only [hfirst, ih hrest, List.append_assoc]

/-- The records of an order are those of different calls, each of which has added one of them, and
they keep the events that the commands of these calls lead to one after another. -/
structure Executes (h : History) (registry : Registry) (orderId : String) (records : List Record)
    (turns : List Turn) : Prop where
  nodup : (turns.map Turn.call).Nodup
  asks : ∀ turn ∈ turns, h.Asks turn.call (.handle orderId turn.command)
  /-- The times are what the clock showed at two steps of the call, after it had loaded the order. -/
  clock : ∀ turn ∈ turns, ∃ load read decide rest,
    h.stepsOf turn.call = load :: read :: decide :: rest ∧ read.before.clock = turn.now ∧
      decide.before.clock = turn.createdAt
  added : List.Forall₂ (fun turn r => h.addedBy turn.call = [r]) turns records
  events : ∃ events state,
    execute orderId none (turns.map fun turn => (turn.createdAt, turn.now, turn.command)) =
        .ok (events, state) ∧
      List.Forall₂ (fun r e => r.Keeps e.toEvent) records events ∧ Replays registry records state

theorem executes_nil (h : History) (registry : Registry) (orderId : String) :
    Executes h registry orderId [] [] :=
  ⟨by simp, by simp, by simp, .nil, [], none, rfl, .nil, replays_nil registry⟩

/-- One call more, whose command was decided on the state that the records replay to. -/
theorem Executes.concat {h : History} {registry : Registry} {orderId : String}
    {earlier : List Record} {turns : List Turn} {r : Record} {call : Nat} {load : Moment}
    {e : DomainEvent Event} (executes : Executes h registry orderId earlier turns)
    (decides : h.Decides registry orderId earlier r call command load state e)
    (hadded : h.addedBy call = [r]) (hnew : r ∉ earlier) :
    ∃ now, Executes h registry orderId (earlier ++ [r])
      (turns ++ [⟨call, e.createdAt, now, command⟩]) := by
  obtain ⟨read, decide, rest, hsteps, hdecide, hcreated⟩ := decides.accepts.steps
  refine ⟨read.before.clock, ?_⟩
  constructor
  case nodup =>
    rw [List.map_append, List.map_singleton, ← List.concat_eq_append, List.nodup_concat]
    refine ⟨fun hmem => hnew ?_, executes.nodup⟩
    -- otherwise the call has added an earlier record
    obtain ⟨turn, hturn, hcall⟩ := List.mem_map.1 hmem
    obtain ⟨r', hr', hadded'⟩ := exists_right_of_forall₂ executes.added hturn
    rw [hcall, hadded] at hadded'
    exact (List.cons.inj hadded').1 ▸ hr'
  case asks =>
    refine List.forall_mem_append.2 ⟨executes.asks, List.forall_mem_singleton.2 ?_⟩
    exact decides.accepts.asks
  case clock =>
    refine List.forall_mem_append.2 ⟨executes.clock, List.forall_mem_singleton.2 ?_⟩
    exact ⟨load, read, decide, rest, hsteps, rfl, hcreated.symm⟩
  case added => exact List.rel_append executes.added (.cons hadded .nil)
  case events =>
    obtain ⟨events, state', hexecute, hkeeps, hreplays⟩ := executes.events
    obtain rfl := hreplays.unique decides.replays
    obtain ⟨order, fits, replays⟩ := decides.fits
    have he : e = ⟨orderId, versionOf state' + 1, e.createdAt, e.data⟩ := by
      rw [← decides.accepts.aggregateId, ← decides.accepts.sequenceNo]
    have carry := carryOut_eq_ok hdecide (he ▸ fits)
    have hkeeps' := List.rel_append hkeeps (.cons decides.keeps .nil)
    refine ⟨events ++ [e], some order, ?_, hkeeps', replays⟩
    rw [List.map_append, he]
    exact execute_concat hexecute carry

end Order

namespace Run

variable {s₀ s : System} {h : History} {orderId : String} {call : Nat} {command : Order.Command}

/-- A call that carries out a command to an order adds the event that it led to, once, or nothing.
-/
theorem addedBy_of_asks (run : Run s₀ h s) (fresh : s₀.Fresh) (undisturbed : h.Undisturbed)
    (asks : h.Asks call (.handle orderId command)) :
    h.addedBy call = [] ∨ ∃ load state e r, h.Accepts call orderId command load state e ∧
      h.addedBy call = [r] ∧ r.Keeps e.toEvent := by
  induction run with
  | nil =>
    obtain ⟨m, hm, -⟩ := asks
    simp at hm
  | @snoc h s s' a run known perform ih =>
    obtain ⟨hold, quiet⟩ := History.undisturbed_concat.1 undisturbed
    rw [History.addedBy_concat]
    by_cases hstep : Moment.isStepOf ⟨s, a, s'⟩ call = true
    · rw [if_pos hstep]
      obtain rfl : a = .step (.call call) := Moment.action_of_isStepOf hstep
      have asked : h.Asks call (.handle orderId command) := by
        rcases asks_concat asks with asked | ⟨heq, -⟩
        · exact asked
        · simp at heq
      obtain ⟨new, hgrows, hnew⟩ :=
        run.grows fresh known perform quiet
      have hadded : Moment.added ⟨s, .step (.call call), s'⟩ = new := Moment.added_eq hgrows
      rw [hadded]
      rcases hnew with rfl | ⟨other, stage, haction, hget, completes⟩
      · rw [List.append_nil]
        rcases ih hold asked with hnone | ⟨load, state, e, r, accepts, hone, keeps⟩
        · exact .inl hnone
        · exact .inr ⟨load, state, e, r, accepts.append _, hone, keeps⟩
      · obtain rfl : call = other := by simpa using haction
        obtain ⟨load, state, e, r, accepts, rfl, keeps⟩ :=
          run.saves_of_asks fresh hold hget asked completes
        obtain ⟨purpose, envelopes, since, save, storage, rfl, -⟩ := completes
        have hnone : h.addedBy call = [] := (run.stored fresh hget).1
        exact .inr ⟨load, state, e, r, accepts.append _, by rw [hnone, List.nil_append], keeps⟩
    · rw [if_neg hstep, List.append_nil]
      rcases asks_concat asks with asked | ⟨rfl, rfl⟩
      · rcases ih hold asked with hnone | ⟨load, state, e, r, accepts, hone, keeps⟩
        · exact .inl hnone
        · exact .inr ⟨load, state, e, r, accepts.append _, hone, keeps⟩
      · refine .inl ?_
        rw [History.addedBy, run.stepsOf_next fresh (Nat.lt_succ_self _)]
        rfl

end Run

/-- A run without interference in which the events of an order come from commands to it alone, and
can be read. The version of the order is a 64-bit integer. -/
structure Commanded (s₀ : System) (h : History) (s : System) (orderId : String) : Prop where
  run : Run s₀ h s
  fresh : s₀.Fresh
  undisturbed : h.Undisturbed
  readable : Order.Readable s₀.registry
  foreign : ∀ e, h.Brings e → e.aggregateId ≠ orderId
  bounded : ((Record.of orderId s.storage.journal.records).length : Int) ≤ Numeral.maxInt64

namespace Commanded

variable {s₀ s : System} {h : History} {orderId : String}

theorem growth (commanded : Commanded s₀ h s orderId) : Run.Growth s₀ h s :=
  commanded.run.growth commanded.fresh commanded.undisturbed

theorem kept (commanded : Commanded s₀ h s orderId) :
    Order.Kept s₀.registry orderId s.storage.journal.records :=
  commanded.run.kept commanded.fresh commanded.undisturbed commanded.readable commanded.foreign
    commanded.bounded

/-- Up to each moment the run was such a run. -/
theorem cut (commanded : Commanded s₀ h s orderId) {h₁ h₂ : History} {m : Moment}
    (heq : h = h₁ ++ m :: h₂) : Commanded s₀ h₁ m.before orderId := by
  have hm : m ∈ h := by
    rw [heq]
    exact List.mem_append_right _ (List.mem_cons_self ..)
  constructor
  case run => exact (commanded.run.cut heq).1
  case fresh => exact commanded.fresh
  case undisturbed => exact (History.undisturbed_append.1 (heq ▸ commanded.undisturbed)).1
  case readable => exact commanded.readable
  case foreign =>
    intro e brings
    refine commanded.foreign e ?_
    rw [heq]
    exact brings.append _
  case bounded =>
    have hof : Record.of orderId m.before.storage.journal.records <+: _ :=
      Record.of_isPrefix (commanded.growth.isPrefix hm)
    exact Int.le_trans (Int.ofNat_le.2 hof.length_le) commanded.bounded

/-- A moment that adds a record of an order is the step of a call whose command has been decided on
the current state of the order. -/
theorem decides_of_mem_added (commanded : Commanded s₀ h s orderId) {h₁ h₂ : History} {m : Moment}
    (heq : h = h₁ ++ m :: h₂) {r : Record} (hr : r ∈ m.added)
    (haggregate : r.aggregateId = orderId) :
    ∃ call command load state e, m.isStepOf call = true ∧
      h₁.Decides s₀.registry orderId (Record.of orderId m.before.storage.journal.records) r call
        command load state e ∧
      m.after.storage.journal.records = m.before.storage.journal.records ++ [r] := by
  subst haggregate
  have hm : m ∈ h := by
    rw [heq]
    exact List.mem_append_right _ (List.mem_cons_self ..)
  obtain ⟨before, known, perform⟩ := commanded.run.cut heq
  have earlier := commanded.cut heq
  obtain ⟨new, hgrows, hnew⟩ :=
    before.grows commanded.fresh known perform (commanded.undisturbed m hm)
  obtain rfl : m.added = new := Moment.added_eq hgrows
  rcases hnew with hnone | ⟨call, stage, haction, hget, completes⟩
  · rw [hnone] at hr
    simp at hr
  · rcases before.origin earlier.fresh earlier.undisturbed earlier.foreign hget completes with
      hothers | ⟨command, asks⟩
    · exact (hothers r hr rfl).elim
    · obtain ⟨load, state, e, r', accepts, hadded, keeps⟩ :=
        before.saves_of_asks earlier.fresh earlier.undisturbed hget asks completes
      rw [hadded] at hgrows hr
      obtain rfl := List.mem_singleton.1 hr
      -- the record is in the stream at the end, so there was a number for it
      have hof : Record.of r.aggregateId m.after.storage.journal.records <+: _ :=
        Record.of_isPrefix (commanded.growth.past m hm).2
      have hle := hof.length_le
      rw [hgrows.records, Record.of_append, Record.of_singleton, List.length_append,
        List.length_singleton] at hle
      have bounded := commanded.bounded
      have decides := (before.decides_of_accepts earlier.fresh earlier.undisturbed
        earlier.readable earlier.kept accepts keeps hgrows.free (by omega)).1
      refine ⟨call, command, load, state, e, ?_, decides, hgrows.records⟩
      rw [Moment.isStepOf, haction]
      exact decide_eq_true rfl

/-- The record at any place of the stream is not in front of it, nor behind. -/
theorem not_mem_of_stream (commanded : Commanded s₀ h s orderId) {earlier later : List Record}
    {r : Record} (hstream : Record.of orderId s.storage.journal.records = earlier ++ r :: later) :
    r ∉ earlier ∧ r ∉ later := by
  have hnodup := Record.nodup_of commanded.kept.numbered
  rw [hstream, List.nodup_middle, List.nodup_cons, List.mem_append, not_or] at hnodup
  exact hnodup.1

/-- Each record of an order is that of a call whose command has been decided on the state which the
records before it replay to. -/
theorem decided (commanded : Commanded s₀ h s orderId) {earlier later : List Record} {r : Record}
    (hstream : Record.of orderId s.storage.journal.records = earlier ++ r :: later) :
    ∃ call command load state e, h.addedBy call = [r] ∧
      h.Decides s₀.registry orderId earlier r call command load state e := by
  have growth := commanded.growth
  have hmem : r ∈ Record.of orderId s.storage.journal.records := by rw [hstream]; simp
  obtain ⟨hr, rfl⟩ := Record.mem_of.1 hmem
  rw [growth.records] at hr
  obtain ⟨m, hm, hadded⟩ := List.mem_flatMap.1 hr
  obtain ⟨h₁, h₂, heq⟩ := List.append_of_mem hm
  obtain ⟨call, command, load, state, e, hstep, decides, hafter⟩ :=
    commanded.decides_of_mem_added heq hadded rfl
  have accepts : h.Accepts call r.aggregateId command load state e := by
    rw [heq]
    exact decides.accepts.append _
  -- the record is at one place of the stream only
  have hof : Record.of r.aggregateId m.after.storage.journal.records <+: earlier ++ r :: later :=
    hstream ▸ Record.of_isPrefix (growth.past m hm).2
  rw [hafter, Record.of_append, Record.of_singleton] at hof
  obtain ⟨rest, hrest⟩ := hof
  rw [List.append_assoc, List.singleton_append] at hrest
  obtain ⟨hearlier, hlater⟩ := commanded.not_mem_of_stream hstream
  obtain ⟨rfl, -⟩ := (List.append_cons_inj_of_notMem hearlier hlater).1 hrest.symm
  have hcall : r ∈ h.addedBy call :=
    List.mem_flatMap.2 ⟨m, List.mem_filter.2 ⟨hm, hstep⟩, hadded⟩
  refine ⟨call, command, load, state, e, ?_, { decides with accepts }⟩
  rcases commanded.run.addedBy_of_asks commanded.fresh commanded.undisturbed accepts.asks with
    hnone | ⟨-, -, -, r', -, hone, -⟩
  · rw [hnone] at hcall
    simp at hcall
  · rw [hone] at hcall
    rw [hone, List.mem_singleton.1 hcall]

/-- The records of an order up to any point are those of calls that carry their commands out one
after another. -/
theorem executes (commanded : Commanded s₀ h s orderId) {earlier later : List Record}
    (hstream : Record.of orderId s.storage.journal.records = earlier ++ later) :
    ∃ turns, Order.Executes h s₀.registry orderId earlier turns := by
  induction earlier using List.reverseRecOn generalizing later with
  | nil => exact ⟨[], Order.executes_nil ..⟩
  | append_singleton earlier r ih =>
    rw [List.append_assoc, List.singleton_append] at hstream
    obtain ⟨turns, executes⟩ := ih hstream
    obtain ⟨call, command, load, state, e, hadded, decides⟩ := commanded.decided hstream
    obtain ⟨now, executes⟩ :=
      executes.concat decides hadded (commanded.not_mem_of_stream hstream).1
    exact ⟨_, executes⟩

end Commanded

end EventJournal
