import EventJournal.Proofs.Order.Books
import EventJournal.Proofs.Order.Settling
import EventJournal.Proofs.System.Outlets

/-!
# Commands one by one

How a system gets on with commands that come one by one. While a call is under way no other adds a
record, so what the call has loaded stays current, and its save finds nothing amiss.

* `Sequential`, the runs in which commands come one by one;
* `History.Awaits`, `History.Pends`, `History.Settled`: what has become of the last command, and
  `Call.Stage.Attends`, where its call stands;
* `Sequential.attends_of_step`, the steps of that call;
* `History.Stands`, where the calls of all commands stand, and `History.Decided`, on which orders
  they have been decided.

The main statements are `Sequential.stands` and `Sequential.decided`.
-/

namespace EventJournal

/-- A call answers to a command: with what it has saved, even if it was not handled everywhere, or
with the rule that the command breaks. -/
def Call.Outcome.IsAnswer : Call.Outcome → Prop
  | .ok (.saved _) | .error (.commit (.dispatch ..)) | .error (.rule _) => True
  | _ => False

/-- A run in which commands come one by one, and their events can be read. The versions of orders
are 64-bit integers, and there is one more after each. -/
structure Sequential (s₀ : System) (h : History) (s : System) : Prop where
  run : Run s₀ h s
  fresh : s₀.Fresh
  readable : Order.Readable s₀.registry
  oneByOne : h.OneByOne
  bounded : ∀ orderId,
    ((Record.of orderId s.storage.journal.records).length : Int) < Numeral.maxInt64

/-- At a moment no command is asked for or decided, and no record is added. -/
structure Moment.IsQuiet (m : Moment) : Prop where
  demand : m.demand? = none
  decision : m.decision? = none
  registry : m.after.registry = m.before.registry
  records : m.after.storage.journal.records = m.before.storage.journal.records

namespace History

/-- All commands that were asked for have been decided, and the orders are as after that. -/
def Settled (h : History) (s : System) : Prop :=
  h.demands = h.decisions.map Order.Decision.toDemand ∧ s.Shows (.of h.decisions)

/-- The last command that was asked for is still to be decided. -/
def Awaits (h : History) (s : System) (d : Order.Demand) : Prop :=
  h.demands = h.decisions.map Order.Decision.toDemand ++ [d] ∧ s.Shows (.of h.decisions)

/-- The last command that was asked for has been accepted, and its event is still to be stored. -/
def Pends (h : History) (s : System) (d : Order.Demand) : Prop :=
  h.demands = h.decisions.map Order.Decision.toDemand ∧
    ∃ before load now e,
      h.Accepts d.call d.orderId d.command load (Order.Book.of before d.orderId) e ∧
        Order.decideOn (Order.Book.of before d.orderId) now d.command = .ok [e.data] ∧
        h.decisions = before ++ [⟨d, now, e.createdAt⟩] ∧ s.Shows (.of before)

end History

/-- Where the call of the last command stands. -/
def Call.Stage.Attends (h : History) (s : System) (d : Order.Demand) : Call.Stage → Prop
  | .loading .. => h.Awaits s d
  | .loaded _ _ order | .deciding _ _ order _ =>
    h.Awaits s d ∧ order = Order.Book.of h.decisions d.orderId
  | .queued _ | .entered _ | .held .. => h.Pends s d
  | .saving _ _ _ save => h.Pends s d ∧ save.IsSmooth
  | .saved .. | .dispatching .. => h.Settled s
  | .finished outcome => outcome.IsAnswer ∧ h.Settled s
  | .reloading _ | .draining => False

namespace Moment.IsQuiet

variable {h : History} {m : Moment} {d : Order.Demand}

theorem demands_eq (quiet : m.IsQuiet) : History.demands (h ++ [m]) = h.demands := by
  simp [quiet.demand]

theorem decisions_eq (quiet : m.IsQuiet) : History.decisions (h ++ [m]) = h.decisions := by
  simp [quiet.decision]

theorem settled (quiet : m.IsQuiet) (settled : h.Settled m.before) :
    History.Settled (h ++ [m]) m.after := by
  rw [History.Settled, quiet.demands_eq, quiet.decisions_eq]
  exact ⟨settled.1, settled.2.of_eq quiet.registry quiet.records⟩

theorem awaits (quiet : m.IsQuiet) (awaits : h.Awaits m.before d) :
    History.Awaits (h ++ [m]) m.after d := by
  rw [History.Awaits, quiet.demands_eq, quiet.decisions_eq]
  exact ⟨awaits.1, awaits.2.of_eq quiet.registry quiet.records⟩

theorem pends (quiet : m.IsQuiet) (pends : h.Pends m.before d) :
    History.Pends (h ++ [m]) m.after d := by
  obtain ⟨asked, before, load, now, e, accepts, decide, decisions, shows⟩ := pends
  rw [History.Pends, quiet.demands_eq, quiet.decisions_eq]
  exact ⟨asked, before, load, now, e, accepts.append [m], decide, decisions,
    shows.of_eq quiet.registry quiet.records⟩

/-- A call stands where it stood. -/
theorem attends (quiet : m.IsQuiet) {stage : Call.Stage} (attends : stage.Attends h m.before d) :
    stage.Attends (h ++ [m]) m.after d := by
  cases stage with
  | loading => exact quiet.awaits attends
  | loaded => exact ⟨quiet.awaits attends.1, by rw [quiet.decisions_eq]; exact attends.2⟩
  | deciding => exact ⟨quiet.awaits attends.1, by rw [quiet.decisions_eq]; exact attends.2⟩
  | queued => exact quiet.pends attends
  | entered => exact quiet.pends attends
  | held => exact quiet.pends attends
  | saving => exact ⟨quiet.pends attends.1, attends.2⟩
  | saved => exact quiet.settled attends
  | dispatching => exact quiet.settled attends
  | finished => exact ⟨attends.1, quiet.settled attends.2⟩
  | reloading => exact attends.elim
  | draining => exact attends.elim

end Moment.IsQuiet

/-- What a decision comes to whose event fits the order that it was made on. -/
theorem History.Accepts.verdict {h : History} {d : Order.Demand} {book : Order.Book}
    {load : Moment} {now : Time} {e : DomainEvent Order.Event} {order : Order}
    (accepts : h.Accepts d.call d.orderId d.command load (book d.orderId) e)
    (decide : Order.decideOn (book d.orderId) now d.command = .ok [e.data])
    (fits : Order.applyOn (book d.orderId) e = .ok order) :
    book.verdict ⟨d, now, e.createdAt⟩ = .ok ([e.data], some order) := by
  have he : e = ⟨d.orderId, Order.versionOf (book d.orderId) + 1, e.createdAt, e.data⟩ := by
    rw [← accepts.sequenceNo, ← accepts.aggregateId]
  exact Order.carryOut_eq_ok decide (he ▸ fits)

namespace Sequential

variable {s₀ s s' : System} {h : History} {d : Order.Demand} {stage : Call.Stage} {a : Action}

theorem commanded (sequential : Sequential s₀ h s) (orderId : String) :
    Commanded s₀ h s orderId where
  run := sequential.run
  fresh := sequential.fresh
  undisturbed := sequential.oneByOne.undisturbed
  readable := sequential.readable
  foreign e brings := (sequential.oneByOne.nothing e brings).elim
  bounded := Int.le_of_lt (sequential.bounded orderId)

theorem growth (sequential : Sequential s₀ h s) : Run.Growth s₀ h s :=
  sequential.run.growth sequential.fresh sequential.oneByOne.undisturbed

/-- The state of an order in a book has the number of its records as its version. -/
theorem version_eq (sequential : Sequential s₀ h s) {book : Order.Book} (shows : s.Shows book)
    (orderId : String) :
    Order.versionOf (book orderId) = (Record.of orderId s.storage.journal.records).length := by
  obtain ⟨state, replays, version⟩ := (sequential.commanded orderId).kept.replays List.prefix_rfl
  have hshows := shows orderId
  rw [sequential.growth.registry] at hshows
  rw [hshows.unique replays, version]

/-- Up to its last moment a run was such a run. -/
theorem before (sequential : Sequential s₀ (h ++ [⟨s, a, s'⟩]) s') : Sequential s₀ h s where
  run := (sequential.run.cut rfl).1
  fresh := sequential.fresh
  readable := sequential.readable
  oneByOne := sequential.oneByOne.of_append
  bounded orderId := by
    have hof : Record.of orderId s.storage.journal.records <+: _ :=
      Record.of_isPrefix (sequential.growth.isPrefix (m := ⟨s, a, s'⟩) (by simp))
    exact Int.lt_of_le_of_lt (Int.ofNat_le.2 hof.length_le) (sequential.bounded orderId)

/-- Only calls of commands add records. -/
theorem quiet_or_asks (sequential : Sequential s₀ (h ++ [⟨s, a, s'⟩]) s') :
    s'.registry = s.registry ∧ (s'.storage.journal.records = s.storage.journal.records ∨
      ∃ call orderId command purpose envelopes since save, a = .step (.call call) ∧
        h.Asks call (.handle orderId command) ∧
        s.calls.get? call = some (.saving purpose envelopes since save)) := by
  have earlier := sequential.before
  obtain ⟨run, known, perform⟩ := sequential.run.cut rfl
  have quiet : a.disturbsStorage = false :=
    (History.undisturbed_concat.1 sequential.oneByOne.undisturbed).2
  refine ⟨sequential.growth.registry.trans earlier.growth.registry.symm, ?_⟩
  obtain ⟨new, hgrows, hnew⟩ := run.grows sequential.fresh known perform quiet
  rw [hgrows.records]
  cases new with
  | nil => exact .inl (List.append_nil _)
  | cons r rest =>
    rcases hnew with hnone | ⟨call, stage, rfl, hget, completes⟩
    · simp at hnone
    · obtain hothers | ⟨command, asks⟩ := run.origin sequential.fresh
        earlier.oneByOne.undisturbed (earlier.commanded r.aggregateId).foreign hget completes
      · exact (hothers r (List.mem_cons_self ..) rfl).elim
      · obtain ⟨purpose, envelopes, since, save, storage, rfl, -⟩ := completes
        exact .inr ⟨call, _, command, purpose, envelopes, since, save, rfl, asks, hget⟩

/-! ### The steps of the last command -/

section Step

variable (sequential : Sequential s₀ (h ++ [⟨s, .step (.call d.call), s'⟩]) s')
include sequential

theorem stepCall (hget : s.calls.get? d.call = some stage) :
    s.ledger.CallStep d.call stage s'.ledger :=
  sequential.before.run.callStep sequential.fresh hget (sequential.run.cut rfl).2.2

theorem records_of_step (hget : s.calls.get? d.call = some stage)
    (unsaved : ∀ purpose envelopes since save, stage ≠ .saving purpose envelopes since save) :
    s'.registry = s.registry ∧ s'.storage.journal.records = s.storage.journal.records := by
  obtain ⟨registry, hrecords⟩ := sequential.quiet_or_asks
  refine ⟨registry, ?_⟩
  rcases hrecords with hrecords | ⟨_, _, _, purpose, envelopes, since, save, heq, -, hget'⟩
  · exact hrecords
  · obtain rfl := Agent.call.inj (Action.step.inj heq)
    exact (unsaved _ _ _ _ (Option.some.inj (hget.symm.trans hget'))).elim

theorem quiet_of_step (hget : s.calls.get? d.call = some stage)
    (unsaved : ∀ purpose envelopes since save, stage ≠ .saving purpose envelopes since save)
    (undecided : ∀ orderId command order now, stage ≠ .deciding orderId command order now) :
    Moment.IsQuiet ⟨s, .step (.call d.call), s'⟩ := by
  obtain ⟨registry, hrecords⟩ := sequential.records_of_step hget unsaved
  exact ⟨rfl, Moment.decision?_step hget undecided, registry, hrecords⟩

/-- Once the event of a command is stored, the orders are those of the book. -/
theorem shows_of_stored {before : List Order.Decision} {load : Moment} {now : Time}
    {e : DomainEvent Order.Event} {r : Record}
    (accepts : h.Accepts d.call d.orderId d.command load (Order.Book.of before d.orderId) e)
    (decide : Order.decideOn (Order.Book.of before d.orderId) now d.command = .ok [e.data])
    (decisions : h.decisions = before ++ [⟨d, now, e.createdAt⟩]) (shows : s.Shows (.of before))
    (keeps : r.Keeps e.toEvent) (grows : s.storage.journal.Grows [r] s'.storage.journal) :
    s'.Shows (.of h.decisions) := by
  have haggregate := accepts.aggregateId_of_keeps keeps
  have hbound := sequential.bounded d.orderId
  rw [grows.records, Record.of_append, ← haggregate, Record.of_singleton, haggregate,
    List.length_append, List.length_singleton] at hbound
  have kept := (sequential.before.commanded d.orderId).kept
  obtain ⟨order, fits, replays⟩ := (sequential.before.run.decides_of_accepts sequential.fresh
    sequential.before.oneByOne.undisturbed sequential.readable kept accepts keeps grows.free
    (Int.le_of_lt hbound)).1.fits
  rw [← sequential.before.growth.registry] at replays
  rw [decisions, Order.Book.of_concat]
  exact shows.next (accepts.verdict decide fits) sequential.quiet_or_asks.1 haggregate grows.records
    replays

/-- The time of the decision is read. -/
theorem attends_of_loaded {orderId : String} {command : Order.Command} {order : Option Order}
    (hget : s.calls.get? d.call = some (.loaded orderId command order)) (awaits : h.Awaits s d)
    (horder : order = Order.Book.of h.decisions d.orderId) :
    ∃ stage', s'.calls.get? d.call = some stage' ∧
      stage'.Attends (h ++ [⟨s, .step (.call d.call), s'⟩]) s' d := by
  have quiet := sequential.quiet_of_step hget (by simp) (by simp)
  have callStep := sequential.stepCall hget
  generalize hl : s'.ledger = l' at callStep
  cases callStep with
  | timed =>
    refine ⟨_, System.get?_of_ledger hl rfl, quiet.awaits awaits, ?_⟩
    rw [quiet.decisions_eq]
    exact horder

variable (asks : h.Asks d.call (.handle d.orderId d.command))
include asks

theorem handles (hget : s.calls.get? d.call = some stage) :
    stage.Handles h s.ledger d.call d.orderId d.command :=
  sequential.before.run.handles sequential.fresh sequential.before.oneByOne.undisturbed hget asks

/-- What is loaded is the order of the book. -/
theorem attends_of_loading {orderId : String} {command : Order.Command}
    (hget : s.calls.get? d.call = some (.loading orderId command)) (awaits : h.Awaits s d) :
    ∃ stage', s'.calls.get? d.call = some stage' ∧
      stage'.Attends (h ++ [⟨s, .step (.call d.call), s'⟩]) s' d := by
  have quiet := sequential.quiet_of_step hget (by simp) (by simp)
  have awaits' := quiet.awaits awaits
  obtain ⟨rfl, -, -⟩ := sequential.handles asks hget
  -- the records are read, and they replay
  have hnumbered := (sequential.before.commanded d.orderId).kept.numbered
  obtain ⟨envelopes, hdecode, hreplay⟩ := awaits.2 d.orderId
  rw [← Journal.query_eq_of hnumbered] at hdecode
  have calm := sequential.before.growth.faults
  have callStep := sequential.stepCall hget
  generalize hl : s'.ledger = l' at callStep
  cases callStep with
  | @loaded _ _ storage envelopes' order load replay =>
    have hdecode' := (Store.loadFrom_watched rfl load).2.1 envelopes' rfl
    obtain rfl := Except.ok.inj (hdecode.symm.trans hdecode')
    refine ⟨_, System.get?_of_ledger hl rfl, awaits', ?_⟩
    rw [quiet.decisions_eq]
    exact Except.ok.inj (replay.symm.trans hreplay)
  | unloaded load =>
    obtain ⟨e, hunread⟩ := (Store.loadFrom_watched rfl load).2.2 calm _ rfl
    have himpossible := hdecode.symm.trans hunread
    simp at himpossible
  | unreplayed load replay =>
    have hdecode' := (Store.loadFrom_watched rfl load).2.1 _ rfl
    obtain rfl := Except.ok.inj (hdecode.symm.trans hdecode')
    simp [hreplay] at replay

/-- The command is decided on the order of the book. -/
theorem attends_of_deciding {orderId : String} {command : Order.Command} {order : Option Order}
    {now : Time} (hget : s.calls.get? d.call = some (.deciding orderId command order now))
    (awaits : h.Awaits s d) (horder : order = Order.Book.of h.decisions d.orderId) :
    ∃ stage', s'.calls.get? d.call = some stage' ∧
      stage'.Attends (h ++ [⟨s, .step (.call d.call), s'⟩]) s' d := by
  obtain ⟨rfl, rfl, load, read, hread, finds, rfl⟩ := sequential.handles asks hget
  obtain ⟨demands, shows⟩ := awaits
  obtain ⟨registry, hrecords⟩ := sequential.records_of_step hget (by simp)
  have hdecisions : History.decisions (h ++ [⟨s, .step (.call d.call), s'⟩]) =
      h.decisions ++ [⟨d, read.before.clock, s.clock⟩] := by
    rw [History.decisions_concat, Moment.decision?_deciding hget]
    rfl
  have hdemands : History.demands (h ++ [⟨s, .step (.call d.call), s'⟩]) =
      (History.decisions (h ++ [⟨s, .step (.call d.call), s'⟩])).map Order.Decision.toDemand := by
    rw [hdecisions, History.demands_concat, demands, List.map_append]
    exact List.append_nil _
  have callStep := sequential.stepCall hget
  generalize hl : s'.ledger = l' at callStep
  cases callStep with
  | @ruledOut _ _ _ _ e decide =>
    -- the book refuses as well, and stays what it is
    rw [horder] at decide
    refine ⟨_, System.get?_of_ledger hl rfl, ?_⟩
    refine ⟨trivial, hdemands, ?_⟩
    have refused :=
      Order.Book.verdict_of_refused (d := ⟨d, read.before.clock, s.clock⟩) decide
    rw [hdecisions, Order.Book.of_concat, Order.Book.next_of_refused refused]
    exact shows.of_eq registry hrecords
  | decided mode decide =>
    obtain ⟨payload, rfl, -⟩ := Order.decideOn_eq_ok decide
    have hsteps : History.stepsOf (h ++ [⟨s, .step (.call d.call), s'⟩]) d.call =
        [load, read, ⟨s, .step (.call d.call), s'⟩] := by
      rw [History.stepsOf_concat, if_pos (Moment.isStepOf_self ..), hread]
      rfl
    rw [horder] at decide finds
    have accepts : History.Accepts (h ++ [⟨s, .step (.call d.call), s'⟩]) d.call d.orderId d.command
        load (Order.Book.of h.decisions d.orderId) ⟨d.orderId, _, s.clock, payload⟩ :=
      ⟨asks.append _, ⟨read, _, [], hsteps, decide, rfl⟩, finds, rfl, rfl⟩
    exact ⟨_, System.get?_of_ledger hl rfl, hdemands, h.decisions, load, _, _, accepts, decide,
      hdecisions, shows.of_eq registry hrecords⟩

/-- The unit of work is committed, up to the save of its event. -/
theorem attends_of_pending (hget : s.calls.get? d.call = some stage)
    (pending : stage.IsPending)
    (unsaved : ∀ purpose envelopes since save, stage ≠ .saving purpose envelopes since save)
    (pends : h.Pends s d) :
    ∃ stage', s'.calls.get? d.call = some stage' ∧
      stage'.Attends (h ++ [⟨s, .step (.call d.call), s'⟩]) s' d := by
  have undecided : ∀ orderId command order now, stage ≠ .deciding orderId command order now := by
    rintro _ _ _ _ rfl
    exact pending
  have pends' := (sequential.quiet_of_step hget unsaved undecided).pends pends
  have handles := sequential.handles asks hget
  have callStep := sequential.stepCall hget
  generalize hl : s'.ledger = l' at callStep
  cases callStep with
  | entered => exact ⟨_, System.get?_of_ledger hl rfl, pends'⟩
  | fixed => exact ⟨_, System.get?_of_ledger hl rfl, pends'⟩
  -- the unit is the call's own, open and not empty, and its event can be written
  | refused get begin =>
    obtain ⟨u, -, owns⟩ := handles
    obtain rfl := Option.some.inj (owns.get.symm.trans get)
    have hbegin := UnitOfWork.begin_eq_ok_iff.2 ⟨owns.phase, rfl, rfl⟩
    simp [hbegin] at begin
  | emptied get begin =>
    obtain ⟨u, ⟨_, _, e, -, hevents⟩, owns⟩ := handles
    obtain rfl := Option.some.inj (owns.get.symm.trans get)
    obtain ⟨-, hnil, -⟩ := UnitOfWork.begin_eq_ok_iff.1 begin
    simp [hevents] at hnil
  | savedNothing => exact handles.elim
  | @unprepared purpose events e l' nonempty prepare failed =>
    cases purpose with
    | itself => exact handles.elim
    | commit unit =>
      obtain ⟨_, _, e, -, rfl⟩ := handles
      obtain ⟨entries, hentries⟩ := exists_prepare s.newId s.clock s.ids
        (List.forall_mem_singleton.2 (Order.exists_payload_toEvent e))
      have himpossible := hentries.symm.trans prepare
      simp at himpossible
  | prepared => exact ⟨_, System.get?_of_ledger hl rfl, pends', trivial⟩
  | asked => exact (unsaved _ _ _ _ rfl).elim
  | stored => exact (unsaved _ _ _ _ rfl).elim
  | failed => exact (unsaved _ _ _ _ rfl).elim
  | _ => exact pending.elim

/-- What the save of a command is to add is the next record of its order, and there is a number for
it. -/
theorem next_of_saving {purpose : Call.Purpose} {envelopes : List Envelope} {since : Time}
    {save : Saving Transaction} {before : List Order.Decision} {load : Moment}
    {e : DomainEvent Order.Event}
    (hget : s.calls.get? d.call = some (.saving purpose envelopes since save))
    (accepts : h.Accepts d.call d.orderId d.command load (Order.Book.of before d.orderId) e)
    (shows : s.Shows (.of before)) :
    ∃ r, save.Carries [r] ∧ r.Keeps e.toEvent ∧
      r.sequenceNo = Record.lastOf r.aggregateId s.storage.journal.records + 1 ∧
      Record.lastOf r.aggregateId s.storage.journal.records < Numeral.maxInt64 := by
  obtain ⟨-, -, records, carries, isOf⟩ := sequential.before.run.stored sequential.fresh hget
  have handles := sequential.handles asks hget
  cases purpose with
  | itself => exact handles.elim
  | commit unit =>
    obtain ⟨⟨load', state', e', accepts', hevents⟩, -⟩ := handles
    obtain ⟨-, -, rfl⟩ := accepts.unique accepts'
    obtain ⟨envelope, r, rfl, rfl, hr, hevent⟩ := exists_isOf_of_singleton hevents isOf
    have keeps : r.Keeps e.toEvent := ⟨envelope, hr, hevent⟩
    have hlast := (sequential.before.commanded d.orderId).kept.numbered.lastOf_eq
    rw [← Record.length_of] at hlast
    refine ⟨r, carries, keeps, ?_, ?_⟩
    · rw [accepts.sequenceNo_of_keeps keeps, sequential.before.version_eq shows,
        accepts.aggregateId_of_keeps keeps, hlast]
    · rw [accepts.aggregateId_of_keeps keeps, hlast]
      exact sequential.before.bounded d.orderId

/-- The save finds nothing amiss, and adds the record of the event. -/
theorem attends_of_saving {purpose : Call.Purpose} {envelopes : List Envelope} {since : Time}
    {save : Saving Transaction}
    (hget : s.calls.get? d.call = some (.saving purpose envelopes since save))
    (pends : h.Pends s d) (smooth : save.IsSmooth) :
    ∃ stage', s'.calls.get? d.call = some stage' ∧
      stage'.Attends (h ++ [⟨s, .step (.call d.call), s'⟩]) s' d := by
  obtain ⟨demands, before, load, now, e, accepts, decide, decisions, shows⟩ := id pends
  obtain ⟨r, carries, keeps, next, room⟩ := sequential.next_of_saving asks hget accepts shows
  have calm := sequential.before.growth.faults
  have undecided : Moment.decision? ⟨s, .step (.call d.call), s'⟩ = none :=
    Moment.decision?_step hget (by simp)
  have handles := sequential.handles asks hget
  have callStep := sequential.stepCall hget
  generalize hl : s'.ledger = l' at callStep
  have hstorage : s'.storage = l'.storage := congrArg Ledger.storage hl
  cases callStep with
  | @asked _ _ _ _ save' storage step going =>
    rcases carries.step step with ⟨rfl, -⟩ | ⟨hjournal, -⟩
    · simp [Saving.isDone] at going
    · have quiet : Moment.IsQuiet ⟨s, .step (.call d.call), s'⟩ := by
        refine ⟨rfl, undecided, sequential.quiet_or_asks.1, ?_⟩
        show s'.storage.journal.records = s.storage.journal.records
        rw [hstorage]
        exact congrArg Journal.records hjournal
      exact ⟨_, System.get?_of_ledger hl rfl, quiet.pends pends,
        smooth.step carries calm next room step⟩
  | @stored _ _ _ _ storage l' step completed =>
    cases completed with
    | itself => exact handles.elim
    | commit get =>
      have grows : s.storage.journal.Grows [r] s'.storage.journal := by
        rw [hstorage]
        rcases carries.step step with ⟨-, grows⟩ | ⟨-, hcarries | ⟨e, himpossible⟩⟩
        · exact grows
        · exact hcarries.elim
        · simp at himpossible
      refine ⟨_, System.get?_of_ledger hl rfl, ?_, ?_⟩
      · rw [History.demands_concat, History.decisions_concat, undecided]
        simpa [Moment.demand?] using demands
      · rw [History.decisions_concat, undecided, Option.toList_none, List.append_nil]
        exact sequential.shows_of_stored accepts decide decisions shows keeps grows
  | failed step => exact (smooth.step carries calm next room step).elim

/-- The events of a command are handed over once they are saved. -/
theorem attends_of_handing (hget : s.calls.get? d.call = some stage)
    (handing : stage.isHanding = true) (settled : h.Settled s) :
    ∃ stage', s'.calls.get? d.call = some stage' ∧
      stage'.Attends (h ++ [⟨s, .step (.call d.call), s'⟩]) s' d := by
  have unsaved : ∀ purpose envelopes since save,
      stage ≠ .saving purpose envelopes since save := by
    rintro _ _ _ _ rfl
    simp [Call.Stage.isHanding] at handing
  have undecided : ∀ orderId command order now, stage ≠ .deciding orderId command order now := by
    rintro _ _ _ _ rfl
    simp [Call.Stage.isHanding] at handing
  have settled' := (sequential.quiet_of_step hget unsaved undecided).settled settled
  have handles := sequential.handles asks hget
  have callStep := sequential.stepCall hget
  generalize hl : s'.ledger = l' at callStep
  cases callStep with
  | dispatches => exact ⟨_, System.get?_of_ledger hl rfl, settled'⟩
  | enqueues result => cases result <;> exact ⟨_, System.get?_of_ledger hl rfl, trivial, settled'⟩
  | tells => exact ⟨_, System.get?_of_ledger hl rfl, settled'⟩
  | told => exact handles.elim
  | toldCommit result => cases result <;> exact ⟨_, System.get?_of_ledger hl rfl, trivial, settled'⟩
  | _ => simp [Call.Stage.isHanding] at handing

/-- The call of the last command takes a step. -/
theorem attends_of_step (hget : s.calls.get? d.call = some stage) (attends : stage.Attends h s d) :
    ∃ stage', s'.calls.get? d.call = some stage' ∧
      stage'.Attends (h ++ [⟨s, .step (.call d.call), s'⟩]) s' d := by
  cases stage with
  | loading => exact sequential.attends_of_loading asks hget attends
  | loaded => exact sequential.attends_of_loaded hget attends.1 attends.2
  | deciding => exact sequential.attends_of_deciding asks hget attends.1 attends.2
  | queued => exact sequential.attends_of_pending asks hget trivial (by simp) attends
  | entered => exact sequential.attends_of_pending asks hget trivial (by simp) attends
  | held => exact sequential.attends_of_pending asks hget trivial (by simp) attends
  | saving => exact sequential.attends_of_saving asks hget attends.1 attends.2
  | saved => exact sequential.attends_of_handing asks hget rfl attends
  | dispatching => exact sequential.attends_of_handing asks hget rfl attends
  | reloading => exact attends.elim
  | draining => exact attends.elim
  | finished => cases sequential.stepCall hget

end Step

end Sequential

/-! ### All commands -/

/-- Where the calls of all commands stand: those before the last one have answered. -/
inductive History.Stands (h : History) (s : System) : Prop
  | resting (none : h.demands = []) (settled : h.Settled s)
  | serving {earlier : List Order.Demand} {d : Order.Demand} {stage : Call.Stage}
      (demands : h.demands = earlier ++ [d])
      (answered : ∀ d' ∈ earlier, ∃ outcome : Call.Outcome, outcome.IsAnswer ∧
        s.calls.get? d'.call = some (.finished outcome))
      (get : s.calls.get? d.call = some stage) (attends : stage.Attends h s d)

namespace History

variable {h : History} {m : Moment}

/-- Calls that stand where they stood, at a quiet moment. -/
theorem Stands.of_quiet (stands : h.Stands m.before) (quiet : m.IsQuiet)
    (same : ∀ d ∈ h.demands, ∀ stage, m.before.calls.get? d.call = some stage →
      m.after.calls.get? d.call = some stage) : Stands (h ++ [m]) m.after := by
  cases stands with
  | resting none settled => exact .resting (quiet.demands_eq.trans none) (quiet.settled settled)
  | @serving earlier d stage demands answered get attends =>
    refine .serving (quiet.demands_eq.trans demands) (fun d' hd' => ?_)
      (same d (by simp [demands]) _ get) (quiet.attends attends)
    obtain ⟨outcome, answer, get'⟩ := answered d' hd'
    exact ⟨outcome, answer, same d' (by simp [demands, hd']) _ get'⟩

/-- The call of a command has answered, or it is that of the last one. -/
theorem Stands.answered_or_attends {s : System} (stands : h.Stands s) {d : Order.Demand}
    (hd : d ∈ h.demands) {stage : Call.Stage} (hget : s.calls.get? d.call = some stage) :
    (∃ outcome : Call.Outcome, outcome.IsAnswer ∧ stage = .finished outcome) ∨
      stage.Attends h s d := by
  cases stands with
  | resting none => simp [none] at hd
  | serving demands answered get attends =>
    rw [demands] at hd
    rcases List.mem_append.1 hd with hd | hd
    · obtain ⟨outcome, answer, get'⟩ := answered d hd
      exact .inl ⟨outcome, answer, Option.some.inj (hget.symm.trans get')⟩
    · obtain rfl := List.mem_singleton.1 hd
      exact .inr (Option.some.inj (get.symm.trans hget) ▸ attends)

theorem Stands.exists_stage {s : System} (stands : h.Stands s) {d : Order.Demand}
    (hd : d ∈ h.demands) : ∃ stage, s.calls.get? d.call = some stage := by
  cases stands with
  | resting none => simp [none] at hd
  | serving demands answered get attends =>
    rw [demands] at hd
    rcases List.mem_append.1 hd with hd | hd
    · obtain ⟨outcome, -, get'⟩ := answered d hd
      exact ⟨_, get'⟩
    · obtain rfl := List.mem_singleton.1 hd
      exact ⟨_, get⟩

/-- All commands that were asked for have been decided, but maybe the last one. -/
theorem Stands.asked {s : System} (stands : h.Stands s) :
    h.demands = h.decisions.map Order.Decision.toDemand ∨
      ∃ d, h.demands = h.decisions.map Order.Decision.toDemand ++ [d] ∧
        ∀ outcome, s.calls.get? d.call ≠ some (.finished outcome) := by
  cases stands with
  | resting none settled => exact .inl settled.1
  | @serving earlier d stage demands answered get attends =>
    cases stage with
    | loading => exact .inr ⟨d, attends.1, by simp [get]⟩
    | loaded => exact .inr ⟨d, attends.1.1, by simp [get]⟩
    | deciding => exact .inr ⟨d, attends.1.1, by simp [get]⟩
    | queued => exact .inl attends.1
    | entered => exact .inl attends.1
    | held => exact .inl attends.1
    | saving => exact .inl attends.1.1
    | saved => exact .inl attends.1
    | dispatching => exact .inl attends.1
    | finished => exact .inl attends.2.1
    | reloading => exact attends.elim
    | draining => exact attends.elim

/-- When no call is under way all commands have answered. -/
theorem Stands.of_idle {s : System} (stands : h.Stands s) (idle : s.isIdle = true) :
    h.Settled s ∧ ∀ d ∈ h.demands, ∃ outcome : Call.Outcome, outcome.IsAnswer ∧
      s.calls.get? d.call = some (.finished outcome) := by
  cases stands with
  | resting none settled => exact ⟨settled, by simp [none]⟩
  | @serving earlier d stage demands answered get attends =>
    obtain ⟨outcome, rfl⟩ := System.finished_of_isIdle idle get
    refine ⟨attends.2, fun d' hd' => ?_⟩
    rw [demands] at hd'
    rcases List.mem_append.1 hd' with hd' | hd'
    · exact answered d' hd'
    · rw [List.mem_singleton.1 hd']
      exact ⟨outcome, attends.1, get⟩

end History

namespace Sequential

variable {s₀ s s' : System} {h : History} {a : Action}

/-- A new command is asked for. -/
theorem stands_of_demand {orderId : String} {command : Order.Command}
    (sequential : Sequential s₀ (h ++ [⟨s, .handle orderId command, s'⟩]) s')
    (stands : h.Stands s) : History.Stands (h ++ [⟨s, .handle orderId command, s'⟩]) s' := by
  have earlier := sequential.before
  have idle : s.isIdle = true :=
    sequential.oneByOne.inTurn ⟨s, .handle orderId command, s'⟩ (by simp) rfl
  obtain ⟨⟨hdemands, shows⟩, answered⟩ := stands.of_idle idle
  have change := earlier.run.change sequential.fresh (by simp [Action.unit?])
    (sequential.run.cut rfl).2.2
  obtain ⟨registry, hrecords⟩ := sequential.quiet_or_asks
  have hrecords : s'.storage.journal.records = s.storage.journal.records :=
    hrecords.resolve_right (by simp)
  refine .serving (d := ⟨s.lastCall + 1, orderId, command⟩) (History.demands_concat ..) ?_
    (Ledger.Change.get?_of_handle change) ?_
  · intro d hd
    obtain ⟨outcome, answer, hget⟩ := answered d hd
    exact ⟨outcome, answer, change.get?_of_other (earlier.run.tidy sequential.fresh).1 hget
      (by simp) (by simp)⟩
  · have hdecisions : History.decisions (h ++ [⟨s, .handle orderId command, s'⟩]) =
        h.decisions := by
      rw [History.decisions_concat]
      exact List.append_nil _
    refine ⟨?_, ?_⟩
    · rw [History.demands_concat, hdecisions, hdemands]
      rfl
    · rw [hdecisions]
      exact shows.of_eq registry hrecords

/-- The call of a command takes a step. -/
theorem stands_of_step {d : Order.Demand} (hd : d ∈ h.demands)
    (sequential : Sequential s₀ (h ++ [⟨s, .step (.call d.call), s'⟩]) s')
    (stands : h.Stands s) : History.Stands (h ++ [⟨s, .step (.call d.call), s'⟩]) s' := by
  have earlier := sequential.before
  cases stands with
  | resting none => simp [none] at hd
  | @serving others last stage demands answered get attends =>
    -- a call that has ended takes no step, so it is the last one that does
    have hfinished : ∀ d' ∈ others, d'.call ≠ d.call := by
      intro d' hd' heq
      obtain ⟨outcome, -, hget⟩ := answered d' hd'
      rw [heq] at hget
      cases sequential.stepCall hget
    obtain rfl : d = last := by
      rw [demands] at hd
      rcases List.mem_append.1 hd with hd | hd
      · exact (hfinished d hd rfl).elim
      · exact List.mem_singleton.1 hd
    obtain ⟨stage', hget', attends'⟩ :=
      sequential.attends_of_step (History.asks_of_mem_demands hd) get attends
    have hdemands : History.demands (h ++ [⟨s, .step (.call d.call), s'⟩]) = others ++ [d] := by
      rw [History.demands_concat, demands]
      exact List.append_nil _
    refine .serving hdemands (fun d' hd' => ?_) hget' attends'
    obtain ⟨outcome, answer, hget⟩ := answered d' hd'
    have change := earlier.run.change sequential.fresh (by simp [Action.unit?])
      (sequential.run.cut rfl).2.2
    refine ⟨outcome, answer, change.get?_of_other (earlier.run.tidy sequential.fresh).1 hget ?_
      (by simp)⟩
    rintro heq
    exact hfinished d' hd' (Agent.call.inj (Action.step.inj heq)).symm

/-- Everything else is quiet. -/
theorem quiet_of_other (sequential : Sequential s₀ (h ++ [⟨s, a, s'⟩]) s')
    (unasked : ∀ orderId command, a ≠ .handle orderId command)
    (others : ∀ d ∈ h.demands, a ≠ .step (.call d.call)) : Moment.IsQuiet ⟨s, a, s'⟩ := by
  have earlier := sequential.before
  obtain ⟨registry, hrecords⟩ := sequential.quiet_or_asks
  constructor
  case demand =>
    unfold Moment.demand?
    split
    · next heq => exact (unasked _ _ heq).elim
    · rfl
  case decision =>
    refine Option.eq_none_iff_forall_not_mem.2 fun d hd => ?_
    obtain ⟨order, haction, hget, -⟩ := Moment.decision?_eq_some hd
    rcases earlier.run.given sequential.fresh hget with ⟨orderId, command, asks⟩ | given
    · exact others _ (History.exists_mem_demands asks) haction
    · exact given.elim
  case registry => exact registry
  case records =>
    rcases hrecords with hrecords | ⟨call, orderId, command, _, _, _, _, rfl, asks, -⟩
    · exact hrecords
    · exact (others _ (History.exists_mem_demands asks) rfl).elim

/-- In a run in which commands come one by one, every call of a command but the last one has
answered. -/
theorem stands (sequential : Sequential s₀ h s) : h.Stands s := by
  have run := sequential.run
  induction run with
  | nil =>
    refine .resting rfl ⟨rfl, fun orderId => ?_⟩
    rw [sequential.fresh.records]
    exact Order.replays_nil _
  | @snoc h s s' a run known perform ih =>
    have stands := ih sequential.before
    -- a new command, a step of a command's call, or a moment that is quiet
    by_cases asked : ∃ orderId command, a = .handle orderId command
    · obtain ⟨orderId, command, rfl⟩ := asked
      exact sequential.stands_of_demand stands
    · by_cases acts : ∃ d ∈ h.demands, a = .step (.call d.call)
      · obtain ⟨d, hd, rfl⟩ := acts
        exact sequential.stands_of_step hd stands
      · simp only [not_exists, not_and] at asked acts
        refine stands.of_quiet (sequential.quiet_of_other asked acts) fun d hd stage hget => ?_
        exact (run.change sequential.fresh known perform).get?_of_other
          (run.tidy sequential.fresh).1 hget (acts d hd)
          (sequential.oneByOne.patient ⟨s, a, s'⟩ (by simp) d.call)

end Sequential

/-- A command has been decided on the state that its order has in a book. Its times are what the
clock showed at two steps of its call. -/
def History.Decided (h : History) (book : Order.Book) (d : Order.Decision) : Prop :=
  h.Asks d.call (.handle d.orderId d.command) ∧ ∃ load read decide rest,
    h.stepsOf d.call = load :: read :: decide :: rest ∧ load.Finds d.orderId (book d.orderId) ∧
      read.before.clock = d.now ∧ decide.before.clock = d.createdAt

theorem History.Decided.append {h : History} {book : Order.Book} {d : Order.Decision}
    (decided : h.Decided book d) (others : History) : Decided (h ++ others) book d := by
  obtain ⟨asks, load, read, decide, rest, hsteps, finds, clock⟩ := decided
  refine ⟨asks.append others, load, read, decide, rest ++ others.stepsOf d.call, ?_, finds, clock⟩
  rw [stepsOf_append, hsteps]
  rfl

namespace Sequential

variable {s₀ s s' : System} {h : History}

/-- What is decided is the last command, on the book after all decisions so far. -/
theorem decided_of_step {d : Order.Decision} {order : Option Order}
    (sequential : Sequential s₀ (h ++ [⟨s, .step (.call d.call), s'⟩]) s')
    (hget : s.calls.get? d.call = some (.deciding d.orderId d.command order d.now))
    (hcreated : s.clock = d.createdAt) :
    History.Decided (h ++ [⟨s, .step (.call d.call), s'⟩]) (.of h.decisions) d := by
  have earlier := sequential.before
  obtain ⟨orderId, command, asks⟩ := (earlier.run.given sequential.fresh hget).resolve_right id
  obtain ⟨rfl, rfl, load, read, hread, finds, hnow⟩ :=
    earlier.run.handles sequential.fresh earlier.oneByOne.undisturbed hget asks
  rcases earlier.stands.answered_or_attends (History.exists_mem_demands asks) hget with
    ⟨outcome, -, himpossible⟩ | ⟨-, horder⟩
  · simp at himpossible
  · refine ⟨asks.append _, load, read, ⟨s, .step (.call d.call), s'⟩, [], ?_, horder ▸ finds, hnow,
      hcreated⟩
    rw [History.stepsOf_concat, if_pos (Moment.isStepOf_self ..), hread]
    rfl

/-- In a run in which commands come one by one, each is decided on the book after the decisions
before it. -/
theorem decided (sequential : Sequential s₀ h s) {before after : List Order.Decision}
    {d : Order.Decision} (hdecisions : h.decisions = before ++ d :: after) :
    h.Decided (.of before) d := by
  have run := sequential.run
  induction run generalizing after with
  | nil => simp [History.decisions] at hdecisions
  | @snoc h s s' a run known perform ih =>
    rw [History.decisions_concat] at hdecisions
    cases hdecision : Moment.decision? ⟨s, a, s'⟩ with
    | none =>
      rw [hdecision, Option.toList_none, List.append_nil] at hdecisions
      exact (ih sequential.before hdecisions).append _
    | some last =>
      rw [hdecision, Option.toList_some] at hdecisions
      -- the decision is that of this moment, or it is an earlier one
      rcases List.eq_nil_or_concat after with rfl | ⟨after', d', rfl⟩
      · obtain ⟨rfl, hlast⟩ := List.append_inj' hdecisions rfl
        obtain rfl := (List.cons.inj hlast).1
        obtain ⟨order, haction, hget, hcreated⟩ := Moment.decision?_eq_some hdecision
        obtain rfl : a = .step (.call last.call) := haction
        exact sequential.decided_of_step hget hcreated
      · have hbefore : h.decisions ++ [last] = (before ++ d :: after') ++ [d'] := by
          simpa using hdecisions
        exact (ih sequential.before (List.append_inj' hbefore rfl).1).append _

end Sequential

end EventJournal
