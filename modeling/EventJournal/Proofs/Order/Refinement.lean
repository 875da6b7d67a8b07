import EventJournal.Proofs.Order.Returning
import EventJournal.Proofs.Order.Sequences

/-!
# Orders as a pure machine

What a system does with commands that come one by one is what the rules of orders make of them:
through encoding, the check of numbers, storage and replay the orders are those of a book, and what
the handlers do has no part in it.

* `Run.spares`, that a call leaves everything alone up to its decision;
* `Order.Answers`, how a call answers to its command;
* `OrderBook`, what becomes of the commands.

The main statement is `orderBook_of_run`.
-/

namespace EventJournal

namespace Call

/-- The envelopes that a call has saved: those of a success, or of a failure to get them to the
handlers. -/
def Outcome.envelopes? : Outcome → Option (List Envelope)
  | .ok (.saved envelopes) | .error (.commit (.dispatch envelopes _)) => some envelopes
  | _ => none

/-- A call has not accepted its command. -/
def Stage.IsUnaccepted : Stage → Prop
  | .loading .. | .loaded .. | .deciding .. | .finished (.error (.rule _)) => True
  | _ => False

end Call

/-- A moment leaves the journal, the dispatcher and the queue alone. -/
def Moment.Spares (m : Moment) : Prop :=
  m.after.storage.journal = m.before.storage.journal ∧ m.after.outlets = m.before.outlets

/-- A call that has not accepted its command has left everything alone. -/
theorem Run.spares {s₀ s : System} {h : History} (run : Run s₀ h s) (fresh : s₀.Fresh) {call : Nat}
    {stage : Call.Stage} (hget : s.calls.get? call = some stage) (unaccepted : stage.IsUnaccepted) :
    ∀ m ∈ h.stepsOf call, m.Spares := by
  refine run.stage_induction (P := fun h _ call stage =>
    stage.IsUnaccepted → ∀ m ∈ h.stepsOf call, m.Spares) fresh ?_ ?_ ?_ hget unaccepted
  · intro h s s' a stage _ _ _ _ _ hnone _
    simp [hnone]
  · intro h s s' call stage stage' _ hstep hget callStep hget' ih unaccepted
    rw [History.stepsOf_concat, if_pos (Moment.isStepOf_self ..)]
    generalize hl : s'.ledger = l' at callStep
    have hstage : ∀ {next : Call.Stage}, l'.calls = s.ledger.calls.set call next →
        next.IsUnaccepted := by
      intro next hcalls
      exact Option.some.inj (hget'.symm.trans (System.get?_of_ledger hl hcalls)) ▸ unaccepted
    have hstorage : s'.storage = l'.storage := congrArg Ledger.storage hl
    have hlast : stage.IsUnaccepted → stage.isHanding = false →
        l'.storage.journal = s.storage.journal →
        ∀ m ∈ h.stepsOf call ++ [⟨s, .step (.call call), s'⟩], m.Spares := by
      intro before plain hjournal
      refine List.forall_mem_append.2 ⟨ih before, List.forall_mem_singleton.2 ⟨?_, ?_⟩⟩
      · exact (congrArg Watched.journal hstorage).trans hjournal
      · exact System.outlets_stepCall? hstep hget plain
    cases callStep with
    | loaded load => exact hlast trivial rfl (Ledger.journal_of_load load)
    | timed => exact hlast trivial rfl rfl
    | ruledOut => exact hlast trivial rfl rfl
    | enqueues result => cases result <;> exact (hstage rfl).elim
    | toldCommit result => cases result <;> exact (hstage rfl).elim
    | told outcome plain =>
      rcases plain with rfl | ⟨e, rfl⟩ <;> exact (hstage rfl).elim
    | unprepared _ _ failed => cases failed <;> exact (hstage rfl).elim
    | stored _ completed => cases completed <;> exact (hstage rfl).elim
    | failed _ failed => cases failed <;> exact (hstage rfl).elim
    | _ => exact (hstage rfl).elim
  · intro h s s' a call stage _ _ _ hstep _ _ ih unaccepted
    rw [History.stepsOf_concat, hstep, if_neg Bool.false_ne_true, List.append_nil]
    exact ih unaccepted

/-- How a call answers to its command, which has been decided on a book. -/
structure Order.Answers (h : History) (book : Order.Book) (d : Order.Decision)
    (outcome : Call.Outcome) : Prop where
  /-- The call succeeds, or fails to get its event to the handlers, exactly if the command is
  accepted. -/
  accepted : (∃ payloads state, book.verdict d = .ok (payloads, state)) ↔
    ∃ envelopes, outcome.envelopes? = some envelopes
  /-- It fails with a rule exactly if the command breaks this rule. -/
  rejected : ∀ e, book.verdict d = .error e ↔ outcome = .error (.rule e)
  /-- A command that is accepted leads to one event, which has the number after the version of its
  order. The call gives one envelope with it, and adds one record. -/
  adds : ∀ {payloads state}, book.verdict d = .ok (payloads, state) →
    ∃ payload envelope r, payloads = [payload] ∧ outcome.envelopes? = some [envelope] ∧
      envelope.event = DomainEvent.toEvent
        ⟨d.orderId, Order.versionOf (book d.orderId) + 1, d.createdAt, payload⟩ ∧
      envelope.IsOf r ∧ h.addedBy d.call = [r]
  /-- A command that is refused changes nothing, and nothing is handed over. -/
  spares : ∀ {e}, book.verdict d = .error e →
    h.addedBy d.call = [] ∧ ∀ m ∈ h.stepsOf d.call, m.Spares

/-- What a system has made of commands that came one by one. -/
structure OrderBook (h : History) (s : System) : Prop where
  /-- When no call is under way, all commands have been decided, in the order in which they were
  asked for. -/
  asked : s.isIdle → h.decisions.map Order.Decision.toDemand = h.demands
  /-- Then the orders are those of the book. -/
  loads : s.isIdle → ∀ orderId,
    (s.loadOrder orderId).1 = .ok (Order.Book.of h.decisions orderId)
  /-- A call that has ended has decided its command. -/
  decided : ∀ {demand outcome}, demand ∈ h.demands → s.outcome? demand.call = some outcome →
    outcome.IsAnswer ∧ ∃ d ∈ h.decisions, d.toDemand = demand
  /-- Its answer is that of the book after the commands before. -/
  answers : ∀ {before d after outcome}, h.decisions = before ++ d :: after →
    s.outcome? d.call = some outcome → Order.Answers h (.of before) d outcome
  /-- A call ends when it goes on alone, unless it has to wait for the verdict of a handler. -/
  returns : s.saveGate = none → ∀ d ∈ h.demands, s.Returns d.call

/-- The order that a system loads is that of a book which it shows. -/
theorem System.Shows.loadOrder {s : System} {book : Order.Book} (shows : s.Shows book)
    (calm : s.storage.faults = []) {orderId : String}
    (hnumbered : Record.Numbered orderId s.storage.journal.records) :
    (s.loadOrder orderId).1 = .ok (book orderId) := by
  obtain ⟨envelopes, hdecode, hreplay⟩ := shows orderId
  rw [← Journal.query_eq_of hnumbered] at hdecode
  unfold System.loadOrder
  cases load : s.store.load orderId s.storage with
  | mk answer storage =>
    obtain ⟨-, hok, herror⟩ := Store.loadFrom_watched rfl load
    cases answer with
    | error e =>
      obtain ⟨e', hunread⟩ := herror calm e rfl
      have himpossible := hdecode.symm.trans hunread
      simp at himpossible
    | ok envelopes' =>
      obtain rfl := Except.ok.inj (hdecode.symm.trans (hok envelopes' rfl))
      simp only [hreplay]
      rfl

namespace Sequential

variable {s₀ s : System} {h : History} {book : Order.Book} {d : Order.Decision}

/-- What a call has saved is what the book makes of its command. -/
theorem answers_of_leadsTo {envelopes : List Envelope} {outcome : Call.Outcome}
    (decided : h.Decided book d)
    (leads : h.LeadsTo d.call d.orderId d.command (envelopes.map Envelope.event))
    (isOf : List.Forall₂ Envelope.IsOf envelopes (h.addedBy d.call))
    (houtcome : outcome.envelopes? = some envelopes) (unruled : ∀ e, outcome ≠ .error (.rule e)) :
    Order.Answers h book d outcome := by
  obtain ⟨-, load, read, decide, rest, hsteps, finds, hnow, hcreatedAt⟩ := decided
  obtain ⟨load', state, e, accepts, hevents⟩ := leads
  -- the call has one load and one decision, so the event was decided on the book
  obtain ⟨read', decide', rest', hsteps', hdecide, hcreated⟩ := accepts.steps
  obtain ⟨rfl, rfl, rfl, -⟩ :
      load = load' ∧ read = read' ∧ decide = decide' ∧ rest = rest' := by
    simpa using hsteps.symm.trans hsteps'
  obtain rfl := accepts.finds.unique finds
  rw [hnow] at hdecide
  rw [hcreatedAt] at hcreated
  obtain ⟨envelope, r, rfl, hadded, hr, hevent⟩ := exists_isOf_of_singleton hevents isOf
  have he : e = ⟨d.orderId, Order.versionOf (book d.orderId) + 1, d.createdAt, e.data⟩ := by
    rw [← accepts.sequenceNo, ← accepts.aggregateId, ← hcreated]
  rcases book.verdict_cases d with ⟨_, hrefused, -⟩ | ⟨payload, order, haccepted, -, verdict⟩
  · simp [hdecide] at hrefused
  obtain rfl := (List.cons.inj (Except.ok.inj (hdecide.symm.trans haccepted))).1
  constructor
  case accepted => exact ⟨fun _ => ⟨_, houtcome⟩, fun _ => ⟨_, _, verdict⟩⟩
  case rejected =>
    intro e
    refine ⟨fun refused => ?_, fun ruled => (unruled e ruled).elim⟩
    simp [verdict] at refused
  case adds =>
    intro payloads state accepted
    obtain ⟨rfl, -⟩ := Prod.mk.inj (Except.ok.inj (verdict.symm.trans accepted))
    exact ⟨_, envelope, r, rfl, houtcome, by rw [hevent, ← he], hr, hadded⟩
  case spares =>
    intro e refused
    simp [verdict] at refused

/-- A call that refuses a command does so as the book does. -/
theorem answers_of_rule (sequential : Sequential s₀ h s) {e : Order.Error}
    (decided : h.Decided book d)
    (hget : s.calls.get? d.call = some (.finished (.error (.rule e)))) :
    Order.Answers h book d (.error (.rule e)) := by
  obtain ⟨asks, load, read, decide, rest, hsteps, finds, hnow, -⟩ := decided
  obtain ⟨load', read', decide', state, hsteps', finds', hrefused⟩ := sequential.run.handles
    sequential.fresh sequential.oneByOne.undisturbed hget asks
  obtain ⟨rfl, rfl, -⟩ : load = load' ∧ read = read' ∧ decide :: rest = [decide'] := by
    simpa using hsteps.symm.trans hsteps'
  obtain rfl := finds.unique finds'
  rw [hnow] at hrefused
  have verdict := Order.Book.verdict_of_refused hrefused
  constructor
  case accepted => simp [verdict, Call.Outcome.envelopes?]
  case rejected => simp [verdict]
  case adds =>
    intro payloads state accepted
    simp [verdict] at accepted
  case spares =>
    intro e' _
    exact ⟨sequential.run.stored sequential.fresh hget,
      sequential.run.spares sequential.fresh hget trivial⟩

/-- A call that has ended has answered to its command. -/
theorem isAnswer (sequential : Sequential s₀ h s) {demand : Order.Demand}
    (hd : demand ∈ h.demands) {outcome : Call.Outcome}
    (hget : s.calls.get? demand.call = some (.finished outcome)) : outcome.IsAnswer := by
  rcases sequential.stands.answered_or_attends hd hget with ⟨outcome', answer, heq⟩ | attends
  · obtain rfl := Call.Stage.finished.inj heq
    exact answer
  · exact attends.1

/-- Calls answer to their commands as the book does. -/
theorem answers (sequential : Sequential s₀ h s) {before after : List Order.Decision}
    (hdecisions : h.decisions = before ++ d :: after) {outcome : Call.Outcome}
    (houtcome : s.outcome? d.call = some outcome) : Order.Answers h (.of before) d outcome := by
  have decided := sequential.decided hdecisions
  have hget := System.outcome?_eq_some_iff.1 houtcome
  have answer := sequential.isAnswer (History.exists_mem_demands decided.1) hget
  have handles := sequential.run.handles sequential.fresh sequential.oneByOne.undisturbed hget
    decided.1
  have stored := sequential.run.stored sequential.fresh hget
  cases outcome with
  | ok reply =>
    cases reply with
    | saved envelopes => exact answers_of_leadsTo decided handles stored rfl (by simp)
    | nothing => exact answer.elim
  | error error =>
    cases error with
    | commit source =>
      cases source with
      | dispatch envelopes source =>
        exact answers_of_leadsTo decided handles stored.2 rfl (by simp)
      | _ => exact answer.elim
    | rule e => exact sequential.answers_of_rule decided hget
    | _ => exact answer.elim

/-- A command whose call has ended has been decided. -/
theorem exists_decision (sequential : Sequential s₀ h s) {demand : Order.Demand}
    (hd : demand ∈ h.demands) {outcome : Call.Outcome}
    (hget : s.calls.get? demand.call = some (.finished outcome)) :
    ∃ d ∈ h.decisions, d.toDemand = demand := by
  rcases sequential.stands.asked with hall | ⟨last, hlast, hundecided⟩
  · rw [hall] at hd
    exact List.mem_map.1 hd
  · rw [hlast] at hd
    rcases List.mem_append.1 hd with hd | hd
    · exact List.mem_map.1 hd
    · obtain rfl := List.mem_singleton.1 hd
      exact (hundecided outcome hget).elim

end Sequential

/-- No stream is longer than the journal. -/
theorem Journal.length_stream_lt_of {j : Journal} {bound : Int}
    (h : (j.records.length : Int) < bound) (aggregateId : String) :
    ((j.stream aggregateId).length : Int) < bound := by
  rw [length_stream]
  exact Int.lt_of_le_of_lt (Int.ofNat_le.2 (List.length_filter_le ..)) h

/-- What a system makes of commands that come one by one is what the rules of orders make of them,
whatever becomes of the dispatches, as long as versions are 64-bit integers with one more after
them. -/
theorem orderBook_of_run {s₀ s : System} {h : History} (fresh : s₀.Fresh)
    (readable : Order.Readable s₀.registry) (run : Run s₀ h s) (oneByOne : h.OneByOne)
    (bounded : ∀ orderId,
      ((s.storage.journal.stream orderId).length : Int) < Numeral.maxInt64) : OrderBook h s := by
  have sequential : Sequential s₀ h s :=
    ⟨run, fresh, readable, oneByOne, fun orderId => Journal.length_stream .. ▸ bounded orderId⟩
  constructor
  case asked => exact fun idle => (sequential.stands.of_idle idle).1.1.symm
  case loads =>
    intro idle orderId
    exact (sequential.stands.of_idle idle).1.2.loadOrder sequential.growth.faults
      (sequential.commanded orderId).kept.numbered
  case decided =>
    intro demand outcome hd houtcome
    have hget := System.outcome?_eq_some_iff.1 houtcome
    exact ⟨sequential.isAnswer hd hget, sequential.exists_decision hd hget⟩
  case answers => exact fun hdecisions houtcome => sequential.answers hdecisions houtcome
  case returns =>
    intro free d hd
    obtain ⟨stage, hget⟩ := sequential.stands.exists_stage hd
    exact run.returns fresh oneByOne.undisturbed free (History.asks_of_mem_demands hd) hget

/-- The actions of three commands to an order, of which the last breaks a rule, in a system whose
dispatcher is closed. The clock goes on between the two times that the second of them reads. -/
def commandsInTurn : List Action :=
  [.close, .handle "o" (.create (.random 1) [⟨.random 2, 1⟩])] ++
    List.replicate 13 (.step (.call 1)) ++
    [.handle "o" .confirm, .step (.call 2), .step (.call 2), .tick System.minuteLater] ++
    List.replicate 11 (.step (.call 2)) ++
    [.handle "o" .confirm, .step (.call 3), .step (.call 3), .step (.call 3)]

/-- The first two commands are accepted though their events are not dispatched, and the order was
last changed when the second event was created. The third command is refused. -/
theorem orderBook_of_commandsInTurn :
    OrderBook (System.blank.course commandsInTurn) (System.blank.after commandsInTurn) ∧
      (System.blank.after commandsInTurn).isIdle = true ∧
      (System.blank.course commandsInTurn).decisions.map (fun d => (d.now, d.createdAt)) =
        [(System.blank.clock, System.blank.clock), (System.blank.clock, System.minuteLater),
          (System.minuteLater, System.minuteLater)] ∧
      (Order.Book.of (System.blank.course commandsInTurn).decisions "o").map Order.updatedAt =
        some System.minuteLater ∧
      (((System.blank.after commandsInTurn).outcome? 2).bind Call.Outcome.envelopes?).map
        List.length = some 1 ∧
      ((System.blank.after commandsInTurn).outcome? 3).map Except.isOk = some false := by
  -- the system is run once for all of this
  obtain ⟨performs, inTurn, bounded, observed⟩ :
      System.blank.performs [] commandsInTurn = true ∧
        (∀ m ∈ System.blank.course commandsInTurn, m.demand?.isSome → m.before.isIdle) ∧
        ((System.blank.after commandsInTurn).storage.journal.records.length : Int) <
          Numeral.maxInt64 ∧
        (System.blank.after commandsInTurn).isIdle = true ∧
        (System.blank.course commandsInTurn).decisions.map (fun d => (d.now, d.createdAt)) =
          [(System.blank.clock, System.blank.clock), (System.blank.clock, System.minuteLater),
            (System.minuteLater, System.minuteLater)] ∧
        (Order.Book.of (System.blank.course commandsInTurn).decisions "o").map Order.updatedAt =
          some System.minuteLater ∧
        (((System.blank.after commandsInTurn).outcome? 2).bind Call.Outcome.envelopes?).map
          List.length = some 1 ∧
        ((System.blank.after commandsInTurn).outcome? 3).map Except.isOk = some false := by
    decide +kernel
  have oneByOne : (System.blank.course commandsInTurn).OneByOne := by
    constructor
    case undisturbed => exact History.undisturbed_course (by decide)
    case nothing => exact fun e => History.not_brings_course (by decide)
    case patient =>
      intro m hm call heq
      have hmem : m.action ∈ (System.blank.course commandsInTurn).map Moment.action :=
        List.mem_map_of_mem hm
      rw [System.map_action_course, heq] at hmem
      simp [commandsInTurn] at hmem
    case inTurn => exact inTurn
  exact ⟨orderBook_of_run System.fresh_blank Order.readable_empty (Run.of_blank performs) oneByOne
    (Journal.length_stream_lt_of bounded), observed⟩

end EventJournal
