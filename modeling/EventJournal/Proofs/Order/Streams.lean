import EventJournal.Proofs.Order.Serial
import EventJournal.Proofs.Order.Settling

/-!
# Streams of orders

What commands to an order make of its stream, however their steps are interleaved. No update is
lost: a call that succeeds has its event in the stream, and a call whose order has got further in
the meantime adds nothing and fails with a conflict.

* `System.Conflicts`, that a call has failed so, and `History.Overtaken`, that it has to;
* `Commanded.addedBy_of_overtaken`, `Commanded.conflicts_of_alone`: what becomes of such a call;
* `OrderStream`, what commands have made of the stream of an order.

The main statement is `orderStream_of_run`.
-/

namespace EventJournal

/-- A call has failed because its order had got further. -/
def System.Conflicts (s : System) (call : Nat) : Prop :=
  ∃ cause, s.outcome? call = some (.error (.commit (.store cause))) ∧ cause.isConflict = true

/-- A call has accepted its command, but the order has got further after the call has loaded it and
before the call has added its event. -/
def History.Overtaken (h : History) (call : Nat) (orderId : String) (command : Order.Command) :
    Prop :=
  ∃ (load : Moment) (state : Option Order) (e : DomainEvent Order.Event) (before : History)
    (m : Moment) (after : History), h.Accepts call orderId command load state e ∧
    h = before ++ m :: after ∧ load ∈ before ∧ before.addedBy call = [] ∧
    m.before.storage.journal.stream orderId ≠ load.before.storage.journal.stream orderId

theorem History.Overtaken.append {h : History} {call : Nat} {orderId : String}
    {command : Order.Command} (overtaken : h.Overtaken call orderId command) (others : History) :
    Overtaken (h ++ others) call orderId command := by
  obtain ⟨load, state, e, before, m, after, accepts, rfl, hrest⟩ := overtaken
  refine ⟨load, state, e, before, m, after ++ others, accepts.append others, ?_, hrest⟩
  rw [List.append_assoc, List.cons_append]

namespace Run

variable {s₀ s s' : System} {h : History} {orderId : String} {call : Nat}
  {command : Order.Command}

/-- A call that has accepted its command and added nothing has still to save, or it was too late. -/
theorem isPending_or_conflicts (run : Run s₀ h s) (fresh : s₀.Fresh) (undisturbed : h.Undisturbed)
    {load : Moment} {state : Option Order} {e : DomainEvent Order.Event}
    (accepts : h.Accepts call orderId command load state e) (hnone : h.addedBy call = [])
    {stage : Call.Stage} (hget : s.calls.get? call = some stage) :
    stage.IsPending ∨ s.Conflicts call := by
  have handles := run.handles fresh undisturbed hget accepts.asks
  have stored := run.stored fresh hget
  rw [hnone] at stored
  obtain ⟨read, decide, rest, hsteps, hdecide, -⟩ := accepts.steps
  have hnot : ∀ {envelopes : List Envelope}, List.Forall₂ Envelope.IsOf envelopes [] →
      ¬ h.LeadsTo call orderId command (envelopes.map Envelope.event) := by
    rintro envelopes isOf ⟨_, _, _, -, hevents⟩
    rw [List.forall₂_nil_right_iff.1 isOf] at hevents
    simp at hevents
  cases stage with
  | loading => simp [handles.2.2] at hsteps
  | loaded =>
    obtain ⟨-, -, load', hload', -⟩ := handles
    simp [hload'] at hsteps
  | deciding =>
    obtain ⟨-, -, load', read', hread', -⟩ := handles
    simp [hread'] at hsteps
  | queued => exact .inl trivial
  | entered => exact .inl trivial
  | held => exact .inl trivial
  | saving => exact .inl trivial
  | saved => exact (hnot stored.2 handles).elim
  | dispatching commit dispatch =>
    cases commit with
    | none => exact handles.elim
    | some pair => exact (hnot stored.2 handles).elim
  | reloading => exact handles.elim
  | draining => exact handles.elim
  | finished outcome =>
    cases outcome with
    | ok reply =>
      cases reply with
      | saved envelopes => exact (hnot stored handles).elim
      | nothing => exact handles.elim
    | error error =>
      cases error with
      | commit source =>
        cases source with
        | store cause => exact .inr ⟨cause, System.outcome?_eq_some_iff.2 hget, handles.2⟩
        | dispatch envelopes source => exact (hnot stored.2 handles).elim
        | _ => exact handles.elim
      | loadOrder id source =>
        have hlength : (h.stepsOf call).length = 1 := handles
        simp [hsteps] at hlength
      | replay source =>
        have hlength : (h.stepsOf call).length = 1 := handles
        simp [hsteps] at hlength
      | rule source =>
        obtain ⟨load', read', decide', state', hsteps', finds, hrefused⟩ := handles
        obtain ⟨rfl, rfl, -⟩ : load = load' ∧ read = read' ∧ decide :: rest = [decide'] := by
          simpa using hsteps.symm.trans hsteps'
        obtain rfl := accepts.finds.unique finds
        simp [hdecide] at hrefused
      | _ => exact handles.elim

/-- A call that succeeds has added the event of its command. -/
theorem saved_of_asks (run : Run s₀ h s) (fresh : s₀.Fresh) (undisturbed : h.Undisturbed)
    (asks : h.Asks call (.handle orderId command)) {reply : Call.Reply}
    (houtcome : s.outcome? call = some (.ok reply)) :
    ∃ (envelope : Envelope) (r : Record), reply = .saved [envelope] ∧ envelope.IsOf r ∧
      h.addedBy call = [r] ∧ r.aggregateId = orderId := by
  have hget := System.outcome?_eq_some_iff.1 houtcome
  have handles := run.handles fresh undisturbed hget asks
  have stored := run.stored fresh hget
  cases reply with
  | saved envelopes =>
    obtain ⟨load, state, e, accepts, hevents⟩ := handles
    obtain ⟨envelope, r, rfl, hadded, isOf, hevent⟩ := exists_isOf_of_singleton hevents stored
    exact ⟨envelope, r, rfl, isOf, hadded, accepts.aggregateId_of_keeps ⟨envelope, isOf, hevent⟩⟩
  | nothing => exact handles.elim

/-- A call alone adds at most one record to the stream of its order. -/
theorem length_of_le_of_alone (run : Run s₀ h s) {steps : History} (run' : Run s₀ (h ++ steps) s')
    (fresh : s₀.Fresh) (undisturbed : History.Undisturbed (h ++ steps))
    (asks : h.Asks call (.handle orderId command))
    (alone : ∀ m ∈ steps, m.action = .step (.call call)) :
    (Record.of orderId s'.storage.journal.records).length ≤
      (Record.of orderId s.storage.journal.records).length + 1 := by
  have hadded : History.addedBy (h ++ steps) call =
      h.addedBy call ++ steps.flatMap Moment.added := by
    rw [History.addedBy_append, History.addedBy, History.addedBy, History.stepsOf_of_alone alone]
  have hone : (steps.flatMap Moment.added).length ≤ 1 := by
    have hlength := congrArg List.length hadded
    rw [List.length_append] at hlength
    rcases run'.addedBy_of_asks fresh undisturbed (asks.append _) with
      hnone | ⟨-, -, -, r, -, hr, -⟩
    · rw [hnone, List.length_nil] at hlength
      omega
    · rw [hr, List.length_singleton] at hlength
      omega
  have hold := (History.undisturbed_append.1 undisturbed).1
  have hgrown := (run'.growth fresh undisturbed).records
  rw [List.flatMap_append, ← (run.growth fresh hold).records] at hgrown
  have hle := List.length_filter_le (·.aggregateId == orderId) (steps.flatMap Moment.added)
  rw [hgrown, Record.of_append, List.length_append]
  exact Nat.add_le_add_left (Nat.le_trans hle hone) _

end Run

namespace Commanded

variable {s₀ s : System} {h : History} {orderId : String} {call : Nat} {command : Order.Command}

/-- A call that has been overtaken adds nothing. -/
theorem addedBy_of_overtaken (commanded : Commanded s₀ h s orderId)
    (overtaken : h.Overtaken call orderId command) : h.addedBy call = [] := by
  obtain ⟨load, state, e, before, m, after, accepts, heq, hload, hnone, advanced⟩ := overtaken
  have run := commanded.run
  rcases run.addedBy_of_asks commanded.fresh commanded.undisturbed accepts.asks with
    hnothing | ⟨_, _, _, r, accepted, hone, keeps⟩
  · exact hnothing
  refine (advanced ?_).elim
  -- the record is added at the moment or later
  have hr : r ∈ History.addedBy (m :: after) call := by
    have hmem : r ∈ h.addedBy call := by rw [hone]; exact List.mem_singleton_self _
    rwa [heq, History.addedBy_append, hnone, List.nil_append] at hmem
  obtain ⟨m', hm', hstep, hadded⟩ := Run.exists_step_of_mem_addedBy hr
  obtain ⟨between, later, hsplit⟩ := List.append_of_mem hm'
  have heq' : h = (before ++ between) ++ m' :: later := by rw [heq, hsplit, List.append_assoc]
  obtain ⟨call', command', load', state', e', hstep', decides, -⟩ :=
    commanded.decides_of_mem_added heq' hadded (accepted.aggregateId_of_keeps keeps)
  -- it is decided there on what the call has loaded
  obtain rfl := Moment.call_unique hstep' hstep
  have accepts' : h.Accepts call' orderId command' load' state' e' := by
    rw [heq']
    exact decides.accepts.append _
  obtain ⟨-, rfl⟩ := Action.handle.inj (run.asks_unique commanded.fresh (.handle orderId command')
    (.handle orderId command) accepts'.asks accepts.asks)
  obtain ⟨rfl, -⟩ := accepts'.unique accepts
  -- so the stream has not changed from the load to then, nor to the moment in between
  have hfrom := run.isPrefix_of_append commanded.fresh commanded.undisturbed heq
    (List.mem_append_left [m] hload)
  have huntil : m.before.storage.journal.records <+: m'.before.storage.journal.records := by
    refine run.isPrefix_of_append commanded.fresh commanded.undisturbed heq' ?_
    cases between with
    | nil => simp [(List.cons.inj hsplit).1]
    | cons first rest => simp [(List.cons.inj hsplit).1]
  have hnumbered := ((commanded.cut heq').kept.of_isPrefix huntil).numbered
  have hcurrent := decides.current
  rw [Journal.stream_eq_of (hnumbered.of_isPrefix hfrom)] at hcurrent ⊢
  rw [Journal.stream_eq_of hnumbered]
  refine ((Record.of_isPrefix hfrom).eq_of_length_le ?_).symm
  rw [hcurrent]
  exact (Record.of_isPrefix huntil).length_le

/-- A call that has been overtaken has still to save, or has failed with a conflict. -/
theorem isPending_or_conflicts (commanded : Commanded s₀ h s orderId)
    (overtaken : h.Overtaken call orderId command) {stage : Call.Stage}
    (hget : s.calls.get? call = some stage) : stage.IsPending ∨ s.Conflicts call := by
  have hnone := commanded.addedBy_of_overtaken overtaken
  obtain ⟨load, state, e, -, -, -, accepts, -⟩ := overtaken
  exact commanded.run.isPending_or_conflicts commanded.fresh commanded.undisturbed accepts hnone
    hget

/-- The run goes on with the steps of one call. -/
theorem append_of_alone (commanded : Commanded s₀ h s orderId) {s' : System} {steps : History}
    (run : Run s₀ (h ++ steps) s') (alone : ∀ m ∈ steps, m.action = .step (.call call))
    (asks : h.Asks call (.handle orderId command))
    (room : ((Record.of orderId s.storage.journal.records).length : Int) < Numeral.maxInt64) :
    Commanded s₀ (h ++ steps) s' orderId := by
  have undisturbed : History.Undisturbed (h ++ steps) :=
    History.undisturbed_append.2 ⟨commanded.undisturbed, History.undisturbed_of_alone alone⟩
  refine ⟨run, commanded.fresh, undisturbed, commanded.readable, fun e brings => ?_, ?_⟩
  · refine commanded.foreign e ((History.brings_append.1 brings).resolve_right ?_)
    exact History.not_brings_of_alone alone e
  · have hlength := commanded.run.length_of_le_of_alone run commanded.fresh undisturbed asks alone
    omega

/-- A call that has been overtaken comes to a conflict when it goes on alone. -/
theorem conflicts_of_alone (commanded : Commanded s₀ h s orderId)
    (room : ((Record.of orderId s.storage.journal.records).length : Int) < Numeral.maxInt64)
    (overtaken : h.Overtaken call orderId command) {stage : Call.Stage}
    (hget : s.calls.get? call = some stage) (free : s.saveGate = none) :
    ∃ n s', s.run? (List.replicate n (.call call)) = some s' ∧ s'.Conflicts call := by
  rcases commanded.isPending_or_conflicts overtaken hget with pending | conflicts
  · obtain ⟨_, _, _, _, _, _, accepts, -⟩ := id overtaken
    obtain ⟨n, s', stage', hrun, hget', settled⟩ := commanded.run.settles commanded.fresh
      commanded.undisturbed free accepts.asks hget pending
    obtain ⟨steps, run', alone⟩ := commanded.run.replicate hrun
    have later := commanded.append_of_alone run' alone accepts.asks room
    refine ⟨n, s', hrun, ?_⟩
    exact (later.isPending_or_conflicts (overtaken.append steps) hget').resolve_left
      settled.not_isPending
  · exact ⟨0, s, rfl, conflicts⟩

end Commanded

/-- What the commands to an order have made of its stream. -/
structure OrderStream (h : History) (s : System) (orderId : String) : Prop where
  numbered : (s.storage.journal.stream orderId).map Record.sequenceNo =
    numbersFrom 1 (s.storage.journal.stream orderId).length
  replays : ∃ state, Order.Replays s.registry (s.storage.journal.stream orderId) state
  /-- What has once been committed stays in its place. -/
  kept : ∀ m ∈ h, m.before.storage.journal.stream orderId <+: s.storage.journal.stream orderId
  /-- Every record is all that one call has added, whose command was decided on exactly the state
  that the records before it replay to. -/
  decided : ∀ {earlier r later}, s.storage.journal.stream orderId = earlier ++ r :: later →
    ∃ call command load state e, h.addedBy call = [r] ∧
      h.Decides s.registry orderId earlier r call command load state e
  /-- The stream is that of a sequential execution of the calls that have added something. -/
  serial : ∃ turns, Order.Executes h s.registry orderId (s.storage.journal.stream orderId) turns
  /-- A call that succeeds has its event in the stream. -/
  saved : ∀ {call command reply}, h.Asks call (.handle orderId command) →
    s.outcome? call = some (.ok reply) →
    ∃ (envelope : Envelope) (r : Record), reply = .saved [envelope] ∧ envelope.IsOf r ∧
      h.addedBy call = [r] ∧ r ∈ s.storage.journal.stream orderId
  /-- A call that has been overtaken adds nothing. If it ends it fails with a conflict, and it does
  end when it goes on alone and saves need no permits. -/
  overtaken : ∀ {call command}, h.Overtaken call orderId command →
    h.addedBy call = [] ∧ (∀ outcome, s.outcome? call = some outcome → s.Conflicts call) ∧
      (∀ stage, s.calls.get? call = some stage → s.saveGate = none →
        ∃ n s', s.run? (List.replicate n (.call call)) = some s' ∧ s'.Conflicts call)

/-- However commands to an order are interleaved with each other and with anything else that brings
no events of the order into the system, its stream is numbered, replays, and is that of a sequential
execution. This holds as long as the version of the order is a 64-bit integer. -/
theorem orderStream_of_run {s₀ s : System} {h : History} {orderId : String} (fresh : s₀.Fresh)
    (readable : Order.Readable s₀.registry) (run : Run s₀ h s) (undisturbed : h.Undisturbed)
    (foreign : ∀ e, h.Brings e → e.aggregateId ≠ orderId)
    (bounded : ((s.storage.journal.stream orderId).length : Int) < Numeral.maxInt64) :
    OrderStream h s orderId := by
  rw [Journal.length_stream] at bounded
  have commanded : Commanded s₀ h s orderId :=
    ⟨run, fresh, undisturbed, readable, foreign, Int.le_of_lt bounded⟩
  have growth := commanded.growth
  have kept := commanded.kept
  have hstream := Journal.stream_eq_of kept.numbered
  constructor
  case numbered =>
    rw [hstream]
    exact Record.map_sequenceNo_of kept.numbered
  case replays =>
    obtain ⟨state, replays, -⟩ := kept.replays List.prefix_rfl
    rw [hstream, growth.registry]
    exact ⟨state, replays⟩
  case kept =>
    intro m hm
    exact Journal.stream_isPrefix (growth.isPrefix hm) orderId kept.numbered
  case decided =>
    intro earlier r later heq
    rw [hstream] at heq
    rw [growth.registry]
    exact commanded.decided heq
  case serial =>
    rw [hstream, growth.registry]
    exact commanded.executes (List.append_nil _).symm
  case saved =>
    intro call command reply asks houtcome
    obtain ⟨envelope, r, hreply, isOf, hadded, haggregate⟩ :=
      run.saved_of_asks fresh undisturbed asks houtcome
    refine ⟨envelope, r, hreply, isOf, hadded, ?_⟩
    rw [hstream, Record.mem_of]
    refine ⟨(Run.addedBy_sublist growth call).subset ?_, haggregate⟩
    rw [hadded]
    exact List.mem_singleton_self _
  case overtaken =>
    intro call command overtaken
    refine ⟨commanded.addedBy_of_overtaken overtaken, fun outcome houtcome => ?_,
      fun stage hget free => ?_⟩
    · have hget := System.outcome?_eq_some_iff.1 houtcome
      exact (commanded.isPending_or_conflicts overtaken hget).resolve_left id
    · exact commanded.conflicts_of_alone bounded overtaken hget free

/-- The actions of a command that creates an order and of two more, which both load it before either
is decided. The clock goes on between the two times that the first of them reads. -/
def raceOfCommands : List Action :=
  [.handle "o" (.create (.random 1) [⟨.random 2, 1⟩])] ++ List.replicate 19 (.step (.call 1)) ++
    [.handle "o" .confirm, .handle "o" (.cancel none none), .step (.call 2), .step (.call 3),
      .step (.call 2), .tick System.minuteLater] ++
    List.replicate 17 (.step (.call 2)) ++ List.replicate 8 (.step (.call 3))

/-- The first of the two commands succeeds, and its event is created later than the order was
confirmed. The second fails. -/
theorem orderStream_of_race :
    OrderStream (System.blank.course raceOfCommands) (System.blank.after raceOfCommands) "o" ∧
      ((System.blank.after raceOfCommands).outcome? 2).map Except.isOk = some true ∧
      ((System.blank.after raceOfCommands).outcome? 3).map Except.isOk = some false ∧
      (System.blank.after raceOfCommands).saves.flatten.map (·.event.createdAt) =
        [System.blank.clock, System.minuteLater] ∧
      ((System.blank.after raceOfCommands).saves.flatten.map (·.event.payload.toOption))[1]? =
        some (Payload.encode (Order.Event.confirmed System.blank.clock)) := by
  -- the system is run once for all of this
  obtain ⟨performs, bounded, observed⟩ : System.blank.performs [] raceOfCommands = true ∧
      (((System.blank.after raceOfCommands).storage.journal.stream "o").length : Int) <
        Numeral.maxInt64 ∧
      ((System.blank.after raceOfCommands).outcome? 2).map Except.isOk = some true ∧
      ((System.blank.after raceOfCommands).outcome? 3).map Except.isOk = some false ∧
      (System.blank.after raceOfCommands).saves.flatten.map (·.event.createdAt) =
        [System.blank.clock, System.minuteLater] ∧
      ((System.blank.after raceOfCommands).saves.flatten.map (·.event.payload.toOption))[1]? =
        some (Payload.encode (Order.Event.confirmed System.blank.clock)) := by
    decide +kernel
  have undisturbed : (System.blank.course raceOfCommands).Undisturbed :=
    History.undisturbed_course (by decide)
  have foreign : ∀ e, (System.blank.course raceOfCommands).Brings e → e.aggregateId ≠ "o" :=
    fun e brings => (History.not_brings_course (by decide) brings).elim
  exact ⟨orderStream_of_run System.fresh_blank Order.readable_empty (Run.of_blank performs)
    undisturbed foreign bounded, observed⟩

end EventJournal
