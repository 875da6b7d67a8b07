import EventJournal.Proofs.System.Counts
import EventJournal.Proofs.System.Rounds
import EventJournal.Proofs.System.Settled

/-!
# Counts account for what has happened

Saves, commits, dispatches and workers are counted where they end, by whoever sees the end. When a
run has come to rest, the counts agree with the journal, with the outcomes of the commits and with
what the dispatches have reported, however the calls were interleaved and whatever has failed.

* `History.failed`, the saves that have failed, by their events;
* `Run.saves_of_plain`, that the journal is made of the saves that have succeeded;
* `Run.exists_outcome`, that all commits have ended at rest;
* `Metrics.AccountsFor`, what the counts say at rest.

The main statement is `accounts_of_run`.
-/

namespace EventJournal

/-! ### Saves -/

/-- Whether an event can be written. -/
def Event.isWritable (e : Event) : Bool := e.payload.isOk

/-- The events of the save that has failed if a call goes from one stage to another. -/
def Call.Stage.fails : Call.Stage → Call.Stage → List (List Event)
  | .held _ events, .finished (.error _) => [events]
  | .saving _ envelopes _ _, .finished (.error _) => [envelopes.map Envelope.event]
  | _, _ => []

/-- The events of a save that fails in a moment. -/
def Moment.failed (m : Moment) : List (List Event) :=
  m.passing?.toList.flatMap fun p => p.2.1.fails p.2.2

/-- The saves that have failed, by their events. -/
def History.failed (h : History) : List (List Event) := h.flatMap Moment.failed

/-- What a step of a call does about a save: it adds one record for each envelope of a save that
succeeds, and a save that fails has got to the backend if its events can be written. -/
structure Ledger.SaveStep (l : Ledger) (stage stage' : Call.Stage) (l' : Ledger) : Prop where
  added : l'.storage.journal.count =
    l.storage.journal.count + (stage.saves stage').flatten.length
  nonempty : ∀ envelopes ∈ stage.saves stage', envelopes ≠ []
  lost : (stage.loses stage').length =
    (stage.fails stage').countP fun events => events.all Event.isWritable

namespace Ledger

variable {l l' : Ledger} {call : Nat} {stage stage' : Call.Stage}

theorem SaveStep.of_none (journal : l'.storage.journal = l.storage.journal)
    (saves : stage.saves stage' = []) (loses : stage.loses stage' = [])
    (fails : stage.fails stage' = []) : l.SaveStep stage stage' l' := by
  constructor
  · rw [journal, saves]
    rfl
  · simp [saves]
  · rw [loses, fails]
    rfl

/-- Events that are kept as records can be written. -/
theorem all_isWritable_of_isOf {envelopes : List Envelope} {records : List Record}
    (isOf : List.Forall₂ Envelope.IsOf envelopes records) :
    (envelopes.map Envelope.event).all Event.isWritable = true := by
  rw [List.all_map, List.all_eq_true]
  intro envelope henvelope
  obtain ⟨r, -, hr⟩ := exists_right_of_forall₂ isOf henvelope
  simp [Event.isWritable, hr.payload, Except.isOk, Except.toBool]

/-- A save that succeeds adds a record for each of its envelopes. -/
theorem SaveStep.of_saved {envelopes : List Envelope} {records : List Record}
    (isOf : List.Forall₂ Envelope.IsOf envelopes records) (nonempty : envelopes ≠ [])
    (grows : l.storage.journal.Grows records l'.storage.journal)
    (saves : stage.saves stage' = [envelopes]) (loses : stage.loses stage' = [])
    (fails : stage.fails stage' = []) : l.SaveStep stage stage' l' := by
  constructor
  · rw [saves, Journal.count, Journal.count, grows.records, List.length_append, ← isOf.length_eq]
    simp
  · simpa [saves] using nonempty
  · rw [loses, fails]
    rfl

/-- A save that fails leaves the journal alone, and has got to the backend if its events can be
written. -/
theorem SaveStep.of_failed {events : List Event} {lost : List (List Envelope)}
    (journal : l'.storage.journal = l.storage.journal) (saves : stage.saves stage' = [])
    (loses : stage.loses stage' = lost) (fails : stage.fails stage' = [events])
    (written : lost.length = if events.all Event.isWritable then 1 else 0) :
    l.SaveStep stage stage' l' := by
  constructor
  · rw [journal, saves]
    rfl
  · simp [saves]
  · rw [loses, fails, written, List.countP_singleton]

/-- What a step of a call does about a save. -/
theorem CallStep.save (h : l.CallStep call stage l') {added : List Record}
    (stored : stage.Stored added) (hget' : l'.calls.get? call = some stage') :
    l.SaveStep stage stage' l' := by
  have hquiet : ∀ {next : Call.Stage}, l'.calls = l.calls.set call next →
      l'.storage.journal = l.storage.journal → stage.saves next = [] → stage.loses next = [] →
      stage.fails next = [] → l.SaveStep stage stage' l' := by
    intro next hcalls journal saves loses fails
    obtain rfl := eq_of_set hcalls hget'
    exact .of_none journal saves loses fails
  cases h with
  | loaded load => exact hquiet rfl (journal_of_load load) rfl rfl rfl
  | unloaded load => exact hquiet rfl (journal_of_load load) rfl rfl rfl
  | unreplayed load => exact hquiet rfl (journal_of_load load) rfl rfl rfl
  | reloaded load => exact hquiet rfl (journal_of_load load) rfl rfl rfl
  | unreloaded load => exact hquiet rfl (journal_of_load load) rfl rfl rfl
  | unprepared _ prepare failed =>
    -- the save has not got to the backend, and one of its events cannot be written
    have hstage : ∃ e, stage' = .finished (.error e) := by
      cases failed <;> exact ⟨_, (eq_of_set rfl hget').symm⟩
    obtain ⟨e', rfl⟩ := hstage
    obtain ⟨before, x, after, rfl, -, hx⟩ := prepare_eq_error_iff.1 prepare
    have hnot : (before ++ x :: after).all Event.isWritable = false :=
      List.all_eq_false.2 ⟨x, by simp, by simp [Event.isWritable, hx, Except.isOk, Except.toBool]⟩
    exact .of_failed (congrArg Watched.journal failed.records.1) rfl rfl rfl (by rw [hnot]; rfl)
  | asked step going =>
    obtain ⟨-, -, records, carries, -⟩ := stored
    rcases carries.step step with ⟨rfl, -⟩ | ⟨hjournal, -⟩
    · simp [Saving.isDone] at going
    · exact hquiet rfl hjournal rfl rfl rfl
  | @stored purpose envelopes since save storage _ step completed =>
    obtain ⟨-, hne, records, carries, isOf⟩ := stored
    rcases carries.step step with ⟨-, grows⟩ | ⟨-, hnext⟩
    · cases completed <;> obtain rfl := eq_of_set rfl hget' <;>
        exact .of_saved isOf hne grows rfl rfl rfl
    · rcases hnext with hnext | ⟨e, heq⟩
      · exact hnext.elim
      · simp at heq
  | @failed purpose envelopes since save e storage _ step failed =>
    obtain ⟨-, -, records, carries, isOf⟩ := stored
    have hstage : ∃ e, stage' = .finished (.error e) := by
      cases failed <;> exact ⟨_, (eq_of_set rfl hget').symm⟩
    obtain ⟨e', rfl⟩ := hstage
    rcases carries.step step with ⟨heq, -⟩ | ⟨hjournal, -⟩
    · simp at heq
    · exact .of_failed ((congrArg Watched.journal failed.records.1).trans hjournal) rfl rfl rfl
        (by rw [all_isWritable_of_isOf isOf]; rfl)
  | _ => exact hquiet rfl rfl rfl rfl rfl

end Ledger

namespace Moment

variable {s s' : System} {a : Action} {call : Nat} {stage stage' : Call.Stage}

/-- The saves that end in the step of a call. -/
theorem saves_of_get? (hget : s.calls.get? call = some stage)
    (hget' : s'.calls.get? call = some stage') :
    let m : Moment := ⟨s, .step (.call call), s'⟩
    m.saved = stage.saves stage' ∧ m.lost = stage.loses stage' ∧
      m.failed = stage.fails stage' := by
  simp [saved, lost, failed, passing?, hget, hget']

theorem saves_of_other (s s' : System) (other : ∀ call, a ≠ .step (.call call)) :
    let m : Moment := ⟨s, a, s'⟩
    m.saved = [] ∧ m.lost = [] ∧ m.failed = [] := by
  have hnone : passing? ⟨s, a, s'⟩ = none := by
    unfold passing?
    split
    · next call haction => exact (other call haction).elim
    · rfl
  simp [saved, lost, failed, hnone]

end Moment

namespace Run

variable {s₀ s s' : System} {h : History} {a : Action} {call unit : Nat}

/-- Plain actions leave the journal alone, unless they are steps of calls. -/
theorem journal_of_other (run : Run s₀ h s) (fresh : s₀.Fresh)
    (known : ∀ unit, a.unit? = some unit → h.Knows unit) (perform : s.perform? a = some s')
    (plain : a.isPlain = true) (other : ∀ call, a ≠ .step (.call call)) :
    s'.storage.journal.count = s.storage.journal.count := by
  cases hdisturbs : a.disturbsStorage with
  | false =>
    obtain ⟨new, hgrows, rfl | ⟨call, -, action, -⟩⟩ := run.grows fresh known perform hdisturbs
    · rw [Journal.count, hgrows.records, List.append_nil, Journal.count]
    · exact (other call action).elim
  | true =>
    cases a with
    | fault =>
      obtain rfl := Option.some.inj perform
      rfl
    | inject | replaceStorage => simp [Action.isPlain] at plain
    | _ => simp [Action.disturbsStorage] at hdisturbs

/-- The journal is made of the saves that have succeeded, and the saves that have failed with all
their events written down are those that were counted. -/
theorem saves_of_plain (run : Run s₀ h s) (fresh : s₀.Fresh) (plain : h.Plain) :
    s.storage.journal.count = h.saved.flatten.length ∧
      (∀ envelopes ∈ h.saved, envelopes ≠ []) ∧
      h.lost.length = h.failed.countP fun events => events.all Event.isWritable := by
  induction run with
  | nil =>
    refine ⟨?_, by simp [History.saved], rfl⟩
    rw [Journal.count, fresh.records]
    rfl
  | @snoc h s s' a run known perform ih =>
    obtain ⟨hplain, still⟩ := History.plain_concat.1 plain
    obtain ⟨hcount, hnonempty, hlost⟩ := ih hplain
    have hconcat : ∀ {β : Type} (f : Moment → List β),
        List.flatMap f (h ++ [⟨s, a, s'⟩]) = h.flatMap f ++ f ⟨s, a, s'⟩ := fun f => by simp
    rw [History.saved, History.lost, History.failed, hconcat, hconcat, hconcat, ← History.saved,
      ← History.lost, ← History.failed]
    by_cases hstep : ∃ call, a = .step (.call call)
    · obtain ⟨call, rfl⟩ := hstep
      obtain ⟨stage, hget, callStep⟩ := System.ledger_stepCall? (run.tidy fresh).1 perform
      obtain ⟨stage', hcalls, -⟩ := callStep.calls
      have hget' : s'.calls.get? call = some stage' := Ledger.get?_of_set hcalls
      obtain ⟨hsaved, hlosts, hfailed⟩ := Moment.saves_of_get? hget hget'
      have hsave := callStep.save (run.stored fresh hget) hget'
      rw [hsaved, hlosts, hfailed, List.flatten_append, List.length_append, ← hcount,
        List.length_append, List.countP_append, hlost, hsave.lost]
      exact ⟨hsave.added, List.forall_mem_append.2 ⟨hnonempty, hsave.nonempty⟩, rfl⟩
    · have other : ∀ call, a ≠ .step (.call call) := fun call heq => hstep ⟨call, heq⟩
      obtain ⟨hsaved, hlosts, hfailed⟩ := Moment.saves_of_other s s' other
      rw [hsaved, hlosts, hfailed, List.append_nil, List.append_nil, List.append_nil,
        run.journal_of_other fresh known perform still other]
      exact ⟨hcount, hnonempty, hlost⟩

/-- Calls stay where there are no calls given up. -/
theorem exists_stage (run : Run s₀ h s) (fresh : s₀.Fresh) (plain : h.Plain)
    (commits : h.Commits call unit) : ∃ stage, s.calls.get? call = some stage := by
  induction run with
  | nil =>
    obtain ⟨m, hm, -⟩ := commits
    simp at hm
  | @snoc h s s' a run known perform ih =>
    obtain ⟨hplain, still⟩ := History.plain_concat.1 plain
    rcases History.commits_concat.1 commits with commits | hqueued
    · obtain ⟨stage, hget⟩ := ih hplain commits
      have tidy := (run.tidy fresh).1
      by_cases hstep : a = .step (.call call)
      · subst hstep
        obtain ⟨_, -, callStep⟩ := System.ledger_stepCall? tidy perform
        obtain ⟨stage', hcalls, -⟩ := callStep.calls
        exact ⟨stage', Ledger.get?_of_set hcalls⟩
      · refine ⟨stage, (run.change fresh known perform).get?_of_other tidy hget hstep ?_⟩
        rintro rfl
        simp [Action.isPlain] at still
    · exact ⟨_, hqueued⟩

/-- At rest every commit has ended. -/
theorem exists_outcome (run : Run s₀ h s) (fresh : s₀.Fresh) (plain : h.Plain) (rest : s.AtRest)
    (commits : h.Commits call unit) :
    ∃ outcome, s.calls.get? call = some (.finished outcome) := by
  obtain ⟨stage, hget⟩ := run.exists_stage fresh plain commits
  obtain ⟨outcome, rfl⟩ := rest.calls call stage hget
  exact ⟨outcome, hget⟩

end Run

/-! ### The counts at rest -/

/-- What the counts of a system say at rest, given what has happened. -/
structure Metrics.AccountsFor (c : Metrics) (h : History) (s : System) : Prop where
  persisted : c.persisted = s.storage.journal.count
  /-- The saves that have failed though all their events could be written. -/
  saveFailures : c.saveFailures = h.failed.countP fun events => events.all Event.isWritable
  /-- Successful saves have saved something; they and the failures counted have been timed. -/
  samples : c.saveSeconds.length = h.saved.length + c.saveFailures ∧
    ∀ envelopes ∈ h.saved, envelopes ≠ []
  /-- Commits are counted by the label of how they have been settled. -/
  commits : ∀ label, Tally.count c.commits label = h.settled.countP fun p => p.2.label = label
  /-- Every commit has ended, and been settled according to what it has saved and handed over, what
  has come of that, and its outcome. -/
  settled : ∀ call unit, h.Commits call unit → ∃ outcome, s.outcome? call = some outcome ∧
    Settlement (h.savedBy call) (h.toldBy call) (h.settledBy call) (h.servedBy call) outcome
  /-- It has been settled once, unless it was refused because the unit had been committed. -/
  once : ∀ call unit, h.Commits call unit →
    s.outcome? call = some (.error (.commit .alreadyCommitted)) ∧ h.settledBy call = [] ∨
      s.outcome? call ≠ some (.error (.commit .alreadyCommitted)) ∧
        ∃ ending, h.settledBy call = [ending]
  /-- Nothing else has been settled. -/
  only : ∀ p ∈ h.settled, ∃ unit, h.Commits p.1 unit
  /-- The queue has dispatched the batches of commits in their order, each with one result. -/
  queue : h.handed.map Prod.snd = h.dispatched ∧ h.delivered.length = h.dispatched.length
  /-- The envelopes of each type in the dispatches that have got past encoding. -/
  dispatched : ∀ type, Tally.count c.dispatched type =
    h.accepted.countP fun envelope => envelope.event.eventType = type
  /-- The failures of each handler that dispatches have reported. -/
  handlerFailures : ∀ handler, Tally.count c.handlerFailures handler =
    h.reported.countP fun failure => failure.handler = handler

theorem count_map_eq_countP {α β : Type} [DecidableEq β] (f : α → β) (b : β) (l : List α) :
    (l.map f).count b = l.countP fun a => f a = b := by
  rw [List.count, List.countP_map]
  refine List.countP_congr fun a _ => ?_
  simp

/-- In a run that has come to rest, the counts account for what has happened. -/
theorem accounts_of_run {s₀ s : System} {h : History} (fresh : s₀.Fresh) (unused : s₀.Unused)
    (zero : s₀.metrics = some .zero) (run : Run s₀ h s) (plain : h.Plain) (rest : s.AtRest) :
    ∃ c, s.metrics = some c ∧ c.AccountsFor h s := by
  obtain ⟨c, hc, counts⟩ := run.counts fresh .zero zero
  obtain ⟨hcount, hnonempty, hlost⟩ := run.saves_of_plain fresh plain
  have hpersisted : c.persisted = h.saved.flatten.length :=
    counts.persisted.trans (Nat.zero_add _)
  have hfailures : c.saveFailures = h.lost.length := counts.saveFailures.trans (Nat.zero_add _)
  refine ⟨c, hc, ?_⟩
  constructor
  case persisted => rw [hpersisted, hcount]
  case saveFailures => rw [hfailures, hlost]
  case samples =>
    refine ⟨?_, hnonempty⟩
    rw [hfailures]
    exact counts.samples.trans (Nat.zero_add _)
  case commits =>
    intro label
    have hperm := (run.perm_settled fresh unused plain rest).map UnitOfWork.Ending.label
    rw [List.map_map] at hperm
    rw [counts.commits label, hperm.count_eq label]
    exact (Nat.zero_add _).trans (count_map_eq_countP _ label _)
  case settled =>
    intro call unit commits
    obtain ⟨outcome, hget⟩ := run.exists_outcome fresh plain rest commits
    exact ⟨outcome, System.outcome?_eq_some_iff.2 hget,
      run.settlement fresh unused plain rest commits hget⟩
  case once =>
    intro call unit commits
    obtain ⟨outcome, hget⟩ := run.exists_outcome fresh plain rest commits
    rw [System.outcome?_eq_some_iff.2 hget, Option.some.injEq]
    simpa using (run.settlement fresh unused plain rest commits hget).once
  case only => exact fun p hp => run.commits_of_settled fresh hp
  case queue =>
    obtain ⟨hhanded, hlength⟩ := run.handed_of_rest fresh unused plain rest
    refine ⟨hhanded, ?_⟩
    rw [hlength, ← hhanded, List.length_map]
  case dispatched =>
    intro type
    have hperm := run.perm_announced fresh unused plain rest
    rw [counts.dispatched type, show h.incidents.announced = h.announced from rfl,
      hperm.count_eq type]
    exact (Nat.zero_add _).trans (count_map_eq_countP _ type _)
  case handlerFailures =>
    intro handler
    have hperm := run.perm_handlers fresh unused plain rest
    rw [counts.handlerFailures handler, show h.incidents.blamed = h.blamed from rfl,
      hperm.count_eq handler]
    exact (Nat.zero_add _).trans (count_map_eq_countP _ handler _)

/-- A system at the start that counts, with a queue for detached commits. -/
def System.counting : System := { System.queued with metrics := some .zero }

/-- A note is saved, and one is committed while nobody listens. Then a handler comes that refuses
everything, and a detached commit; while its event is dispatched the first unit is committed again,
a unit without events is committed, and a save fails because the place is taken. -/
def dayOfNotes : List Action :=
  [[.save [.note "a"], .newUnit .synchronous, .register 1 [.note "b"], .commit 1],
    .replicate 6 (.step (.call 1)), .replicate 14 (.step (.call 2)),
    [.subscribe (.scripted "a" "audit" [] { behaviour := .refuse }) ["*.*"],
      .newUnit .detached, .register 2 [.note "c"], .commit 2],
    .replicate 9 (.step (.call 3)), .replicate 5 (.step .queue),
    [.commit 1, .newUnit .synchronous, .commit 3, .save [.note "a"],
      .step (.call 4), .step (.call 5), .step (.call 4), .step (.call 5)],
    .replicate 4 (.step (.call 6)), .replicate 2 (.step (.worker 1)),
    .replicate 2 (.step .queue)].flatten

/-- At the end of such a day the counts account for it. -/
theorem accounts_of_dayOfNotes :
    ∃ c, (System.counting.after dayOfNotes).metrics = some c ∧
      (c.persisted, c.saveFailures) = (3, 1) ∧
      c.AccountsFor (System.counting.course dayOfNotes) (System.counting.after dayOfNotes) := by
  have fresh : System.counting.Fresh := ⟨rfl, rfl, rfl, rfl⟩
  have unused : System.counting.Unused := ⟨rfl, fun _ hq => (Option.some.inj hq).symm⟩
  have hday : System.counting.performs [] dayOfNotes = true ∧
      (∀ entry ∈ (System.counting.after dayOfNotes).calls.entries,
        entry.2.outcome?.isSome = true) ∧
      (System.counting.after dayOfNotes).waiting.isEmpty = true ∧
      ((System.counting.after dayOfNotes).dispatching? .queue).isNone = true ∧
      (System.counting.after dayOfNotes).metrics.map
        (fun c => (c.persisted, c.saveFailures)) = some (3, 1) := by
    decide +kernel
  obtain ⟨performs, calls, waiting, free, hcounts⟩ := hday
  have run := Run.nil.follow (by simp) performs
  rw [List.nil_append] at run
  have plain : (System.counting.course dayOfNotes).Plain :=
    History.plain_course (by decide +kernel)
  obtain ⟨c, hc, accounts⟩ :=
    accounts_of_run fresh unused rfl run plain (.of_entries calls waiting free)
  rw [hc, Option.map_some, Option.some.injEq] at hcounts
  exact ⟨c, hc, hcounts, accounts⟩

end EventJournal
