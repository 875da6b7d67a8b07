import EventJournal.Proofs.System.Growth

/-!
# The strict store

However the steps of strict saves are interleaved, the streams stay numbered. A save that succeeds
has all its records in the journal, one that fails has none, and it fails only because it was too
late, unless an event cannot be written.

* `Run.judged`, what the checks of saves have established;
* `Run.numbered`, that streams are numbered;
* `History.Saves`, that a call is asked to save some events, and `Run.saves`, how it gets on;
* `StrictStore`, what a strict store has made of its saves.

The main statement is `strictStore_of_run`.
-/

namespace EventJournal

open Record (Numbered Continues Ready)

/-- What the check of a save has established, if the save is under way. -/
def Call.Stage.Judged (journal : List Record) : Call.Stage → Prop
  | .saving _ _ _ save => ∃ records, save.Carries records ∧ save.Judged journal records
  | _ => True

/-- Where a call stands that saves some events for themselves. -/
def Call.Stage.IsSave (events : List Event) : Call.Stage → Prop
  | .held .itself given => given = events
  | .saving .itself envelopes _ save => envelopes.map Envelope.event = events ∧ save.Blames
  | .finished (.ok (.saved envelopes)) => envelopes.map Envelope.event = events
  | .finished (.error (.store cause)) =>
    (∀ e ∈ events, ∃ data, e.payload = .ok data) → cause.isConflict = true
  | _ => False

/-- A call is asked to save some events, and this is its number. -/
def History.Saves (h : History) (call : Nat) (events : List Event) : Prop :=
  ∃ m ∈ h, m.action = .save events ∧ (m.before.save events).1 = call

namespace Ledger

variable {l l' : Ledger} {call : Nat} {stage stage' : Call.Stage}

theorem judged_of_starts {a : Action} (h : a.Begins stage) (journal : List Record) :
    stage.Judged journal := by
  rcases h with starts | ⟨unit, -, rfl⟩
  · cases starts <;> trivial
  · trivial

/-- A step of a call keeps to what the check of its save has established. -/
theorem CallStep.judged (h : l.CallStep call stage l') (strict : l.options.sequenceCheck = .strict)
    (judged : stage.Judged l.storage.journal.records)
    (hget' : l'.calls.get? call = some stage') : stage'.Judged l'.storage.journal.records := by
  have hstage : ∀ {next : Call.Stage}, l'.calls = l.calls.set call next →
      next.Judged l'.storage.journal.records → stage'.Judged l'.storage.journal.records := by
    intro next hcalls hnext
    exact eq_of_set hcalls hget' ▸ hnext
  cases h with
  | prepared => exact hstage rfl ⟨_, rfl, trivial⟩
  | @asked _ _ _ _ _ storage step going =>
    obtain ⟨records, carries, judged⟩ := judged
    rcases carries.step step with ⟨rfl, -⟩ | ⟨hjournal, hnext⟩
    · simp [Saving.isDone] at going
    · rcases hnext with hnext | ⟨e, rfl⟩
      · refine hstage rfl ⟨records, hnext, ?_⟩
        show Saving.Judged storage.journal.records records _
        rw [hjournal]
        exact judged.step carries strict step
      · simp [Saving.isDone] at going
  | unprepared _ _ failed => cases failed <;> exact hstage rfl trivial
  | stored _ completed => cases completed <;> exact hstage rfl trivial
  | failed _ failed => cases failed <;> exact hstage rfl trivial
  | _ => exact hstage rfl trivial

/-- A step of a call that saves events for themselves. -/
theorem CallStep.isSave {events : List Event} (h : l.CallStep call stage l')
    (calm : l.storage.faults = []) (isSave : stage.IsSave events)
    (hget' : l'.calls.get? call = some stage') : stage'.IsSave events := by
  have hstage : ∀ {next : Call.Stage}, l'.calls = l.calls.set call next → next.IsSave events →
      stage'.IsSave events := by
    intro next hcalls hnext
    exact eq_of_set hcalls hget' ▸ hnext
  cases h with
  | savedNothing => exact hstage rfl isSave
  | unprepared _ prepare failed =>
    cases failed with
    | itself =>
      refine hstage rfl fun hpayloads => ?_
      obtain rfl := isSave
      obtain ⟨entries, hentries⟩ := exists_prepare l.newId l.clock l.ids hpayloads
      simp [hentries] at prepare
    | commit => exact isSave.elim
  | @prepared purpose _ _ _ prepare =>
    cases purpose with
    | itself =>
      obtain rfl := isSave
      exact hstage rfl ⟨map_envelope_of_prepare prepare, trivial⟩
    | commit => exact isSave.elim
  | @asked purpose _ _ _ _ _ step =>
    cases purpose with
    | itself => exact hstage rfl ⟨isSave.1, (Saving.step_of_calm calm step).2 isSave.2⟩
    | commit => exact isSave.elim
  | stored _ completed =>
    cases completed with
    | itself => exact hstage rfl isSave.1
    | commit => exact isSave.elim
  | failed step failed =>
    cases failed with
    | itself => exact hstage rfl fun _ => (Saving.step_of_calm calm step).2 isSave.2
    | commit => exact isSave.elim
  | _ => exact isSave.elim

end Ledger

namespace Run

variable {s₀ s : System} {h : History}

/-- In a run of a strict store every save under way has kept to the check. -/
theorem judged (run : Run s₀ h s) (fresh : s₀.Fresh) (strict : s₀.options.sequenceCheck = .strict)
    (undisturbed : h.Undisturbed) {call : Nat} {stage : Call.Stage}
    (hget : s.calls.get? call = some stage) : stage.Judged s.storage.journal.records := by
  refine run.stage_induction (P := fun h s _ stage =>
    h.Undisturbed → stage.Judged s.storage.journal.records) fresh ?_ ?_ ?_ hget undisturbed
  · intro h s s' a stage _ _ _ begins _ _ _
    exact Ledger.judged_of_starts begins _
  · intro h s s' call stage stage' run _ _ callStep hget' ih undisturbed
    have hold := (History.undisturbed_concat.1 undisturbed).1
    have hstrict : s.options.sequenceCheck = .strict := by
      rw [(run.growth fresh hold).options, strict]
    exact callStep.judged hstrict (ih hold) hget'
  · intro h s s' a call stage run _ change _ _ _ ih undisturbed
    obtain ⟨hold, quiet⟩ := History.undisturbed_concat.1 undisturbed
    obtain ⟨new, hgrows, -⟩ := change.grows quiet
      fun hget => run.stored fresh hget
    have hjudged := ih hold
    cases stage with
    | saving purpose envelopes since save =>
      obtain ⟨records, carries, judged⟩ := hjudged
      exact ⟨records, carries, judged.mono ⟨new, hgrows.records.symm⟩⟩
    | _ => trivial

/-- In a run of a strict store streams are numbered, as long as there are numbers left. -/
theorem numbered (run : Run s₀ h s) (fresh : s₀.Fresh)
    (strict : s₀.options.sequenceCheck = .strict) (undisturbed : h.Undisturbed)
    {aggregateId : String}
    (room : ((s.storage.journal.stream aggregateId).length : Int) ≤ Numeral.maxInt64) :
    Numbered aggregateId s.storage.journal.records := by
  rw [← Journal.length_numbersOf] at room
  induction run with
  | nil =>
    rw [fresh.records]
    exact Record.numbered_nil aggregateId
  | @snoc h s s' a run known perform ih =>
    obtain ⟨hold, quiet⟩ := History.undisturbed_concat.1 undisturbed
    obtain ⟨new, hgrows, hnew⟩ :=
      run.grows fresh known perform quiet
    have hle := Record.length_numbersOf_le ⟨new, hgrows.records.symm⟩ aggregateId
    have hroom := Int.le_trans (Int.ofNat_le.2 hle) room
    rw [hgrows.records] at room ⊢
    rcases hnew with rfl | ⟨call, stage, -, hget, hcompletes⟩
    · rw [List.append_nil]
      exact ih hold hroom
    · obtain ⟨purpose, envelopes, since, save, storage, rfl, hstep, hcarries, -⟩ := hcompletes
      obtain ⟨records, carries, judged⟩ := run.judged fresh strict hold hget
      -- what the save commits is what it has been checked for
      obtain ⟨tx, rfl, rfl⟩ := carries.completes hstep
      obtain ⟨_, htx, rfl⟩ := hcarries.completes hstep
      obtain ⟨rfl, -⟩ := Saving.writing.inj htx
      obtain ⟨next, hcontinues⟩ := judged aggregateId
      exact Record.numbered_of_continues (ih hold hroom) hcontinues hgrows.free room

/-- In a run a call that is asked to save some events saves them, or fails because it was too
late. -/
theorem saves (run : Run s₀ h s) (fresh : s₀.Fresh) (undisturbed : h.Undisturbed) {call : Nat}
    {stage : Call.Stage} {events : List Event} (hget : s.calls.get? call = some stage)
    (saves : h.Saves call events) : stage.IsSave events := by
  refine run.stage_induction (P := fun h _ call stage =>
    h.Undisturbed → h.Saves call events → stage.IsSave events) fresh ?_ ?_ ?_ hget undisturbed saves
  · intro h s s' a stage run _ _ begins _ _ _ saves
    rcases asks_concat saves with saves | ⟨rfl, -⟩
    · have hle := run.asks_le fresh (.save events) saves
      omega
    · rcases begins with starts | ⟨unit, heq, -⟩
      · cases starts
        rfl
      · simp at heq
  · intro h s s' call stage stage' run _ _ callStep hget' ih undisturbed saves
    have hold := (History.undisturbed_concat.1 undisturbed).1
    rcases asks_concat saves with saves | ⟨heq, -⟩
    · exact callStep.isSave (run.growth fresh hold).faults (ih hold saves) hget'
    · simp at heq
  · intro h s s' a call stage run _ _ _ hget _ ih undisturbed saves
    rcases asks_concat saves with saves | ⟨-, rfl⟩
    · exact ih (History.undisturbed_append.1 undisturbed).1 saves
    · have hle : s.lastCall + 1 ≤ s.lastCall := (run.tidy fresh).1.call_le hget
      omega

end Run

/-- What a strict store has made of its saves. -/
structure StrictStore (h : History) (s : System) : Prop where
  /-- The journal is made of what the actions have added. -/
  made : s.storage.journal.records = h.flatMap Moment.added
  /-- A stream is numbered, as long as its numbers are of 64 bits. -/
  numbered : ∀ aggregateId,
    ((s.storage.journal.stream aggregateId).length : Int) ≤ Numeral.maxInt64 →
      (s.storage.journal.stream aggregateId).map Record.sequenceNo =
        numbersFrom 1 (s.storage.journal.stream aggregateId).length
  /-- What has once been committed stays in its place. -/
  kept : ∀ m ∈ h, m.before.storage.journal.records <+: s.storage.journal.records ∧
    ∀ aggregateId, ((s.storage.journal.stream aggregateId).length : Int) ≤ Numeral.maxInt64 →
      m.before.storage.journal.stream aggregateId <+: s.storage.journal.stream aggregateId
  saved : ∀ {call events reply}, h.Saves call events → s.outcome? call = some (.ok reply) →
    ∃ envelopes, reply = .saved envelopes ∧ envelopes.map Envelope.event = events ∧
      List.Forall₂ Envelope.IsOf envelopes (h.addedBy call) ∧
      (h.addedBy call).Sublist s.storage.journal.records
  /-- A save that fails has added nothing. It was too late, unless an event cannot be written. -/
  failed : ∀ {call events e}, h.Saves call events → s.outcome? call = some (.error e) →
    h.addedBy call = [] ∧ ∃ cause, e = .store cause ∧
      ((∀ e ∈ events, ∃ data, e.payload = .ok data) → cause.isConflict = true)
  /-- Of two saves that want the same place at most one succeeds. -/
  exclusive : ∀ {call call' events events' reply reply' e e'}, h.Saves call events →
    h.Saves call' events' → e ∈ events → e' ∈ events' → e.place = e'.place →
    s.outcome? call = some (.ok reply) → s.outcome? call' = some (.ok reply') → call = call'

namespace Run

variable {s₀ s : System} {h : History}

/-- A save that succeeds has all its records in the journal. -/
theorem saved_of_ok (run : Run s₀ h s) (fresh : s₀.Fresh) (undisturbed : h.Undisturbed) {call : Nat}
    {events : List Event} {reply : Call.Reply} (saves : h.Saves call events)
    (houtcome : s.outcome? call = some (.ok reply)) :
    ∃ envelopes, reply = .saved envelopes ∧ envelopes.map Envelope.event = events ∧
      List.Forall₂ Envelope.IsOf envelopes (h.addedBy call) := by
  have hget := System.outcome?_eq_some_iff.1 houtcome
  have hsave := run.saves fresh undisturbed hget saves
  have hstored := run.stored fresh hget
  cases reply with
  | saved envelopes => exact ⟨envelopes, rfl, hsave, hstored⟩
  | nothing => exact hsave.elim

/-- A save that fails has added nothing to the journal. -/
theorem failed_of_error (run : Run s₀ h s) (fresh : s₀.Fresh) (undisturbed : h.Undisturbed)
    {call : Nat} {events : List Event} {e : Call.Error} (saves : h.Saves call events)
    (houtcome : s.outcome? call = some (.error e)) :
    h.addedBy call = [] ∧ ∃ cause, e = .store cause ∧
      ((∀ e ∈ events, ∃ data, e.payload = .ok data) → cause.isConflict = true) := by
  have hget := System.outcome?_eq_some_iff.1 houtcome
  have hsave := run.saves fresh undisturbed hget saves
  have hstored := run.stored fresh hget
  cases e with
  | store cause => exact ⟨hstored, cause, rfl, hsave⟩
  | _ => exact hsave.elim

end Run

/-- A strict store keeps its streams numbered and its saves whole, however their steps are
interleaved. -/
theorem strictStore_of_run {s₀ s : System} {h : History} (fresh : s₀.Fresh)
    (strict : s₀.options.sequenceCheck = .strict) (run : Run s₀ h s)
    (undisturbed : h.Undisturbed) : StrictStore h s := by
  have growth := run.growth fresh undisturbed
  constructor
  case made => exact growth.records
  case numbered =>
    intro aggregateId room
    have hnumbers := run.numbered fresh strict undisturbed room
    rw [Journal.stream_of_numbered hnumbers]
    unfold Numbered at hnumbers
    rwa [Record.numbersOf, List.length_map] at hnumbers
  case kept =>
    intro m hm
    have hgrown := growth.isPrefix hm
    exact ⟨hgrown, fun aggregateId room =>
      Journal.stream_isPrefix hgrown aggregateId (run.numbered fresh strict undisturbed room)⟩
  case saved =>
    intro call events reply saves houtcome
    obtain ⟨envelopes, hreply, hevents, hisOf⟩ := run.saved_of_ok fresh undisturbed saves houtcome
    exact ⟨envelopes, hreply, hevents, hisOf, Run.addedBy_sublist growth call⟩
  case failed => exact fun saves houtcome => run.failed_of_error fresh undisturbed saves houtcome
  case exclusive =>
    intro call call' events events' reply reply' e e' saves saves' he he' hplace hok hok'
    obtain ⟨envelopes, -, rfl, hisOf⟩ := run.saved_of_ok fresh undisturbed saves hok
    obtain ⟨envelopes', -, rfl, hisOf'⟩ := run.saved_of_ok fresh undisturbed saves' hok'
    obtain ⟨envelope, henvelope, rfl⟩ := List.mem_map.1 he
    obtain ⟨envelope', henvelope', rfl⟩ := List.mem_map.1 he'
    obtain ⟨r, hr, hre⟩ := exists_right_of_forall₂ hisOf henvelope
    obtain ⟨r', hr', hre'⟩ := exists_right_of_forall₂ hisOf' henvelope'
    exact Run.eq_of_place_eq growth hr hr' (by rw [hre.place, hre'.place, hplace])

/-- The actions of two saves that want the same place and are both checked before either commits. -/
def raceOfSaves : List Action :=
  [.save [.note "a", .note "b"], .save [.note "b"]] ++ List.replicate 6 (.step (.call 1)) ++
    List.replicate 5 (.step (.call 2)) ++ [.step (.call 1), .step (.call 2)]

/-- The first of the two saves succeeds, the second fails. -/
theorem strictStore_of_race :
    StrictStore (System.blank.course raceOfSaves) (System.blank.after raceOfSaves) ∧
      ((System.blank.after raceOfSaves).outcome? 1).map Except.isOk = some true ∧
      ((System.blank.after raceOfSaves).outcome? 2).map Except.isOk = some false := by
  have run := Run.of_blank (by decide +kernel : System.blank.performs [] raceOfSaves = true)
  have undisturbed : (System.blank.course raceOfSaves).Undisturbed :=
    History.undisturbed_course (by decide)
  exact ⟨strictStore_of_run System.fresh_blank rfl run undisturbed, by decide +kernel,
    by decide +kernel⟩

end EventJournal
