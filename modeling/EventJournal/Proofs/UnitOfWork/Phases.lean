import EventJournal.Proofs.System.Desks

/-!
# The course of a unit of work

What becomes of a unit of work in a run, whatever its saves come to and whichever of its commits are
given up.

* `History.saves`, the events that its commits have saved, batch by batch; `History.registered`, the
  events registered on it since they were dropped last;
* `Ledger.Agrees`, the invariant: what has been saved and registered is what the unit says;
* `UnitOfWork.Course`, what holds of a unit at each point of a run.

The main statement is `course_of_run`.
-/

namespace EventJournal

namespace History

/-- The events of a unit of work that commits have saved, batch by batch. -/
def saves (h : History) (unit : Nat) : List (List Event) :=
  h.filterMap fun m => m.before.ledger.saved? unit m.action m.after.ledger

/-- The events registered on a unit of work since they were dropped last. -/
def registered (h : History) (unit : Nat) : List Event :=
  h.foldl (fun events m => m.before.ledger.buffered unit events m.action) []

theorem saves_append (h₁ h₂ : History) (unit : Nat) :
    saves (h₁ ++ h₂) unit = h₁.saves unit ++ h₂.saves unit :=
  List.filterMap_append ..

theorem saves_singleton (m : Moment) (unit : Nat) :
    saves [m] unit = (m.before.ledger.saved? unit m.action m.after.ledger).toList := by
  cases hsaved : m.before.ledger.saved? unit m.action m.after.ledger <;> simp [saves, hsaved]

theorem registered_concat (h : History) (m : Moment) (unit : Nat) :
    registered (h ++ [m]) unit = m.before.ledger.buffered unit (h.registered unit) m.action := by
  simp [registered]

end History

/-- What has been saved and registered is what a unit of work says; nothing, as long as it has not
been made. -/
def Ledger.Agrees (l : Ledger) (unit : Nat) (saves : List (List Event)) (registered : List Event) :
    Prop :=
  match l.units.get? unit with
  | none => saves = [] ∧ registered = []
  | some u => saves = u.kept ∧ registered = u.events

namespace Ledger

variable {l l' : Ledger}

theorem agrees_of_get? {unit : Nat} {u : UnitOfWork} {saves : List (List Event)}
    {registered : List Event} (hget : l.units.get? unit = some u) :
    l.Agrees unit saves registered ↔ saves = u.kept ∧ registered = u.events := by
  simp [Agrees, hget]

/-- A change keeps the agreement. -/
theorem Agrees.change {a : Action} {unit : Nat} {saves : List (List Event)}
    {registered : List Event} (agrees : l.Agrees unit saves registered) (h : l.Change a l')
    (tidy : l.Tidy) :
    l'.Agrees unit (saves ++ (l.saved? unit a l').toList) (l.buffered unit registered a) := by
  cases h.move tidy with
  | keeps units last roles saved buffered =>
    rw [saved, buffered, Option.toList_none, List.append_nil]
    unfold Agrees at agrees ⊢
    rw [units]
    exact agrees
  | @does other u u' deed get units last others step saved buffered =>
    rw [saved, buffered]
    by_cases hunit : other = unit
    · subst hunit
      obtain ⟨hsaves, hregistered⟩ := (agrees_of_get? get).1 agrees
      have hget' : l'.units.get? other = some u' := by rw [units, Table.get?_set_self]
      rw [if_pos rfl, if_pos rfl, agrees_of_get? hget', hsaves, hregistered]
      exact ⟨(step.kept_eq (tidy.sound get)).symm, step.events_eq.symm⟩
    · rw [if_neg hunit, if_neg hunit, Option.toList_none, List.append_nil]
      unfold Agrees at agrees ⊢
      rw [units, Table.get?_set, if_neg (Ne.symm hunit)]
      exact agrees
  | @makes u units last others sound phase saved buffered =>
    rw [saved, buffered, Option.toList_none, List.append_nil]
    by_cases hunit : unit = l.lastUnit + 1
    · have hnone : l.units.get? unit = none := by
        cases hget : l.units.get? unit with
        | none => rfl
        | some v =>
          have hle := tidy.unit_le hget
          omega
      have hget' : l'.units.get? unit = some u := by rw [units, hunit, Table.get?_set_self]
      simp only [Agrees, hnone] at agrees
      rw [if_pos hunit, agrees_of_get? hget', agrees.1]
      exact ⟨by simp [UnitOfWork.kept, phase], rfl⟩
    · rw [if_neg hunit]
      unfold Agrees at agrees ⊢
      rw [units, Table.get?_set, if_neg hunit]
      exact agrees

/-- A unit of work that does not gather any more keeps its buffer, and once committed it stays so.
-/
theorem Change.late {a : Action} (h : l.Change a l') (tidy : l.Tidy) {unit : Nat} {u : UnitOfWork}
    (hget : l.units.get? unit = some u) (late : u.phase ≠ .gathering) :
    ∃ u', l'.units.get? unit = some u' ∧ u'.events = u.events ∧
      (u.phase = .committed → u'.phase = .committed) := by
  refine h.exists_unit tidy hget ⟨rfl, id⟩ fun step => ?_
  exact ⟨step.events_of_late late, step.stays_committed (tidy.sound hget)⟩

/-- Whether a call ends because another commit is under way. -/
def Impatient (stage : Call.Stage) : Prop :=
  stage = .finished (.error (.commit .commitInProgress))

theorem not_impatient_of_commitOutcome (envelopes : List Envelope)
    (result : Except DispatchError Unit) :
    ¬ Impatient (.finished (System.commitOutcome envelopes result)) := by
  cases result <;> simp [Impatient, System.commitOutcome]

/-- A commit that has passed the gate finds no other one under way. -/
theorem CallStep.not_impatient {call : Nat} {stage : Call.Stage}
    (h : l.CallStep call stage l') (tidy : l.Tidy) (hget : l.calls.get? call = some stage) :
    ∃ stage', l'.calls = l.calls.set call stage' ∧ ¬ Impatient stage' := by
  cases h with
  | @refused unit u e get begin =>
    refine ⟨_, rfl, fun himpatient => ?_⟩
    obtain ⟨-, -, -, hphase⟩ := (tidy.sound get).locked (roles_of_role? hget rfl) rfl
    simp only [Impatient, Call.Stage.finished.injEq, Except.error.injEq,
      Call.Error.commit.injEq] at himpatient
    subst himpatient
    unfold UnitOfWork.begin at begin
    cases h : u.phase with
    | committing => exact hphase h
    | committed => simp [h] at begin
    | gathering =>
      simp only [h] at begin
      split at begin <;> simp at begin
  | unprepared nonempty prepare failed => cases failed <;> exact ⟨_, rfl, by simp [Impatient]⟩
  | stored step completed => cases completed <;> exact ⟨_, rfl, by simp [Impatient]⟩
  | failed step failed => cases failed <;> exact ⟨_, rfl, by simp [Impatient]⟩
  | enqueues => exact ⟨_, rfl, not_impatient_of_commitOutcome _ _⟩
  | toldCommit => exact ⟨_, rfl, not_impatient_of_commitOutcome _ _⟩
  | told outcome plain =>
    refine ⟨_, rfl, ?_⟩
    rcases plain with rfl | ⟨e, rfl⟩ <;> simp [Impatient]
  | _ => exact ⟨_, rfl, by simp [Impatient]⟩

end Ledger

namespace Run

variable {s₀ s : System} {h : History}

theorem agrees (run : Run s₀ h s) (fresh : s₀.Fresh) (unit : Nat) :
    s.ledger.Agrees unit (h.saves unit) (h.registered unit) := by
  induction run with
  | nil =>
    have hnone : s₀.ledger.units.get? unit = none := by
      show s₀.units.get? unit = none
      rw [fresh.units, Table.get?_empty]
    simp only [Ledger.Agrees, hnone]
    exact ⟨rfl, rfl⟩
  | snoc run known perform ih =>
    rw [History.saves_append, History.saves_singleton, History.registered_concat]
    exact ih.change (run.change fresh known perform) (run.tidy fresh).1

/-- No call ends because another commit is under way. -/
theorem patient (run : Run s₀ h s) (fresh : s₀.Fresh) {call : Nat} {stage : Call.Stage}
    (hget : s.calls.get? call = some stage) : ¬ Ledger.Impatient stage := by
  refine run.stage_induction (P := fun _ _ _ stage => ¬ Ledger.Impatient stage) fresh
    ?_ ?_ ?_ hget
  · intro h s s' a stage _ _ _ begins _ _
    rcases begins with starts | ⟨unit, -, rfl⟩
    · cases starts <;> simp [Ledger.Impatient]
    · simp [Ledger.Impatient]
  · intro h s s' call stage stage' run _ hget callStep hget' _
    obtain ⟨stage₁, hcalls, hpatient⟩ := callStep.not_impatient (run.tidy fresh).1 hget
    obtain rfl := Ledger.eq_of_set hcalls hget'
    exact hpatient
  · intro h s s' a call stage _ _ _ _ _ _ ih
    exact ih

/-- A unit of work that was committed once is so at the end of the run, with the same events. -/
theorem stays_committed (run : Run s₀ h s) (fresh : s₀.Fresh) {m : Moment} (hm : m ∈ h) {unit : Nat}
    {v : UnitOfWork} (hget : m.before.units.get? unit = some v) (hphase : v.phase = .committed) :
    ∃ u, s.units.get? unit = some u ∧ u.phase = .committed ∧ u.events = v.events := by
  induction run with
  | nil => simp at hm
  | @snoc h s s' a run known perform ih =>
    have hlate : ∀ {w : UnitOfWork}, s.units.get? unit = some w → w.phase = .committed →
        w.events = v.events →
        ∃ u, s'.units.get? unit = some u ∧ u.phase = .committed ∧ u.events = v.events := by
      intro w hw hwphase hwevents
      obtain ⟨u, hu, hevents, hstays⟩ := (run.change fresh known perform).late (run.tidy fresh).1 hw
        (by simp [hwphase])
      exact ⟨u, hu, hstays hwphase, hevents.trans hwevents⟩
    rcases List.mem_append.1 hm with hm | hm
    · obtain ⟨w, hw, hwphase, hwevents⟩ := ih hm
      exact hlate hw hwphase hwevents
    · obtain rfl := List.mem_singleton.1 hm
      exact hlate hget hphase rfl

end Run

/-- What holds of a unit of work at a point of a run. -/
structure UnitOfWork.Course (h : History) (s : System) (unit : Nat) (u : UnitOfWork) : Prop where
  /-- At most one save has succeeded. -/
  saves_le : (h.saves unit).length ≤ 1
  /-- What it saved is what the unit holds. -/
  batch : ∀ events ∈ h.saves unit, events ≠ [] ∧ u.phase = .committed ∧ u.events = events
  /-- The unit is committing exactly while a commit past the gate saves its events. -/
  committing_iff :
    u.phase = .committing ↔ ∃ call, s.ledger.roles unit call = some (.saving u.events)
  /-- A commit past the gate is alone there, and has locked it. -/
  alone : ∀ call role, s.ledger.roles unit call = some role → role.isInside = true →
    (∀ other role', s.ledger.roles unit other = some role' → role'.isInside = true →
      other = call) ∧ u.gate.permits = 0 ∧ u.gate.admitted = []
  /-- No commit is refused because another one is under way. -/
  patient : ∀ call, s.outcome? call ≠ some (.error (.commit .commitInProgress))
  /-- Events are taken and dropped only while the unit gathers. -/
  refuses : u.phase ≠ .gathering →
    (∀ events, s.register unit events = (.error u.lateMessage, s)) ∧
      ∃ e, s.rollback unit = (.error e, s)
  /-- The buffer has never changed while the unit did not gather. -/
  fixed : ∀ m ∈ h, ∀ v, m.before.units.get? unit = some v → v.phase ≠ .gathering →
    ∃ v', m.after.units.get? unit = some v' ∧ v'.events = v.events
  /-- If the unit was committed before it still is, with the same events. -/
  committed : ∀ m ∈ h, ∀ v, m.before.units.get? unit = some v → v.phase = .committed →
    u.phase = .committed ∧ u.events = v.events
  /-- While the unit gathers nothing has been saved, and it holds what was registered. -/
  gathering : u.phase = .gathering → h.saves unit = [] ∧ u.events = h.registered unit

theorem System.register_of_late {s : System} {unit : Nat} {u : UnitOfWork}
    (hget : s.units.get? unit = some u) (late : u.phase ≠ .gathering) (events : List Event) :
    s.register unit events = (.error u.lateMessage, s) := by
  have hregister : u.register events = .error u.lateMessage := by
    unfold UnitOfWork.register
    split
    · next h => exact (late h).elim
    · rfl
  simp only [register, hget, hregister]

theorem System.rollback_of_late {s : System} {unit : Nat} {u : UnitOfWork}
    (hget : s.units.get? unit = some u) (late : u.phase ≠ .gathering) :
    ∃ e, s.rollback unit = (.error e, s) := by
  cases hrollback : u.rollback with
  | ok u' => exact (late (UnitOfWork.rollback_eq_ok_iff.1 hrollback).1).elim
  | error e => exact ⟨e, by simp only [rollback, hget, hrollback]⟩

/-- The course of a unit of work in every run. -/
theorem course_of_run {s₀ s : System} {h : History} {unit : Nat} {u : UnitOfWork}
    (fresh : s₀.Fresh) (run : Run s₀ h s) (hget : s.units.get? unit = some u) :
    u.Course h s unit := by
  have hsound : (s.ledger.desk unit u).Sound := (run.tidy fresh).1.sound hget
  obtain ⟨hsaves, hregistered⟩ := (Ledger.agrees_of_get? hget).1 (run.agrees fresh unit)
  constructor
  case saves_le =>
    rw [hsaves, UnitOfWork.kept]
    split <;> simp
  case batch =>
    intro events hevents
    rw [hsaves, UnitOfWork.kept] at hevents
    split at hevents
    · next hkept =>
      obtain rfl := List.mem_singleton.1 hevents
      exact ⟨hkept.2, hkept.1, rfl⟩
    · simp at hevents
  case committing_iff =>
    constructor
    · exact fun committing => hsound.exists_saving committing
    · rintro ⟨call, hrole⟩
      exact (hsound.locked hrole rfl).2.2.2.1
  case alone =>
    intro call role hrole hinside
    obtain ⟨alone, hpermits, hadmitted, -⟩ := hsound.locked hrole hinside
    exact ⟨fun other role' hrole' hinside' => alone other ⟨role', hrole', hinside'⟩, hpermits,
      hadmitted⟩
  case patient =>
    intro call houtcome
    exact run.patient fresh (System.outcome?_eq_some_iff.1 houtcome) rfl
  case refuses =>
    intro late
    exact ⟨System.register_of_late hget late, System.rollback_of_late hget late⟩
  case fixed =>
    intro m hm v hv late
    obtain ⟨tidy, change⟩ := run.change_of_mem fresh hm
    obtain ⟨v', hv', hevents, -⟩ := change.late tidy hv late
    exact ⟨v', hv', hevents⟩
  case committed =>
    intro m hm v hv hphase
    obtain ⟨u', hu', hcommitted, hevents⟩ := run.stays_committed fresh hm hv hphase
    obtain rfl := Option.some.inj (hu'.symm.trans hget)
    exact ⟨hcommitted, hevents⟩
  case gathering =>
    intro hphase
    refine ⟨?_, hregistered.symm⟩
    rw [hsaves, UnitOfWork.kept, if_neg]
    simp [hphase]

/-- The actions up to the save of one event by a commit. -/
def commitOfNote : List Action :=
  [.newUnit .synchronous, .register 1 [.note "a"], .commit 1, .step (.call 1), .step (.call 1)]

/-- The course of a unit of work while its first commit saves one event. -/
theorem course_while_committing :
    ∃ u, (System.blank.after commitOfNote).units.get? 1 = some u ∧
      u.Course (System.blank.course commitOfNote) (System.blank.after commitOfNote) 1 := by
  have run := Run.of_blank (by decide +kernel : System.blank.performs [] commitOfNote = true)
  obtain ⟨u, hu⟩ := Option.isSome_iff_exists.1
    (by decide +kernel : ((System.blank.after commitOfNote).units.get? 1).isSome = true)
  exact ⟨u, hu, course_of_run System.fresh_blank run hu⟩

end EventJournal
