import EventJournal.Proofs.System.Outlets
import EventJournal.Proofs.System.Stored

/-!
# The outcomes of commits

What a commit says at its end is what has become of its events: whether they are stored, and whether
they were handed over to the handlers.

* `Telling`, how a commit hands its events over, and `Telling.Answered`, what it learns of that;
* `History.savedBy`, `History.toldBy`: the successful saves of a call and what it has handed over;
* `Call.Stage.Told`, what the stage of a call tells of both;
* `Ledger.CommitEnd`, the ways in which a commit ends.

The main statements are `CallStep.commitEnd` and `CallStep.stands`, for a step of a commit, and
`Run.stands`.
-/

namespace EventJournal

/-- How a commit hands its events over. -/
inductive Telling
  | dispatched (envelopes : List Envelope)
  | enqueued (unit : Uuid) (envelopes : List Envelope)

/-- How a unit of work has its events handed over. -/
def UnitOfWork.telling (u : UnitOfWork) (envelopes : List Envelope) : Telling :=
  match u.mode with
  | .synchronous => .dispatched envelopes
  | .detached => .enqueued u.id envelopes

/-- The stage that a call has been put to. -/
theorem System.get?_putCall (s : System) (call : Nat) (stage : Call.Stage) :
    (s.putCall call stage).calls.get? call = some stage := Table.get?_set_self ..

/-- The save that has succeeded if a call goes from one stage to another. -/
def Call.Stage.saves : Call.Stage → Call.Stage → List (List Envelope)
  | .saving _ envelopes _ _, .saved _ _ => [envelopes]
  | .saving _ envelopes _ _, .finished (.ok _) => [envelopes]
  | _, _ => []

/-- What a call hands over in the step that it takes at a stage. -/
def Ledger.tells (l : Ledger) : Call.Stage → List Telling
  | .saved unit envelopes => ((l.units.get? unit).map (·.telling envelopes)).toList
  | _ => []

namespace Moment

/-- The saves of a call that succeed in a moment. -/
def saves (m : Moment) (call : Nat) : List (List Envelope) :=
  match m.before.calls.get? call, m.after.calls.get? call with
  | some stage, some stage' => stage.saves stage'
  | _, _ => []

/-- What a call hands over in a moment. -/
def tells (m : Moment) (call : Nat) : List Telling :=
  ((m.before.calls.get? call).map m.before.ledger.tells).getD []

end Moment

/-- What it means for the system that a call hands events over: they get to a dispatch, or there is
one attempt to put them into the queue. -/
def Telling.Happens (m : Moment) (call : Nat) : Telling → Prop
  | .dispatched envelopes =>
    m.after.outlets = m.before.outlets ∧ ∃ unit,
      m.after.calls.get? call = some (.dispatching (some (unit, envelopes)) (.starting envelopes))
  | .enqueued id envelopes =>
    m.after.outlets = (m.before.dispatcher,
      (m.before.queue.bind (·.enqueue? ⟨id, envelopes⟩)).or m.before.queue)

/-- What a call that has handed its events over learns in a moment: how their dispatch has ended, or
whether the queue takes them. -/
inductive Telling.Answered (m : Moment) (call : Nat) : Telling → Except DispatchError Unit → Prop
  | dispatched {unit : Nat} {envelopes : List Envelope} {dispatch : Dispatching}
      {advance : Dispatching.Advance} {result : Except DispatchError Unit}
      (get : m.before.calls.get? call = some (.dispatching (some (unit, envelopes)) dispatch))
      (step : dispatch.step? m.before.dispatcher = some advance)
      (ends : advance.next = .done result) : Answered m call (.dispatched envelopes) result
  | accepted {id : Uuid} {envelopes : List Envelope}
      (put : (m.before.queue.bind (·.enqueue? ⟨id, envelopes⟩)).isSome = true) :
      Answered m call (.enqueued id envelopes) (.ok ())
  | refused {id : Uuid} {envelopes : List Envelope}
      (put : m.before.queue.bind (·.enqueue? ⟨id, envelopes⟩) = none) :
      Answered m call (.enqueued id envelopes) (.error .closed)

namespace History

/-- The successful saves of a call. -/
def savedBy (h : History) (call : Nat) : List (List Envelope) :=
  (h.stepsOf call).flatMap (·.saves call)

/-- What a call has handed over. -/
def toldBy (h : History) (call : Nat) : List Telling :=
  (h.stepsOf call).flatMap (·.tells call)

/-- A call has touched neither the dispatcher nor the queue. -/
def Silent (h : History) (call : Nat) : Prop :=
  ∀ m ∈ h.stepsOf call, m.after.outlets = m.before.outlets

/-- A call has come to a unit of work, to commit it. -/
def Commits (h : History) (call unit : Nat) : Prop :=
  ∃ m ∈ h, m.after.calls.get? call = some (.queued unit)

theorem savedBy_concat (h : History) (m : Moment) (call : Nat) :
    savedBy (h ++ [m]) call = h.savedBy call ++ if m.isStepOf call then m.saves call else [] := by
  rw [savedBy, stepsOf_concat, List.flatMap_append]
  cases m.isStepOf call <;> simp [savedBy]

theorem toldBy_concat (h : History) (m : Moment) (call : Nat) :
    toldBy (h ++ [m]) call = h.toldBy call ++ if m.isStepOf call then m.tells call else [] := by
  rw [toldBy, stepsOf_concat, List.flatMap_append]
  cases m.isStepOf call <;> simp [toldBy]

section Steps

variable (h : History) {s s' : System} {call : Nat} {stage stage' : Call.Stage} {m : Moment}

/-- What a step of a call saves, and what it hands over, is a matter of its stages. -/
theorem savedBy_step (hget : s.calls.get? call = some stage)
    (hget' : s'.calls.get? call = some stage') :
    savedBy (h ++ [⟨s, .step (.call call), s'⟩]) call = h.savedBy call ++ stage.saves stage' := by
  rw [savedBy_concat, Moment.isStepOf_self, if_pos rfl]
  simp only [Moment.saves, hget, hget']

theorem toldBy_step (s' : System) (hget : s.calls.get? call = some stage) :
    toldBy (h ++ [⟨s, .step (.call call), s'⟩]) call = h.toldBy call ++ s.ledger.tells stage := by
  rw [toldBy_concat, Moment.isStepOf_self, if_pos rfl]
  simp only [Moment.tells, hget]
  rfl

theorem savedBy_of_other (hstep : m.isStepOf call = false) :
    savedBy (h ++ [m]) call = h.savedBy call := by
  rw [savedBy_concat, hstep, if_neg Bool.false_ne_true, List.append_nil]

theorem toldBy_of_other (hstep : m.isStepOf call = false) :
    toldBy (h ++ [m]) call = h.toldBy call := by
  rw [toldBy_concat, hstep, if_neg Bool.false_ne_true, List.append_nil]

end Steps

theorem silent_concat {h : History} {m : Moment} {call : Nat} :
    Silent (h ++ [m]) call ↔
      h.Silent call ∧ (m.isStepOf call = true → m.after.outlets = m.before.outlets) := by
  rw [Silent, stepsOf_concat]
  cases m.isStepOf call with
  | false => simp [Silent]
  | true =>
    simp only [if_true, List.mem_append, List.mem_singleton, Silent]
    constructor
    · exact fun hall => ⟨fun m' hm' => hall m' (.inl hm'), fun _ => hall m (.inr rfl)⟩
    · rintro ⟨hh, hm⟩ m' (hm' | rfl)
      · exact hh m' hm'
      · exact hm trivial

end History

/-- What the stage of a call tells of the saves of the call that have succeeded and of what it has
handed over. -/
def Call.Stage.Told (units : Table Nat UnitOfWork) (saved : List (List Envelope))
    (told : List Telling) (silent : Prop) : Call.Stage → Prop
  | .saved _ envelopes => saved = [envelopes] ∧ told = []
  | .dispatching (some (unit, envelopes)) _ =>
    saved = [envelopes] ∧ told = [.dispatched envelopes] ∧
      ∃ u, units.get? unit = some u ∧ u.telling envelopes = .dispatched envelopes
  | .dispatching none _ | .finished _ => True
  | _ => saved = [] ∧ told = [] ∧ silent

theorem Desk.Step.telling_eq {d d' : Desk} {deed : Deed} (h : Desk.Step d deed d')
    (envelopes : List Envelope) : d'.unit.telling envelopes = d.unit.telling envelopes := by
  cases h with
  | register ok =>
    obtain ⟨-, rfl⟩ := UnitOfWork.register_eq_ok_iff.1 ok
    rfl
  | rollback ok =>
    obtain ⟨-, rfl⟩ := UnitOfWork.rollback_eq_ok_iff.1 ok
    rfl
  | pass role begin =>
    obtain ⟨-, -, rfl⟩ := UnitOfWork.begin_eq_ok_iff.1 begin
    rfl
  | fix role begin nonempty =>
    obtain ⟨-, -, rfl⟩ := UnitOfWork.begin_eq_ok_iff.1 begin
    rfl
  | fail role =>
    show (d.unit.reopen.leave).telling envelopes = _
    unfold UnitOfWork.reopen
    split <;> rfl
  | _ => rfl

namespace Ledger

variable {l l' : Ledger}

/-- A unit of work always hands its events over in the same way. -/
theorem Change.telling {a : Action} (h : l.Change a l') (tidy : l.Tidy) {unit : Nat}
    {u : UnitOfWork} (hget : l.units.get? unit = some u) :
    ∃ u', l'.units.get? unit = some u' ∧
      ∀ envelopes, u'.telling envelopes = u.telling envelopes := by
  refine h.exists_unit tidy hget (fun _ => rfl) fun step => ?_
  exact step.telling_eq

theorem tells_saved {unit : Nat} {u : UnitOfWork} (hget : l.units.get? unit = some u)
    (envelopes : List Envelope) : l.tells (.saved unit envelopes) = [u.telling envelopes] := by
  simp [tells, hget]

/-- What a step of a call tells of its save and of what it hands over. -/
theorem CallStep.tellings {call : Nat} {stage : Call.Stage} (h : l.CallStep call stage l')
    {saved : List (List Envelope)} {told : List Telling} {silent silent' : Prop}
    (hstage : stage.Told l.units saved told silent)
    (hsilent : stage.isHanding = false → silent → silent') :
    ∃ stage', l'.calls = l.calls.set call stage' ∧
      stage'.Told l'.units (saved ++ stage.saves stage') (told ++ l.tells stage) silent' := by
  cases h with
  | unprepared nonempty prepare failed => cases failed <;> exact ⟨_, rfl, trivial⟩
  | failed step failed => cases failed <;> exact ⟨_, rfl, trivial⟩
  | @prepared purpose =>
    refine ⟨_, rfl, ?_⟩
    obtain ⟨rfl, rfl, hs⟩ := hstage
    exact ⟨rfl, rfl, hsilent rfl hs⟩
  | stored step completed =>
    obtain ⟨rfl, rfl, hs⟩ := hstage
    cases completed with
    | itself => exact ⟨_, rfl, trivial⟩
    | commit get => exact ⟨_, rfl, rfl, rfl⟩
  | @dispatches unit u envelopes get mode =>
    obtain ⟨rfl, rfl⟩ := hstage
    have htelling : u.telling envelopes = .dispatched envelopes := by
      simp [UnitOfWork.telling, mode]
    refine ⟨_, rfl, rfl, ?_, u, get, htelling⟩
    rw [tells_saved get, htelling]
    rfl
  | @tells commit dispatch next =>
    refine ⟨_, rfl, ?_⟩
    cases commit with
    | none => trivial
    | some pair =>
      obtain ⟨rfl, rfl, u, hu, htelling⟩ := hstage
      exact ⟨rfl, rfl, u, hu, htelling⟩
  | loaded =>
    obtain ⟨rfl, rfl, hs⟩ := hstage
    exact ⟨_, rfl, rfl, rfl, hsilent rfl hs⟩
  | timed =>
    obtain ⟨rfl, rfl, hs⟩ := hstage
    exact ⟨_, rfl, rfl, rfl, hsilent rfl hs⟩
  | decided =>
    obtain ⟨rfl, rfl, hs⟩ := hstage
    exact ⟨_, rfl, rfl, rfl, hsilent rfl hs⟩
  | entered =>
    obtain ⟨rfl, rfl, hs⟩ := hstage
    exact ⟨_, rfl, rfl, rfl, hsilent rfl hs⟩
  | fixed =>
    obtain ⟨rfl, rfl, hs⟩ := hstage
    exact ⟨_, rfl, rfl, rfl, hsilent rfl hs⟩
  | asked step going =>
    obtain ⟨rfl, rfl, hs⟩ := hstage
    exact ⟨_, rfl, rfl, rfl, hsilent rfl hs⟩
  | _ => exact ⟨_, rfl, trivial⟩

end Ledger

namespace Run

variable {s₀ s : System} {h : History}

/-- In a run the stages of calls tell the truth about saves and about what was handed over. -/
theorem told (run : Run s₀ h s) (fresh : s₀.Fresh) {call : Nat} {stage : Call.Stage}
    (hget : s.calls.get? call = some stage) :
    stage.Told s.units (h.savedBy call) (h.toldBy call) (h.Silent call) := by
  refine run.stage_induction (P := fun h s call stage =>
    stage.Told s.units (h.savedBy call) (h.toldBy call) (h.Silent call)) fresh ?_ ?_ ?_ hget
  · intro h s s' a stage _ _ _ begins _ hnone
    have hsilent : History.Silent (h ++ [⟨s, a, s'⟩]) (s.lastCall + 1) := by
      simp [History.Silent, hnone]
    rw [History.savedBy, History.toldBy, hnone]
    rcases begins with starts | ⟨unit, -, rfl⟩
    · cases starts with
      | dispatch => trivial
      | shutdown => trivial
      | _ => exact ⟨rfl, rfl, hsilent⟩
    · exact ⟨rfl, rfl, hsilent⟩
  · intro h s s' call stage stage' _ perform hget callStep hget' ih
    have hquiet : stage.isHanding = false → h.Silent call →
        History.Silent (h ++ [⟨s, .step (.call call), s'⟩]) call := by
      intro plain hsilent
      exact History.silent_concat.2
        ⟨hsilent, fun _ => System.outlets_stepCall? perform hget plain⟩
    obtain ⟨stage₁, hcalls, htold⟩ := callStep.tellings ih hquiet
    obtain rfl := Ledger.eq_of_set hcalls hget'
    rw [History.savedBy_step h hget hget', History.toldBy_step h s' hget]
    exact htold
  · intro h s s' a call stage run _ change hstep _ _ ih
    have hsilent : History.Silent (h ++ [⟨s, a, s'⟩]) call ↔ h.Silent call := by
      rw [History.silent_concat, hstep]
      simp
    rw [History.savedBy_of_other h hstep, History.toldBy_of_other h hstep, hsilent]
    cases stage with
    | dispatching commit dispatch =>
      cases commit with
      | none => trivial
      | some pair =>
        obtain ⟨hsaved, htold, u, hu, hdispatched⟩ := ih
        obtain ⟨u', hu', htelling⟩ := change.telling (run.tidy fresh).1 hu
        exact ⟨hsaved, htold, u', hu', (htelling _).trans hdispatched⟩
    | _ => exact ih

end Run

/-! ### How commits end -/

namespace Ledger

variable {l l' : Ledger}

/-- How a commit ends: what its stage was, the unit of work before and after, and the outcome. -/
inductive CommitEnd (unit : Nat) (stage : Call.Stage) (v u : UnitOfWork) : Call.Outcome → Prop
  | refused (entered : stage = .entered unit) :
      CommitEnd unit stage v u (.error (.commit .alreadyCommitted))
  | empty (entered : stage = .entered unit) (events : v.events = []) :
      CommitEnd unit stage v u (.ok (.saved []))
  | failed (plain : stage.isHanding = false) (e : StoreError) (committing : v.phase = .committing)
      (gathering : u.phase = .gathering) (events : u.events = v.events) :
      CommitEnd unit stage v u (.error (.commit (.store e)))
  | told {envelopes : List Envelope} (result : Except DispatchError Unit)
      (handing : stage = .saved unit envelopes ∨
        ∃ dispatch, stage = .dispatching (some (unit, envelopes)) dispatch)
      (nonempty : envelopes ≠ []) (events : v.events = envelopes.map Envelope.event)
      (same : u.events = v.events) (telling : u.telling envelopes = v.telling envelopes) :
      CommitEnd unit stage v u (System.commitOutcome envelopes result)

theorem SaveFailed.commitEnd {call unit : Nat} {e : StoreError} {v : UnitOfWork}
    {outcome : Call.Outcome} (h : l.SaveFailed call e (.commit unit) l') (stage : Call.Stage)
    (plain : stage.isHanding = false) (hv : l.units.get? unit = some v)
    (committing : v.phase = .committing) (hend : l'.calls.get? call = some (.finished outcome)) :
    ∃ u, l'.units.get? unit = some u ∧ CommitEnd unit stage v u outcome := by
  cases h with
  | @commit _ v' get =>
    obtain rfl := Option.some.inj (get.symm.trans hv)
    have hfinished := Option.some.inj ((Table.get?_set_self ..).symm.trans hend)
    cases hfinished
    refine ⟨v'.reopen.leave, Table.get?_set_self .., .failed plain e committing ?_ ?_⟩
    · simp [UnitOfWork.reopen, committing]
    · rw [UnitOfWork.events_leave, UnitOfWork.events_reopen]

/-- A step that ends a commit ends it in one of these ways. -/
theorem CallStep.commitEnd {call unit : Nat} {stage : Call.Stage} {role : Role}
    {outcome : Call.Outcome} (h : l.CallStep call stage l') (tidy : l.Tidy)
    (hget : l.calls.get? call = some stage) (hrole : stage.role? = some (unit, role))
    (hend : l'.calls.get? call = some (.finished outcome)) :
    ∃ v u, l.units.get? unit = some v ∧ l'.units.get? unit = some u ∧
      CommitEnd unit stage v u outcome := by
  have hset : ∀ stage', l'.calls = l.calls.set call stage' → stage' = .finished outcome := by
    intro stage' hcalls
    exact eq_of_set hcalls hend
  obtain ⟨v, hv⟩ := tidy.unit_of_role (roles_of_role? hget hrole)
  have hfits : role.isInside = true → Desk.Fits v role := fun hinside =>
    ((tidy.sound hv).locked (roles_of_role? hget hrole) hinside).2.2.2
  cases h with
  | @refused _ v' e get begin =>
    obtain ⟨rfl, rfl⟩ := Prod.mk.inj (Option.some.inj hrole)
    obtain rfl := Option.some.inj (get.symm.trans hv)
    cases hset _ rfl
    refine ⟨v', _, hv, Table.get?_set_self .., ?_⟩
    -- another commit cannot be under way
    have hphase : v'.phase ≠ .committing := hfits rfl
    unfold UnitOfWork.begin at begin
    split at begin
    · obtain rfl := Except.error.inj begin
      exact .refused rfl
    · next hcommitting => exact (hphase hcommitting).elim
    · split at begin <;> simp at begin
  | @emptied _ v' _ get begin =>
    obtain ⟨rfl, rfl⟩ := Prod.mk.inj (Option.some.inj hrole)
    obtain rfl := Option.some.inj (get.symm.trans hv)
    cases hset _ rfl
    obtain ⟨-, hevents, -⟩ := UnitOfWork.begin_eq_ok_iff.1 begin
    exact ⟨v', _, hv, Table.get?_set_self .., .empty rfl hevents.symm⟩
  | @unprepared purpose events e _ nonempty prepare failed =>
    cases purpose with
    | itself => simp [Call.Stage.role?] at hrole
    | commit other =>
      obtain ⟨rfl, rfl⟩ := Prod.mk.inj (Option.some.inj hrole)
      obtain ⟨u, hu, hcommitEnd⟩ :=
        failed.commitEnd (.held (.commit other) events) rfl hv (hfits rfl).1 hend
      exact ⟨v, u, hv, hu, hcommitEnd⟩
  | @failed purpose envelopes since save e storage _ step failed =>
    cases purpose with
    | itself => simp [Call.Stage.role?] at hrole
    | commit other =>
      obtain ⟨rfl, rfl⟩ := Prod.mk.inj (Option.some.inj hrole)
      obtain ⟨u, hu, hcommitEnd⟩ :=
        failed.commitEnd (.saving (.commit other) envelopes since save) rfl hv (hfits rfl).1 hend
      exact ⟨v, u, hv, hu, hcommitEnd⟩
  | @stored purpose _ _ _ _ _ step completed =>
    cases purpose with
    | itself => simp [Call.Stage.role?] at hrole
    | commit other =>
      cases completed with
      | commit get => cases hset _ rfl
  | @enqueues _ v' envelopes result get mode =>
    obtain ⟨rfl, rfl⟩ := Prod.mk.inj (Option.some.inj hrole)
    obtain rfl := Option.some.inj (get.symm.trans hv)
    cases hset _ rfl
    obtain ⟨-, hevents, hne⟩ := hfits rfl
    exact ⟨v', _, hv, Table.get?_set_self .., .told result (.inl rfl) hne hevents rfl rfl⟩
  | @toldCommit _ v' envelopes dispatch result get =>
    obtain ⟨rfl, rfl⟩ := Prod.mk.inj (Option.some.inj hrole)
    obtain rfl := Option.some.inj (get.symm.trans hv)
    cases hset _ rfl
    obtain ⟨-, hevents, hne⟩ := hfits rfl
    exact ⟨v', _, hv, Table.get?_set_self ..,
      .told result (.inr ⟨dispatch, rfl⟩) hne hevents rfl rfl⟩
  | loaded => simp [Call.Stage.role?] at hrole
  | unloaded => simp [Call.Stage.role?] at hrole
  | unreplayed => simp [Call.Stage.role?] at hrole
  | ruledOut => simp [Call.Stage.role?] at hrole
  | savedNothing => simp [Call.Stage.role?] at hrole
  | told => simp [Call.Stage.role?] at hrole
  | reloaded => simp [Call.Stage.role?] at hrole
  | unreloaded => simp [Call.Stage.role?] at hrole
  | drained => simp [Call.Stage.role?] at hrole
  | _ => cases hset _ rfl

/-- A call that stands with a unit of work goes on standing with it, or ends. -/
theorem CallStep.stands {call unit : Nat} {stage : Call.Stage} {role : Role}
    (h : l.CallStep call stage l') (hrole : stage.role? = some (unit, role)) :
    ∃ stage', l'.calls = l.calls.set call stage' ∧
      ((∃ role', stage'.role? = some (unit, role')) ∨ ∃ outcome, stage' = .finished outcome) := by
  cases h with
  | entered =>
    obtain ⟨rfl, -⟩ := Prod.mk.inj (Option.some.inj hrole)
    exact ⟨_, rfl, .inl ⟨_, rfl⟩⟩
  | fixed =>
    obtain ⟨rfl, -⟩ := Prod.mk.inj (Option.some.inj hrole)
    exact ⟨_, rfl, .inl ⟨_, rfl⟩⟩
  | unprepared _ _ failed => cases failed <;> exact ⟨_, rfl, .inr ⟨_, rfl⟩⟩
  | failed _ failed => cases failed <;> exact ⟨_, rfl, .inr ⟨_, rfl⟩⟩
  | @prepared purpose =>
    cases purpose with
    | itself => simp [Call.Stage.role?] at hrole
    | commit other =>
      obtain ⟨rfl, -⟩ := Prod.mk.inj (Option.some.inj hrole)
      exact ⟨_, rfl, .inl ⟨_, rfl⟩⟩
  | @asked purpose =>
    cases purpose with
    | itself => simp [Call.Stage.role?] at hrole
    | commit other =>
      obtain ⟨rfl, -⟩ := Prod.mk.inj (Option.some.inj hrole)
      exact ⟨_, rfl, .inl ⟨_, rfl⟩⟩
  | stored _ completed =>
    cases completed with
    | itself => exact ⟨_, rfl, .inr ⟨_, rfl⟩⟩
    | commit get =>
      obtain ⟨rfl, -⟩ := Prod.mk.inj (Option.some.inj hrole)
      exact ⟨_, rfl, .inl ⟨_, rfl⟩⟩
  | dispatches =>
    obtain ⟨rfl, -⟩ := Prod.mk.inj (Option.some.inj hrole)
    exact ⟨_, rfl, .inl ⟨_, rfl⟩⟩
  | @tells commit =>
    cases commit with
    | none => simp [Call.Stage.role?] at hrole
    | some pair =>
      obtain ⟨rfl, -⟩ := Prod.mk.inj (Option.some.inj hrole)
      exact ⟨_, rfl, .inl ⟨_, rfl⟩⟩
  | loaded => simp [Call.Stage.role?] at hrole
  | timed => simp [Call.Stage.role?] at hrole
  | decided => simp [Call.Stage.role?] at hrole
  | reloaded => simp [Call.Stage.role?] at hrole
  | _ => exact ⟨_, rfl, .inr ⟨_, rfl⟩⟩

theorem CallStep.not_finished {call : Nat} {outcome : Call.Outcome} :
    ¬ l.CallStep call (.finished outcome) l' := by
  intro h
  cases h

end Ledger

namespace Run

variable {s₀ s : System} {h : History} {call unit : Nat}

theorem commits_le (run : Run s₀ h s) (fresh : s₀.Fresh) (commits : h.Commits call unit) :
    call ≤ s.lastCall := by
  induction run with
  | nil =>
    obtain ⟨m, hm, -⟩ := commits
    simp at hm
  | @snoc h s s' a run known perform ih =>
    obtain ⟨m, hm, hqueued⟩ := commits
    rcases List.mem_append.1 hm with hm | hm
    · exact Nat.le_trans (ih ⟨m, hm, hqueued⟩) (run.change fresh known perform).turn.lastCall_le
    · obtain rfl := List.mem_singleton.1 hm
      exact ((run.snoc known perform).tidy fresh).1.call_le hqueued

/-- A call that has come to a unit of work stands with it until it ends. -/
theorem stands (run : Run s₀ h s) (fresh : s₀.Fresh) {stage : Call.Stage}
    (hget : s.calls.get? call = some stage) (commits : h.Commits call unit) :
    (∃ role, stage.role? = some (unit, role)) ∨ ∃ outcome, stage = .finished outcome := by
  -- the last moment is the one in which the call comes, or it has come before
  have hcases : ∀ {h : History} {m : Moment} {call : Nat} {stage : Call.Stage},
      m.after.calls.get? call = some stage → History.Commits (h ++ [m]) call unit →
      h.Commits call unit ∨ stage = .queued unit := by
    rintro h m call stage hget ⟨m', hm', hqueued⟩
    rcases List.mem_append.1 hm' with hm' | hm'
    · exact .inl ⟨m', hm', hqueued⟩
    · obtain rfl := List.mem_singleton.1 hm'
      exact .inr (Option.some.inj (hget.symm.trans hqueued))
  refine run.stage_induction (P := fun h _ call stage => h.Commits call unit →
    (∃ role, stage.role? = some (unit, role)) ∨ ∃ outcome, stage = .finished outcome) fresh
    ?_ ?_ ?_ hget commits
  · intro h s s' a stage run _ _ _ hget' _ commits
    rcases hcases hget' commits with commits | rfl
    · have hle := run.commits_le fresh commits
      omega
    · exact .inl ⟨_, rfl⟩
  · intro h s s' call stage stage' _ _ _ callStep hget' ih commits
    rcases hcases hget' commits with commits | rfl
    · rcases ih commits with ⟨role, hrole⟩ | ⟨outcome, rfl⟩
      · obtain ⟨stage₁, hcalls, hstands⟩ := callStep.stands hrole
        obtain rfl := Ledger.eq_of_set hcalls hget'
        exact hstands
      · exact (callStep.not_finished).elim
    · exact .inl ⟨_, rfl⟩
  · intro h s s' a call stage _ _ _ _ _ hget' ih commits
    rcases hcases hget' commits with commits | rfl
    · exact ih commits
    · exact .inl ⟨_, rfl⟩

end Run

end EventJournal
