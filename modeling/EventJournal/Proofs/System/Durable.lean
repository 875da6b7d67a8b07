import EventJournal.Proofs.Dispatch.Relayed
import EventJournal.Proofs.System.Growth
import EventJournal.Proofs.System.Passages
import EventJournal.Proofs.UnitOfWork.Phases

/-!
# What handlers hear is durable

On its way from a unit of work to a handler an event passes the hands of a commit, the queue, a
dispatch and an inbox. It has been saved before it enters any of these, and the journal loses
nothing.

* `Moment.committed?`, what a commit saves in a moment, and `Moment.Keeps`, with which record;
* `Dispatching.Draws`, `System.Draws`: that everything on its way is of some kind;
* `System.Passage.draws`, that no action brings anything else on its way;
* `Run.draws`, that what is on its way in a run has been saved by commits.

The main statement is `durable_of_run`.
-/

namespace EventJournal

open Dispatching (post)

/-! ### Events on their way -/

section Draws

variable {P Q : Envelope → Prop} {d : Dispatcher} {x : Dispatching} {a : Dispatching.Advance}

/-- A dispatch has only envelopes of one kind. -/
def Dispatching.Draws (P : Envelope → Prop) : Dispatching → Prop
  | .starting envelopes => ∀ e ∈ envelopes, P e
  | .publishing rest _ => ∀ p ∈ rest, ∃ e, P e ∧ p.IsOf e
  | _ => True

/-- A queue has only envelopes of one kind. -/
structure DispatchQueue.Draws (P : Envelope → Prop) (q : DispatchQueue Batch Dispatching) :
    Prop where
  waiting : ∀ batch ∈ q.waiting, ∀ e ∈ batch.envelopes, P e
  working : ∀ x, q.working = some x → x.Draws P

/-- A call has only envelopes of one kind to tell of. -/
def Call.Stage.Draws (P : Envelope → Prop) : Call.Stage → Prop
  | .saved _ envelopes => ∀ e ∈ envelopes, P e
  | .dispatching _ x => x.Draws P
  | .reloading _ => False
  | _ => True

/-- Everything on its way to handlers is of one kind. -/
structure System.Draws (P : Envelope → Prop) (s : System) : Prop where
  calls : ∀ call stage, s.calls.get? call = some stage → stage.Draws P
  queue : ∀ q, s.queue = some q → q.Draws P

theorem exists_isOf_of_post {envelopes : List Envelope} {postings : List Posting}
    (h : post envelopes = .ok postings) : ∀ p ∈ postings, ∃ e ∈ envelopes, p.IsOf e := by
  induction envelopes generalizing postings with
  | nil =>
    obtain rfl := Except.ok.inj h
    simp
  | cons envelope rest ih =>
    obtain ⟨message, later, hmessage, hlater, rfl⟩ := Dispatcher.post_cons_eq_ok_iff.1 h
    intro p hp
    rcases List.mem_append.1 hp with hp | hp
    · obtain ⟨topic, -, isOf, -⟩ :=
        exists_right_of_forall₂ (Dispatcher.forall₂_postings hmessage) hp
      exact ⟨envelope, List.mem_cons_self .., isOf⟩
    · obtain ⟨e, he, isOf⟩ := ih hlater p hp
      exact ⟨e, List.mem_cons_of_mem _ he, isOf⟩

/-- A dispatch publishes nothing but what it has. -/
theorem Dispatching.Draws.step (draws : x.Draws P) (h : x.step? d = some a) :
    a.next.Draws P ∧ ∀ y ∈ d.sends x, ∃ e, P e ∧ y.posting.IsOf e := by
  cases x with
  | starting envelopes =>
    refine ⟨?_, by simp [Dispatcher.sends]⟩
    simp only [step?] at h
    split at h
    · obtain rfl := Option.some.inj h
      trivial
    · split at h
      · obtain rfl := Option.some.inj h
        trivial
      · next hpost =>
        obtain rfl := Option.some.inj h
        intro p hp
        obtain ⟨e, he, isOf⟩ := exists_isOf_of_post hpost p hp
        exact ⟨e, draws e he, isOf⟩
  | publishing rest awaited =>
    cases rest with
    | nil =>
      obtain rfl := Option.some.inj h
      exact ⟨trivial, by simp [Dispatcher.sends]⟩
    | cons p rest =>
      constructor
      · simp only [step?] at h
        split at h
        · obtain rfl := Option.some.inj h
          trivial
        · obtain rfl := Option.some.inj h
          exact fun p' hp' => draws p' (List.mem_cons_of_mem _ hp')
      · intro y hy
        rw [Dispatcher.sends] at hy
        split at hy
        · simp at hy
        · obtain ⟨rfl, -⟩ := Account.registration_of_mem_plan hy
          exact draws y.posting (List.mem_cons_self ..)
  | awaiting rest failures =>
    refine ⟨?_, by simp [Dispatcher.sends]⟩
    cases rest with
    | nil =>
      obtain rfl := Option.some.inj h
      trivial
    | cons y rest =>
      simp only [step?] at h
      split at h
      · simp at h
      · obtain rfl := Option.some.inj h
        trivial
      · obtain rfl := Option.some.inj h
        trivial
  | done result => simp [step?] at h

theorem Dispatching.Draws.mono (draws : x.Draws P) (h : ∀ e, P e → Q e) : x.Draws Q := by
  cases x with
  | starting envelopes => exact fun e he => h e (draws e he)
  | publishing rest awaited =>
    intro p hp
    obtain ⟨e, he, isOf⟩ := draws p hp
    exact ⟨e, h e he, isOf⟩
  | awaiting => trivial
  | done => trivial

theorem Call.Stage.Draws.mono {stage : Call.Stage} (draws : stage.Draws P)
    (h : ∀ e, P e → Q e) : stage.Draws Q := by
  cases stage with
  | saved unit envelopes => exact fun e he => h e (draws e he)
  | dispatching commit x => exact Dispatching.Draws.mono draws h
  | reloading => exact draws
  | _ => trivial

namespace DispatchQueue

variable {q q' : DispatchQueue Batch Dispatching}

theorem Draws.mono (draws : q.Draws P) (h : ∀ e, P e → Q e) : q.Draws Q :=
  ⟨fun batch hbatch e he => h e (draws.waiting batch hbatch e he),
    fun x hx => (draws.working x hx).mono h⟩

theorem Draws.enqueue (draws : q.Draws P) {batch : Batch} (h : q.enqueue? batch = some q')
    (hbatch : ∀ e ∈ batch.envelopes, P e) : q'.Draws P := by
  rw [eq_of_enqueue h]
  exact ⟨List.forall_mem_append.2 ⟨draws.waiting, List.forall_mem_singleton.2 hbatch⟩,
    draws.working⟩

theorem Draws.take (draws : q.Draws P)
    (h : q.take? (fun batch => .starting batch.envelopes) = some q') : q'.Draws P := by
  obtain ⟨-, batch, hwaiting, hworking⟩ := exists_of_take h
  have hall := draws.waiting
  rw [hwaiting] at hall
  refine ⟨fun b hb => hall b (List.mem_cons_of_mem _ hb), fun x hx => ?_⟩
  obtain rfl := Option.some.inj (hworking.symm.trans hx)
  exact hall batch (List.mem_cons_self ..)

theorem Draws.ended (draws : q.Draws P) (h : q.end? = some q') : q'.Draws P := by
  rw [(eq_of_end h).2]
  exact ⟨draws.waiting, draws.working⟩

theorem Draws.shutdown (draws : q.Draws P) : q.shutdown.2.Draws P :=
  ⟨draws.waiting, draws.working⟩

theorem Draws.goOn (draws : q.Draws P) {next : Dispatching} (h : next.Draws P) :
    (q.goOn next).Draws P := by
  cases next with
  | done result => exact ⟨draws.waiting, by simp [DispatchQueue.goOn, finish]⟩
  | _ =>
    refine ⟨draws.waiting, fun x hx => ?_⟩
    obtain rfl := Option.some.inj hx
    exact h

end DispatchQueue

/-- An action brings nothing of another kind into the queue, and publishes nothing else. -/
theorem System.Passage.draws {s : System} {action : Action}
    {outlets : Dispatcher × Option (DispatchQueue Batch Dispatching)}
    (passage : s.Passage action outlets) (plain : action.bypassesCommits = false)
    (draws : s.Draws P) :
    (∀ q, outlets.2 = some q → q.Draws P) ∧
      ∀ y ∈ s.sends action, ∃ e, P e ∧ y.posting.IsOf e := by
  cases passage with
  | keeps hsends | turns hsends => exact ⟨draws.queue, by simp [hsends]⟩
  | hands stage get queue enqueue =>
    refine ⟨fun q hq => ?_, by simp [sends_of_stage stage rfl]⟩
    obtain rfl := Option.some.inj hq
    exact (draws.queue _ queue).enqueue enqueue (draws.calls _ _ stage)
  | puts => simp [Action.bypassesCommits] at plain
  | takes queue take =>
    have hfree := (DispatchQueue.exists_of_take take).1
    refine ⟨fun q hq => ?_, by simp [sends_of_working queue, hfree]⟩
    obtain rfl := Option.some.inj hq
    exact (draws.queue _ queue).take take
  | ends queue ending =>
    have hfree := (DispatchQueue.eq_of_end ending).1
    refine ⟨fun q hq => ?_, by simp [sends_of_working queue, hfree]⟩
    obtain rfl := Option.some.inj hq
    exact (draws.queue _ queue).ended ending
  | drives queue working step =>
    obtain ⟨hnext, hsends⟩ := ((draws.queue _ queue).working _ working).step step
    refine ⟨fun q hq => ?_, by simpa [sends_of_working queue, working] using hsends⟩
    obtain rfl := Option.some.inj hq
    exact (draws.queue _ queue).goOn hnext
  | goes stage step =>
    have hdraws : Dispatching.Draws P _ := draws.calls _ _ stage
    exact ⟨draws.queue, by simpa [sends_of_dispatching stage] using (hdraws.step step).2⟩
  | acts => exact ⟨draws.queue, by simp [sends, dispatching?]⟩
  | shuts queue =>
    refine ⟨fun q hq => ?_, by simp [sends]⟩
    obtain rfl := Option.some.inj hq
    exact (draws.queue _ queue).shutdown
  | replaces => simp [Action.bypassesCommits] at plain

/-- A call that is not dispatching has nothing else to tell of after a step, if that is so of what
it saves. -/
theorem Ledger.CallStep.draws {l l' : Ledger} {call : Nat} {stage : Call.Stage}
    (h : l.CallStep call stage l') (draws : stage.Draws P) (idle : stage.dispatch? = none)
    (saved : ∀ unit envelopes since save, stage = .saving (.commit unit) envelopes since save →
      l'.calls.get? call = some (.saved unit envelopes) → ∀ e ∈ envelopes, P e) :
    ∃ stage', l'.calls = l.calls.set call stage' ∧ stage'.Draws P := by
  cases h with
  | unprepared _ _ failed => cases failed <;> exact ⟨_, rfl, trivial⟩
  | failed _ failed => cases failed <;> exact ⟨_, rfl, trivial⟩
  | stored step completed =>
    cases completed with
    | itself => exact ⟨_, rfl, trivial⟩
    | commit get => exact ⟨_, rfl, saved _ _ _ _ rfl (Table.get?_set_self ..)⟩
  | dispatches => exact ⟨_, rfl, draws⟩
  | tells => simp [Call.Stage.dispatch?] at idle
  | reloaded => exact draws.elim
  | _ => exact ⟨_, rfl, trivial⟩

end Draws

/-! ### Events that commits have saved -/

/-- The unit of work and the envelopes of a commit whose save succeeds between two stages. -/
def Call.Stage.committed? : Call.Stage → Call.Stage → Option (Nat × List Envelope)
  | .saving (.commit unit) envelopes _ _, .saved _ _ => some (unit, envelopes)
  | _, _ => none

namespace Moment

/-- The unit of work and the envelopes of a commit whose save succeeds in a moment. -/
def committed? (m : Moment) : Option (Nat × List Envelope) :=
  match m.action with
  | .step (.call call) =>
    (m.before.calls.get? call).bind fun stage => (m.after.calls.get? call).bind stage.committed?
  | _ => none

/-- A commit saves an event of a unit of work in a moment, as a record. -/
structure Keeps (m : Moment) (unit : Nat) (e : Envelope) (r : Record) : Prop where
  committed : ∃ envelopes, m.committed? = some (unit, envelopes) ∧ e ∈ envelopes
  added : r ∈ m.added
  isOf : e.IsOf r

theorem exists_of_committed? {m : Moment} {unit : Nat} {envelopes : List Envelope}
    (h : m.committed? = some (unit, envelopes)) :
    ∃ call since save unit' envelopes', m.action = .step (.call call) ∧
      m.before.calls.get? call = some (.saving (.commit unit) envelopes since save) ∧
      m.after.calls.get? call = some (.saved unit' envelopes') := by
  unfold committed? at h
  split at h
  · next call haction =>
    obtain ⟨stage, hget, h⟩ := Option.bind_eq_some_iff.1 h
    obtain ⟨stage', hget', h⟩ := Option.bind_eq_some_iff.1 h
    unfold Call.Stage.committed? at h
    split at h
    · obtain ⟨rfl, rfl⟩ := Prod.mk.inj (Option.some.inj h)
      exact ⟨call, _, _, _, _, haction, hget, hget'⟩
    · simp at h
  · simp at h

/-- What a commit saves in a moment is saved of its unit of work. -/
theorem saved?_of_committed? {m : Moment} {unit : Nat} {envelopes : List Envelope}
    (h : m.committed? = some (unit, envelopes)) :
    m.before.ledger.saved? unit m.action m.after.ledger = some (envelopes.map Envelope.event) := by
  obtain ⟨call, since, save, unit', envelopes', haction, hget, hget'⟩ := exists_of_committed? h
  rw [haction, Ledger.saved?_of_get? hget hget']
  simp [Call.Stage.saved?]

end Moment

/-- A commit has saved an event. -/
def History.Keeps (h : History) (e : Envelope) : Prop := ∃ m ∈ h, ∃ unit r, m.Keeps unit e r

theorem History.Keeps.concat {h : History} {e : Envelope} (keeps : h.Keeps e) (m : Moment) :
    Keeps (h ++ [m]) e := by
  obtain ⟨m', hm', hkeeps⟩ := keeps
  exact ⟨m', List.mem_append_left _ hm', hkeeps⟩

namespace Run

variable {s₀ s s' : System} {h : History}

/-- A commit has just added the records of what it has saved. -/
theorem forall₂_added (run : Run s₀ h s) (fresh : s₀.Fresh) {call unit : Nat}
    {envelopes : List Envelope} {since : Time} {save : Saving Transaction}
    (hstep : s.stepCall? call = some s')
    (hget : s.calls.get? call = some (.saving (.commit unit) envelopes since save))
    (hget' : s'.calls.get? call = some (.saved unit envelopes)) :
    List.Forall₂ Envelope.IsOf envelopes (Moment.added ⟨s, .step (.call call), s'⟩) := by
  obtain ⟨hnone, -⟩ := run.stored fresh hget
  obtain ⟨-, isOf⟩ := (run.snoc (a := .step (.call call)) (by simp [Action.unit?])
    hstep).stored fresh hget'
  rwa [History.addedBy_concat, hnone, Moment.isStepOf_self, if_pos rfl, List.nil_append] at isOf

/-- What a commit has just saved is kept. -/
theorem keeps_of_saved (run : Run s₀ h s) (fresh : s₀.Fresh) {call unit : Nat}
    {envelopes : List Envelope} {since : Time} {save : Saving Transaction}
    (hstep : s.stepCall? call = some s')
    (hget : s.calls.get? call = some (.saving (.commit unit) envelopes since save))
    (hget' : s'.calls.get? call = some (.saved unit envelopes)) :
    ∀ e ∈ envelopes, History.Keeps (h ++ [⟨s, .step (.call call), s'⟩]) e := by
  intro e he
  obtain ⟨r, hr, isOf⟩ := exists_right_of_forall₂ (run.forall₂_added fresh hstep hget hget') he
  refine ⟨_, List.mem_append_right _ (List.mem_singleton_self _), unit, r, ?_, hr, isOf⟩
  exact ⟨envelopes, by simp [Moment.committed?, hget, hget', Call.Stage.committed?], he⟩

/-- Calls have only events to tell of that commits have saved. -/
theorem draws_of_call (run : Run s₀ h s) (fresh : s₀.Fresh) (own : h.OnlyCommits) {call : Nat}
    {stage : Call.Stage} (hget : s.calls.get? call = some stage) : stage.Draws h.Keeps := by
  refine run.stage_induction (P := fun h _ _ stage => h.OnlyCommits → stage.Draws h.Keeps) fresh
    ?_ ?_ ?_ hget own
  · intro h s s' a stage _ _ _ begins _ _ own
    have plain := (History.onlyCommits_concat.1 own).2
    rcases begins with starts | ⟨unit, -, rfl⟩
    · cases starts with
      | dispatch | redispatch => simp [Action.bypassesCommits] at plain
      | _ => trivial
    · trivial
  · intro h s s' call stage stage' run hstep hget callStep hget' ih own
    have hdraws := (ih (History.onlyCommits_concat.1 own).1).mono fun _ he =>
      he.concat ⟨s, .step (.call call), s'⟩
    have hsaved : ∀ unit envelopes since save, stage = .saving (.commit unit) envelopes since save →
        s'.calls.get? call = some (.saved unit envelopes) →
        ∀ e ∈ envelopes, History.Keeps (h ++ [⟨s, .step (.call call), s'⟩]) e := by
      rintro unit envelopes since save rfl hsaved
      exact run.keeps_of_saved fresh hstep hget hsaved
    cases stage with
    | dispatching commit dispatch =>
      obtain ⟨advance, hadvance, hnext⟩ := System.stage_of_dispatching hstep hget
      rcases hnext stage' hget' with rfl | ⟨outcome, rfl⟩
      · exact (Dispatching.Draws.step hdraws hadvance).1
      · trivial
    | _ =>
      obtain ⟨stage₁, hcalls, hstage⟩ := callStep.draws hdraws rfl hsaved
      obtain rfl := Ledger.eq_of_set hcalls hget'
      exact hstage
  · intro h s s' a call stage _ _ _ _ _ _ ih own
    exact (ih (History.onlyCommits_concat.1 own).1).mono fun _ he => he.concat _

/-- Whatever is on its way in a run, or has been published, commits have saved before. -/
theorem draws (run : Run s₀ h s) (fresh : s₀.Fresh) (unused : s₀.Unused) (own : h.OnlyCommits) :
    s.Draws h.Keeps ∧ ∀ y ∈ h.sent, ∃ e, h.Keeps e ∧ y.posting.IsOf e := by
  induction run with
  | nil =>
    refine ⟨⟨fun call stage hget => ?_, fun q hq => ?_⟩, by simp [History.sent]⟩
    · simp [fresh.calls] at hget
    · rw [unused.queue q hq]
      exact ⟨by simp, by simp⟩
  | @snoc h s s' a run known perform ih =>
    obtain ⟨hown, plain⟩ := History.onlyCommits_concat.1 own
    obtain ⟨draws, hsent⟩ := ih hown
    obtain ⟨hqueue, hsends⟩ := (System.passage_of_perform perform).draws plain draws
    have hlater : ∀ e, h.Keeps e → History.Keeps (h ++ [⟨s, a, s'⟩]) e := fun e he => he.concat _
    refine ⟨⟨fun call stage hget => ?_, fun q hq => (hqueue q hq).mono hlater⟩, ?_⟩
    · exact (run.snoc known perform).draws_of_call fresh own hget
    · rw [History.sent_concat]
      refine List.forall_mem_append.2 ⟨fun y hy => ?_, fun y hy => ?_⟩
      · obtain ⟨e, he, isOf⟩ := hsent y hy
        exact ⟨e, hlater e he, isOf⟩
      · obtain ⟨e, he, isOf⟩ := hsends y hy
        exact ⟨e, hlater e he, isOf⟩

/-- What a commit saves in a moment is saved of its unit of work, which stays committed. -/
theorem registered_of_committed (run : Run s₀ h s) (fresh : s₀.Fresh) {m : Moment} (hm : m ∈ h)
    {unit : Nat} {envelopes : List Envelope} (committed : m.committed? = some (unit, envelopes)) :
    (∃ u, s.units.get? unit = some u ∧ u.phase = .committed) ∧
      h.saves unit = [envelopes.map Envelope.event] ∧
      h.registered unit = envelopes.map Envelope.event := by
  have hmem : envelopes.map Envelope.event ∈ h.saves unit :=
    List.mem_filterMap.2 ⟨m, hm, Moment.saved?_of_committed? committed⟩
  have hagrees := run.agrees fresh unit
  cases hget : s.units.get? unit with
  | none =>
    have hnone : s.ledger.units.get? unit = none := hget
    simp only [Ledger.Agrees, hnone] at hagrees
    simp [hagrees.1] at hmem
  | some u =>
    obtain ⟨hsaves, hregistered⟩ := (Ledger.agrees_of_get? hget).1 hagrees
    rw [hsaves, UnitOfWork.kept] at hmem
    split at hmem
    · next hkept =>
      rw [List.mem_singleton.1 hmem, hsaves, UnitOfWork.kept, if_pos hkept]
      exact ⟨⟨u, rfl, hkept.1⟩, rfl, hregistered⟩
    · simp at hmem

end Run

/-- What a handler hears at a point of a run: an event of a unit of work that a commit has saved,
and that is in the journal. -/
structure Durable (h : History) (s : System) (heard : Envelope) (unit : Nat) (r : Record) :
    Prop where
  record : r ∈ s.storage.journal.records
  tells : heard.Tells s.dispatcher.registry r
  /-- A commit of the unit has saved the record. -/
  kept : ∃ m ∈ h, ∃ e, m.Keeps unit e r
  /-- No commit of another unit has. -/
  only : ∀ m ∈ h, ∀ other e, m.Keeps other e r → other = unit
  /-- The unit is committed. -/
  committed : ∃ u, s.units.get? unit = some u ∧ u.phase = .committed
  /-- What has been saved of the unit are the events registered since they were dropped last, and
  the record is that of one of them. -/
  registered : h.saves unit = [h.registered unit] ∧ ∃ e ∈ h.registered unit, r.Keeps e

/-- What a handler is called with in the next step of the worker of its registration. -/
def Dispatcher.hears? (d : Dispatcher) (id : Nat) : Option (String × Envelope) :=
  match d.work? id with
  | some (.took label (some envelope), _) => some (label, envelope)
  | _ => none

/-- What a handler hears has been sent to its registration. -/
theorem Dispatcher.Busy.exists_of_hears? {base d : Dispatcher} {made : List Registration}
    {sent : List Errand} {log : List (Nat × WorkerStep)} (busy : base.Busy made sent log d)
    {id : Nat} {label : String} {heard : Envelope} (hears : d.hears? id = some (label, heard)) :
    ∃ y ∈ sent, d.envelope? y.delivery = .ok heard := by
  unfold hears? at hears
  split at hears
  · next received d' hwork =>
    obtain ⟨rfl, rfl⟩ := Prod.mk.inj (Option.some.inj hears)
    obtain ⟨r, hr, rfl, does⟩ := work?_cases hwork
    generalize hstep : WorkerStep.took _ (some received) = step at does
    cases does with
    | @took x rest hand inbox =>
      obtain ⟨-, hreceived⟩ := WorkerStep.took.inj hstep
      obtain ⟨judged, held, waiting, progress, lane⟩ := busy.flows.lane_of_alive hr
      obtain rfl := Option.some.inj (lane.inbox.symm.trans inbox)
      have hmem : x ∈ Errand.towards r.id sent := by
        rw [progress.sent]
        exact List.mem_append_right _ (List.mem_cons_self ..)
      obtain ⟨y, hy, -, rfl⟩ := Errand.mem_towards.1 hmem
      refine ⟨y, hy, ?_⟩
      cases henvelope : d.envelope? y.delivery with
      | error cause => simp [henvelope, Except.toOption] at hreceived
      | ok envelope => simpa [henvelope, Except.toOption, eq_comm] using hreceived
    | asked => simp at hstep
    | judged => simp at hstep
  · simp at hears

/-- Handlers hear only of events that are durable. -/
theorem durable_of_run {s₀ s : System} {h : History} (fresh : s₀.Fresh) (unused : s₀.Unused)
    (regular : s₀.dispatcher.registry.Regular) (run : Run s₀ h s) (undisturbed : h.Undisturbed)
    (own : h.OnlyCommits) {id : Nat} {label : String} {heard : Envelope}
    (hears : s.dispatcher.hears? id = some (label, heard)) :
    ∃ unit r, Durable h s heard unit r := by
  obtain ⟨made, busy⟩ := run.busy unused own
  obtain ⟨y, hy, hheard⟩ := busy.exists_of_hears? hears
  obtain ⟨e, ⟨m, hm, unit, r, keeps⟩, isOf⟩ := (run.draws fresh unused own).2 y hy
  have growth := run.growth fresh undisturbed
  obtain ⟨⟨envelopes, hcommitted, he⟩, hadded, hisOf⟩ := keeps
  obtain ⟨committed, hsaves, hregistered⟩ := run.registered_of_committed fresh hm hcommitted
  refine ⟨unit, r, ?_⟩
  constructor
  case record =>
    rw [growth.records]
    exact List.mem_flatMap.2 ⟨m, hm, hadded⟩
  case tells =>
    rw [← busy.registry] at regular
    exact hisOf.tells_of_relayed regular (relayed_of_envelope? isOf hheard)
  case kept => exact ⟨m, hm, e, ⟨envelopes, hcommitted, he⟩, hadded, hisOf⟩
  case only =>
    intro m' hm' other e' keeps'
    obtain rfl := Run.moment_eq_of_place_eq growth hm hm' hadded keeps'.added rfl
    obtain ⟨envelopes', hcommitted', -⟩ := keeps'.committed
    rw [hcommitted] at hcommitted'
    exact (Prod.mk.inj (Option.some.inj hcommitted')).1.symm
  case committed => exact committed
  case registered =>
    rw [hsaves, hregistered]
    exact ⟨rfl, e.event, List.mem_map_of_mem he, e, hisOf, rfl⟩

/-- The actions up to where a handler of everything hears of a note on one aggregate; a note on
another has been dropped. The note is saved in nine steps and published in four. -/
def auditOfNote : List Action :=
  [.subscribe (.scripted "a" "audit" [] { behaviour := .accept }) ["*.*"], .newUnit .detached,
    .register 1 [.note "b"], .rollback 1, .register 1 [.note "a"], .commit 1] ++
  List.replicate 9 (.step (.call 1)) ++ List.replicate 4 (.step .queue)

/-- A note is durable when a handler hears of it. -/
theorem durable_of_auditOfNote :
    ∃ heard unit r, (System.queued.after auditOfNote).dispatcher.hears? 1 = some ("a", heard) ∧
      Durable (System.queued.course auditOfNote) (System.queued.after auditOfNote) heard unit
        r := by
  have performs : System.queued.performs [] auditOfNote = true := by decide +kernel
  have run : Run .queued (System.queued.course auditOfNote) (System.queued.after auditOfNote) :=
    Run.nil.follow (by simp) performs
  have hlabel : ((System.queued.after auditOfNote).dispatcher.hears? 1).map Prod.fst =
      some "a" := by
    decide +kernel
  obtain ⟨⟨label, heard⟩, hears, rfl⟩ := Option.map_eq_some_iff.1 hlabel
  have undisturbed : (System.queued.course auditOfNote).Undisturbed :=
    History.undisturbed_course (by decide +kernel)
  have own : (System.queued.course auditOfNote).OnlyCommits :=
    History.onlyCommits_course (by decide +kernel)
  obtain ⟨unit, r, durable⟩ := durable_of_run System.fresh_queued System.unused_queued
    Registry.regular_empty run undisturbed own hears
  exact ⟨heard, unit, r, hears, durable⟩

end EventJournal
