import EventJournal.UnitOfWork
import Mathlib.Logic.Function.Basic

/-!
# Units of work and their commits

A unit of work together with the commits that have come to it, whatever the saves of these commits
come to: each may succeed, fail or be given up.

* `Role`, where a commit stands with the unit; `Desk`, a unit with the roles of calls;
* `Deed`, what may happen at a desk, and `Desk.Step`;
* `Deed.saved?`, `Deed.buffered`: the events that a deed saves, and what it does to those gathered;
* `Desk.Sound`, the invariant: one commit at most is past the gate, and the phase tells what it
  does;
* `UnitOfWork.kept`, what has been saved of a unit.

The main statement is `Desk.Sound.step`. What follows for the buffer and the phase is in
`Desk.Step.events_eq`, `Desk.Step.kept_eq` and `Desk.Step.stays_committed`.
-/

namespace EventJournal

/-- Where a commit stands with its unit of work. -/
inductive Role
  /-- It waits at the gate. -/
  | waiting
  /-- It has passed the gate and not looked at the buffer yet. -/
  | entered
  /-- It saves these events. -/
  | saving (events : List Event)
  /-- It has saved, and tells of it. -/
  | telling (envelopes : List Envelope)

/-- Whether a commit has passed the gate. -/
def Role.isInside : Role → Bool
  | .waiting => false
  | _ => true

/-- A unit of work, and where calls stand with it. -/
structure Desk where
  unit : UnitOfWork
  roles : Nat → Option Role

/-- What may happen at a desk. -/
inductive Deed
  | register (events : List Event)
  | rollback
  | arrive (call : Nat)
  /-- A commit that waits is given up. -/
  | quit (call : Nat)
  | enter (call : Nat)
  | refuse (call : Nat) (e : CommitError)
  /-- A commit finds no events, and ends. -/
  | pass (call : Nat)
  | fix (call : Nat) (events : List Event)
  /-- A save fails or is given up. -/
  | fail (call : Nat)
  | succeed (call : Nat) (envelopes : List Envelope)
  /-- A commit that has saved ends or is given up. -/
  | part (call : Nat)

namespace Deed

/-- The events that a deed saves. -/
def saved? : Deed → Option (List Event)
  | .succeed _ envelopes => some (envelopes.map Envelope.event)
  | _ => none

/-- What a deed does to the events that are gathered. -/
def buffered (events : List Event) : Deed → List Event
  | .register new => events ++ new
  | .rollback => []
  | _ => events

end Deed

/-- What has been saved of a unit of work: its events, in one batch, once it is committed. -/
def UnitOfWork.kept (u : UnitOfWork) : List (List Event) :=
  if u.phase = .committed ∧ u.events ≠ [] then [u.events] else []

namespace Desk

open Function (update)

/-- A desk goes from one state to the next. -/
inductive Step (d : Desk) : Deed → Desk → Prop
  | register {events : List Event} {u : UnitOfWork} (ok : d.unit.register events = .ok u) :
      Step d (.register events) { d with unit := u }
  | rollback {u : UnitOfWork} (ok : d.unit.rollback = .ok u) :
      Step d .rollback { d with unit := u }
  | arrive {c : Nat} (role : d.roles c = none) :
      Step d (.arrive c)
        ⟨{ d.unit with gate := d.unit.gate.join c }, update d.roles c (some .waiting)⟩
  | quit {c : Nat} (role : d.roles c = some .waiting) :
      Step d (.quit c) ⟨{ d.unit with gate := d.unit.gate.leave c }, update d.roles c none⟩
  | enter {c : Nat} {gate : Gate Nat} (role : d.roles c = some .waiting)
      (pass : d.unit.gate.pass? c = some gate) :
      Step d (.enter c) ⟨{ d.unit with gate }, update d.roles c (some .entered)⟩
  | refuse {c : Nat} {e : CommitError} (role : d.roles c = some .entered)
      (begin : d.unit.begin = .error e) :
      Step d (.refuse c e) ⟨d.unit.leave, update d.roles c none⟩
  | pass {c : Nat} {u : UnitOfWork} (role : d.roles c = some .entered)
      (begin : d.unit.begin = .ok ([], u)) :
      Step d (.pass c) ⟨u.leave, update d.roles c none⟩
  | fix {c : Nat} {events : List Event} {u : UnitOfWork} (role : d.roles c = some .entered)
      (begin : d.unit.begin = .ok (events, u)) (nonempty : events ≠ []) :
      Step d (.fix c events) ⟨u, update d.roles c (some (.saving events))⟩
  | fail {c : Nat} {events : List Event} (role : d.roles c = some (.saving events)) :
      Step d (.fail c) ⟨d.unit.reopen.leave, update d.roles c none⟩
  | succeed {c : Nat} {envelopes : List Envelope}
      (role : d.roles c = some (.saving (envelopes.map Envelope.event))) :
      Step d (.succeed c envelopes)
        ⟨d.unit.complete, update d.roles c (some (.telling envelopes))⟩
  | part {c : Nat} {envelopes : List Envelope} (role : d.roles c = some (.telling envelopes)) :
      Step d (.part c) ⟨d.unit.leave, update d.roles c none⟩

/-- Whether a call is past the gate. -/
def Inside (d : Desk) (c : Nat) : Prop := ∃ r, d.roles c = some r ∧ r.isInside = true

/-- What the unit is like while a commit past the gate stands so. -/
def Fits (u : UnitOfWork) : Role → Prop
  | .waiting => False
  | .entered => u.phase ≠ .committing
  | .saving events => u.phase = .committing ∧ u.events = events ∧ events ≠ []
  | .telling envelopes =>
    u.phase = .committed ∧ u.events = envelopes.map Envelope.event ∧ envelopes ≠ []

/-- Nobody is past the gate, or one commit is, which has locked it and whose doings are the phase of
the unit. -/
inductive Sound (d : Desk) : Prop
  | free (outside : ∀ c, ¬ d.Inside c) (total : d.unit.gate.total ≤ 1)
      (phase : d.unit.phase ≠ .committing)
  | taken {c : Nat} {r : Role} (role : d.roles c = some r) (alone : ∀ c', d.Inside c' → c' = c)
      (permits : d.unit.gate.permits = 0) (admitted : d.unit.gate.admitted = [])
      (fits : Fits d.unit r)

end Desk

namespace Gate

variable {α : Type}

theorem join_of_locked {g : Gate α} (hp : g.permits = 0) (a : α) :
    (g.join a).permits = 0 ∧ (g.join a).admitted = g.admitted := by
  simp [join, hp]

variable [DecidableEq α]

theorem total_leave_le (g : Gate α) (a : α) : (g.leave a).total ≤ g.total := by
  unfold leave
  split
  · next h =>
    rw [total_release]
    have herase := List.length_erase_of_mem h
    have hpos := List.length_pos_of_mem h
    simp only [total]
    omega
  · exact Nat.le_refl _

theorem total_pass {g g' : Gate α} {a : α} (h : g.pass? a = some g') :
    g'.permits = g.permits ∧ g'.admitted.length + 1 = g.admitted.length := by
  obtain ⟨hmem, rfl⟩ := pass?_eq_some_iff.1 h
  have hpos := List.length_pos_of_mem hmem
  rw [List.length_erase_of_mem hmem]
  exact ⟨rfl, by omega⟩

theorem leave_of_locked {g : Gate α} (hp : g.permits = 0) (ha : g.admitted = []) (a : α) :
    (g.leave a).permits = 0 ∧ (g.leave a).admitted = [] := by
  simp [leave, hp, ha]

end Gate

namespace Desk

open Function (update)

/-- Who is past the gate after the role of a call has changed. -/
theorem inside_update {d : Desk} {u : UnitOfWork} {c c' : Nat} {r : Option Role} :
    Inside ⟨u, update d.roles c r⟩ c' ↔
      if c' = c then ∃ r', r = some r' ∧ r'.isInside = true else d.Inside c' := by
  unfold Inside
  by_cases h : c' = c
  · subst h
    simp
  · simp [h]

/-- The commit that is past the gate leaves: nobody is past it. -/
theorem Sound.free_of_leave {d : Desk} {c : Nat} (alone : ∀ c', d.Inside c' → c' = c)
    {u : UnitOfWork} (total : u.gate.total ≤ 1) (phase : u.phase ≠ .committing) :
    Sound ⟨u, update d.roles c none⟩ := by
  refine .free (fun c' h => ?_) total phase
  rw [inside_update] at h
  split at h
  · simp at h
  · next hne => exact hne (alone c' h)

/-- The commit that is past the gate goes on. -/
theorem Sound.taken_of_go {d : Desk} {c : Nat} (alone : ∀ c', d.Inside c' → c' = c)
    {u : UnitOfWork} {r : Role} (permits : u.gate.permits = 0) (admitted : u.gate.admitted = [])
    (fits : Fits u r) : Sound ⟨u, update d.roles c (some r)⟩ := by
  refine .taken (Function.update_self ..) (fun c' h => ?_) permits admitted fits
  rw [inside_update] at h
  split at h
  · assumption
  · exact alone c' h

/-- A call that is not past the gate, before and after, does not matter. -/
theorem Sound.of_outside {d : Desk} (h : d.Sound) {c : Nat} (hc : ¬ d.Inside c) {g : Gate Nat}
    {r : Option Role} (hr : r = none ∨ r = some .waiting) (total : g.total ≤ d.unit.gate.total)
    (locked : d.unit.gate.permits = 0 → d.unit.gate.admitted = [] →
      g.permits = 0 ∧ g.admitted = []) :
    Sound ⟨{ d.unit with gate := g }, update d.roles c r⟩ := by
  have houtside : ∀ {c'}, Inside ⟨{ d.unit with gate := g }, update d.roles c r⟩ c' →
      d.Inside c' := by
    intro c' h
    rw [inside_update] at h
    split at h
    · rcases hr with rfl | rfl <;> simp [Role.isInside] at h
    · exact h
  cases h with
  | free outside total' phase =>
    exact .free (fun c' h => outside c' (houtside h)) (Nat.le_trans total total') phase
  | @taken c₀ r₀ role alone permits admitted fits =>
    have hne : c₀ ≠ c := by
      rintro rfl
      refine hc ⟨r₀, role, ?_⟩
      cases r₀ with
      | waiting => exact fits.elim
      | entered => rfl
      | saving => rfl
      | telling => rfl
    refine .taken (c := c₀) (r := r₀) ?_ (fun c' h => alone c' (houtside h))
      (locked permits admitted).1 (locked permits admitted).2 ?_
    · exact (Function.update_of_ne hne ..).trans role
    · cases r₀ <;> exact fits

/-- What a unit holds does not matter while it gathers. -/
theorem Sound.of_gathering {d : Desk} (h : d.Sound) (hphase : d.unit.phase = .gathering)
    (events : List Event) : Sound { d with unit := { d.unit with events } } := by
  cases h with
  | free outside total phase => exact .free outside total phase
  | @taken c r role alone permits admitted fits =>
    refine .taken role alone permits admitted ?_
    cases r with
    | waiting => exact fits
    | entered => exact fits
    | saving => simp [Fits, hphase] at fits
    | telling => simp [Fits, hphase] at fits

/-- A call past the gate is the one that has locked it. -/
theorem Sound.locked {d : Desk} (h : d.Sound) {c : Nat} {r : Role} (role : d.roles c = some r)
    (hr : r.isInside = true) :
    (∀ c', d.Inside c' → c' = c) ∧ d.unit.gate.permits = 0 ∧ d.unit.gate.admitted = [] ∧
      Fits d.unit r := by
  cases h with
  | free outside _ _ => exact (outside c ⟨r, role, hr⟩).elim
  | @taken c₀ r₀ role₀ alone permits admitted fits =>
    obtain rfl := alone c ⟨r, role, hr⟩
    obtain rfl := Option.some.inj (role₀.symm.trans role)
    exact ⟨alone, permits, admitted, fits⟩

end Desk

namespace UnitOfWork

theorem total_leave {u : UnitOfWork} (hp : u.gate.permits = 0) (ha : u.gate.admitted = []) :
    u.leave.gate.total = 1 := by
  rw [leave, Gate.total_release, Gate.total, hp, ha]
  rfl

@[simp] theorem phase_leave (u : UnitOfWork) : u.leave.phase = u.phase := rfl

@[simp] theorem phase_complete (u : UnitOfWork) : u.complete.phase = .committed := rfl

@[simp] theorem gate_complete (u : UnitOfWork) : u.complete.gate = u.gate := rfl

@[simp] theorem gate_reopen (u : UnitOfWork) : u.reopen.gate = u.gate := by
  unfold reopen
  split <;> rfl

theorem phase_reopen_ne (u : UnitOfWork) : u.reopen.phase ≠ .committing := by
  unfold reopen
  split
  · simp
  · next h => simpa using h

/-- Events can be dropped exactly while the unit gathers. -/
theorem rollback_eq_ok_iff {u u' : UnitOfWork} :
    u.rollback = .ok u' ↔ u.phase = .gathering ∧ u' = { u with events := [] } := by
  unfold rollback
  cases u.phase <;> simp [eq_comm]

/-- A commit begins exactly while the unit gathers: with its events if there are any, and otherwise
there is nothing to save. -/
theorem begin_eq_ok_iff {u u' : UnitOfWork} {events : List Event} :
    u.begin = .ok (events, u') ↔
      u.phase = .gathering ∧ events = u.events ∧
        u' = { u with phase := if u.events = [] then .committed else .committing } := by
  unfold begin
  cases u.phase with
  | committed => simp
  | committing => simp
  | gathering =>
    cases h : u.events with
    | nil => simp [eq_comm]
    | cons e rest => simp [eq_comm]

end UnitOfWork

/-- What happens at a desk keeps it sound. -/
theorem Desk.Sound.step {d d' : Desk} {deed : Deed} (h : d.Sound) (hstep : Step d deed d') :
    d'.Sound := by
  cases hstep with
  | register ok =>
    obtain ⟨hphase, rfl⟩ := UnitOfWork.register_eq_ok_iff.1 ok
    exact h.of_gathering hphase _
  | rollback ok =>
    obtain ⟨hphase, rfl⟩ := UnitOfWork.rollback_eq_ok_iff.1 ok
    exact h.of_gathering hphase _
  | @arrive c role =>
    refine h.of_outside ?_ (.inr rfl) (Nat.le_of_eq (Gate.total_join ..)) fun hp ha => ?_
    · rintro ⟨r, hr, -⟩
      simp [role] at hr
    · exact ⟨(Gate.join_of_locked hp c).1, (Gate.join_of_locked hp c).2.trans ha⟩
  | @quit c role =>
    refine h.of_outside ?_ (.inl rfl) (Gate.total_leave_le ..) fun hp ha =>
      Gate.leave_of_locked hp ha c
    rintro ⟨r, hr, hinside⟩
    obtain rfl := Option.some.inj (role.symm.trans hr)
    simp [Role.isInside] at hinside
  | @enter c gate role pass =>
    obtain ⟨hpermits, hadmitted⟩ := Gate.total_pass pass
    cases h with
    | free outside total phase =>
      simp only [Gate.total] at total
      exact .taken_of_go (fun c' h => (outside c' h).elim) (by simp only; omega)
        (List.length_eq_zero_iff.1 (by simp only; omega)) phase
    | taken _ _ _ admitted _ =>
      rw [admitted] at hadmitted
      simp at hadmitted
  | @refuse c e role begin =>
    obtain ⟨alone, hp, ha, fits⟩ := h.locked role rfl
    exact .free_of_leave alone (Nat.le_of_eq (UnitOfWork.total_leave hp ha)) fits
  | @pass c u role begin =>
    obtain ⟨alone, hp, ha, -⟩ := h.locked role rfl
    obtain ⟨-, hevents, rfl⟩ := UnitOfWork.begin_eq_ok_iff.1 begin
    refine .free_of_leave alone (Nat.le_of_eq (UnitOfWork.total_leave hp ha)) ?_
    simp [← hevents]
  | @fix c events u role begin nonempty =>
    obtain ⟨alone, hp, ha, -⟩ := h.locked role rfl
    obtain ⟨-, rfl, rfl⟩ := UnitOfWork.begin_eq_ok_iff.1 begin
    exact .taken_of_go alone hp ha ⟨by simp [nonempty], rfl, nonempty⟩
  | @fail c events role =>
    obtain ⟨alone, hp, ha, -⟩ := h.locked role rfl
    refine .free_of_leave alone (Nat.le_of_eq (UnitOfWork.total_leave ?_ ?_)) ?_
    · simpa using hp
    · simpa using ha
    · exact d.unit.phase_reopen_ne
  | @succeed c envelopes role =>
    obtain ⟨alone, hp, ha, hphase, hevents, hne⟩ := h.locked role rfl
    refine .taken_of_go alone hp ha ⟨rfl, hevents, ?_⟩
    rintro rfl
    exact hne rfl
  | @part c envelopes role =>
    obtain ⟨alone, hp, ha, hphase, -, -⟩ := h.locked role rfl
    refine .free_of_leave alone (Nat.le_of_eq (UnitOfWork.total_leave hp ha)) ?_
    simp [hphase]

namespace Desk.Step

variable {d d' : Desk} {deed : Deed}

/-- What a deed does to the buffer. -/
theorem events_eq (h : Step d deed d') : d'.unit.events = deed.buffered d.unit.events := by
  cases h with
  | register ok =>
    obtain ⟨-, rfl⟩ := UnitOfWork.register_eq_ok_iff.1 ok
    rfl
  | rollback ok =>
    obtain ⟨-, rfl⟩ := UnitOfWork.rollback_eq_ok_iff.1 ok
    rfl
  | pass role begin =>
    obtain ⟨-, -, rfl⟩ := UnitOfWork.begin_eq_ok_iff.1 begin
    rfl
  | fix role begin nonempty =>
    obtain ⟨-, -, rfl⟩ := UnitOfWork.begin_eq_ok_iff.1 begin
    rfl
  | fail role =>
    rw [UnitOfWork.events_leave, UnitOfWork.events_reopen]
    rfl
  | _ => rfl

/-- The buffer of a unit that does not gather any more is fixed. -/
theorem events_of_late (h : Step d deed d') (late : d.unit.phase ≠ .gathering) :
    d'.unit.events = d.unit.events := by
  rw [h.events_eq]
  cases h with
  | register ok => exact (late (UnitOfWork.register_eq_ok_iff.1 ok).1).elim
  | rollback ok => exact (late (UnitOfWork.rollback_eq_ok_iff.1 ok).1).elim
  | _ => rfl

/-- Once committed, a unit stays so. -/
theorem stays_committed (h : Step d deed d') (sound : d.Sound)
    (committed : d.unit.phase = .committed) : d'.unit.phase = .committed := by
  cases h with
  | register ok =>
    have hphase := (UnitOfWork.register_eq_ok_iff.1 ok).1
    simp [committed] at hphase
  | rollback ok =>
    have hphase := (UnitOfWork.rollback_eq_ok_iff.1 ok).1
    simp [committed] at hphase
  | pass role begin =>
    have hphase := (UnitOfWork.begin_eq_ok_iff.1 begin).1
    simp [committed] at hphase
  | fix role begin nonempty =>
    have hphase := (UnitOfWork.begin_eq_ok_iff.1 begin).1
    simp [committed] at hphase
  | fail role =>
    obtain ⟨-, -, -, hphase, -⟩ := sound.locked role rfl
    simp [committed] at hphase
  | succeed role => rfl
  | _ => exact committed

/-- What has been saved grows by what a deed saves. -/
theorem kept_eq (h : Step d deed d') (sound : d.Sound) :
    d'.unit.kept = d.unit.kept ++ deed.saved?.toList := by
  cases h with
  | register ok =>
    obtain ⟨hphase, rfl⟩ := UnitOfWork.register_eq_ok_iff.1 ok
    simp [UnitOfWork.kept, hphase, Deed.saved?]
  | rollback ok =>
    obtain ⟨hphase, rfl⟩ := UnitOfWork.rollback_eq_ok_iff.1 ok
    simp [UnitOfWork.kept, hphase, Deed.saved?]
  | pass role begin =>
    -- nothing is saved of a unit without events
    obtain ⟨hphase, hevents, rfl⟩ := UnitOfWork.begin_eq_ok_iff.1 begin
    simp [UnitOfWork.kept, UnitOfWork.leave, hphase, ← hevents, Deed.saved?]
  | fix role begin nonempty =>
    obtain ⟨hphase, rfl, rfl⟩ := UnitOfWork.begin_eq_ok_iff.1 begin
    simp [UnitOfWork.kept, hphase, nonempty, Deed.saved?]
  | fail role =>
    obtain ⟨-, -, -, hphase, -⟩ := sound.locked role rfl
    simp [UnitOfWork.kept, UnitOfWork.reopen, hphase, Deed.saved?]
  | succeed role =>
    obtain ⟨-, -, -, hphase, hevents, hne⟩ := sound.locked role rfl
    simp only [UnitOfWork.kept, UnitOfWork.phase_complete, UnitOfWork.events_complete, hphase,
      hevents, Deed.saved?]
    simp [hne]
  | _ => exact (List.append_nil _).symm

end Desk.Step

/-- While a unit commits, one call saves its events. -/
theorem Desk.Sound.exists_saving {d : Desk} (h : d.Sound)
    (committing : d.unit.phase = .committing) :
    ∃ c, d.roles c = some (.saving d.unit.events) := by
  cases h with
  | free outside total phase => exact (phase committing).elim
  | @taken c r role alone permits admitted fits =>
    cases r with
    | waiting => exact fits.elim
    | entered => exact (fits committing).elim
    | saving events => exact ⟨c, fits.2.1 ▸ role⟩
    | telling envelopes =>
      have hphase := fits.1
      simp [committing] at hphase

end EventJournal
