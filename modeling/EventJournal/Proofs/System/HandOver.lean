import EventJournal.Proofs.System.Detached
import EventJournal.Proofs.System.Durable

/-!
# Detached commits hand over what they have saved

A commit saves its events and then hands them over to the queue. Nothing is held in between, so that
other commits may do the same then. Of commits that hand over in turn the batches come into the
queue in the order of their saves.

* `History.committed`, the batches in the order of the saves;
* `System.HandsOverAlone`, `History.InTurn`: that commits of some kind hand over in turn;
* `System.Lined`, the invariant that keeps both orders together.

The main statements are `Run.lined`, `Run.mem_committed_of_enqueued` and `Run.queued_of_committed`.
-/

namespace EventJournal

/-! ### The order of saves and the order of handing over -/

/-- What commits have saved, in the order of the saves. -/
def History.committed (h : History) : List (Nat × List Envelope) := h.filterMap Moment.committed?

theorem History.committed_concat (h : History) (m : Moment) :
    committed (h ++ [m]) = h.committed ++ m.committed?.toList := by
  cases hm : m.committed? <;> simp [committed, hm]

/-- Of the commits whose events satisfy `p`, at most one has saved them and is still to hand them
over. -/
def System.HandsOverAlone (p : List Envelope → Bool) (s : System) : Prop :=
  ∀ ⦃call call' unit unit' envelopes envelopes'⦄,
    s.calls.get? call = some (.saved unit envelopes) →
    s.calls.get? call' = some (.saved unit' envelopes') →
    p envelopes = true → p envelopes' = true → call = call'

/-- No save of a commit whose events satisfy `p` succeeds while another such commit has still to
hand its events over. -/
def History.InTurn (p : List Envelope → Bool) (h : History) : Prop :=
  ∀ m ∈ h, m.after.HandsOverAlone p

/-- Commits hand over in turn where at most one call at a time is handing over or dispatching. -/
theorem History.inTurn_of_entries {h : History} (p : List Envelope → Bool)
    (alone : ∀ m ∈ h, ∀ entry ∈ m.after.calls.entries, ∀ entry' ∈ m.after.calls.entries,
      entry.2.isHanding = true → entry'.2.isHanding = true → entry.1 = entry'.1) : h.InTurn p :=
  fun m hm _ _ _ _ _ _ hget hget' _ _ =>
    alone m hm _ (Table.mem_entries_of_get? hget) _ (Table.mem_entries_of_get? hget') rfl rfl

namespace Ledger

variable {l l' : Ledger} {a : Action} {call unit : Nat} {envelopes : List Envelope}

/-- A call has saved its events only after a save. -/
theorem CallStep.saved {stage : Call.Stage} (h : l.CallStep call stage l')
    (hget' : l'.calls.get? call = some (.saved unit envelopes)) :
    ∃ since save, stage = .saving (.commit unit) envelopes since save := by
  have hstage : ∀ {next : Call.Stage}, l'.calls = l.calls.set call next →
      next = .saved unit envelopes :=
    fun hcalls => eq_of_set hcalls hget'
  cases h with
  | unprepared _ _ failed => cases failed <;> exact (nomatch hstage rfl)
  | failed _ failed => cases failed <;> exact (nomatch hstage rfl)
  | stored step completed =>
    cases completed with
    | itself => exact (nomatch hstage rfl)
    | commit get =>
      obtain ⟨rfl, rfl⟩ := Call.Stage.saved.inj (hstage rfl)
      exact ⟨_, _, rfl⟩
  | _ => exact (nomatch hstage rfl)

/-- A call that is to hand over its events has just saved them, or another agent has acted. -/
theorem Turn.saved (h : l.Turn a l')
    (hget' : l'.calls.get? call = some (.saved unit envelopes)) :
    l.calls.get? call = some (.saved unit envelopes) ∧ a ≠ .step (.call call) ∨
      a = .step (.call call) ∧
        ∃ since save, l.calls.get? call = some (.saving (.commit unit) envelopes since save) := by
  cases h with
  | rests other calls => exact .inl ⟨calls ▸ hget', other call⟩
  | begins other begins calls =>
    rw [calls, Table.get?_set] at hget'
    split at hget'
    · obtain rfl := Option.some.inj hget'
      rcases begins with starts | ⟨unit, -, heq⟩
      · cases starts
      · simp at heq
    · exact .inl ⟨hget', other call⟩
  | @goes acting stage stage' action get step calls =>
    by_cases heq : call = acting
    · subst heq
      obtain ⟨since, save, rfl⟩ := step.saved hget'
      exact .inr ⟨action, since, save, get⟩
    · rw [calls, Table.get?_set, if_neg heq] at hget'
      refine .inl ⟨hget', ?_⟩
      rintro rfl
      simp [heq] at action
  | ends other calls =>
    rw [calls, Table.get?_erase] at hget'
    split at hget'
    · simp at hget'
    · exact .inl ⟨hget', other call⟩

end Ledger

namespace Moment

variable {s s' : System} {a : Action} {call unit : Nat} {envelopes : List Envelope}

theorem committed?_of_saved (hget : s.calls.get? call = some (.saved unit envelopes)) :
    committed? ⟨s, .step (.call call), s'⟩ = none := by
  simp only [committed?, hget, Option.bind_some]
  cases s'.calls.get? call <;> rfl

theorem committed?_of_saving {since : Time} {save : Saving Transaction}
    (hget : s.calls.get? call = some (.saving (.commit unit) envelopes since save))
    (hget' : s'.calls.get? call = some (.saved unit envelopes)) :
    committed? ⟨s, .step (.call call), s'⟩ = some (unit, envelopes) := by
  simp [committed?, hget, hget', Call.Stage.committed?]

/-- A commit that has just saved its events is to hand over the same ones. -/
theorem stages_of_committed? (turn : s.ledger.Turn a s'.ledger)
    (committed : committed? ⟨s, a, s'⟩ = some (unit, envelopes)) :
    ∃ call since save, a = .step (.call call) ∧
      s.calls.get? call = some (.saving (.commit unit) envelopes since save) ∧
      s'.calls.get? call = some (.saved unit envelopes) := by
  obtain ⟨call, since, save, unit', envelopes', haction, hget, hget'⟩ :=
    exists_of_committed? committed
  rcases turn.saved hget' with ⟨-, hne⟩ | ⟨-, since', save', hsaving⟩
  · exact (hne haction).elim
  · have heq := hget.symm.trans hsaving
    simp only [Option.some.injEq, Call.Stage.saving.injEq, Call.Purpose.commit.injEq] at heq
    obtain ⟨rfl, rfl, -⟩ := heq
    exact ⟨call, since, save, haction, hget, hget'⟩

end Moment

namespace History

/-- The envelopes that commits have saved at a time and that satisfy `p`, in the order of the
saves. -/
def savedOf (h : History) (p : List Envelope → Bool) : List (List Envelope) :=
  (h.committed.map Prod.snd).filter p

/-- The envelopes that have been put into the queue at a time and that satisfy `p`, in this
order. -/
def enqueuedOf (h : History) (p : List Envelope → Bool) : List (List Envelope) :=
  (h.enqueued.map Batch.envelopes).filter p

variable {h : History} {m : Moment} {p : List Envelope → Bool}

theorem savedOf_concat_of_none (committed : m.committed? = none) :
    savedOf (h ++ [m]) p = h.savedOf p := by
  rw [savedOf, committed_concat, committed, Option.toList_none, List.append_nil, savedOf]

theorem savedOf_concat_of_some {unit : Nat} {envelopes : List Envelope}
    (committed : m.committed? = some (unit, envelopes)) :
    savedOf (h ++ [m]) p = h.savedOf p ++ [envelopes].filter p := by
  rw [savedOf, committed_concat, committed, List.map_append, List.filter_append]
  rfl

theorem enqueuedOf_concat (h : History) (m : Moment) (p : List Envelope → Bool) :
    enqueuedOf (h ++ [m]) p = h.enqueuedOf p ++ (m.enqueued.map Batch.envelopes).filter p := by
  rw [enqueuedOf, enqueued_concat, List.map_append, List.filter_append, enqueuedOf]

theorem enqueuedOf_concat_of_nil (enqueued : m.enqueued = []) :
    enqueuedOf (h ++ [m]) p = h.enqueuedOf p := by
  rw [enqueuedOf_concat, enqueued, List.map_nil, List.filter_nil, List.append_nil]

end History

/-- The batches in the queue that satisfy `p` come in the order of their saves. Such a batch that is
still to be handed over is the last one saved. -/
structure System.Lined (p : List Envelope → Bool) (h : History) (s : System) : Prop where
  alone : s.HandsOverAlone p
  sublist : (h.enqueuedOf p).Sublist (h.savedOf p)
  pending : ∀ ⦃call unit envelopes⦄, s.calls.get? call = some (.saved unit envelopes) →
    p envelopes = true →
    ∃ before, h.savedOf p = before ++ [envelopes] ∧ (h.enqueuedOf p).Sublist before

namespace System.Lined

variable {p : List Envelope → Bool} {h : History} {s s' : System} {a : Action}

/-- Nothing that satisfies `p` is saved by a commit, and nothing that does is handed over. -/
theorem keep (lined : s.Lined p h) (turn : s.ledger.Turn a s'.ledger)
    (alone : s'.HandsOverAlone p)
    (saved : History.savedOf (h ++ [⟨s, a, s'⟩]) p = h.savedOf p)
    (enqueued : History.enqueuedOf (h ++ [⟨s, a, s'⟩]) p = h.enqueuedOf p)
    (fails : ∀ ⦃call unit envelopes since save⦄, a = .step (.call call) →
      s.calls.get? call = some (.saving (.commit unit) envelopes since save) →
      s'.calls.get? call = some (.saved unit envelopes) → p envelopes = false) :
    s'.Lined p (h ++ [⟨s, a, s'⟩]) := by
  refine ⟨alone, ?_, fun call unit envelopes hget' hp => ?_⟩
  · rw [saved, enqueued]
    exact lined.sublist
  · rw [saved, enqueued]
    rcases turn.saved hget' with ⟨hget, -⟩ | ⟨haction, since, save, hget⟩
    · exact lined.pending hget hp
    · rw [fails haction hget hget'] at hp
      simp at hp

/-- A commit hands its batch over, which is the last one saved. -/
theorem hand (lined : s.Lined p h) (turn : s.ledger.Turn a s'.ledger)
    (alone : s'.HandsOverAlone p) {call unit : Nat} {envelopes : List Envelope} {batch : Batch}
    (action : a = .step (.call call)) (stage : s.calls.get? call = some (.saved unit envelopes))
    (batch_eq : batch.envelopes = envelopes) (enqueued : Moment.enqueued ⟨s, a, s'⟩ = [batch]) :
    s'.Lined p (h ++ [⟨s, a, s'⟩]) := by
  subst action batch_eq
  have hsaved : History.savedOf (h ++ [⟨s, .step (.call call), s'⟩]) p = h.savedOf p :=
    History.savedOf_concat_of_none (Moment.committed?_of_saved stage)
  have henqueued : History.enqueuedOf (h ++ [⟨s, .step (.call call), s'⟩]) p =
      h.enqueuedOf p ++ [batch.envelopes].filter p := by
    rw [History.enqueuedOf_concat, enqueued]
    rfl
  have hother : ∀ ⦃other since save unit' envelopes'⦄,
      Action.step (.call call) = .step (.call other) →
      s.calls.get? other ≠ some (.saving (.commit unit') envelopes' since save) := by
    intro other since save unit' envelopes' heq hget
    obtain rfl : call = other := by simpa using heq
    simp [stage] at hget
  cases hp : p batch.envelopes with
  | false =>
    refine lined.keep turn alone hsaved ?_ fun _ _ _ _ _ haction hget _ =>
      (hother haction hget).elim
    rw [henqueued, List.filter_cons_of_neg (by simp [hp]), List.filter_nil, List.append_nil]
  | true =>
    obtain ⟨before, hlast, hsublist⟩ := lined.pending stage hp
    refine ⟨alone, ?_, fun other unit' envelopes' hget' hp' => ?_⟩
    · rw [hsaved, henqueued, hlast, List.filter_cons_of_pos hp, List.filter_nil]
      exact hsublist.append (List.Sublist.refl _)
    · -- nobody else has such a batch to hand over
      rcases turn.saved hget' with ⟨hget, hne⟩ | ⟨haction, since, save, hget⟩
      · exact (hne (by rw [lined.alone stage hget hp hp'])).elim
      · exact (hother haction hget).elim

/-- A commit has saved its events. -/
theorem save (lined : s.Lined p h) (turn : s.ledger.Turn a s'.ledger)
    (alone : s'.HandsOverAlone p) {unit : Nat} {envelopes : List Envelope}
    (committed : Moment.committed? ⟨s, a, s'⟩ = some (unit, envelopes))
    (enqueued : Moment.enqueued ⟨s, a, s'⟩ = []) : s'.Lined p (h ++ [⟨s, a, s'⟩]) := by
  have hsaved : History.savedOf (h ++ [⟨s, a, s'⟩]) p = h.savedOf p ++ [envelopes].filter p :=
    History.savedOf_concat_of_some committed
  have henqueued : History.enqueuedOf (h ++ [⟨s, a, s'⟩]) p = h.enqueuedOf p :=
    History.enqueuedOf_concat_of_nil enqueued
  obtain ⟨call, since, save, rfl, hget, hget'⟩ := Moment.stages_of_committed? turn committed
  cases hp : p envelopes with
  | false =>
    rw [List.filter_cons_of_neg (by simp [hp]), List.filter_nil, List.append_nil] at hsaved
    refine lined.keep turn alone hsaved henqueued ?_
    intro other unit' envelopes' _ _ haction _ hother
    obtain rfl : call = other := by simpa using haction
    rwa [← (Call.Stage.saved.inj (Option.some.inj (hget'.symm.trans hother))).2]
  | true =>
    rw [List.filter_cons_of_pos hp, List.filter_nil] at hsaved
    refine ⟨alone, ?_, fun other unit' envelopes' hother hp' => ⟨h.savedOf p, ?_, ?_⟩⟩
    · rw [henqueued, hsaved]
      exact lined.sublist.trans (List.sublist_append_left ..)
    · obtain rfl := alone hget' hother hp hp'
      rw [hsaved, (Call.Stage.saved.inj (Option.some.inj (hget'.symm.trans hother))).2]
    · rw [henqueued]
      exact lined.sublist

end System.Lined

namespace Run

variable {s₀ s : System} {h : History}

/-- If the commits whose events satisfy `p` hand over in turn, their batches in the queue come in
the order of their saves. -/
theorem lined {p : List Envelope → Bool} (run : Run s₀ h s) (fresh : s₀.Fresh)
    (own : h.OnlyCommits) (inTurn : h.InTurn p) : s.Lined p h := by
  induction run with
  | nil => exact ⟨fun call => by simp [fresh.calls], List.Sublist.refl _, by simp [fresh.calls]⟩
  | @snoc h s s' a run known perform ih =>
    obtain ⟨hown, plain⟩ := History.onlyCommits_concat.1 own
    obtain ⟨hturn, halone⟩ := List.forall_mem_append.1 inTurn
    have alone : s'.HandsOverAlone p := halone _ (List.mem_singleton_self _)
    have before := ih hown hturn
    have turn := (run.change fresh known perform).turn
    rcases (System.queueing_of_perform perform plain).enqueued with
      henqueued | ⟨call, unit, envelopes, id, action, stage, henqueued⟩
    · cases hcommitted : Moment.committed? ⟨s, a, s'⟩ with
      | some pair => exact before.save turn alone hcommitted henqueued
      | none =>
        refine before.keep turn alone (History.savedOf_concat_of_none hcommitted)
          (History.enqueuedOf_concat_of_nil henqueued) ?_
        rintro call unit envelopes since save rfl hget hget'
        rw [Moment.committed?_of_saving hget hget'] at hcommitted
        simp at hcommitted
    · exact before.hand turn alone action stage rfl henqueued

/-- What is to be handed over has been saved. -/
theorem mem_committed_of_saved (run : Run s₀ h s) (fresh : s₀.Fresh) {call unit : Nat}
    {envelopes : List Envelope} (hget : s.calls.get? call = some (.saved unit envelopes)) :
    (unit, envelopes) ∈ h.committed := by
  induction run with
  | nil => simp [fresh.calls] at hget
  | @snoc h s s' a run known perform ih =>
    rw [History.committed_concat]
    rcases (run.change fresh known perform).turn.saved hget with
      ⟨hbefore, -⟩ | ⟨rfl, since, save, hsaving⟩
    · exact List.mem_append_left _ (ih hbefore)
    · rw [Moment.committed?_of_saving hsaving hget]
      exact List.mem_append_right _ (List.mem_singleton_self _)

/-- Every batch that has been put into the queue is one that a commit has saved. -/
theorem mem_committed_of_enqueued (run : Run s₀ h s) (fresh : s₀.Fresh) (own : h.OnlyCommits)
    {batch : Batch} (hbatch : batch ∈ h.enqueued) :
    ∃ unit, (unit, batch.envelopes) ∈ h.committed := by
  induction run with
  | nil => simp [History.enqueued] at hbatch
  | @snoc h s s' a run known perform ih =>
    obtain ⟨hown, plain⟩ := History.onlyCommits_concat.1 own
    rw [History.enqueued_concat] at hbatch
    rw [History.committed_concat]
    rcases List.mem_append.1 hbatch with hold | hnew
    · obtain ⟨unit, hunit⟩ := ih hown hold
      exact ⟨unit, List.mem_append_left _ hunit⟩
    · rcases (System.queueing_of_perform perform plain).enqueued with
        henqueued | ⟨call, unit, envelopes, id, -, stage, henqueued⟩
      · simp [henqueued] at hnew
      · rw [henqueued, List.mem_singleton] at hnew
        subst hnew
        exact ⟨unit, List.mem_append_left _ (run.mem_committed_of_saved fresh stage)⟩

/-- The records of what a commit has saved were added in the same moment. -/
theorem isOf_of_committed (run : Run s₀ h s) (fresh : s₀.Fresh) {m : Moment} (hm : m ∈ h)
    {unit : Nat} {envelopes : List Envelope} (committed : m.committed? = some (unit, envelopes)) :
    List.Forall₂ Envelope.IsOf envelopes m.added := by
  obtain ⟨h₁, h₂, -, before, known, perform⟩ := run.split hm
  obtain ⟨s, a, s'⟩ := m
  obtain ⟨call, since, save, rfl, hget, hget'⟩ :=
    Moment.stages_of_committed? (before.change fresh known perform).turn committed
  exact before.forall₂_added fresh perform hget hget'

/-- What a commit has saved is in the queue, or is still to be handed over, or the queue refuses
it. -/
theorem queued_of_committed (run : Run s₀ h s) (fresh : s₀.Fresh)
    (queue : s₀.queue.isSome = true) (own : h.OnlyCommits) (detached : h.Detached) {unit : Nat}
    {envelopes : List Envelope} (committed : (unit, envelopes) ∈ h.committed) :
    (∃ batch ∈ h.enqueued, batch.envelopes = envelopes) ∨
      (∃ call, s.calls.get? call = some (.saved unit envelopes)) ∨ s.QueueClosed := by
  induction run with
  | nil => simp [History.committed] at committed
  | @snoc h s s' a run known perform ih =>
    obtain ⟨hown, plain⟩ := History.onlyCommits_concat.1 own
    obtain ⟨hdetached, -⟩ := History.detached_concat.1 detached
    have change := run.change fresh known perform
    rw [History.committed_concat] at committed
    rcases List.mem_append.1 committed with hold | hnew
    · rw [History.enqueued_concat]
      rcases ih hown hdetached hold with ⟨batch, hbatch, heq⟩ | ⟨call, stage⟩ | closed
      · exact .inl ⟨batch, List.mem_append_left _ hbatch, heq⟩
      · by_cases haction : a = .step (.call call)
        · subst haction
          obtain ⟨m, hm, hcommitted⟩ := List.mem_filterMap.1 hold
          obtain ⟨⟨u, get, -⟩, -⟩ := run.registered_of_committed fresh hm hcommitted
          have before := run.detached fresh queue hown hdetached
          obtain ⟨q, hq⟩ := Option.isSome_iff_exists.1 before.queue
          cases hclosed : q.isClosed with
          | true => exact .inr (.inr (System.QueueClosed.perform ⟨q, hq, hclosed⟩ perform plain))
          | false =>
            rw [System.enqueued_of_saved perform stage get (before.units unit u get) hq hclosed]
            exact .inl ⟨_, List.mem_append_right _ (List.mem_singleton_self _), rfl⟩
        · refine .inr (.inl ⟨call, change.get?_of_other (run.tidy fresh).1 stage haction ?_⟩)
          rintro rfl
          change s.abort? call = some s' at perform
          simp [System.abort?, stage] at perform
      · exact .inr (.inr (closed.perform perform plain))
    · obtain ⟨call, since, save, -, -, stage⟩ :=
        Moment.stages_of_committed? change.turn (Option.mem_toList.1 hnew)
      exact .inr (.inl ⟨call, stage⟩)

end Run

end EventJournal
