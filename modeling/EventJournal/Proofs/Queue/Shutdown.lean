import EventJournal.Proofs.Queue.Backlog

/-!
# Shutdowns

Of the calls to shut a queue down only one waits for the worker: the first that looks for it. When
it returns, all batches that were not refused have been dispatched. The others return at once, which
may be earlier, while the first still waits or after it has been given up.

* `Backlog.Attended`, `Backlog.Guarded`: who waits for the worker;
* `Backlog.Barrier`, what is guaranteed when a shutdown returns.

The main statements are `Backlog.barrier_of_after` and `Backlog.returned_early`.
-/

namespace EventJournal.Backlog

variable {α β : Type} {start : α → β} {t t' : Backlog α β} {incident : Incident α β}
  {call other : Nat} {stage : Shutdown}

/-! ### Who waits for the worker -/

/-- A shutdown waits for the worker, or has been given up while it did. -/
def Attended (t : Backlog α β) (call : Nat) : Prop :=
  t.shutdowns[call]? = some .waiting ∨ t.shutdowns[call]? = some .dropped

theorem getElem?_putShutdown (h : t.shutdowns[call]? = some stage) (new : Shutdown) :
    (t.putShutdown call new).shutdowns[call]? = some new :=
  List.getElem?_set_self (List.getElem?_eq_some_iff.1 h).1

theorem Attended.put (h : t.Attended other) (ne : other ≠ call) (new : Shutdown) :
    (t.putShutdown call new).Attended other := by
  rwa [Attended, putShutdown, List.getElem?_set_ne (Ne.symm ne)]

/-- As long as the worker has not ended, whoever has been found to wait for it still does, or has
given up. -/
structure Guarded (t : Backlog α β) : Prop where
  claimed : t.queue.claimed = true → t.queue.ended = true ∨ ∃ call, t.Attended call
  spared : .spared ∈ t.shutdowns → t.queue.claimed = true

theorem guarded_new : Guarded ({} : Backlog α β) := ⟨by simp, by simp⟩

namespace Guarded

/-- If the worker has been claimed by somebody who does not wait for it, somebody else does, unless
it has ended. -/
theorem exists_other (guarded : t.Guarded) (claimed : t.queue.claimed = true)
    (idle : ¬ t.Attended call) :
    t.queue.ended = true ∨ ∃ other, other ≠ call ∧ t.Attended other :=
  (guarded.claimed claimed).imp_right fun ⟨other, attended⟩ =>
    ⟨other, fun heq => idle (heq ▸ attended), attended⟩

/-- The queue changes, but not who waits for its worker. -/
theorem work (guarded : t.Guarded) (shutdowns : t'.shutdowns = t.shutdowns)
    (claimed : t'.queue.claimed = t.queue.claimed)
    (ended : t.queue.ended = true → t'.queue.ended = true) : t'.Guarded := by
  constructor
  case claimed =>
    intro h
    refine (guarded.claimed (claimed ▸ h)).imp ended fun ⟨call, attended⟩ => ⟨call, ?_⟩
    rwa [Attended, shutdowns]
  case spared =>
    rw [shutdowns, claimed]
    exact guarded.spared

/-- A shutdown gets to another stage. -/
theorem put (guarded : t.Guarded) {new : Shutdown}
    (attended : t.queue.claimed = true →
      t.queue.ended = true ∨ ∃ other, (t.putShutdown call new).Attended other)
    (spared : new = .spared → t.queue.claimed = true) : Guarded (t.putShutdown call new) := by
  refine ⟨attended, fun hspared => ?_⟩
  rcases List.mem_or_eq_of_mem_set hspared with hspared | heq
  · exact guarded.spared hspared
  · exact spared heq.symm

/-- A shutdown that does not wait for the worker gets to another stage, and leaves whoever does. -/
theorem put_idle (guarded : t.Guarded) {new : Shutdown}
    (idle : ¬ t.Attended call ∨ t.queue.ended = true)
    (spared : new = .spared → t.queue.claimed = true) : Guarded (t.putShutdown call new) := by
  refine guarded.put (fun claimed => ?_) spared
  rcases idle with hidle | hended
  · exact (guarded.exists_other claimed hidle).imp_right
      fun ⟨other, ne, attended⟩ => ⟨other, attended.put ne new⟩
  · exact .inl hended

/-- A further shutdown is called. -/
theorem shut (guarded : t.Guarded) :
    Guarded { t with queue := t.queue.refuse, shutdowns := t.shutdowns ++ [.refusing] } := by
  have hold : ∀ {call : Nat} {stage : Shutdown}, t.shutdowns[call]? = some stage →
      (t.shutdowns ++ [.refusing])[call]? = some stage := fun h => by
    rw [List.getElem?_append_left (List.getElem?_eq_some_iff.1 h).1, h]
  constructor
  case claimed =>
    exact fun h => (guarded.claimed h).imp_right fun ⟨call, attended⟩ =>
      ⟨call, attended.imp hold hold⟩
  case spared => exact fun h => guarded.spared (by simpa using h)

/-- Every incident preserves who waits for the worker. -/
theorem step (guarded : t.Guarded) (h : t.Step start incident t') : t'.Guarded := by
  cases h with
  | accepts | refuses | takes | advances | returns => exact guarded.work rfl rfl id
  | breaks | ends => exact guarded.work rfl rfl fun _ => rfl
  | shuts => exact guarded.shut
  | @waits call stage =>
    refine ⟨fun _ => .inr ⟨call, .inl (getElem?_putShutdown stage _)⟩, fun _ => rfl⟩
  | spared stage claimed =>
    exact guarded.put_idle (.inl (by simp [Attended, stage])) fun _ => claimed
  | leaves stage =>
    refine guarded.put_idle ?_ nofun
    rcases stage with ⟨-, hended⟩ | hspared
    · exact .inr hended
    · exact .inl (by simp [Attended, hspared])
  | @drops call stage =>
    exact guarded.put (fun _ => .inr ⟨call, .inr (getElem?_putShutdown stage _)⟩) nofun

end Guarded

/-! ### What is guaranteed -/

/-- What is guaranteed when a shutdown returns. -/
structure Barrier (start : α → β) (t : Backlog α β) : Prop where
  /-- When one returns that has waited for the worker, everything has been dispatched, unless a
  dispatch has broken the worker. -/
  waited : ∀ (call : Nat) t', t.shutdowns[call]? = some .waiting →
    t.perform? start (.leaves call) = some t' → t.broken = true ∨ t.dispatched = t.accepted
  /-- The same holds when any other returns, unless somebody else still waits for the worker or has
  been given up while they did. -/
  spared : ∀ (call : Nat) t', t.perform? start (.leaves call) = some t' →
    t.broken = true ∨ t.dispatched = t.accepted ∨ ∃ other, other ≠ call ∧ t.Attended other
  /-- One that waits can return when the worker has gone through what is left. -/
  released : ∀ (call : Nat), t.shutdowns[call]? = some .waiting → ∃ t', t.Onward start t' ∧
    t'.perform? start (.leaves call) = some (t'.putShutdown call .returned)

/-- When the shutdown that waits for the worker returns, all batches that were not refused have been
dispatched, and when another one does, only if the first has returned. -/
theorem barrier_of_after {incidents : List (Incident α β)}
    (h : after? start {} incidents = some t) : t.Barrier start := by
  have service := service_of_after h
  have guarded : t.Guarded := induction_of_after guarded_new Guarded.step h
  have kept := Kept.of_after h
  have hended : t.queue.ended = true → t.broken = true ∨ t.dispatched = t.accepted := by
    intro hended
    cases hbroken : t.broken with
    | true => exact .inl rfl
    | false => exact .inr (service.ended hbroken hended)
  constructor
  case waited =>
    intro call t' hstage hleaves
    cases step_of_perform hleaves with
    | leaves stage =>
      rcases stage with ⟨-, hend⟩ | hspared
      · exact hended hend
      · simp [hstage] at hspared
  case spared =>
    intro call t' hleaves
    rw [← or_assoc]
    cases step_of_perform hleaves with
    | leaves stage =>
      rcases stage with ⟨-, hend⟩ | hspared
      · exact .inl (hended hend)
      · have hclaimed := guarded.spared (List.mem_of_getElem? hspared)
        exact (guarded.exists_other hclaimed (by simp [Attended, hspared])).imp_left hended
  case released =>
    intro call hstage
    have hrefusing : t.queue.accepting = false :=
      kept.refusing (List.ne_nil_of_mem (List.mem_of_getElem? hstage))
    obtain ⟨t', onward, hend⟩ : ∃ t', t.Onward start t' ∧ t'.queue.ended = true := by
      cases hbroken : t.broken with
      | true => exact ⟨t, .refl start t, kept.broken hbroken⟩
      | false =>
        obtain ⟨t', onward, -, hend⟩ := service.drains hbroken
        exact ⟨t', onward, hend hrefusing⟩
    refine ⟨t', onward, ?_⟩
    simp only [perform?, onward.shutdowns, hstage, hend]

/-- Two shutdowns are called while a batch is at work. -/
def twoShutdowns : List (Incident Nat Nat) :=
  [.enqueues 1, .takes, .shuts, .claims 0, .shuts, .claims 1]

/-- The first waits for the worker and the second does not. -/
theorem barrier_of_twoShutdowns :
    ∃ t, after? id {} twoShutdowns = some t ∧ t.Barrier id ∧ t.shutdowns = [.waiting, .spared] := by
  have hends : (after? id {} twoShutdowns).map shutdowns = some [.waiting, .spared] := by decide
  obtain ⟨t, ht, hshutdowns⟩ := Option.map_eq_some_iff.1 hends
  exact ⟨t, ht, barrier_of_after ht, hshutdowns⟩

/-- The first shutdown is given up before the second is called. -/
def secondShutdown : List (Incident Nat Nat) :=
  [.enqueues 1, .takes, .shuts, .claims 0, .drops 0, .shuts, .claims 1]

/-- After some incidents a shutdown may return although not everything has been dispatched, and no
dispatch has broken the worker. -/
def ReturnsEarly (incidents : List (Incident Nat Nat)) (call : Nat) : Prop :=
  ∃ t t', after? id {} incidents = some t ∧ t.perform? id (.leaves call) = some t' ∧
    t.broken = false ∧ t.dispatched ≠ t.accepted

theorem returnsEarly_of_eq {incidents : List (Incident Nat Nat)}
    (h : (after? id {} incidents).map (fun t => (t.shutdowns[call]?, t.broken, t.dispatched,
      t.accepted)) = some (some .spared, false, [], [1])) : ReturnsEarly incidents call := by
  obtain ⟨t, ht, hends⟩ := Option.map_eq_some_iff.1 h
  obtain ⟨hspared, hends⟩ := Prod.mk.inj hends
  obtain ⟨hbroken, hends⟩ := Prod.mk.inj hends
  obtain ⟨hdispatched, haccepted⟩ := Prod.mk.inj hends
  have hleaves : t.perform? id (.leaves call) = some (t.putShutdown call .returned) := by
    simp only [perform?, hspared]
  exact ⟨t, _, ht, hleaves, hbroken, by simp [hdispatched, haccepted]⟩

/-- The second of two shutdowns returns while the first batch is still at work, whether the first
shutdown still waits for the worker or has been given up. -/
theorem returned_early : ReturnsEarly twoShutdowns 1 ∧ ReturnsEarly secondShutdown 1 :=
  ⟨returnsEarly_of_eq (by decide), returnsEarly_of_eq (by decide)⟩

end EventJournal.Backlog
