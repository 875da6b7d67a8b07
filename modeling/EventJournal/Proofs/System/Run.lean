import EventJournal.System.Control

/-!
# Runs of a system

Whatever happens to a system is an action: a step of one of its agents, a request from outside, or
an interference from elsewhere with what it holds. A run is a sequence of actions in any order, so
that agents are interleaved in every possible way. It is kept as its history, the moments that led
from the first state to the last.

* `Action`, `System.perform?`: what can happen, and the state after it;
* `Moment`, one action between two states, with what it added to the journal;
* `Run`, the histories of a system and the states they lead to;
* `System.Fresh`, a system at the start, and `System.blank`, one such system;
* `System.course`, `System.after`: the run of given actions.

The main statements are `Run.cut`, which cuts a run, and `Run.follow`, which computes one.
-/

namespace EventJournal

/-- What can happen to a system. -/
inductive Action
  | step (agent : Agent)
  | save (events : List Event)
  | commit (unit : Nat)
  | handle (orderId : String) (command : Order.Command)
  | dispatch (envelopes : List Envelope)
  | redispatch (aggregateId : String)
  | shutdown
  | abort (call : Nat)
  | newUnit (mode : DispatchMode)
  | register (unit : Nat) (events : List Event)
  | rollback (unit : Nat)
  | subscribe (handler : Handler) (topics : List String)
  | unsubscribe (id : Nat)
  | close
  | enqueue (unit : Uuid) (envelopes : List Envelope)
  | release (n : Nat)
  | releaseHandler (label : String) (n : Nat)
  | tick (now : Time)
  | fetch (aggregateId : String) (fromSequence : Int)
  /-- The agents that may have something to do are to be served in another order. -/
  | schedule (ready : List Agent)
  | inject (records : List Record)
  | fault (fault : Fault)
  /-- The storage is exchanged for another one. -/
  | replaceStorage (storage : Watched)
  /-- The dispatcher and the queue are exchanged for others. -/
  | replaceDispatch (dispatcher : Dispatcher) (queue : Option (DispatchQueue Batch Dispatching))

namespace Action

/-- The unit of work that an action names. -/
def unit? : Action → Option Nat
  | .commit unit | .register unit _ | .rollback unit => some unit
  | _ => none

/-- Whether an action interferes with the storage, past the calls of the system. -/
def disturbsStorage : Action → Bool
  | .inject _ | .fault _ | .replaceStorage _ => true
  | _ => false

/-- The events that an action brings into the system, other than through commands to orders. -/
def events : Action → List Event
  | .save events | .register _ events => events
  | _ => []

end Action

/-- The state after an action; none if it is the step of an agent that has nothing to do, or gives
up a call that does not wait. -/
def System.perform? (s : System) : Action → Option System
  | .step agent => s.step? agent
  | .save events => some (s.save events).2
  | .commit unit => some (s.commit unit).2
  | .handle orderId command => some (s.handle orderId command).2
  | .dispatch envelopes => some (s.dispatch envelopes).2
  | .redispatch aggregateId => some (s.redispatch aggregateId).2
  | .shutdown => some s.shutdown.2
  | .abort call => s.abort? call
  | .newUnit mode => some (s.newUnit mode).2
  | .register unit events => some (s.register unit events).2
  | .rollback unit => some (s.rollback unit).2
  | .subscribe handler topics => some (s.subscribe handler topics).2
  | .unsubscribe id => some (s.unsubscribe id).2
  | .close => some s.close
  | .enqueue unit envelopes => some (s.enqueue unit envelopes).2
  | .release n => some (s.release n)
  | .releaseHandler label n => some (s.releaseHandler label n)
  | .tick now => some (s.tick now)
  | .fetch aggregateId fromSequence => some (s.fetch aggregateId fromSequence).2
  | .schedule ready => some { s with ready }
  | .inject records => some (s.inject records).2
  | .fault fault => some (s.fault fault)
  | .replaceStorage storage => some { s with storage }
  | .replaceDispatch dispatcher queue => some { s with dispatcher, queue }

/-- An action between two states. -/
structure Moment where
  before : System
  action : Action
  after : System

namespace Moment

/-- Whether a moment is a step of a call. -/
def isStepOf (m : Moment) (call : Nat) : Bool :=
  match m.action with
  | .step (.call other) => other = call
  | _ => false

@[simp] theorem isStepOf_step (s s' : System) (call other : Nat) :
    isStepOf ⟨s, .step (.call call), s'⟩ other = decide (call = other) :=
  rfl

theorem isStepOf_self (s s' : System) (call : Nat) :
    isStepOf ⟨s, .step (.call call), s'⟩ call = true :=
  decide_eq_true rfl

theorem call_unique {m : Moment} {call call' : Nat} (h : m.isStepOf call = true)
    (h' : m.isStepOf call' = true) : call = call' := by
  unfold isStepOf at h h'
  split at h
  · next other heq =>
    rw [heq] at h'
    exact (of_decide_eq_true h).symm.trans (of_decide_eq_true h')
  · simp at h

theorem isStepOf_of_other {m : Moment} (h : ∀ call, m.action ≠ .step (.call call)) (call : Nat) :
    m.isStepOf call = false := by
  unfold isStepOf
  split
  · next heq => exact (h _ heq).elim
  · rfl

theorem action_of_isStepOf {m : Moment} {call : Nat} (h : m.isStepOf call = true) :
    m.action = .step (.call call) := by
  unfold isStepOf at h
  split at h
  · next heq => exact of_decide_eq_true h ▸ heq
  · simp at h

/-- The unit of work that is made in a moment. -/
def newUnit? (m : Moment) : Option Nat :=
  match m.action with
  | .newUnit _ => some (m.before.lastUnit + 1)
  | _ => none

/-- The records that a moment adds to the journal. -/
def added (m : Moment) : List Record :=
  m.after.storage.journal.records.drop m.before.storage.journal.records.length

end Moment

/-- The moments of a run, the first in front. -/
abbrev History := List Moment

namespace History

/-- The steps of a call. -/
def stepsOf (h : History) (call : Nat) : History := h.filter (·.isStepOf call)

/-- The records that a call has added to the journal. -/
def addedBy (h : History) (call : Nat) : List Record := (h.stepsOf call).flatMap Moment.added

/-- Whether a unit of work is known outside the system: it was made on request. The unit of a
command belongs to its call alone. -/
def Knows (h : History) (unit : Nat) : Prop := ∃ m ∈ h, m.newUnit? = some unit

/-- An action has started a call, and this is its number. -/
def Asks (h : History) (call : Nat) (a : Action) : Prop :=
  ∃ m ∈ h, m.action = a ∧ m.before.lastCall + 1 = call

/-- Nothing has interfered with the storage. -/
def Undisturbed (h : History) : Prop := ∀ m ∈ h, m.action.disturbsStorage = false

@[simp] theorem stepsOf_nil (call : Nat) : stepsOf [] call = [] := rfl

theorem stepsOf_append (h₁ h₂ : History) (call : Nat) :
    stepsOf (h₁ ++ h₂) call = h₁.stepsOf call ++ h₂.stepsOf call :=
  List.filter_append ..

theorem stepsOf_concat (h : History) (m : Moment) (call : Nat) :
    stepsOf (h ++ [m]) call = h.stepsOf call ++ if m.isStepOf call then [m] else [] := by
  rw [stepsOf_append]
  cases hstep : m.isStepOf call <;> simp [stepsOf, hstep]

theorem knows_concat {h : History} {m : Moment} {unit : Nat} :
    Knows (h ++ [m]) unit ↔ h.Knows unit ∨ m.newUnit? = some unit := by
  simp [Knows, or_and_right, exists_or]

@[simp] theorem addedBy_nil (call : Nat) : addedBy [] call = [] := rfl

theorem addedBy_append (h₁ h₂ : History) (call : Nat) :
    addedBy (h₁ ++ h₂) call = h₁.addedBy call ++ h₂.addedBy call := by
  simp [addedBy, stepsOf_append]

theorem addedBy_singleton (m : Moment) (call : Nat) :
    addedBy [m] call = if m.isStepOf call then m.added else [] := by
  cases h : m.isStepOf call <;> simp [addedBy, stepsOf, h]

theorem undisturbed_append {h₁ h₂ : History} :
    Undisturbed (h₁ ++ h₂) ↔ h₁.Undisturbed ∧ h₂.Undisturbed :=
  List.forall_mem_append

theorem undisturbed_concat {h : History} {m : Moment} :
    Undisturbed (h ++ [m]) ↔ h.Undisturbed ∧ m.action.disturbsStorage = false := by
  rw [undisturbed_append, Undisturbed, Undisturbed, List.forall_mem_singleton]

end History

/-- A run from a first state: its history, and the state that it leads to. Only units of work that
are known are named by actions. -/
inductive Run (s₀ : System) : History → System → Prop
  | nil : Run s₀ [] s₀
  | snoc {h : History} {s s' : System} {a : Action} (run : Run s₀ h s)
      (known : ∀ unit, a.unit? = some unit → h.Knows unit) (perform : s.perform? a = some s') :
      Run s₀ (h ++ [⟨s, a, s'⟩]) s'

/-- A system at the start: no records, no units of work and no calls yet. -/
structure System.Fresh (s : System) : Prop where
  records : s.storage.journal.records = []
  faults : s.storage.faults = []
  units : s.units = .empty
  calls : s.calls = .empty

/-- A system at the start, on the first day of a year. -/
def System.blank : System where
  clock := ⟨⟨2024, 1, 1, by decide⟩, 0, 0, 0, 0, by decide⟩
  options := { batchSize_pos := Nat.succ_pos 99 }

/-- A minute after the start of the blank system. -/
def System.minuteLater : Time := ⟨⟨2024, 1, 1, by decide⟩, 0, 1, 0, 0, by decide⟩

theorem System.fresh_blank : System.blank.Fresh := ⟨rfl, rfl, rfl, rfl⟩

/-- A system at the start, with a queue for detached commits. -/
def System.queued : System := { System.blank with queue := some {} }

theorem System.fresh_queued : System.queued.Fresh := ⟨rfl, rfl, rfl, rfl⟩

namespace Run

variable {s₀ s s' : System} {h : History} {a : Action}

/-- A run can be cut before each of its moments. -/
theorem cut (run : Run s₀ h s) {h₁ h₂ : History} {m : Moment} (heq : h = h₁ ++ m :: h₂) :
    Run s₀ h₁ m.before ∧ (∀ unit, m.action.unit? = some unit → h₁.Knows unit) ∧
      m.before.perform? m.action = some m.after := by
  induction run generalizing h₂ with
  | nil => simp at heq
  | @snoc h s s' a run known perform ih =>
    rcases List.eq_nil_or_concat h₂ with rfl | ⟨h₃, last, rfl⟩
    · obtain ⟨rfl, hm⟩ := List.append_inj' heq rfl
      obtain rfl := List.cons.inj hm |>.1
      exact ⟨run, known, perform⟩
    · have heq' : h ++ [⟨s, a, s'⟩] = (h₁ ++ m :: h₃) ++ [last] := by simpa using heq
      exact ih (List.append_inj' heq' rfl).1

/-- Every moment of a run comes after a run. -/
theorem split (run : Run s₀ h s) {m : Moment} (hm : m ∈ h) :
    ∃ h₁ h₂, h = h₁ ++ m :: h₂ ∧ Run s₀ h₁ m.before ∧
      (∀ unit, m.action.unit? = some unit → h₁.Knows unit) ∧
      m.before.perform? m.action = some m.after := by
  obtain ⟨h₁, h₂, heq⟩ := List.append_of_mem hm
  exact ⟨h₁, h₂, heq, run.cut heq⟩

end Run

namespace System

/-- The state after some actions. One that is not possible changes nothing. -/
def after (s : System) : List Action → System
  | [] => s
  | a :: rest => ((s.perform? a).getD s).after rest

/-- The moments of some actions. -/
def course (s : System) : List Action → History
  | [] => []
  | a :: rest => ⟨s, a, (s.perform? a).getD s⟩ :: ((s.perform? a).getD s).course rest

/-- Whether some actions are possible one after another, and name only units of work that have been
made. -/
def performs (s : System) (made : List Nat) : List Action → Bool
  | [] => true
  | a :: rest =>
    (s.perform? a).isSome && a.unit?.all made.contains &&
      ((s.perform? a).getD s).performs
        (match a with | .newUnit _ => (s.lastUnit + 1) :: made | _ => made) rest

end System

/-- A run goes on with actions that are possible. -/
theorem Run.follow {s₀ s : System} {h : History} {made : List Nat} {actions : List Action}
    (run : Run s₀ h s) (known : ∀ unit ∈ made, h.Knows unit)
    (performs : s.performs made actions = true) :
    Run s₀ (h ++ s.course actions) (s.after actions) := by
  induction actions generalizing h s made with
  | nil =>
    rw [System.course, List.append_nil]
    exact run
  | cons a rest ih =>
    simp only [System.performs, Bool.and_eq_true] at performs
    obtain ⟨⟨hsome, hnamed⟩, hrest⟩ := performs
    obtain ⟨s', hs'⟩ := Option.isSome_iff_exists.1 hsome
    rw [hs', Option.getD_some] at hrest
    have hrun : Run s₀ (h ++ [⟨s, a, s'⟩]) s' := by
      refine run.snoc (fun unit hunit => ?_) hs'
      rw [hunit, Option.all_some] at hnamed
      exact known unit (List.contains_iff_mem.1 hnamed)
    have hknown : ∀ unit ∈ (match a with | .newUnit _ => (s.lastUnit + 1) :: made | _ => made),
        History.Knows (h ++ [⟨s, a, s'⟩]) unit := by
      have hold : ∀ unit ∈ made, History.Knows (h ++ [⟨s, a, s'⟩]) unit := by
        intro unit hunit
        obtain ⟨m, hm, hnew⟩ := known unit hunit
        exact ⟨m, List.mem_append_left _ hm, hnew⟩
      cases a with
      | newUnit mode =>
        intro unit hunit
        rcases List.mem_cons.1 hunit with rfl | hunit
        · exact ⟨_, List.mem_append_right _ (List.mem_singleton_self _), rfl⟩
        · exact hold unit hunit
      | _ => exact hold
    have hfollow := ih hrun hknown hrest
    rw [System.course, System.after, hs', Option.getD_some]
    simpa using hfollow

/-- Actions that are possible in the blank system are a run of it. -/
theorem Run.of_blank {actions : List Action} (performs : System.blank.performs [] actions = true) :
    Run .blank (System.blank.course actions) (System.blank.after actions) :=
  Run.nil.follow (by simp) performs

theorem System.map_action_course (s : System) (actions : List Action) :
    (s.course actions).map Moment.action = actions := by
  induction actions generalizing s with
  | nil => rfl
  | cons a rest ih => rw [System.course, List.map_cons, ih]

/-- What all actions are, the moments of their course are. -/
theorem System.forall_action_course {P : Action → Prop} {s : System} {actions : List Action}
    (h : ∀ a ∈ actions, P a) : ∀ m ∈ s.course actions, P m.action := by
  intro m hm
  have hmem : m.action ∈ (s.course actions).map Moment.action := List.mem_map_of_mem hm
  rw [System.map_action_course] at hmem
  exact h _ hmem

/-- Actions that leave the storage alone do so in every course. -/
theorem History.undisturbed_course {s : System} {actions : List Action}
    (h : ∀ a ∈ actions, a.disturbsStorage = false) : (s.course actions).Undisturbed :=
  System.forall_action_course h

/-- A plain event, with the first number of its stream. -/
def Event.note (aggregateId : String) : Event :=
  .raw ⟨"Noted", aggregateId, 1, System.blank.clock⟩ ByteArray.empty

end EventJournal
