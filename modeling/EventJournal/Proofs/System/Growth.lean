import EventJournal.Proofs.Store.Checked
import EventJournal.Proofs.System.Stored
import Mathlib.Data.List.Flatten
import Mathlib.Data.List.Nodup
import Mathlib.Data.List.Pairwise

/-!
# Growth of the journal

As long as nobody interferes with the storage, its journal is made of what the calls have added, one
after another. What has been committed once stays where it is.

* `Ledger.Keeps`, that an action keeps the settings of the store and brings no refusals;
* `Ledger.Change.grows`, what an action adds to the journal;
* `Run.Growth`, what a run has made of the journal.

The main statements are `Run.growth` and `Run.eq_of_place_eq`, that no two calls have added records
with the same place.
-/

namespace EventJournal

open Record (place)

namespace Ledger

variable {l l' l'' : Ledger} {call : Nat} {stage : Call.Stage}

/-- The store keeps its settings, and if there are no refusals to come, there are none afterwards.
-/
structure Keeps (l l' : Ledger) : Prop where
  registry : l'.registry = l.registry
  options : l'.options = l.options
  calm : l.storage.faults = [] → l'.storage.faults = []

theorem keeps_of_storage_eq (registry : l'.registry = l.registry) (options : l'.options = l.options)
    (storage : l'.storage = l.storage) : l.Keeps l' :=
  ⟨registry, options, fun calm => (congrArg Watched.faults storage).trans calm⟩

theorem keeps_of_loadFrom {aggregateId : String} {fromSequence : Int}
    {answer : Except StoreError (List Envelope)} {storage : Watched}
    (h : l.store.loadFrom aggregateId fromSequence l.storage = (answer, storage))
    (registry : l'.registry = l.registry) (options : l'.options = l.options)
    (heq : l'.storage = storage) : l.Keeps l' := by
  refine ⟨registry, options, fun calm => ?_⟩
  rw [heq]
  exact (Store.loadFrom_watched rfl h).1.calm calm

theorem SaveFailed.keeps {e : StoreError} {purpose : Call.Purpose}
    (h : l.SaveFailed call e purpose l') : l.Keeps l' := by
  cases h with
  | itself => exact keeps_of_storage_eq rfl rfl rfl
  | commit => exact keeps_of_storage_eq rfl rfl rfl

theorem SaveCompleted.keeps {envelopes : List Envelope} {purpose : Call.Purpose}
    (h : l.SaveCompleted call envelopes purpose l') : l.Keeps l' := by
  cases h with
  | itself => exact keeps_of_storage_eq rfl rfl rfl
  | commit => exact keeps_of_storage_eq rfl rfl rfl

theorem Keeps.trans (h : l.Keeps l') (h' : l'.Keeps l'') : l.Keeps l'' :=
  ⟨h'.registry.trans h.registry, h'.options.trans h.options, fun calm => h'.calm (h.calm calm)⟩

theorem keeps_of_save {save save' : Saving Transaction} {storage : Watched}
    (h : save.step Watched.backend l.options l.storage = (save', storage)) :
    l.Keeps { l with storage } :=
  ⟨rfl, rfl, fun calm => (Saving.step_of_calm calm h).1⟩

theorem CallStep.keeps (h : l.CallStep call stage l') : l.Keeps l' := by
  cases h with
  | loaded load => exact keeps_of_loadFrom load rfl rfl rfl
  | unloaded load => exact keeps_of_loadFrom load rfl rfl rfl
  | unreplayed load => exact keeps_of_loadFrom load rfl rfl rfl
  | reloaded load => exact keeps_of_loadFrom load rfl rfl rfl
  | unreloaded load => exact keeps_of_loadFrom load rfl rfl rfl
  | @unprepared purpose events e _ _ _ failed =>
    have hids : l.Keeps { l with ids := l.ids + events.length } := keeps_of_storage_eq rfl rfl rfl
    exact hids.trans failed.keeps
  | asked step => exact (keeps_of_save step).trans (keeps_of_storage_eq rfl rfl rfl)
  | stored step completed => exact (keeps_of_save step).trans completed.keeps
  | failed step failed => exact (keeps_of_save step).trans failed.keeps
  | _ => exact keeps_of_storage_eq rfl rfl rfl

/-- Nothing but an interference brings refusals. -/
theorem Change.keeps {a : Action} (h : l.Change a l') (undisturbed : a.disturbsStorage = false) :
    l.Keeps l' := by
  cases h with
  | steps get step => exact step.keeps
  | drops get dropped => cases dropped <;> exact keeps_of_storage_eq rfl rfl rfl
  | fetches aggregateId fromSequence =>
    have hload : l.store.loadFrom aggregateId fromSequence l.storage = (_, _) := rfl
    exact keeps_of_loadFrom hload rfl rfl rfl
  | disturbs storage disturbs =>
    rw [undisturbed] at disturbs
    simp at disturbs
  | _ => exact keeps_of_storage_eq rfl rfl rfl

/-- An action adds the records of a save that succeeds to the journal, or nothing. -/
theorem Change.grows {a : Action} (h : l.Change a l') (undisturbed : a.disturbsStorage = false)
    {added : Nat → List Record}
    (stored : ∀ {call stage}, l.calls.get? call = some stage → stage.Stored (added call)) :
    ∃ new, l.storage.journal.Grows new l'.storage.journal ∧
      (new = [] ∨ ∃ call stage, a = .step (.call call) ∧ l.calls.get? call = some stage ∧
        l.Completes stage new) := by
  have hquiet : l'.storage.journal = l.storage.journal →
      ∃ new, l.storage.journal.Grows new l'.storage.journal ∧
        (new = [] ∨ ∃ call stage, a = .step (.call call) ∧ l.calls.get? call = some stage ∧
          l.Completes stage new) := by
    intro hjournal
    rw [hjournal]
    exact ⟨[], Journal.grows_nil _, .inl rfl⟩
  cases h with
  | steps get step =>
    obtain ⟨stage', new, -, hgrows, hnew, -⟩ := step.adds (stored get)
    rcases hnew with hnew | hcompletes
    · exact ⟨new, hgrows, .inl hnew⟩
    · exact ⟨new, hgrows, .inr ⟨_, _, rfl, get, hcompletes⟩⟩
  | drops get dropped => cases dropped <;> exact hquiet rfl
  | fetches aggregateId fromSequence =>
    have hload : l.store.loadFrom aggregateId fromSequence l.storage = (_, _) := rfl
    exact hquiet (Store.loadFrom_watched rfl hload).1.journal
  | disturbs storage disturbs =>
    rw [undisturbed] at disturbs
    simp at disturbs
  | _ => exact hquiet rfl

end Ledger

namespace Run

variable {s₀ s s' : System} {h : History} {a : Action}

/-- What a run has made of the journal, and that the settings are still those from the start. -/
structure Growth (s₀ : System) (h : History) (s : System) : Prop where
  registry : s.registry = s₀.registry
  options : s.options = s₀.options
  faults : s.storage.faults = []
  records : s.storage.journal.records = h.flatMap Moment.added
  nodup : (s.storage.journal.records.map place).Nodup
  past : ∀ m ∈ h, m.before.storage.journal.records <+: m.after.storage.journal.records ∧
    m.after.storage.journal.records <+: s.storage.journal.records

/-- The next action of a run adds the records of a save that succeeds to the journal, or nothing. -/
theorem grows (run : Run s₀ h s) (fresh : s₀.Fresh)
    (known : ∀ unit, a.unit? = some unit → h.Knows unit) (perform : s.perform? a = some s')
    (undisturbed : a.disturbsStorage = false) :
    ∃ new, s.storage.journal.Grows new s'.storage.journal ∧
      (new = [] ∨ ∃ call stage, a = .step (.call call) ∧ s.calls.get? call = some stage ∧
        s.ledger.Completes stage new) :=
  (run.change fresh known perform).grows undisturbed fun hget => run.stored fresh hget

/-- The journal is made of what the actions of a run have added. -/
theorem growth (run : Run s₀ h s) (fresh : s₀.Fresh) (undisturbed : h.Undisturbed) :
    Growth s₀ h s := by
  induction run with
  | nil =>
    have hempty : s₀.storage.journal.records = [] := fresh.records
    exact ⟨rfl, rfl, fresh.faults, hempty, by simp [hempty], by simp⟩
  | @snoc h s s' a run known perform ih =>
    obtain ⟨hold, quiet⟩ := History.undisturbed_concat.1 undisturbed
    have before := ih hold
    have keeps := (run.change fresh known perform).keeps quiet
    obtain ⟨new, hgrows, -⟩ := run.grows fresh known perform quiet
    have hstays : s.storage.journal.records <+: s'.storage.journal.records :=
      ⟨new, hgrows.records.symm⟩
    constructor
    case registry => exact keeps.registry.trans before.registry
    case options => exact keeps.options.trans before.options
    case faults => exact keeps.calm before.faults
    case records =>
      have hadded : Moment.added ⟨s, a, s'⟩ = new := Moment.added_eq hgrows
      simp [hgrows.records, before.records, hadded]
    case nodup => exact hgrows.nodup before.nodup
    case past =>
      intro m hm
      rcases List.mem_append.1 hm with hm | hm
      · obtain ⟨hstep, hkept⟩ := before.past m hm
        exact ⟨hstep, hkept.trans hstays⟩
      · obtain rfl := List.mem_singleton.1 hm
        exact ⟨hstays, List.prefix_rfl⟩

/-- What was committed at a moment of a run is so at its end. -/
theorem Growth.isPrefix (growth : Growth s₀ h s) {m : Moment} (hm : m ∈ h) :
    m.before.storage.journal.records <+: s.storage.journal.records := by
  obtain ⟨hstep, hkept⟩ := growth.past m hm
  exact hstep.trans hkept

/-- What was committed at a moment of a run is so at every later one. -/
theorem isPrefix_of_append (run : Run s₀ h s) (fresh : s₀.Fresh) (undisturbed : h.Undisturbed)
    {h₁ h₂ : History} {m m' : Moment} (heq : h = h₁ ++ m' :: h₂) (hm : m ∈ h₁ ++ [m']) :
    m.before.storage.journal.records <+: m'.before.storage.journal.records := by
  rcases List.mem_append.1 hm with hm | hm
  · have hold : h₁.Undisturbed := (History.undisturbed_append.1 (heq ▸ undisturbed)).1
    exact ((run.cut heq).1.growth fresh hold).isPrefix hm
  · obtain rfl := List.mem_singleton.1 hm
    exact List.prefix_rfl

/-- What a call has added is in the journal, in its order. -/
theorem addedBy_sublist (growth : Growth s₀ h s) (call : Nat) :
    (h.addedBy call).Sublist s.storage.journal.records := by
  rw [growth.records]
  exact List.Sublist.flatMap List.filter_sublist Moment.added

theorem exists_step_of_mem_addedBy {call : Nat} {r : Record} (hr : r ∈ h.addedBy call) :
    ∃ m ∈ h, m.isStepOf call = true ∧ r ∈ m.added := by
  obtain ⟨m, hm, hadded⟩ := List.mem_flatMap.1 hr
  obtain ⟨hmem, hstep⟩ := List.mem_filter.1 hm
  exact ⟨m, hmem, hstep, hadded⟩

/-- Moments that have added records with the same place are the same. -/
theorem moment_eq_of_place_eq (growth : Growth s₀ h s) {m m' : Moment} (hm : m ∈ h) (hm' : m' ∈ h)
    {r r' : Record} (hr : r ∈ m.added) (hr' : r' ∈ m'.added) (hplace : r.place = r'.place) :
    m = m' := by
  have hnodup := growth.nodup
  rw [growth.records, List.map_flatMap, List.nodup_flatMap] at hnodup
  by_contra hne
  -- the places that different moments add are different
  have hsymm : Std.Symm (Function.onFun List.Disjoint fun m : Moment => m.added.map place) :=
    ⟨fun _ _ hdisjoint => List.disjoint_symm hdisjoint⟩
  have hdisjoint := hnodup.2.forall hm hm' hne
  refine hdisjoint (List.mem_map_of_mem hr) ?_
  rw [hplace]
  exact List.mem_map_of_mem hr'

/-- Calls that have added records with the same place are the same. -/
theorem eq_of_place_eq (growth : Growth s₀ h s) {call call' : Nat} {r r' : Record}
    (hr : r ∈ h.addedBy call) (hr' : r' ∈ h.addedBy call') (hplace : r.place = r'.place) :
    call = call' := by
  obtain ⟨m, hm, hstep, hadded⟩ := exists_step_of_mem_addedBy hr
  obtain ⟨m', hm', hstep', hadded'⟩ := exists_step_of_mem_addedBy hr'
  obtain rfl := moment_eq_of_place_eq growth hm hm' hadded hadded' hplace
  exact Moment.call_unique hstep hstep'

end Run

end EventJournal
