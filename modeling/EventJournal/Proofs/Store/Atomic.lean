import EventJournal.Proofs.Store.Contract
import EventJournal.Proofs.Store.Prepared
import EventJournal.Proofs.System.Run

/-!
# Atomic saves

A save over any backend that keeps to its contract: all of its records are committed, or what is
committed is as it was. Its error is that of the refusal that has ended it.

* `Note.blame?`, the error that a refused request is reported as;
* `Saving.Holds`, what is committed and inserted while a save is under way;
* `Saving.Accounted`, that the error of a save is that of the refusal that has ended it;
* `AtomicSave`, what is guaranteed of a save.

The main statement is `Store.atomicSave`.
-/

namespace EventJournal

variable {σ τ : Type}

/-- The error that a request is reported as if it was refused. -/
def Note.blame? (note : Note) : Option StoreError :=
  match note.request.operation?, note.refusal with
  | some operation, some e => some (.ofBackend operation e)
  | _, _ => none

/-- The errors that the refusals among requests are reported as. -/
def Note.blames (notes : List Note) : List StoreError := notes.filterMap Note.blame?

/-- The place of a record in its stream is not the next one. -/
def StoreError.IsGap : StoreError → Prop
  | .sequenceConflict .. => True
  | _ => False

/-- An error is what the one refusal among the requests of a save is reported as, or, if none was
refused, it tells of a gap that the check has found. -/
def StoreError.Explained (o : StoreOptions) (notes : List Note) (e : StoreError) : Prop :=
  Note.blames notes = [e] ∨ Note.blames notes = [] ∧ o.sequenceCheck = .strict ∧ e.IsGap

theorem Note.blames_append (notes new : List Note) :
    blames (notes ++ new) = blames notes ++ blames new := List.filterMap_append

theorem Note.mem_blames {notes : List Note} {request : Request} {operation : Operation}
    {e : BackendError} (h : ⟨request, some e⟩ ∈ notes)
    (hoperation : request.operation? = some operation) :
    StoreError.ofBackend operation e ∈ blames notes := by
  refine List.mem_filterMap.2 ⟨_, h, ?_⟩
  simp [blame?, hoperation]

theorem Note.blames_of_granted {notes : List Note} (granted : blames notes = []) (new : List Note) :
    blames (notes ++ new) = blames new := by
  rw [blames_append, granted, List.nil_append]

namespace Saving

/-- What is committed and inserted while a save is under way, given what was committed before. -/
def Holds (committed : σ → List Record) (inserted : σ → τ → List Record) (before : List Record)
    (records : List Record) (s : σ) : Saving τ → Prop
  | .opening rs => rs = records ∧ committed s = before
  | .checking tx _ _ rs => rs = records ∧ inserted s tx = [] ∧ committed s = before
  | .writing tx rest => inserted s tx ++ rest.flatten = records ∧ committed s = before
  | .undoing _ _ => committed s = before
  | .done (.ok ()) => (committed s).Perm (before ++ records)
  | .done (.error _) => committed s = before

/-- The requests of a save are accounted for: none has been refused while the save goes on, and a
refusal is what it fails with. -/
def Accounted (o : StoreOptions) (notes : List Note) : Saving τ → Prop
  | .checking .. => o.sequenceCheck = .strict ∧ Note.blames notes = []
  | .undoing _ cause | .done (.error cause) => cause.Explained o notes
  | _ => Note.blames notes = []

variable {b : Backend σ τ} {o : StoreOptions} {committed : σ → List Record}
  {inserted : σ → τ → List Record} {before records : List Record} {s s' : σ}
  {save save' : Saving τ} {notes new : List Note}

theorem holds_judge {tx : τ} {expected : List (String × Int)} {r : Record}
    {rest rs : List Record} {number : Int} (same : rs = records) (hinserted : inserted s tx = [])
    (hcommitted : committed s = before) :
    (judge tx expected r rest rs number).Holds committed inserted before records s := by
  unfold judge
  split
  · exact ⟨same, hinserted, hcommitted⟩
  · exact hcommitted

/-- A step of a save keeps what is committed and inserted in line with the records. -/
theorem Holds.proceeds (honours : b.Honours committed inserted)
    (h : save.Holds committed inserted before records s)
    (proceeds : Proceeds b o s save new save' s') :
    save'.Holds committed inserted before records s' := by
  cases proceeds with
  | unopened answer =>
    obtain ⟨-, hcommitted⟩ := h
    exact (honours.begin answer).1.trans hcommitted
  | opened answer strict =>
    obtain ⟨same, hcommitted⟩ := h
    obtain ⟨kept, fresh⟩ := honours.begin answer
    exact ⟨same, fresh _ rfl, kept.trans hcommitted⟩
  | openedUnchecked answer unchecked =>
    obtain ⟨rfl, hcommitted⟩ := h
    obtain ⟨kept, fresh⟩ := honours.begin answer
    exact ⟨by rw [fresh _ rfl, flatten_batches, List.nil_append], kept.trans hcommitted⟩
  | checked =>
    obtain ⟨rfl, hinserted, hcommitted⟩ := h
    exact ⟨by rw [hinserted, flatten_batches, List.nil_append], hcommitted⟩
  | met lookup =>
    obtain ⟨same, hinserted, hcommitted⟩ := h
    exact holds_judge same hinserted hcommitted
  | unanswered lookup answer => exact (honours.lastSequence answer).1.trans h.2.2
  | asked lookup answer =>
    obtain ⟨same, hinserted, hcommitted⟩ := h
    obtain ⟨kept, keptInserted⟩ := honours.lastSequence answer
    exact holds_judge same ((keptInserted _ rfl).trans hinserted) (kept.trans hcommitted)
  | uninserted answer => exact (honours.insert answer).1.trans h.2
  | inserted answer =>
    obtain ⟨hrecords, hcommitted⟩ := h
    obtain ⟨kept, added⟩ := honours.insert answer
    refine ⟨?_, kept.trans hcommitted⟩
    rw [added _ rfl, List.append_assoc]
    exact hrecords
  | uncommitted answer =>
    rcases honours.commit answer with ⟨heq, -⟩ | ⟨e, -, kept⟩
    · simp at heq
    · exact kept.trans h.2
  | committed answer =>
    rcases honours.commit answer with ⟨-, added⟩ | ⟨e, heq, -⟩
    · obtain ⟨hrecords, hcommitted⟩ := h
      rw [List.flatten_nil, List.append_nil] at hrecords
      rwa [hcommitted, hrecords] at added
    · simp at heq
  | undone rollback => exact (honours.rollback rollback).trans h

theorem accounted_judge {tx : τ} {expected : List (String × Int)} {r : Record}
    {rest rs : List Record} {number : Int} (strict : o.sequenceCheck = .strict)
    (granted : Note.blames notes = []) :
    (judge tx expected r rest rs number).Accounted o notes := by
  unfold judge
  split
  · exact ⟨strict, granted⟩
  · exact .inr ⟨granted, strict, trivial⟩

/-- A step of a save keeps its requests accounted for. -/
theorem Accounted.proceeds (h : save.Accounted o notes)
    (proceeds : Proceeds b o s save new save' s') : save'.Accounted o (notes ++ new) := by
  cases proceeds with
  | unopened answer => exact .inl (Note.blames_of_granted h _)
  | opened answer strict => exact ⟨strict, Note.blames_of_granted h _⟩
  | openedUnchecked answer unchecked => exact Note.blames_of_granted h _
  | checked => exact Note.blames_of_granted h.2 _
  | met lookup => exact accounted_judge h.1 (Note.blames_of_granted h.2 _)
  | unanswered lookup answer => exact .inl (Note.blames_of_granted h.2 _)
  | asked lookup answer => exact accounted_judge h.1 (Note.blames_of_granted h.2 _)
  | uninserted answer => exact .inl (Note.blames_of_granted h _)
  | inserted answer => exact Note.blames_of_granted h _
  | uncommitted answer => exact .inl (Note.blames_of_granted h _)
  | committed answer => exact Note.blames_of_granted h _
  | @undone _ cause answer _ rollback =>
    -- a refusal to undo the transaction is not reported
    have hsame : Note.blames (notes ++ [⟨.rollback, BackendError.of? answer⟩]) =
        Note.blames notes := by
      rw [Note.blames_append]
      exact List.append_nil _
    show cause.Explained o _
    rw [StoreError.Explained, hsame]
    exact h

/-- A save with a refused request has failed with what the refusal is reported as. -/
theorem Accounted.eq_error {result : Except StoreError Unit} {e : StoreError}
    (h : (done result : Saving τ).Accounted o notes) (hmem : e ∈ Note.blames notes) :
    result = .error e := by
  cases result with
  | ok _ =>
    have hnone : Note.blames notes = [] := h
    simp [hnone] at hmem
  | error cause =>
    rcases h with hone | ⟨hnone, -⟩
    · rw [hone, List.mem_singleton] at hmem
      rw [hmem]
    · simp [hnone] at hmem

/-! ### Undoing -/

/-- Who undoes transactions has no say in the answer of a save. -/
theorem run_withRollback (rollback : σ → τ → Except BackendError Unit × σ) (save : Saving τ)
    (s : σ) : (save.run (b.withRollback rollback) o s).1 = (save.run b o s).1 := by
  induction hsize : save.size using Nat.strongRecOn generalizing save s with
  | _ n ih =>
    -- only the last request of a save is to undo, so all other steps are the same
    have hnext : ∀ {save : Saving τ} {s : σ}, save.size = n → save.isDone = false →
        save.step (b.withRollback rollback) o s = save.step b o s →
        (save.run (b.withRollback rollback) o s).1 = (save.run b o s).1 := by
      intro save s hsize going hstep
      rw [run_of_going going, run_of_going going, hstep]
      exact ih _ (hsize ▸ size_step_lt b o s going) _ _ rfl
    cases save with
    | undoing tx cause => simp [run, step]
    | done result => simp
    | checking tx expected unchecked records =>
      cases unchecked <;> exact hnext hsize rfl rfl
    | writing tx rest => cases rest <;> exact hnext hsize rfl rfl
    | opening records => exact hnext hsize rfl rfl

end Saving

/-! ### Saves -/

namespace Store

/-- A store with everything that is asked of its backend written down. -/
def noted (store : Store σ τ) : Store (σ × List Note) τ where
  backend := store.backend.noted
  options := store.options
  registry := store.registry

/-- A store over a backend with other answers to those who undo a transaction. -/
def withRollback (store : Store σ τ) (rollback : σ → τ → Except BackendError Unit × σ) :
    Store σ τ :=
  { store with backend := store.backend.withRollback rollback }

end Store

/-- What is guaranteed of a save that has given this answer: with what was and is committed, and
with the requests that it has made. -/
structure AtomicSave (store : Store σ τ) (committed : σ → List Record) (newId : Nat → Uuid)
    (now : Time) (first : Nat) (events : List Event) (s : σ)
    (answer : Except StoreError (List Envelope)) (s' : σ) (notes : List Note) : Prop where
  /-- It is the answer without anybody writing requests down. -/
  unnoted : store.save newId now first events s = (answer, s')
  /-- A save that succeeds has committed a record of each event, and nothing else. -/
  all : ∀ envelopes, answer = .ok envelopes →
    envelopes.map Envelope.event = events ∧
      ∃ records, List.Forall₂ Envelope.IsOf envelopes records ∧
        (committed s').Perm (committed s ++ records)
  /-- A save that fails has left what is committed as it was. -/
  nothing : ∀ e, answer = .error e → committed s' = committed s
  /-- No events need no request. -/
  empty : events = [] → answer = .ok [] ∧ s' = s ∧ notes = []
  /-- The first event that cannot be written is reported before there is any request. -/
  unwritable : ∀ before e after err, events = before ++ e :: after →
    (∀ e' ∈ before, ∃ data, e'.payload = .ok data) → e.payload = .error err →
    answer = .error (.event err) ∧ s' = s ∧ notes = []
  /-- A conflict makes the events duplicates, whatever request it is the answer to. -/
  conflict : ∀ request message, ⟨request, some (.conflict message)⟩ ∈ notes → request ≠ .rollback →
    answer = .error (.duplicate message)
  /-- Any other refusal is reported with the step that it has stopped. -/
  refusal : ∀ request step operation message,
    ⟨request, some (.failed operation message)⟩ ∈ notes → request.operation? = some step →
    answer = .error (.persistence step (.failed operation message))
  /-- There are no other errors than these and, if the store is strict, gaps. -/
  explained : ∀ e, answer = .error e →
    (∃ event ∈ events, ∃ err, event.payload = .error err ∧ e = .event err) ∨
      e.Explained store.options notes
  /-- The answer does not depend on what becomes of a request to undo the transaction. -/
  rollback : ∀ rollback, ((store.withRollback rollback).save newId now first events s).1 = answer

section Atomic

variable {store : Store σ τ} {committed : σ → List Record} {inserted : σ → τ → List Record}
  {newId : Nat → Uuid} {now : Time} {first : Nat} {events : List Event} {s s' : σ}
  {entries : List (Record × Envelope)} {answer : Except StoreError (List Envelope)}
  {notes : List Note}

namespace Store

theorem save_of_prepare_error {err : EventError}
    (hprepare : prepare newId now first events = .error err) :
    store.save newId now first events s = (.error (.event err), s) := by
  cases events with
  | nil => simp [prepare] at hprepare
  | cons e rest => simp [save, hprepare]

theorem save_of_prepare {result : Except StoreError Unit} (nonempty : events ≠ [])
    (hprepare : prepare newId now first events = .ok entries)
    (hrun : Saving.run store.backend store.options s (.opening (entries.map Prod.fst)) =
      (result, s')) :
    store.save newId now first events s = (result.map fun _ => entries.map Prod.snd, s') := by
  cases events with
  | nil => exact (nonempty rfl).elim
  | cons e rest => cases result <;> simp [save, hprepare, hrun, Except.map]

theorem save_withRollback (rollback : σ → τ → Except BackendError Unit × σ) :
    ((store.withRollback rollback).save newId now first events s).1 =
      (store.save newId now first events s).1 := by
  by_cases nonempty : events = []
  · rw [nonempty]
    rfl
  · cases hprepare : prepare newId now first events with
    | error err => rw [save_of_prepare_error hprepare, save_of_prepare_error hprepare]
    | ok entries =>
      rw [save_of_prepare nonempty hprepare rfl, save_of_prepare nonempty hprepare rfl]
      exact congrArg (Except.map _) (Saving.run_withRollback rollback _ s)

end Store

theorem atomicSave_nil :
    AtomicSave store committed newId now first [] s (.ok []) s [] where
  unnoted := rfl
  all := by
    rintro envelopes ⟨⟩
    exact ⟨rfl, [], .nil, by simp⟩
  nothing := by simp
  empty _ := ⟨rfl, rfl, rfl⟩
  unwritable := by simp
  conflict := by simp
  refusal := by simp
  explained := by simp
  rollback _ := rfl

theorem atomicSave_of_prepare_error {err : EventError}
    (hprepare : prepare newId now first events = .error err) :
    AtomicSave store committed newId now first events s (.error (.event err)) s [] where
  unnoted := Store.save_of_prepare_error hprepare
  all := by simp
  nothing _ _ := rfl
  empty := by
    rintro rfl
    simp [prepare] at hprepare
  unwritable := by
    intro before e after err' hevents hbefore herr
    have hfirst : prepare newId now first events = .error err' :=
      prepare_eq_error_iff.2 ⟨before, e, after, hevents, hbefore, herr⟩
    obtain rfl := Except.error.inj (hprepare.symm.trans hfirst)
    exact ⟨rfl, rfl, rfl⟩
  conflict := by simp
  refusal := by simp
  explained := by
    rintro e ⟨⟩
    obtain ⟨before, event, after, rfl, -, herr⟩ := prepare_eq_error_iff.1 hprepare
    exact .inl ⟨event, by simp, err, herr, rfl⟩
  rollback rollback := by rw [Store.save_withRollback, Store.save_of_prepare_error hprepare]

theorem atomicSave_of_prepare {result : Except StoreError Unit} (nonempty : events ≠ [])
    (hprepare : prepare newId now first events = .ok entries)
    (hrun : Saving.run store.backend store.options s (.opening (entries.map Prod.fst)) =
      (result, s'))
    (holds : (Saving.done result : Saving τ).Holds committed inserted (committed s)
      (entries.map Prod.fst) s')
    (accounted : (Saving.done result : Saving τ).Accounted store.options notes) :
    AtomicSave store committed newId now first events s
      (result.map fun _ => entries.map Prod.snd) s' notes where
  unnoted := Store.save_of_prepare nonempty hprepare hrun
  all := by
    intro envelopes henvelopes
    cases result with
    | error e => simp [Except.map] at henvelopes
    | ok _ =>
      obtain rfl := Except.ok.inj henvelopes
      exact ⟨map_envelope_of_prepare hprepare, _, forall₂_isOf_of_prepare hprepare, holds⟩
  nothing := by
    intro e he
    cases result with
    | error e => exact holds
    | ok _ => simp [Except.map] at he
  empty := fun h => (nonempty h).elim
  unwritable := by
    intro before e after err hevents hbefore herr
    have hfirst : prepare newId now first events = .error err :=
      prepare_eq_error_iff.2 ⟨before, e, after, hevents, hbefore, herr⟩
    simp [hprepare] at hfirst
  conflict := by
    intro request message hmem hrequest
    -- every other request names the step that it belongs to
    obtain ⟨operation, hoperation⟩ : ∃ operation, request.operation? = some operation := by
      cases request <;> simp_all [Request.operation?]
    rw [accounted.eq_error (Note.mem_blames hmem hoperation)]
    rfl
  refusal := by
    intro request step operation message hmem hstep
    rw [accounted.eq_error (Note.mem_blames hmem hstep)]
    rfl
  explained := by
    intro e he
    cases result with
    | ok _ => simp [Except.map] at he
    | error cause =>
      obtain rfl := Except.error.inj he
      exact .inr accounted
  rollback rollback := by
    rw [Store.save_withRollback, Store.save_of_prepare nonempty hprepare hrun]

namespace Store

/-- A save ends with some answer, and it is atomic. -/
theorem exists_atomicSave (honours : store.backend.Honours committed inserted) (newId : Nat → Uuid)
    (now : Time) (first : Nat) (events : List Event) (s : σ) :
    ∃ answer s' notes, store.noted.save newId now first events (s, []) = (answer, s', notes) ∧
      AtomicSave store committed newId now first events s answer s' notes := by
  by_cases nonempty : events = []
  · subst nonempty
    exact ⟨_, s, [], rfl, atomicSave_nil⟩
  · cases hprepare : prepare newId now first events with
    | error err =>
      exact ⟨_, s, [], save_of_prepare_error hprepare, atomicSave_of_prepare_error hprepare⟩
    | ok entries =>
      obtain ⟨result, s', notes, hrun, hnoted, holds, accounted⟩ :=
        Saving.run_induction (b := store.backend) (o := store.options)
          (P := fun s' notes save =>
            save.Holds committed inserted (committed s) (entries.map Prod.fst) s' ∧
              save.Accounted store.options notes)
          (fun h hproceeds => ⟨h.1.proceeds honours hproceeds, h.2.proceeds hproceeds⟩)
          (.opening (entries.map Prod.fst)) s [] ⟨⟨rfl, rfl⟩, rfl⟩
      exact ⟨_, s', notes, save_of_prepare nonempty hprepare hnoted,
        atomicSave_of_prepare nonempty hprepare hrun holds accounted⟩

/-- What every step of a save keeps is kept by the save. -/
theorem save_induction {P : σ → Prop}
    (keeps : ∀ {s save new save' s'}, P s →
      Saving.Proceeds store.backend store.options s save new save' s' → P s')
    (start : P s) (h : store.save newId now first events s = (answer, s')) : P s' := by
  by_cases nonempty : events = []
  · subst nonempty
    obtain ⟨-, rfl⟩ := Prod.mk.inj h
    exact start
  · cases hprepare : prepare newId now first events with
    | error err =>
      rw [save_of_prepare_error hprepare] at h
      obtain ⟨-, rfl⟩ := Prod.mk.inj h
      exact start
    | ok entries =>
      obtain ⟨result, s₁, notes, hrun, -, hs₁⟩ :=
        Saving.run_induction (b := store.backend) (o := store.options) (P := fun s _ _ => P s)
          (fun h hproceeds => keeps h hproceeds) (.opening (entries.map Prod.fst)) s [] start
      rw [save_of_prepare nonempty hprepare hrun] at h
      obtain ⟨-, rfl⟩ := Prod.mk.inj h
      exact hs₁

/-- A save over a backend that keeps to its contract is atomic, whatever the backend refuses. -/
theorem atomicSave (honours : store.backend.Honours committed inserted)
    (h : store.noted.save newId now first events (s, []) = (answer, s', notes)) :
    AtomicSave store committed newId now first events s answer s' notes := by
  obtain ⟨answer₁, s₁, notes₁, hnoted, atomic⟩ :=
    exists_atomicSave honours newId now first events s
  obtain ⟨rfl, hstate⟩ := Prod.mk.inj (hnoted.symm.trans h)
  obtain ⟨rfl, rfl⟩ := Prod.mk.inj hstate
  exact atomic

end Store

end Atomic

/-- A store that inserts one record at a time. -/
def Store.oneByOne : Store Watched Transaction where
  backend := Watched.backend
  options := { batchSize := 1 }

/-- A journal that is going to refuse the second insertion, and to undo the transaction. -/
def Watched.failing : Watched where
  faults := [⟨.insert, 1, .failed "insert" "disk full"⟩, ⟨.rollback, 0, .conflict "too late"⟩]

/-- A save is atomic that fails half-way and cannot be undone. -/
theorem atomicSave_of_second_insert :
    Store.oneByOne.backend.Honours (fun w => w.journal.records) (fun _ tx => tx.staged) ∧
      ∃ answer w notes,
        Store.oneByOne.noted.save System.blank.newId System.blank.clock 0 [.note "a", .note "b"]
          (.failing, []) = (answer, w, notes) ∧
        AtomicSave .oneByOne (fun w => w.journal.records) System.blank.newId System.blank.clock 0
          [.note "a", .note "b"] .failing answer w notes ∧
        answer.map (fun _ => ()) =
          .error (.persistence .insert (.failed "insert" "disk full")) ∧
        w.journal.records = [] ∧
        notes =
          [⟨.begin, none⟩, ⟨.lastSequence "a", none⟩, ⟨.lastSequence "b", none⟩, ⟨.insert 1, none⟩,
            ⟨.insert 1, some (.failed "insert" "disk full")⟩,
            ⟨.rollback, some (.conflict "too late")⟩] :=
  ⟨Watched.honours, _, _, _, rfl, Store.atomicSave Watched.honours rfl, by decide +kernel,
    by decide +kernel, by decide +kernel⟩

end EventJournal
