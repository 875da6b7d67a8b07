import EventJournal.Proofs.Store.Numbered
import EventJournal.Store

/-!
# Requests to a watched journal

What the requests of a save or a load come to. The backend may refuse each of them, and only a
commit changes the journal.

* `Watched.Unchanged`, `Watched.Refuses`: that a request has not changed the journal, and that it
  was refused;
* `Watched.ask_granting`, `Watched.commit_cases`: what becomes of a request;
* `Saving.Expects`, where a save has got a number from, and `Saving.Step`, what its steps do;
* `Store.loadFrom_watched`, what a load finds.

The main statement is `Saving.step_cases`.
-/

namespace EventJournal

namespace Watched

/-- The journal is as it was. Without refusals to come there are none afterwards. -/
structure Unchanged (w w' : Watched) : Prop where
  journal : w'.journal = w.journal
  calm : w.faults = [] → w'.faults = []

/-- A refusal was due, and has left the journal as it was. -/
structure Refuses (w w' : Watched) : Prop where
  journal : w'.journal = w.journal
  due : w.faults ≠ []

variable {w w' : Watched} {tx : Transaction}

theorem Refuses.unchanged (h : w.Refuses w') : w.Unchanged w' :=
  ⟨h.journal, fun calm => (h.due calm).elim⟩

section Ask

variable {α : Type} {request : Request} {grant : Journal → Except BackendError α × Journal}
  {answer : Except BackendError α}

/-- A request is refused, or passed on to the journal. -/
theorem ask_cases (h : ask request grant w = (answer, w')) :
    (∃ e, answer = .error e ∧ w.Refuses w') ∨
      (answer = (grant w.journal).1 ∧ w'.journal = (grant w.journal).2 ∧
        (w.faults = [] → w'.faults = [])) := by
  have hcalm : w.faults = [] → due request.kind w.faults = (none, []) := by
    intro calm
    rw [calm]
    rfl
  unfold ask at h
  dsimp only at h
  split at h
  · next error hdue =>
    obtain ⟨rfl, rfl⟩ := Prod.mk.inj h
    refine .inl ⟨error, rfl, rfl, fun calm => ?_⟩
    rw [hcalm calm] at hdue
    simp at hdue
  · obtain ⟨rfl, rfl⟩ := Prod.mk.inj h
    refine .inr ⟨rfl, rfl, fun calm => ?_⟩
    show (due request.kind w.faults).2 = []
    rw [hcalm calm]

/-- A request that the journal always grants leaves it as it was. -/
theorem ask_granting (value : Journal → α) (hgrant : ∀ j, grant j = (.ok (value j), j))
    (h : ask request grant w = (answer, w')) :
    (∃ e, answer = .error e ∧ w.Refuses w') ∨
      (answer = .ok (value w.journal) ∧ w.Unchanged w') := by
  rcases ask_cases h with refused | ⟨hanswer, hjournal, calm⟩
  · exact .inl refused
  · rw [hgrant] at hanswer hjournal
    exact .inr ⟨hanswer, hjournal, calm⟩

end Ask

theorem begin_cases {answer : Except BackendError Transaction}
    (h : backend.begin w = (answer, w')) :
    (∃ e, answer = .error e ∧ w.Refuses w') ∨ (answer = .ok {} ∧ w.Unchanged w') := by
  have hgrant : ∀ j, Journal.backend.begin j = (.ok {}, j) := fun _ => rfl
  exact ask_granting (fun _ => {}) hgrant h

theorem lastSequence_cases {aggregateId : String} {answer : Except BackendError (Option Int)}
    (h : backend.lastSequence w tx aggregateId = (answer, w')) :
    (∃ e, answer = .error e ∧ w.Refuses w') ∨
      (answer = .ok (tx.lastSequence? w.journal aggregateId) ∧ w.Unchanged w') :=
  ask_granting (fun j => tx.lastSequence? j aggregateId) (fun _ => rfl) h

theorem insert_cases {records : List Record} {answer : Except BackendError Transaction}
    (h : backend.insert w tx records = (answer, w')) :
    (∃ e, answer = .error e ∧ w.Refuses w') ∨
      (answer = .ok (tx.stage records) ∧ w.Unchanged w') :=
  ask_granting (fun _ => tx.stage records) (fun _ => rfl) h

theorem unchanged_rollback (w : Watched) (tx : Transaction) :
    w.Unchanged (backend.rollback w tx).2 := by
  have hrollback : backend.rollback w tx = ((backend.rollback w tx).1, (backend.rollback w tx).2) :=
    rfl
  rcases ask_granting (fun _ => ()) (fun _ => rfl) hrollback with ⟨e, -, refuses⟩ | ⟨-, unchanged⟩
  · exact refuses.unchanged
  · exact unchanged

theorem query_cases {aggregateId : String} {fromSequence : Int}
    {answer : Except BackendError (List Record)}
    (h : backend.query w aggregateId fromSequence = (answer, w')) :
    (∃ e, answer = .error e ∧ w.Refuses w') ∨
      (answer = .ok (w.journal.query aggregateId fromSequence) ∧ w.Unchanged w') :=
  ask_granting (fun j => j.query aggregateId fromSequence) (fun _ => rfl) h

/-- A commit adds the staged records, whose places are free, or it leaves the journal as it was.
Without refusals to come it fails only if a place is taken. -/
theorem commit_cases {answer : Except BackendError Unit}
    (h : backend.commit w tx = (answer, w')) :
    (answer = .ok () ∧ w.journal.Grows tx.staged w'.journal ∧ (w.faults = [] → w'.faults = [])) ∨
      ∃ e, answer = .error e ∧ w'.journal = w.journal ∧
        (w.faults = [] → w'.faults = [] ∧ ∃ r, e = Journal.clash r ∧
          Journal.firstClash? (w.journal.records.map Record.place) tx.staged = some r) := by
  have hask : ask .commit (fun j => Journal.backend.commit j tx) w = (answer, w') := h
  rcases ask_cases hask with ⟨e, heq, refuses⟩ | ⟨hanswer, hjournal, calm⟩
  · exact .inr ⟨e, heq, refuses.journal, fun calm => (refuses.due calm).elim⟩
  · cases hclash : Journal.firstClash? (w.journal.records.map Record.place) tx.staged with
    | none =>
      simp only [Journal.backend, Journal.commit, hclash] at hanswer hjournal
      exact .inl ⟨hanswer, ⟨congrArg Journal.records hjournal, hclash⟩, calm⟩
    | some r =>
      simp only [Journal.backend, Journal.commit, hclash] at hanswer hjournal
      exact .inr ⟨_, hanswer, hjournal, fun hcalm => ⟨calm hcalm, r, rfl, rfl⟩⟩

end Watched

/-- A load leaves the journal as it was, and gives what is stored. Without refusals to come it fails
only if a record cannot be read. -/
theorem Store.loadFrom_watched {store : Store Watched Transaction}
    (watched : store.backend = Watched.backend) {aggregateId : String} {fromSequence : Int}
    {w w' : Watched} {answer : Except StoreError (List Envelope)}
    (h : store.loadFrom aggregateId fromSequence w = (answer, w')) :
    w.Unchanged w' ∧
      (∀ envelopes, answer = .ok envelopes →
        decodeAll store.registry (w.journal.query aggregateId fromSequence) = .ok envelopes) ∧
      (w.faults = [] → ∀ e, answer = .error e → ∃ e',
        decodeAll store.registry (w.journal.query aggregateId fromSequence) = .error e') := by
  unfold loadFrom at h
  rw [watched] at h
  cases hask : Watched.backend.query w aggregateId fromSequence with
  | mk reply w₁ =>
    rw [hask] at h
    rcases Watched.query_cases hask with ⟨e, rfl, refuses⟩ | ⟨rfl, unchanged⟩
    · obtain ⟨rfl, rfl⟩ := Prod.mk.inj h
      exact ⟨refuses.unchanged, by simp, fun calm => (refuses.due calm).elim⟩
    · cases hdecode : decodeAll store.registry (w.journal.query aggregateId fromSequence) with
      | error e =>
        simp only [hdecode] at h
        obtain ⟨rfl, rfl⟩ := Prod.mk.inj h
        exact ⟨unchanged, by simp, fun _ _ _ => ⟨e, rfl⟩⟩
      | ok envelopes =>
        simp only [hdecode] at h
        obtain ⟨rfl, rfl⟩ := Prod.mk.inj h
        exact ⟨unchanged, by simp, by simp⟩

namespace Saving

open Watched (Unchanged Refuses)

/-- The number that a record of an aggregate should have: the next one after those that the save has
met, or else the next one after those that are stored. -/
inductive Expects (w : Watched) (tx : Transaction) (expected : List (String × Int)) (r : Record)
    (number : Int) (w' : Watched) : Prop
  | met (lookup : expected.lookup r.aggregateId = some number) (same : w' = w)
  | asked (lookup : expected.lookup r.aggregateId = none) (unchanged : w.Unchanged w')
      (next : number = Numeral.nextInt64 ((tx.lastSequence? w.journal r.aggregateId).getD 0))

/-- What a step of a save does. -/
inductive Step (o : StoreOptions) (w : Watched) :
    Saving Transaction → Saving Transaction → Watched → Prop
  | unopened {records : List Record} {w' : Watched} (e : StoreError) (refuses : w.Refuses w') :
      Step o w (.opening records) (.done (.error e)) w'
  | opened {records : List Record} {w' : Watched} (unchanged : w.Unchanged w')
      (strict : o.sequenceCheck = .strict) :
      Step o w (.opening records) (.checking {} [] records records) w'
  | openedUnchecked {records : List Record} {w' : Watched} (unchanged : w.Unchanged w')
      (unchecked : o.sequenceCheck = .unchecked) :
      Step o w (.opening records) (.writing {} (batches o.batchSize records)) w'
  | checked {tx : Transaction} {expected : List (String × Int)} {records : List Record} :
      Step o w (.checking tx expected [] records) (.writing tx (batches o.batchSize records)) w
  | unanswered {tx : Transaction} {expected : List (String × Int)} {r : Record}
      {rest records : List Record} {w' : Watched} (e : StoreError) (refuses : w.Refuses w') :
      Step o w (.checking tx expected (r :: rest) records) (.undoing tx e) w'
  | fits {tx : Transaction} {expected : List (String × Int)} {r : Record}
      {rest records : List Record} {w' : Watched}
      (expects : Expects w tx expected r r.sequenceNo w') :
      Step o w (.checking tx expected (r :: rest) records)
        (.checking tx ((r.aggregateId, Numeral.nextInt64 r.sequenceNo) :: expected) rest records) w'
  | differs {tx : Transaction} {expected : List (String × Int)} {r : Record}
      {rest records : List Record} {number : Int} {w' : Watched}
      (expects : Expects w tx expected r number w') (ne : r.sequenceNo ≠ number) :
      Step o w (.checking tx expected (r :: rest) records)
        (.undoing tx (.sequenceConflict r.aggregateId number r.sequenceNo)) w'
  | inserted {tx : Transaction} {batch : List Record} {rest : List (List Record)} {w' : Watched}
      (unchanged : w.Unchanged w') :
      Step o w (.writing tx (batch :: rest)) (.writing (tx.stage batch) rest) w'
  | uninserted {tx : Transaction} {batch : List Record} {rest : List (List Record)} {w' : Watched}
      (e : StoreError) (refuses : w.Refuses w') :
      Step o w (.writing tx (batch :: rest)) (.undoing tx e) w'
  | committed {tx : Transaction} {w' : Watched} (grows : w.journal.Grows tx.staged w'.journal)
      (calm : w.faults = [] → w'.faults = []) :
      Step o w (.writing tx []) (.done (.ok ())) w'
  | uncommitted {tx : Transaction} {w' : Watched} (e : StoreError)
      (journal : w'.journal = w.journal)
      (calm : w.faults = [] → w'.faults = [] ∧ e.isConflict = true) :
      Step o w (.writing tx []) (.done (.error e)) w'
  | undone {tx : Transaction} {cause : StoreError} {w' : Watched} (unchanged : w.Unchanged w') :
      Step o w (.undoing tx cause) (.done (.error cause)) w'
  | done {result : Except StoreError Unit} : Step o w (.done result) (.done result) w

variable {o : StoreOptions} {w w' : Watched} {save save' : Saving Transaction}

theorem Expects.unchanged {tx : Transaction} {expected : List (String × Int)} {r : Record}
    {number : Int} (h : Expects w tx expected r number w') : w.Unchanged w' := by
  cases h with
  | met lookup same =>
    subst same
    exact ⟨rfl, id⟩
  | asked lookup unchanged => exact unchanged

/-- A record is compared with the number that it should have. -/
theorem step_judge {tx : Transaction} {expected : List (String × Int)} {r : Record}
    {rest records : List Record} {number : Int} (expects : Expects w tx expected r number w') :
    Step o w (.checking tx expected (r :: rest) records)
      (judge tx expected r rest records number) w' := by
  unfold judge
  by_cases hnumber : r.sequenceNo = number
  · rw [if_pos hnumber]
    subst hnumber
    exact .fits expects
  · rw [if_neg hnumber]
    exact .differs expects hnumber

/-- A step of a save does one of these things. -/
theorem step_cases (h : save.step Watched.backend o w = (save', w')) : Step o w save save' w' := by
  cases save with
  | opening records =>
    rw [step] at h
    split at h
    · next e w₁ hask =>
      obtain ⟨rfl, rfl⟩ := Prod.mk.inj h
      rcases Watched.begin_cases hask with ⟨_, -, refuses⟩ | ⟨heq, -⟩
      · exact .unopened _ refuses
      · simp at heq
    · next tx w₁ hask =>
      rcases Watched.begin_cases hask with ⟨_, heq, -⟩ | ⟨heq, unchanged⟩
      · simp at heq
      · obtain rfl := Except.ok.inj heq
        split at h
        · next strict =>
          obtain ⟨rfl, rfl⟩ := Prod.mk.inj h
          exact .opened unchanged strict
        · next unchecked =>
          obtain ⟨rfl, rfl⟩ := Prod.mk.inj h
          exact .openedUnchecked unchanged unchecked
  | checking tx expected unchecked records =>
    cases unchecked with
    | nil =>
      obtain ⟨rfl, rfl⟩ := Prod.mk.inj h
      exact .checked
    | cons r rest =>
      rw [step] at h
      split at h
      · next number lookup =>
        obtain ⟨rfl, rfl⟩ := Prod.mk.inj h
        exact step_judge (.met lookup rfl)
      · next lookup =>
        split at h
        · next e w₁ hask =>
          obtain ⟨rfl, rfl⟩ := Prod.mk.inj h
          rcases Watched.lastSequence_cases hask with ⟨_, -, refuses⟩ | ⟨heq, -⟩
          · exact .unanswered _ refuses
          · simp at heq
        · next last w₁ hask =>
          obtain ⟨rfl, rfl⟩ := Prod.mk.inj h
          rcases Watched.lastSequence_cases hask with ⟨_, heq, -⟩ | ⟨heq, unchanged⟩
          · simp at heq
          · obtain rfl := Except.ok.inj heq
            exact step_judge (.asked lookup unchanged rfl)
  | writing tx rest =>
    cases rest with
    | nil =>
      rw [step] at h
      split at h
      · next e w₁ hask =>
        obtain ⟨rfl, rfl⟩ := Prod.mk.inj h
        rcases Watched.commit_cases hask with ⟨heq, -⟩ | ⟨e', heq, journal, calm⟩
        · simp at heq
        · obtain rfl := Except.error.inj heq
          refine .uncommitted _ journal fun hcalm => ?_
          obtain ⟨hfaults, r, rfl, -⟩ := calm hcalm
          exact ⟨hfaults, rfl⟩
      · next w₁ hask =>
        obtain ⟨rfl, rfl⟩ := Prod.mk.inj h
        rcases Watched.commit_cases hask with ⟨-, grows, calm⟩ | ⟨_, heq, -⟩
        · exact .committed grows calm
        · simp at heq
    | cons batch rest =>
      rw [step] at h
      split at h
      · next e w₁ hask =>
        obtain ⟨rfl, rfl⟩ := Prod.mk.inj h
        rcases Watched.insert_cases hask with ⟨_, -, refuses⟩ | ⟨heq, -⟩
        · exact .uninserted _ refuses
        · simp at heq
      · next tx' w₁ hask =>
        obtain ⟨rfl, rfl⟩ := Prod.mk.inj h
        rcases Watched.insert_cases hask with ⟨_, heq, -⟩ | ⟨heq, unchanged⟩
        · simp at heq
        · obtain rfl := Except.ok.inj heq
          exact .inserted unchanged
  | undoing tx cause =>
    obtain ⟨rfl, rfl⟩ := Prod.mk.inj h
    exact .undone (Watched.unchanged_rollback w tx)
  | done result =>
    obtain ⟨rfl, rfl⟩ := Prod.mk.inj h
    exact .done

end Saving

end EventJournal
