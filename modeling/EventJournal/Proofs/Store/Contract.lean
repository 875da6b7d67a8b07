import EventJournal.Proofs.Store.Requests

/-!
# The contract of backends

Records become visible through a commit that succeeds, and in no other way. A backend that keeps to
this may still refuse any request.

* `Backend.Honours`, the contract, over what is committed in a state and what a transaction has
  inserted there; `Watched.honours`, that a watched journal keeps to it;
* `Backend.noted`, a backend with everything that is asked of it written down;
* `Saving.Proceeds`, what a step of a save asks and what becomes of it.

The main statements are `Saving.proceeds`, one step over any backend, and `Saving.run_induction`,
all of them.
-/

namespace EventJournal

variable {σ τ : Type}

namespace Backend

/-- A backend keeps to its contract, given the records that are committed in a state and those that
an open transaction has inserted there. Only a commit that succeeds makes records visible, and it
does so for all that were inserted. -/
structure Honours (b : Backend σ τ) (committed : σ → List Record)
    (inserted : σ → τ → List Record) : Prop where
  begin : ∀ {s s' : σ} {answer : Except BackendError τ}, b.begin s = (answer, s') →
    committed s' = committed s ∧ ∀ tx, answer = .ok tx → inserted s' tx = []
  lastSequence : ∀ {s s' : σ} {tx : τ} {aggregateId : String}
    {answer : Except BackendError (Option Int)}, b.lastSequence s tx aggregateId = (answer, s') →
    committed s' = committed s ∧ ∀ last, answer = .ok last → inserted s' tx = inserted s tx
  insert : ∀ {s s' : σ} {tx : τ} {records : List Record} {answer : Except BackendError τ},
    b.insert s tx records = (answer, s') →
    committed s' = committed s ∧
      ∀ tx', answer = .ok tx' → inserted s' tx' = inserted s tx ++ records
  commit : ∀ {s s' : σ} {tx : τ} {answer : Except BackendError Unit},
    b.commit s tx = (answer, s') →
    (answer = .ok () ∧ (committed s').Perm (committed s ++ inserted s tx)) ∨
      ∃ e, answer = .error e ∧ committed s' = committed s
  rollback : ∀ {s s' : σ} {tx : τ} {answer : Except BackendError Unit},
    b.rollback s tx = (answer, s') → committed s' = committed s

end Backend

/-- A watched journal keeps to the contract, whatever it refuses. -/
theorem Watched.honours :
    Watched.backend.Honours (fun w => w.journal.records) fun _ tx => tx.staged := by
  constructor
  case begin =>
    intro w w' answer h
    rcases begin_cases h with ⟨e, rfl, refuses⟩ | ⟨rfl, unchanged⟩
    · exact ⟨congrArg Journal.records refuses.journal, by simp⟩
    · refine ⟨congrArg Journal.records unchanged.journal, fun tx htx => ?_⟩
      obtain rfl := Except.ok.inj htx
      rfl
  case lastSequence =>
    intro w w' tx aggregateId answer h
    rcases lastSequence_cases h with ⟨e, rfl, refuses⟩ | ⟨rfl, unchanged⟩
    · exact ⟨congrArg Journal.records refuses.journal, by simp⟩
    · exact ⟨congrArg Journal.records unchanged.journal, fun _ _ => rfl⟩
  case insert =>
    intro w w' tx records answer h
    rcases insert_cases h with ⟨e, rfl, refuses⟩ | ⟨rfl, unchanged⟩
    · exact ⟨congrArg Journal.records refuses.journal, by simp⟩
    · refine ⟨congrArg Journal.records unchanged.journal, fun tx' htx => ?_⟩
      obtain rfl := Except.ok.inj htx
      rfl
  case commit =>
    intro w w' tx answer h
    rcases commit_cases h with ⟨rfl, grows, -⟩ | ⟨e, rfl, journal, -⟩
    · exact .inl ⟨rfl, .of_eq grows.records⟩
    · exact .inr ⟨e, rfl, congrArg Journal.records journal⟩
  case rollback =>
    intro w w' tx answer h
    have unchanged := unchanged_rollback w tx
    rw [h] at unchanged
    exact congrArg Journal.records unchanged.journal

/-! ### Notes -/

/-- A request, and its refusal if it was refused. -/
structure Note where
  request : Request
  refusal : Option BackendError
  deriving DecidableEq, Repr

/-- The step of a store that makes a request, if a refusal of it is reported. -/
def Request.operation? : Request → Option Operation
  | .begin => some .begin
  | .lastSequence _ => some .lastSequence
  | .insert _ => some .insert
  | .commit => some .commit
  | .rollback => none
  | .query .. => some .query

/-- The refusal in an answer. -/
def BackendError.of? {α : Type} : Except BackendError α → Option BackendError
  | .ok _ => none
  | .error e => some e

@[simp] theorem BackendError.of?_ok {α : Type} (a : α) : of? (.ok a) = none := rfl

@[simp] theorem BackendError.of?_error {α : Type} (e : BackendError) :
    of? (.error e : Except BackendError α) = some e := rfl

namespace Backend

/-- Writes a request down with what has become of it. -/
def note {α : Type} (request : Request) (answered : Except BackendError α × σ)
    (notes : List Note) : Except BackendError α × σ × List Note :=
  (answered.1, answered.2, notes ++ [⟨request, BackendError.of? answered.1⟩])

/-- A backend with everything that is asked of it written down. -/
def noted (b : Backend σ τ) : Backend (σ × List Note) τ where
  begin s := note .begin (b.begin s.1) s.2
  lastSequence s tx aggregateId :=
    note (.lastSequence aggregateId) (b.lastSequence s.1 tx aggregateId) s.2
  insert s tx records := note (.insert records.length) (b.insert s.1 tx records) s.2
  commit s tx := note .commit (b.commit s.1 tx) s.2
  rollback s tx := note .rollback (b.rollback s.1 tx) s.2
  query s aggregateId fromSequence :=
    note (.query aggregateId fromSequence) (b.query s.1 aggregateId fromSequence) s.2

/-- A backend with other answers to those who undo a transaction. -/
def withRollback (b : Backend σ τ) (rollback : σ → τ → Except BackendError Unit × σ) :
    Backend σ τ :=
  { b with rollback }

end Backend

namespace Saving

/-- A save proceeds by a step: the requests that it makes, and what becomes of it. -/
inductive Proceeds (b : Backend σ τ) (o : StoreOptions) (s : σ) :
    Saving τ → List Note → Saving τ → σ → Prop
  | unopened {records : List Record} {e : BackendError} {s' : σ}
      (answer : b.begin s = (.error e, s')) :
      Proceeds b o s (.opening records) [⟨.begin, some e⟩] (.done (.error (.ofBackend .begin e))) s'
  | opened {records : List Record} {tx : τ} {s' : σ} (answer : b.begin s = (.ok tx, s'))
      (strict : o.sequenceCheck = .strict) :
      Proceeds b o s (.opening records) [⟨.begin, none⟩] (.checking tx [] records records) s'
  | openedUnchecked {records : List Record} {tx : τ} {s' : σ} (answer : b.begin s = (.ok tx, s'))
      (unchecked : o.sequenceCheck = .unchecked) :
      Proceeds b o s (.opening records) [⟨.begin, none⟩]
        (.writing tx (batches o.batchSize records)) s'
  | checked {tx : τ} {expected : List (String × Int)} {records : List Record} :
      Proceeds b o s (.checking tx expected [] records) []
        (.writing tx (batches o.batchSize records)) s
  | met {tx : τ} {expected : List (String × Int)} {r : Record} {rest records : List Record}
      {number : Int} (lookup : expected.lookup r.aggregateId = some number) :
      Proceeds b o s (.checking tx expected (r :: rest) records) []
        (judge tx expected r rest records number) s
  | unanswered {tx : τ} {expected : List (String × Int)} {r : Record} {rest records : List Record}
      {e : BackendError} {s' : σ} (lookup : expected.lookup r.aggregateId = none)
      (answer : b.lastSequence s tx r.aggregateId = (.error e, s')) :
      Proceeds b o s (.checking tx expected (r :: rest) records)
        [⟨.lastSequence r.aggregateId, some e⟩] (.undoing tx (.ofBackend .lastSequence e)) s'
  | asked {tx : τ} {expected : List (String × Int)} {r : Record} {rest records : List Record}
      {last : Option Int} {s' : σ} (lookup : expected.lookup r.aggregateId = none)
      (answer : b.lastSequence s tx r.aggregateId = (.ok last, s')) :
      Proceeds b o s (.checking tx expected (r :: rest) records)
        [⟨.lastSequence r.aggregateId, none⟩]
        (judge tx expected r rest records (Numeral.nextInt64 (last.getD 0))) s'
  | uninserted {tx : τ} {batch : List Record} {rest : List (List Record)} {e : BackendError}
      {s' : σ} (answer : b.insert s tx batch = (.error e, s')) :
      Proceeds b o s (.writing tx (batch :: rest)) [⟨.insert batch.length, some e⟩]
        (.undoing tx (.ofBackend .insert e)) s'
  | inserted {tx tx' : τ} {batch : List Record} {rest : List (List Record)} {s' : σ}
      (answer : b.insert s tx batch = (.ok tx', s')) :
      Proceeds b o s (.writing tx (batch :: rest)) [⟨.insert batch.length, none⟩]
        (.writing tx' rest) s'
  | uncommitted {tx : τ} {e : BackendError} {s' : σ} (answer : b.commit s tx = (.error e, s')) :
      Proceeds b o s (.writing tx []) [⟨.commit, some e⟩]
        (.done (.error (.ofBackend .commit e))) s'
  | committed {tx : τ} {s' : σ} (answer : b.commit s tx = (.ok (), s')) :
      Proceeds b o s (.writing tx []) [⟨.commit, none⟩] (.done (.ok ())) s'
  | undone {tx : τ} {cause : StoreError} {answer : Except BackendError Unit} {s' : σ}
      (rollback : b.rollback s tx = (answer, s')) :
      Proceeds b o s (.undoing tx cause) [⟨.rollback, BackendError.of? answer⟩]
        (.done (.error cause)) s'

/-- A save that has not ended proceeds by a step, and nothing changes when its requests are written
down. -/
theorem proceeds (b : Backend σ τ) (o : StoreOptions) (s : σ) (notes : List Note) {save : Saving τ}
    (going : save.isDone = false) :
    ∃ save' s' new, save.step b o s = (save', s') ∧
      save.step b.noted o (s, notes) = (save', s', notes ++ new) ∧
      Proceeds b o s save new save' s' := by
  -- by the answer to the one request of the step, where it makes one
  cases save with
  | opening records =>
    rcases hask : b.begin s with ⟨e | tx, s'⟩
    · exact ⟨_, s', _, by simp [step, hask], by simp [step, Backend.noted, Backend.note, hask],
        .unopened hask⟩
    · cases hcheck : o.sequenceCheck with
      | strict =>
        exact ⟨_, s', _, by simp [step, hask, hcheck],
          by simp [step, Backend.noted, Backend.note, hask, hcheck], .opened hask hcheck⟩
      | unchecked =>
        exact ⟨_, s', _, by simp [step, hask, hcheck],
          by simp [step, Backend.noted, Backend.note, hask, hcheck], .openedUnchecked hask hcheck⟩
  | checking tx expected unchecked records =>
    cases unchecked with
    | nil => exact ⟨_, s, [], rfl, by simp [step], .checked⟩
    | cons r rest =>
      cases hlookup : expected.lookup r.aggregateId with
      | some number =>
        exact ⟨_, s, [], by simp [step, hlookup], by simp [step, hlookup], .met hlookup⟩
      | none =>
        rcases hask : b.lastSequence s tx r.aggregateId with ⟨e | last, s'⟩
        · exact ⟨_, s', _, by simp [step, hlookup, hask],
            by simp [step, hlookup, Backend.noted, Backend.note, hask], .unanswered hlookup hask⟩
        · exact ⟨_, s', _, by simp [step, hlookup, hask],
            by simp [step, hlookup, Backend.noted, Backend.note, hask], .asked hlookup hask⟩
  | writing tx rest =>
    cases rest with
    | nil =>
      rcases hask : b.commit s tx with ⟨e | _, s'⟩
      · exact ⟨_, s', _, by simp [step, hask],
          by simp [step, Backend.noted, Backend.note, hask], .uncommitted hask⟩
      · exact ⟨_, s', _, by simp [step, hask],
          by simp [step, Backend.noted, Backend.note, hask], .committed hask⟩
    | cons batch rest =>
      rcases hask : b.insert s tx batch with ⟨e | tx', s'⟩
      · exact ⟨_, s', _, by simp [step, hask],
          by simp [step, Backend.noted, Backend.note, hask], .uninserted hask⟩
      · exact ⟨_, s', _, by simp [step, hask],
          by simp [step, Backend.noted, Backend.note, hask], .inserted hask⟩
  | undoing tx cause =>
    rcases hask : b.rollback s tx with ⟨answer, s'⟩
    exact ⟨_, s', _, by simp [step, hask],
      by simp [step, Backend.noted, Backend.note, hask], .undone hask⟩
  | done result => simp [isDone] at going

variable {b : Backend σ τ} {o : StoreOptions} {s : σ}

/-- A save that has not ended makes its next step, then the others. -/
theorem run_of_going {save : Saving τ} (going : save.isDone = false) :
    save.run b o s = (save.step b o s).1.run b o (save.step b o s).2 := by
  cases save with
  | done result => simp [isDone] at going
  | _ => rw [run]

@[simp] theorem run_done (result : Except StoreError Unit) :
    (done result : Saving τ).run b o s = (result, s) := by
  rw [run]

/-- What every step of a save keeps holds when the save has ended. Writing its requests down changes
neither its answer nor what becomes of the backend. -/
theorem run_induction {P : σ → List Note → Saving τ → Prop}
    (keeps : ∀ {s notes save new save' s'}, P s notes save → Proceeds b o s save new save' s' →
      P s' (notes ++ new) save')
    (save : Saving τ) (s : σ) (notes : List Note) (start : P s notes save) :
    ∃ result s' notes', save.run b o s = (result, s') ∧
      save.run b.noted o (s, notes) = (result, s', notes') ∧ P s' notes' (.done result) := by
  -- on the size of the save, which each step makes smaller, whatever the backend answers
  induction hsize : save.size using Nat.strongRecOn generalizing save s notes with
  | _ n ih =>
    cases hdone : save.isDone with
    | true =>
      obtain ⟨result, rfl⟩ : ∃ result, save = .done result := by
        cases save <;> simp_all [isDone]
      exact ⟨result, s, notes, run_done result, run_done result, start⟩
    | false =>
      obtain ⟨save', s', new, hstep, hnoted, hproceeds⟩ := proceeds b o s notes hdone
      have hlt : save'.size < n := by
        have hlt := size_step_lt b o s hdone
        rwa [hstep, hsize] at hlt
      rw [run_of_going hdone, run_of_going hdone, hstep, hnoted]
      exact ih save'.size hlt save' s' (notes ++ new) (keeps start hproceeds) rfl

end Saving

end EventJournal
