import EventJournal.Proofs.Store.History
import Mathlib.Algebra.BigOperators.Group.Finset.Piecewise
import Mathlib.Logic.Function.Basic

/-!
# Merging

What a commit does to the streams of a journal. Either every place is free that it wants, and each
stream is merged with the staged records of its aggregate, or nothing changes.

* `firstClash?_eq_some_iff`, the record over which a commit fails;
* `pushed`, `resorted`: records put at the ends of their streams, which are then sorted;
* `Journal.Merges`, what a commit of staged records comes to.

The main statement is `Journal.merges_of_commit`.
-/

namespace EventJournal

open Record (place)

/-- Streams with further records at their ends. -/
def pushed (streams : String → List Record) : List Record → String → List Record
  | [] => streams
  | r :: rest =>
    pushed (Function.update streams r.aggregateId (streams r.aggregateId ++ [r])) rest

/-- Streams of which those of some aggregates are put in order. -/
def resorted (touched : List String) (streams : String → List Record) (aggregateId : String) :
    List Record :=
  if aggregateId ∈ touched then Record.ordered (streams aggregateId) else streams aggregateId

theorem pushed_eq (streams : String → List Record) (records : List Record) (aggregateId : String) :
    pushed streams records aggregateId =
      streams aggregateId ++ records.filter (·.aggregateId == aggregateId) := by
  induction records generalizing streams with
  | nil => exact (List.append_nil _).symm
  | cons r rest ih =>
    rw [pushed, ih]
    by_cases heq : r.aggregateId = aggregateId
    · subst heq
      simp
    · simp [Function.update_of_ne (Ne.symm heq), heq]

namespace Journal

variable {j j' : Journal} {r : Record} {aggregateId : String} {staged : List Record}

/-- A commit fails over the first record whose place is taken already or wanted by an earlier
one. -/
theorem firstClash?_eq_some_iff {taken : List (String × Int)} {records : List Record} :
    firstClash? taken records = some r ↔
      ∃ before after, records = before ++ r :: after ∧ firstClash? taken before = none ∧
        (r.place ∈ taken ∨ r.place ∈ before.map place) := by
  induction records generalizing taken with
  | nil => simp [firstClash?]
  | cons s rest ih =>
    rw [firstClash?]
    by_cases htaken : s.place ∈ taken
    · rw [if_pos (List.contains_iff_mem.2 htaken)]
      constructor
      · intro h
        obtain rfl := Option.some.inj h
        exact ⟨[], rest, rfl, rfl, .inl htaken⟩
      · rintro ⟨before, after, heq, hbefore, -⟩
        cases before with
        | nil => exact congrArg some (List.cons.inj heq).1
        | cons s' before =>
          -- the commit would have failed before
          obtain ⟨rfl, -⟩ := List.cons.inj heq
          simp [firstClash?, htaken] at hbefore
    · rw [if_neg fun h => htaken (List.contains_iff_mem.1 h), ih]
      constructor
      · rintro ⟨before, after, rfl, hbefore, hplace⟩
        refine ⟨s :: before, after, rfl, ?_, ?_⟩
        · simpa [firstClash?, htaken] using hbefore
        · rw [List.mem_cons, or_assoc, or_left_comm, ← List.mem_cons] at hplace
          exact hplace
      · rintro ⟨before, after, heq, hbefore, hplace⟩
        cases before with
        | nil =>
          obtain ⟨rfl, rfl⟩ := List.cons.inj heq
          simp [htaken] at hplace
        | cons s' before =>
          obtain ⟨rfl, rfl⟩ := List.cons.inj heq
          refine ⟨before, after, rfl, by simpa [firstClash?, htaken] using hbefore, ?_⟩
          rw [List.mem_cons, or_assoc, or_left_comm, ← List.mem_cons]
          exact hplace

theorem mem_stream : r ∈ j.stream aggregateId ↔ r ∈ j.records ∧ r.aggregateId = aggregateId := by
  rw [(perm_stream j aggregateId).mem_iff, List.mem_filter, beq_iff_eq]

/-- A place is taken if there is a record of its aggregate with its number. -/
theorem place_mem_iff : r.place ∈ j.records.map place ↔
    ∃ s ∈ j.stream r.aggregateId, s.sequenceNo = r.sequenceNo := by
  simp only [List.mem_map, mem_stream, place, Prod.mk.injEq, and_assoc]

/-- Every record is in one stream. -/
theorem count_eq_sum (j : Journal) {aggregates : Finset String}
    (all : ∀ r ∈ j.records, r.aggregateId ∈ aggregates) :
    j.count = ∑ aggregateId ∈ aggregates, (j.stream aggregateId).length := by
  simp only [(perm_stream j _).length_eq, count]
  generalize j.records = records at all
  induction records with
  | nil => simp
  | cons r rest ih =>
    have hone : ∀ aggregateId, ((r :: rest).filter (·.aggregateId == aggregateId)).length =
        (rest.filter (·.aggregateId == aggregateId)).length +
          if r.aggregateId = aggregateId then 1 else 0 := by
      intro aggregateId
      by_cases heq : r.aggregateId = aggregateId <;> simp [heq]
    rw [List.length_cons, ih fun s hs => all s (List.mem_cons_of_mem _ hs)]
    simp only [hone, Finset.sum_add_distrib, Finset.sum_ite_eq, all r (List.mem_cons_self ..),
      if_true]

/-- A stream is sorted again when records have been put at its end. -/
theorem Grows.stream (h : j.Grows staged j') (distinct : (j.records.map place).Nodup)
    (aggregateId : String) :
    j'.stream aggregateId =
      Record.ordered (j.stream aggregateId ++ staged.filter (·.aggregateId == aggregateId)) := by
  have hdifferent : (Record.numbersOf aggregateId j'.records).Nodup :=
    nodup_numbersOf (h.nodup distinct) aggregateId
  rw [Journal.stream]
  refine orderedBy_eq_of_perm ?_ hdifferent
  rw [h.records, List.filter_append]
  exact (perm_stream j aggregateId).symm.append_right _

/-- What a commit of staged records comes to. -/
structure Merges (j : Journal) (staged : List Record) (answer : Except BackendError Unit)
    (j' : Journal) : Prop where
  /-- It fails exactly if two of the records want one place or one of them wants a place that is
  taken. -/
  error_iff : (∃ e, answer = .error e) ↔ ¬ (staged.map place).Nodup ∨
    ∃ r ∈ staged, ∃ s ∈ j.stream r.aggregateId, s.sequenceNo = r.sequenceNo
  /-- The conflict is over the first record whose place is not its own. -/
  conflict : ∀ e, answer = .error e → ∃ before r after, staged = before ++ r :: after ∧
    firstClash? (j.records.map place) before = none ∧
    (r.place ∈ j.records.map place ∨ r.place ∈ before.map place) ∧ e = clash r
  unchanged : ∀ e, answer = .error e → j' = j
  /-- The records are put at the ends of their streams, and these are sorted. -/
  sorted : answer = .ok () →
    j'.stream = resorted (staged.map Record.aggregateId) (pushed j.stream staged)
  /-- Each stream holds its old records and the staged ones, and the numbers ascend in it. -/
  merged : answer = .ok () → ∀ aggregateId,
    (j'.stream aggregateId).Perm
        (j.stream aggregateId ++ staged.filter (·.aggregateId == aggregateId)) ∧
      (j'.stream aggregateId).Pairwise (·.sequenceNo < ·.sequenceNo)
  untouched : answer = .ok () → ∀ aggregateId, (∀ r ∈ staged, r.aggregateId ≠ aggregateId) →
    j'.stream aggregateId = j.stream aggregateId
  count : answer = .ok () → j'.count = j.count + staged.length

theorem exists_clash_iff : (∃ r, firstClash? (j.records.map place) staged = some r) ↔
    ¬ (staged.map place).Nodup ∨
      ∃ r ∈ staged, ∃ s ∈ j.stream r.aggregateId, s.sequenceNo = r.sequenceNo := by
  rw [← Option.ne_none_iff_exists', ne_eq, firstClash?_eq_none_iff, Decidable.not_and_iff_or_not]
  simp only [List.forall_mem_map, not_forall, Decidable.not_not, place_mem_iff, exists_prop]

/-- A commit merges the staged records into the streams, or it changes nothing. -/
theorem merges_of_commit {answer : Except BackendError Unit}
    (distinct : (j.records.map place).Nodup)
    (h : Journal.backend.commit j ⟨staged⟩ = (answer, j')) : j.Merges staged answer j' := by
  cases hclash : firstClash? (j.records.map place) staged with
  | some r =>
    obtain ⟨rfl, rfl⟩ : answer = .error (clash r) ∧ j' = j := by
      simpa [backend, commit, hclash, eq_comm] using h
    exact {
      error_iff := iff_of_true ⟨_, rfl⟩ (exists_clash_iff.1 ⟨r, hclash⟩)
      conflict := by
        rintro e ⟨⟩
        obtain ⟨before, after, hsplit, hbefore, hplace⟩ := firstClash?_eq_some_iff.1 hclash
        exact ⟨before, r, after, hsplit, hbefore, hplace, rfl⟩
      unchanged := fun _ _ => rfl
      sorted := by simp
      merged := by simp
      untouched := by simp
      count := by simp }
  | none =>
    obtain ⟨rfl, rfl⟩ : answer = .ok () ∧ j' = ⟨j.records ++ staged⟩ := by
      simpa [backend, commit, hclash, eq_comm] using h
    have grows : j.Grows staged ⟨j.records ++ staged⟩ := ⟨rfl, hclash⟩
    have hstream := grows.stream distinct
    have huntouched : ∀ aggregateId, aggregateId ∉ staged.map Record.aggregateId →
        staged.filter (·.aggregateId == aggregateId) = [] := by
      intro aggregateId hnot
      refine List.filter_eq_nil_iff.2 fun r hr heq => hnot ?_
      exact List.mem_map.2 ⟨r, hr, beq_iff_eq.1 heq⟩
    have hordered : ∀ aggregateId,
        Record.ordered (j.stream aggregateId) = j.stream aggregateId := fun aggregateId =>
      orderedBy_of_pairwise ((pairwise_stream distinct aggregateId).imp Int.le_of_lt)
    exact {
      error_iff := by
        rw [← exists_clash_iff, hclash]
        simp
      conflict := by simp
      unchanged := by simp
      sorted := by
        intro _
        funext aggregateId
        rw [hstream, resorted, pushed_eq]
        split
        · rfl
        · next hnot => rw [huntouched aggregateId hnot, List.append_nil, hordered]
      merged := by
        intro _ aggregateId
        refine ⟨?_, pairwise_stream (grows.nodup distinct) aggregateId⟩
        rw [hstream]
        exact perm_orderedBy ..
      untouched := by
        intro _ aggregateId hnot
        have hnone : aggregateId ∉ staged.map Record.aggregateId := by simpa using hnot
        rw [hstream, huntouched aggregateId hnone, List.append_nil, hordered]
      count := fun _ => List.length_append }

end Journal

end EventJournal
