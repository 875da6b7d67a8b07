import EventJournal.Proofs.Store.Carried
import EventJournal.Proofs.Store.Numbered

/-!
# Checked saves

A strict save reads the last number of each aggregate once, maybe at different moments and long
before its commit. So its records go on from ends that streams once had. That is all that the check
gives: that these ends are still the ends at the commit follows from the places being free.

* `Record.Continues`, that records go on from an earlier end of a stream;
* `Saving.Judged`, what the check has established so far, and `Saving.Judged.step`;
* `Saving.Blames`, that a save which is undone was too late, and `Saving.step_of_calm`;
* `Saving.IsSmooth`, that a save has found nothing amiss, and `Saving.IsSmooth.step`.

The main statement is `Record.numbered_of_continues`.
-/

namespace EventJournal

namespace Record

/-- The records of an aggregate go on from an end that its stream once had, up to a number, as long
as their numbers do not start over. -/
def Continues (journal : List Record) (aggregateId : String) (records : List Record) (next : Int) :
    Prop :=
  ∃ earlier, earlier <+: journal ∧
    (lastOf aggregateId earlier + (numbersOf aggregateId records).length ≤ Numeral.maxInt64 →
      numbersOf aggregateId records = numbersFrom (lastOf aggregateId earlier + 1)
          (numbersOf aggregateId records).length ∧
        next = Numeral.nextInt64
          (lastOf aggregateId earlier + (numbersOf aggregateId records).length))

/-- Some records have been checked, and these are the next numbers of the aggregates met. -/
def Checked (journal : List Record) (expected : List (String × Int)) (checked : List Record) :
    Prop :=
  ∀ aggregateId,
    match expected.lookup aggregateId with
    | some next => Continues journal aggregateId checked next
    | none => numbersOf aggregateId checked = []

/-- The records of every aggregate go on from an end that its stream once had. -/
def Ready (journal records : List Record) : Prop :=
  ∀ aggregateId, ∃ next, Continues journal aggregateId records next

variable {journal journal' records checked : List Record} {aggregateId : String} {next : Int}
  {expected : List (String × Int)}

theorem Continues.mono (h : Continues journal aggregateId records next)
    (hgrown : journal <+: journal') : Continues journal' aggregateId records next := by
  obtain ⟨earlier, hearlier, hrest⟩ := h
  exact ⟨earlier, hearlier.trans hgrown, hrest⟩

theorem continues_of_none (hnone : numbersOf aggregateId records = []) :
    Continues journal aggregateId records (Numeral.nextInt64 (lastOf aggregateId journal)) := by
  refine ⟨journal, List.prefix_refl _, fun _ => ?_⟩
  rw [hnone]
  simp [numbersFrom]

theorem Continues.push {r : Record} (h : Continues journal r.aggregateId checked r.sequenceNo) :
    Continues journal r.aggregateId (checked ++ [r]) (Numeral.nextInt64 r.sequenceNo) := by
  obtain ⟨earlier, hearlier, hrest⟩ := h
  have hlength : (numbersOf r.aggregateId (checked ++ [r])).length =
      (numbersOf r.aggregateId checked).length + 1 := by
    simp [numbersOf]
  refine ⟨earlier, hearlier, fun hroom => ?_⟩
  rw [hlength] at hroom ⊢
  obtain ⟨hnumbers, hnext⟩ := hrest (by omega)
  -- there is room for the number of the record, so it is no new start
  rw [Numeral.nextInt64_of_lt (by omega)] at hnext
  have hsingle : numbersOf r.aggregateId [r] = numbersFrom (lastOf r.aggregateId earlier + 1 +
      (numbersOf r.aggregateId checked).length) 1 := by
    simp [numbersOf, numbersFrom, hnext]
    omega
  refine ⟨?_, congrArg _ (by omega)⟩
  rw [numbersOf_append, hsingle, ← numbersFrom_append, ← hnumbers]

theorem numbersOf_concat_of_ne {r : Record} (hne : aggregateId ≠ r.aggregateId) :
    numbersOf aggregateId (checked ++ [r]) = numbersOf aggregateId checked := by
  have hsingle : numbersOf aggregateId [r] = [] := by simp [numbersOf, Ne.symm hne]
  rw [numbersOf_append, hsingle, List.append_nil]

theorem checked_nil (journal : List Record) : Checked journal [] [] := fun _ => rfl

theorem Checked.mono (h : Checked journal expected checked) (hgrown : journal <+: journal') :
    Checked journal' expected checked := by
  intro aggregateId
  have ha := h aggregateId
  cases hlookup : expected.lookup aggregateId with
  | none => simpa only [hlookup] using ha
  | some next =>
    simp only [hlookup] at ha ⊢
    exact ha.mono hgrown

/-- A record with the next number of its aggregate is checked. -/
theorem Checked.push (h : Checked journal expected checked) {r : Record}
    (hr : Continues journal r.aggregateId checked r.sequenceNo) :
    Checked journal ((r.aggregateId, Numeral.nextInt64 r.sequenceNo) :: expected)
      (checked ++ [r]) := by
  intro aggregateId
  by_cases heq : aggregateId = r.aggregateId
  · subst heq
    simp only [List.lookup_cons, beq_self_eq_true]
    exact hr.push
  · have ha := h aggregateId
    simp only [List.lookup_cons, beq_false_of_ne heq]
    cases hlookup : expected.lookup aggregateId with
    | none =>
      simp only [hlookup] at ha ⊢
      rw [numbersOf_concat_of_ne heq]
      exact ha
    | some next =>
      simp only [hlookup] at ha ⊢
      obtain ⟨earlier, hearlier, hrest⟩ := ha
      exact ⟨earlier, hearlier, by rwa [numbersOf_concat_of_ne heq]⟩

theorem Checked.ready (h : Checked journal expected records) : Ready journal records := by
  intro aggregateId
  have ha := h aggregateId
  cases hlookup : expected.lookup aggregateId with
  | none =>
    simp only [hlookup] at ha
    exact ⟨_, continues_of_none ha⟩
  | some next =>
    simp only [hlookup] at ha
    exact ⟨next, ha⟩

theorem le_lastOf {n : Int} (h : n ∈ numbersOf aggregateId records) :
    n ≤ lastOf aggregateId records := by
  unfold lastOf greatest?
  cases hmax : (numbersOf aggregateId records).max? with
  | none =>
    rw [List.max?_eq_none_iff.1 hmax] at h
    simp at h
  | some last => exact (List.max?_eq_some_iff.1 hmax).2 n h

/-- The place after the last one of a stream is free. -/
theorem firstClash?_of_next {r : Record} (next : r.sequenceNo = lastOf r.aggregateId records + 1) :
    Journal.firstClash? (records.map place) [r] = none := by
  rw [Journal.firstClash?_eq_none_iff]
  refine ⟨List.nodup_singleton _, fun p hp htaken => ?_⟩
  obtain rfl : p = r.place := by simpa using hp
  have hle := le_lastOf (mem_numbersOf.2 htaken)
  omega

/-- A stream stays numbered if records are added that go on from an end which it once had and whose
places are free, as long as there are numbers left for them. -/
theorem numbered_of_continues (h : Numbered aggregateId journal)
    (hcontinues : Continues journal aggregateId records next)
    (free : Journal.firstClash? (journal.map place) records = none)
    (room : ((numbersOf aggregateId (journal ++ records)).length : Int) ≤ Numeral.maxInt64) :
    Numbered aggregateId (journal ++ records) := by
  obtain ⟨earlier, hearlier, hrest⟩ := hcontinues
  have hbase := length_numbersOf_le hearlier aggregateId
  rw [(h.of_isPrefix hearlier).lastOf_eq] at hrest
  rw [numbersOf_append, List.length_append] at room
  exact h.append hbase (hrest (by omega)).1 free

end Record

namespace Saving

open Record (Checked Ready checked_nil lastOf)

/-- What the check has established so far. -/
def Judged (journal records : List Record) : Saving Transaction → Prop
  | .checking _ expected unchecked _ =>
    ∃ checked, checked ++ unchecked = records ∧ Checked journal expected checked
  | .writing _ _ => Ready journal records
  | _ => True

/-- A save that is undone was too late. -/
def Blames : Saving Transaction → Prop
  | .undoing _ cause => cause.isConflict = true
  | .done (.error e) => e.isConflict = true
  | _ => True

variable {journal journal' records : List Record} {o : StoreOptions} {w w' : Watched}
  {save save' : Saving Transaction}

theorem Judged.mono (h : save.Judged journal records) (hgrown : journal <+: journal') :
    save.Judged journal' records := by
  cases save with
  | checking tx expected unchecked rs =>
    obtain ⟨checked, hrecords, hchecked⟩ := h
    exact ⟨checked, hrecords, hchecked.mono hgrown⟩
  | writing tx rest =>
    intro aggregateId
    obtain ⟨next, hcontinues⟩ := h aggregateId
    exact ⟨next, hcontinues.mono hgrown⟩
  | _ => trivial

/-- A number that a save expects goes on from an end that the stream once had. -/
theorem Expects.continues {tx : Transaction} {expected : List (String × Int)} {r : Record}
    {checked : List Record} {number : Int} (h : Expects w tx expected r number w')
    (staged : tx.staged = []) (hchecked : Checked w.journal.records expected checked) :
    Record.Continues w.journal.records r.aggregateId checked number := by
  have hr := hchecked r.aggregateId
  cases h with
  | met lookup same => simpa only [lookup] using hr
  | asked lookup unchanged next =>
    simp only [lookup] at hr
    rw [next, Transaction.getD_lastSequence? staged]
    exact Record.continues_of_none hr

/-- A step of a strict save keeps to what the check has established. -/
theorem Judged.step (h : save.Judged w.journal.records records) (carries : save.Carries records)
    (strict : o.sequenceCheck = .strict)
    (hstep : save.step Watched.backend o w = (save', w')) :
    save'.Judged w.journal.records records := by
  cases step_cases hstep with
  | opened unchanged =>
    obtain rfl := carries
    exact ⟨[], rfl, checked_nil _⟩
  | openedUnchecked unchanged unchecked => simp [strict] at unchecked
  | checked =>
    obtain ⟨staged, rfl⟩ := carries
    obtain ⟨checked, hrecords, hchecked⟩ := h
    rw [List.append_nil] at hrecords
    exact hrecords ▸ hchecked.ready
  | @fits tx expected r rest _ _ expects =>
    obtain ⟨checked, hrecords, hchecked⟩ := h
    refine ⟨checked ++ [r], ?_, hchecked.push (expects.continues carries.1 hchecked)⟩
    rw [List.append_assoc, List.singleton_append]
    exact hrecords
  | inserted unchanged => exact h
  | done => exact carries.elim
  | _ => trivial

/-- Without refusals to come there are none after a step either, and a save fails only because it
was too late. -/
theorem step_of_calm (calm : w.faults = [])
    (hstep : save.step Watched.backend o w = (save', w')) :
    w'.faults = [] ∧ (save.Blames → save'.Blames) := by
  cases step_cases hstep with
  | unopened e refuses => exact (refuses.due calm).elim
  | opened unchanged => exact ⟨unchanged.calm calm, id⟩
  | openedUnchecked unchanged => exact ⟨unchanged.calm calm, id⟩
  | checked => exact ⟨calm, id⟩
  | unanswered e refuses => exact (refuses.due calm).elim
  | fits expects => exact ⟨expects.unchanged.calm calm, id⟩
  | differs expects => exact ⟨expects.unchanged.calm calm, fun _ => rfl⟩
  | inserted unchanged => exact ⟨unchanged.calm calm, id⟩
  | uninserted e refuses => exact (refuses.due calm).elim
  | committed grows calms => exact ⟨calms calm, fun _ => trivial⟩
  | uncommitted e journal calms => exact ⟨(calms calm).1, fun _ => (calms calm).2⟩
  | undone unchanged => exact ⟨unchanged.calm calm, id⟩
  | done => exact ⟨calm, id⟩

/-- A save has found nothing amiss: none of its records have been checked yet, or all have. -/
def IsSmooth : Saving Transaction → Prop
  | .checking _ expected unchecked records => unchecked = [] ∨ expected = [] ∧ unchecked = records
  | .undoing .. | .done (.error _) => False
  | _ => True

/-- The save of a record which is the next of its stream finds nothing amiss, as long as there are
numbers left and no refusals to come. -/
theorem IsSmooth.step {r : Record} (smooth : save.IsSmooth) (carries : save.Carries [r])
    (calm : w.faults = []) (next : r.sequenceNo = lastOf r.aggregateId w.journal.records + 1)
    (room : lastOf r.aggregateId w.journal.records < Numeral.maxInt64)
    (hstep : save.step Watched.backend o w = (save', w')) : save'.IsSmooth := by
  have free := Record.firstClash?_of_next next
  cases step_cases hstep with
  | unopened e refuses => exact refuses.due calm
  | opened => exact .inr ⟨rfl, rfl⟩
  | unanswered e refuses => exact refuses.due calm
  | fits =>
    obtain ⟨-, rfl⟩ := carries
    rcases smooth with hnil | ⟨-, hall⟩
    · simp at hnil
    · exact .inl (List.cons.inj hall).2
  | differs expects ne =>
    obtain ⟨staged, rfl⟩ := carries
    rcases smooth with hnil | ⟨rfl, hall⟩
    · simp at hnil
    · obtain ⟨rfl, -⟩ := List.cons.inj hall
      cases expects with
      | met lookup => simp at lookup
      | asked lookup unchanged number =>
        rw [Transaction.getD_lastSequence? staged, Numeral.nextInt64_of_lt room] at number
        exact ne (next.trans number.symm)
  | uninserted e refuses => exact refuses.due calm
  | uncommitted e =>
    rw [Saving.step] at hstep
    split at hstep
    · next hcommit =>
      rcases Watched.commit_cases hcommit with ⟨hok, -⟩ | ⟨_, -, -, taken⟩
      · simp at hok
      · obtain ⟨-, _, -, hclash⟩ := taken calm
        rw [carries.of_committing, free] at hclash
        simp at hclash
    · simp at hstep
  | undone => exact smooth
  | done => exact carries.elim
  | _ => trivial

end Saving

end EventJournal
