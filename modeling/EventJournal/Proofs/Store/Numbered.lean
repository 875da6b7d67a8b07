import EventJournal.Journal
import EventJournal.Proofs.Ordered

/-!
# Numbered streams

A stream is numbered if its records have the numbers 1, 2, 3 and so on, in the order in which they
were committed. Since no place is taken twice, records that go on from an earlier end of the stream
can only be committed as long as it is still the end.

* `numbersFrom`, some numbers in sequence;
* `Record.Numbered`, that the records of an aggregate are numbered; `Record.lastOf`, their last
  number;
* `Journal.firstClash?_eq_none_iff`, when the places of records are free, and `Journal.Grows`.

The main statements are `Record.Numbered.append`, that a stream stays numbered, and
`Journal.stream_of_numbered`.
-/

namespace EventJournal

/-- Some numbers in sequence. -/
def numbersFrom (first : Int) : Nat → List Int
  | 0 => []
  | count + 1 => first :: numbersFrom (first + 1) count

@[simp] theorem length_numbersFrom (first : Int) (count : Nat) :
    (numbersFrom first count).length = count := by
  induction count generalizing first with
  | zero => rfl
  | succ count ih => rw [numbersFrom, List.length_cons, ih]

theorem mem_numbersFrom {n first : Int} {count : Nat} :
    n ∈ numbersFrom first count ↔ first ≤ n ∧ n < first + count := by
  induction count generalizing first with
  | zero =>
    rw [numbersFrom]
    simp only [List.not_mem_nil, false_iff]
    omega
  | succ count ih =>
    rw [numbersFrom, List.mem_cons, ih]
    omega

theorem pairwise_numbersFrom (first : Int) (count : Nat) :
    (numbersFrom first count).Pairwise (· < ·) := by
  induction count generalizing first with
  | zero => exact .nil
  | succ count ih =>
    refine .cons (fun n hn => ?_) (ih (first + 1))
    have hle := (mem_numbersFrom.1 hn).1
    omega

theorem nodup_numbersFrom (first : Int) (count : Nat) : (numbersFrom first count).Nodup :=
  (pairwise_numbersFrom first count).imp Int.ne_of_lt

theorem numbersFrom_append (first : Int) (count further : Nat) :
    numbersFrom first count ++ numbersFrom (first + count) further =
      numbersFrom first (count + further) := by
  induction count generalizing first with
  | zero => simp [numbersFrom]
  | succ count ih =>
    have hfirst : first + ((count + 1 : Nat) : Int) = first + 1 + count := by omega
    rw [numbersFrom, List.cons_append, hfirst, ih, Nat.succ_add, numbersFrom]

/-- The beginning of a sequence is a sequence. -/
theorem eq_numbersFrom_of_isPrefix {numbers : List Int} {first : Int} {count : Nat}
    (h : numbers <+: numbersFrom first count) : numbers = numbersFrom first numbers.length := by
  induction numbers generalizing first count with
  | nil => rfl
  | cons n rest ih =>
    cases count with
    | zero => simp [numbersFrom] at h
    | succ count =>
      obtain ⟨rfl, hrest⟩ := List.cons_prefix_cons.1 h
      rw [List.length_cons, numbersFrom, ← ih hrest]

theorem greatest?_numbersFrom (first : Int) (count : Nat) :
    greatest? (numbersFrom first (count + 1)) = some (first + count) := by
  refine List.max?_eq_some_iff.2 ⟨mem_numbersFrom.2 (by omega), fun n hn => ?_⟩
  have hlt := (mem_numbersFrom.1 hn).2
  omega

namespace Record

theorem length_ordered (records : List Record) : (ordered records).length = records.length :=
  (perm_orderedBy sequenceNo records).length_eq

variable {aggregateId : String} {records others : List Record}

@[simp] theorem numbersOf_nil (aggregateId : String) : numbersOf aggregateId [] = [] := rfl

theorem numbersOf_append (aggregateId : String) (records others : List Record) :
    numbersOf aggregateId (records ++ others) =
      numbersOf aggregateId records ++ numbersOf aggregateId others := by
  rw [numbersOf, List.filter_append, List.map_append]
  rfl

theorem mem_numbersOf {n : Int} :
    n ∈ numbersOf aggregateId records ↔ (aggregateId, n) ∈ records.map place := by
  simp only [numbersOf, List.mem_map, List.mem_filter, beq_iff_eq, place, Prod.mk.injEq]
  constructor
  · rintro ⟨r, ⟨hr, rfl⟩, rfl⟩
    exact ⟨r, hr, rfl, rfl⟩
  · rintro ⟨r, hr, rfl, rfl⟩
    exact ⟨r, ⟨hr, rfl⟩, rfl⟩

/-- The last number of an aggregate among records, 0 if there is none. -/
def lastOf (aggregateId : String) (records : List Record) : Int :=
  (greatest? (numbersOf aggregateId records)).getD 0

/-- The records of an aggregate have the numbers 1, 2, 3 and so on in their order. -/
def Numbered (aggregateId : String) (records : List Record) : Prop :=
  numbersOf aggregateId records = numbersFrom 1 (numbersOf aggregateId records).length

theorem numbered_nil (aggregateId : String) : Numbered aggregateId [] := rfl

theorem Numbered.lastOf_eq (h : Numbered aggregateId records) :
    lastOf aggregateId records = (numbersOf aggregateId records).length := by
  unfold lastOf
  rw [h, length_numbersFrom]
  cases hcount : (numbersOf aggregateId records).length with
  | zero => rfl
  | succ count =>
    rw [greatest?_numbersFrom, Option.getD_some]
    omega

theorem Numbered.of_isPrefix (h : Numbered aggregateId others) (hgrown : records <+: others) :
    Numbered aggregateId records := by
  have hnumbers : numbersOf aggregateId records <+: numbersOf aggregateId others :=
    (hgrown.filter _).map _
  rw [h] at hnumbers
  exact eq_numbersFrom_of_isPrefix hnumbers

theorem length_numbersOf_le (hgrown : records <+: others) (aggregateId : String) :
    (numbersOf aggregateId records).length ≤ (numbersOf aggregateId others).length :=
  ((hgrown.filter _).map _).length_le

end Record

/-- A transaction into which nothing has been inserted finds the last number that is stored. -/
theorem Transaction.getD_lastSequence? {tx : Transaction} (staged : tx.staged = []) (j : Journal)
    (aggregateId : String) :
    (tx.lastSequence? j aggregateId).getD 0 = Record.lastOf aggregateId j.records := by
  rw [Transaction.lastSequence?, staged, List.append_nil]
  rfl

namespace Journal

open Record (place Numbered numbersOf lastOf)

theorem length_numbersOf (j : Journal) (aggregateId : String) :
    (numbersOf aggregateId j.records).length = (j.stream aggregateId).length := by
  rw [numbersOf, List.length_map, stream, Record.length_ordered]

/-- No place clashes if the places are different from each other and from those that are taken. -/
theorem firstClash?_eq_none_iff {taken : List (String × Int)} {records : List Record} :
    firstClash? taken records = none ↔
      (records.map place).Nodup ∧ ∀ p ∈ records.map place, p ∉ taken := by
  induction records generalizing taken with
  | nil => simp [firstClash?]
  | cons r rest ih =>
    rw [firstClash?]
    by_cases htaken : r.place ∈ taken
    · rw [if_pos (List.contains_iff_mem.2 htaken)]
      simp only [reduceCtorEq, List.map_cons, List.mem_cons, forall_eq_or_imp, false_iff, not_and]
      exact fun _ hnot => (hnot htaken).elim
    · rw [if_neg fun h => htaken (List.contains_iff_mem.1 h), ih, List.map_cons, List.nodup_cons]
      constructor
      · rintro ⟨hnodup, hfree⟩
        refine ⟨⟨fun hmem => hfree _ hmem (List.mem_cons_self ..), hnodup⟩, ?_⟩
        intro p hp
        rcases List.mem_cons.1 hp with rfl | hp
        · exact htaken
        · exact fun hmem => hfree p hp (List.mem_cons_of_mem _ hmem)
      · rintro ⟨⟨hne, hnodup⟩, hfree⟩
        refine ⟨hnodup, fun p hp hmem => ?_⟩
        rcases List.mem_cons.1 hmem with rfl | hmem
        · exact hne hp
        · exact hfree p (List.mem_cons_of_mem _ hp) hmem

/-- A journal grows by records whose places are free. -/
structure Grows (j : Journal) (new : List Record) (j' : Journal) : Prop where
  records : j'.records = j.records ++ new
  free : firstClash? (j.records.map place) new = none

theorem grows_nil (j : Journal) : j.Grows [] j := ⟨(List.append_nil _).symm, rfl⟩

/-- A journal that grows keeps all places different. -/
theorem Grows.nodup {j j' : Journal} {new : List Record} (h : j.Grows new j')
    (nodup : (j.records.map place).Nodup) : (j'.records.map place).Nodup := by
  obtain ⟨hnodup, hfree⟩ := firstClash?_eq_none_iff.1 h.free
  rw [h.records, List.map_append, List.nodup_append]
  refine ⟨nodup, hnodup, fun p hp q hq heq => ?_⟩
  subst heq
  exact hfree p hq hp

variable {aggregateId : String} {records others : List Record}

/-- Records that go on from a number in a stream, and whose places are free, go on from its end: if
there are any, the number is the last one. -/
theorem eq_length_of_free (h : Numbered aggregateId records) {base count : Nat}
    (hbase : base ≤ (numbersOf aggregateId records).length)
    (hothers : numbersOf aggregateId others = numbersFrom (base + 1) count)
    (free : firstClash? (records.map place) others = none) :
    count = 0 ∨ base = (numbersOf aggregateId records).length := by
  cases count with
  | zero => exact .inl rfl
  | succ count =>
    refine .inr (Nat.le_antisymm hbase (Nat.le_of_not_lt fun hlt => ?_))
    -- otherwise the place after the base is taken
    have hmem : (aggregateId, (base + 1 : Int)) ∈ others.map place := by
      rw [← Record.mem_numbersOf, hothers]
      exact mem_numbersFrom.2 (by omega)
    have htaken : (aggregateId, (base + 1 : Int)) ∈ records.map place := by
      rw [← Record.mem_numbersOf, h]
      exact mem_numbersFrom.2 (by omega)
    exact (firstClash?_eq_none_iff.1 free).2 _ hmem htaken

theorem ordered_of_numbersFrom {first : Int} {count : Nat}
    (h : records.map Record.sequenceNo = numbersFrom first count) :
    Record.ordered records = records := by
  have hascending : (records.map Record.sequenceNo).Pairwise (· < ·) :=
    h ▸ pairwise_numbersFrom first count
  exact orderedBy_of_pairwise ((List.pairwise_map.1 hascending).imp Int.le_of_lt)

/-- A numbered stream is the journal seen from its aggregate. -/
theorem stream_of_numbered {j : Journal} (h : Numbered aggregateId j.records) :
    j.stream aggregateId = j.records.filter (·.aggregateId == aggregateId) :=
  ordered_of_numbersFrom h

/-- What has once been committed to numbered streams stays in its place there. -/
theorem stream_isPrefix {j j' : Journal} (hgrown : j.records <+: j'.records)
    (aggregateId : String) (h : Numbered aggregateId j'.records) :
    j.stream aggregateId <+: j'.stream aggregateId := by
  rw [stream_of_numbered h, stream_of_numbered (h.of_isPrefix hgrown)]
  exact hgrown.filter _

end Journal

/-- A stream stays numbered. -/
theorem Record.Numbered.append {aggregateId : String} {records others : List Record}
    (h : Numbered aggregateId records) {base count : Nat}
    (hbase : base ≤ (numbersOf aggregateId records).length)
    (hothers : numbersOf aggregateId others = numbersFrom (base + 1) count)
    (free : Journal.firstClash? (records.map place) others = none) :
    Numbered aggregateId (records ++ others) := by
  unfold Numbered
  rw [numbersOf_append, List.length_append]
  rcases Journal.eq_length_of_free h hbase hothers free with rfl | rfl
  · rw [hothers, numbersFrom, List.append_nil, List.length_nil, Nat.add_zero]
    exact h
  · have hlength : (numbersOf aggregateId others).length = count := by
      rw [hothers, length_numbersFrom]
    rw [hlength, ← numbersFrom_append, hothers, ← h]
    congr 2
    omega

end EventJournal
