import EventJournal.Calendar.Reading
import EventJournal.Proofs.Text.Numerals

/-!
# Times read back

Both written forms of a time are read back by the relaxed grammar, whatever the year and whether or
not the second is a leap second. The strict grammar reads the longer form back, if the year has four
digits.

* `Date.readYear_yearText` and so on, the parts of a written form;
* `Time.readFraction_fractionText`, the shortest fraction;
* `Time.HasFourDigitYear`, the times that the strict grammar can read.

The main statements are `Time.readRelaxed_toText`, `Time.readRelaxed_toNanoText` and
`Time.readStrict_toNanoText`.
-/

namespace EventJournal

open Text (trimStart isBlank)
open Numeral (padded natural readDigits)

theorem isBlank_of_isDigit {c : Char} (h : c.isDigit = true) : isBlank c = false := by
  obtain ⟨hle, hge⟩ : 48 ≤ c.toNat ∧ c.toNat ≤ 57 := by
    simpa [Char.isDigit, UInt32.le_iff_toNat_le] using h
  simp only [isBlank, Bool.or_eq_false_iff, Bool.and_eq_false_iff, decide_eq_false_iff_not,
    beq_eq_false_iff_ne]
  omega

/-- There are no blanks to drop in front of digits. -/
theorem trimStart_digits_append {digits rest : List Char} (h : ∀ c ∈ digits, c.isDigit = true)
    (nonempty : digits ≠ []) : trimStart (digits ++ rest) = digits ++ rest := by
  cases digits with
  | nil => exact (nonempty rfl).elim
  | cons c tail =>
    exact Text.trimStart_cons_of_not_blank (isBlank_of_isDigit (h c (List.mem_cons_self ..)))

theorem padded_ne_nil {width : Nat} (h : 0 < width) (n : Nat) : padded width n ≠ [] := by
  intro hnil
  have hlength := Numeral.length_padded width n
  rw [hnil, List.length_nil] at hlength
  omega

namespace Date

theorem two_digits (d : Date) : d.month < 100 ∧ d.day < 100 := by
  have hmonth := d.month_pos_and_le.2
  obtain ⟨-, -, -, hday⟩ := d.valid
  refine ⟨by omega, Nat.lt_of_le_of_lt hday ?_⟩
  unfold daysInMonth
  split
  · split <;> omega
  all_goals omega

/-- A year without a sign. -/
theorem readYear_digits {digits rest : List Char} (h : ∀ c ∈ digits, c.isDigit = true)
    (nonempty : digits ≠ []) (hlimit : digits.length ≤ 4) (hrest : NoDigit rest) :
    Time.readYear (digits ++ rest) = some ((Numeral.value digits : Int), rest) := by
  have hread := Numeral.readDigits_append h nonempty hlimit hrest
  unfold Time.readYear
  rw [trimStart_digits_append h nonempty]
  cases digits with
  | nil => exact (nonempty rfl).elim
  | cons c tail =>
    have hc := h c (List.mem_cons_self ..)
    split
    · next s heq =>
      obtain ⟨rfl, -⟩ := List.cons.inj heq
      simp [Char.isDigit] at hc
    · next s heq =>
      obtain ⟨rfl, -⟩ := List.cons.inj heq
      simp [Char.isDigit] at hc
    · rw [hread, Option.map_some]

/-- The digits of a year that follow a sign. -/
theorem readDigits_yearDigits (n : Nat) {rest : List Char} (h : NoDigit rest) {s : List Char}
    (hs : s = (if n < 10000 then padded 4 n else natural n) ++ rest) :
    readDigits s.length s = some (n, rest) := by
  subst hs
  split
  · next hlt => exact Numeral.readDigits_padded (by decide) (by simp) hlt h
  · exact Numeral.readDigits_natural (by simp) h

/-- A year is read back. -/
theorem readYear_yearText (year : Int) {rest : List Char} (h : NoDigit rest) :
    Time.readYear (yearText year ++ rest) = some (year, rest) := by
  have hsigned := readDigits_yearDigits year.natAbs h rfl
  unfold yearText
  dsimp only
  split
  · next hrange =>
    simp only [Bool.and_eq_true, decide_eq_true_eq] at hrange
    have hlt : year.toNat < 10000 := by omega
    have hback : ((year.toNat : Nat) : Int) = year := by omega
    rw [if_pos hlt, readYear_digits (fun _ => Numeral.isDigit_of_mem_padded)
      (padded_ne_nil (by decide) _) (by simp) h, Numeral.value_padded hlt, hback]
  · by_cases hneg : year < 0
    · have hback : -((year.natAbs : Nat) : Int) = year := by omega
      rw [if_pos hneg, List.cons_append]
      unfold Time.readYear
      rw [Text.trimStart_cons_of_not_blank (by decide)]
      simp only [hsigned, Option.map_some, hback]
    · have hback : ((year.natAbs : Nat) : Int) = year := by omega
      rw [if_neg hneg, List.cons_append]
      unfold Time.readYear
      rw [Text.trimStart_cons_of_not_blank (by decide)]
      simp only [hsigned, Option.map_some, hback]

end Date

namespace Time

/-- A number of two digits after which no further digit comes is read back. -/
theorem readShort_padded {n : Nat} (hn : n < 100) {rest : List Char} (h : NoDigit rest) :
    readShort (padded 2 n ++ rest) = some (n, rest) := by
  rw [readShort, trimStart_digits_append (fun _ => Numeral.isDigit_of_mem_padded)
    (padded_ne_nil (by decide) _)]
  exact Numeral.readDigits_padded (by decide) (Nat.le_refl 2) hn h

theorem expectBlank_cons {c : Char} (h : isBlank c = false) (rest : List Char) :
    expectBlank c (c :: rest) = some rest := by
  rw [expectBlank, Text.trimStart_cons_of_not_blank h, expect, if_pos rfl]

/-- A fraction of at most nine digits is read back as that many units of its last digit. -/
theorem readFraction_padded {width n bound unit : Nat} (hpos : 0 < width) (hwidth : width ≤ 9)
    (hbound : Nat.pow 10 width = bound) (hunit : Nat.pow 10 (9 - width) = unit) (hn : n < bound)
    {rest : List Char} (h : NoDigit rest) :
    readFraction ('.' :: (padded width n ++ rest)) = some (n * unit, rest) := by
  subst hbound hunit
  have hne : (padded width n).isEmpty = false := by
    simpa using padded_ne_nil hpos n
  have htake : (padded width n).take 9 = padded width n :=
    List.take_of_length_le (by simpa using hwidth)
  simp only [readFraction, Numeral.takeWhile_isDigit_padded width n h, hne, htake,
    Numeral.value_padded hn, Numeral.length_padded, Bool.false_eq_true, if_false,
    List.drop_left' (Numeral.length_padded width n)]

/-- The shortest fraction that loses nothing is read back. -/
theorem readFraction_fractionText {nano : Nat} (hnano : nano < 1000000000) {rest : List Char}
    (h : NoDigit rest) (hdot : ∀ tail, rest ≠ '.' :: tail) :
    readFraction (fractionText nano ++ rest) = some (nano, rest) := by
  unfold fractionText
  split
  · next hzero =>
    subst hzero
    rw [List.nil_append]
    unfold readFraction
    split
    · next s => exact (hdot s rfl).elim
    · rfl
  · split
    · next hmod =>
      have hunit : Nat.pow 10 (9 - 3) = 1000000 := rfl
      have hlt : nano / 1000000 < 1000 := by omega
      rw [List.cons_append, readFraction_padded (by decide) (by decide) rfl hunit hlt h]
      congr 2
      omega
    · split
      · next hmod =>
        have hunit : Nat.pow 10 (9 - 6) = 1000 := rfl
        have hlt : nano / 1000 < 1000000 := by omega
        rw [List.cons_append, readFraction_padded (by decide) (by decide) rfl hunit hlt h]
        congr 2
        omega
      · have hunit : Nat.pow 10 (9 - 9) = 1 := rfl
        rw [List.cons_append, readFraction_padded (by decide) (Nat.le_refl 9) rfl hunit hnano h,
          Nat.mul_one]

theorem readZone_utc : readZone (trimStart ['Z']) = some (0, []) := by decide

theorem atOffset_zero (t : Time) :
    atOffset t.date.year t.date.month t.date.day t.hour t.minute t.second t.nano 0 = some t := by
  simp [atOffset]

/-- Date and time of day are read back, whatever stands for the fraction and is read as it. -/
theorem readRelaxed_append (t : Time) {fraction rest : List Char} (h : NoDigit (fraction ++ rest))
    (hrest : rest = ['Z']) (hfraction : readFraction (fraction ++ rest) = some (t.nano, rest)) :
    readRelaxed (t.date.toText ++ 'T' :: (t.clockText ++ (fraction ++ rest))) = some t := by
  obtain ⟨hmonth, hday⟩ := t.date.two_digits
  obtain ⟨hhour, hminute, hsecond, -⟩ := t.valid
  have hnoDigit : ∀ {c : Char} (tail : List Char), c.isDigit = false → NoDigit (c :: tail) :=
    fun _ hc => noDigit_cons hc
  subst hrest
  unfold readRelaxed
  simp only [Date.toText, clockText, List.append_assoc, List.cons_append, bind, Option.bind]
  rw [Date.readYear_yearText _ (hnoDigit _ (by decide))]
  simp only [expectBlank_cons (by decide : isBlank '-' = false)]
  rw [readShort_padded hmonth (hnoDigit _ (by decide))]
  simp only [expectBlank_cons (by decide : isBlank '-' = false)]
  rw [readShort_padded hday (hnoDigit _ (by decide))]
  simp only [dropDivider]
  rw [readShort_padded (by omega) (hnoDigit _ (by decide))]
  simp only [expectBlank_cons (by decide : isBlank ':' = false)]
  rw [readShort_padded (by omega) (hnoDigit _ (by decide))]
  simp only [expectBlank_cons (by decide : isBlank ':' = false)]
  rw [readShort_padded (by omega) h]
  simp only [hfraction, readZone_utc, atOffset_zero]
  rfl

/-- The written form with nine digits of the fraction is read back. -/
theorem readRelaxed_toNanoText (t : Time) : readRelaxed t.toNanoText = some t := by
  have hz : NoDigit ['Z'] := noDigit_cons (by decide)
  have hfraction := readFraction_padded (by decide) (Nat.le_refl 9) rfl rfl t.valid.2.2.2 hz
  rw [Nat.mul_one, ← List.cons_append] at hfraction
  have hdot : NoDigit (('.' :: padded 9 t.nano) ++ ['Z']) := noDigit_cons (by decide)
  exact readRelaxed_append t hdot rfl hfraction

/-- The written form with the shortest fraction is read back. -/
theorem readRelaxed_toText (t : Time) : readRelaxed t.toText = some t := by
  have hz : NoDigit ['Z'] := noDigit_cons (by decide)
  refine readRelaxed_append t ?_ rfl (readFraction_fractionText t.valid.2.2.2 hz (by simp))
  unfold fractionText
  split
  · exact hz
  · split
    · exact noDigit_cons (by decide)
    · split <;> exact noDigit_cons (by decide)

/-! ### The strict grammar -/

/-- A number on a fixed count of digits after which no further digit comes is read back. -/
theorem readFixed_padded {width n : Nat} {rest : List Char} (hwidth : 0 < width)
    (hn : n < Nat.pow 10 width) (h : NoDigit rest) :
    readFixed width (padded width n ++ rest) = some (n, rest) := by
  have htake : (padded width n ++ rest).take width = padded width n :=
    List.take_left' (Numeral.length_padded width n)
  have hdigits : (padded width n).all Char.isDigit = true :=
    List.all_eq_true.2 fun _ => Numeral.isDigit_of_mem_padded
  rw [readFixed, htake, hdigits, Numeral.length_padded, Bool.true_and, beq_self_eq_true, if_pos rfl]
  exact Numeral.readDigits_padded hwidth (Nat.le_refl width) hn h

theorem expect_cons (c : Char) (rest : List Char) : expect c (c :: rest) = some rest := if_pos rfl

theorem readOffset_utc : readOffset (expect ':') ['Z'] = some (0, []) := rfl

/-- A year with a sign is none in the strict grammar. -/
theorem readFixed_of_sign {c : Char} (h : c.isDigit = false) (rest : List Char) :
    readFixed 4 (c :: rest) = none := by
  rw [readFixed, List.take_succ_cons, List.all_cons, h]
  rfl

/-- A year that has not four digits is written with a sign. -/
theorem yearText_sign {year : Int} (h : ¬(0 ≤ year ∧ year ≤ 9999)) :
    ∃ c rest, Date.yearText year = c :: rest ∧ c.isDigit = false := by
  have hrange : (decide (0 ≤ year) && decide (year ≤ 9999)) = false := by
    rw [Bool.eq_false_iff]
    simpa using h
  unfold Date.yearText
  simp only [hrange, Bool.false_eq_true, if_false]
  split <;> exact ⟨_, _, rfl, by decide⟩

/-- The written form with nine digits of the fraction is read back in the strict grammar, if the
year has four digits, and otherwise not read at all. -/
theorem readStrict_toNanoText (t : Time) :
    readStrict t.toNanoText =
      if 0 ≤ t.date.year ∧ t.date.year ≤ 9999 then some t else none := by
  have hnoDigit : ∀ {c : Char} (tail : List Char), c.isDigit = false → NoDigit (c :: tail) :=
    fun _ hc => noDigit_cons hc
  unfold readStrict
  simp only [toNanoText, Date.toText, clockText, List.append_assoc, List.cons_append, bind,
    Option.bind]
  by_cases hyear : 0 ≤ t.date.year ∧ t.date.year ≤ 9999
  · rw [if_pos hyear]
    obtain ⟨hmonth, hday⟩ := t.date.two_digits
    obtain ⟨hhour, hminute, hsecond, hnano⟩ := t.valid
    have htext : Date.yearText t.date.year = padded 4 t.date.year.toNat := by
      have hlt : t.date.year.toNat < 10000 := by omega
      simp [Date.yearText, hyear, hlt]
    have hback : ((t.date.year.toNat : Nat) : Int) = t.date.year := Int.toNat_of_nonneg hyear.1
    have hunit : Nat.pow 10 (9 - 9) = 1 := rfl
    have hfraction := readFraction_padded (by decide) (Nat.le_refl 9) rfl hunit hnano
      (hnoDigit (c := 'Z') [] (by decide))
    rw [htext, readFixed_padded (by decide) (show _ < 10000 by omega) (hnoDigit _ (by decide))]
    simp only [expect_cons]
    rw [readFixed_padded (by decide) hmonth (hnoDigit _ (by decide))]
    simp only [expect_cons]
    rw [readFixed_padded (by decide) hday (hnoDigit _ (by decide))]
    simp only [dropDivider]
    rw [readFixed_padded (by decide) (show _ < 100 by omega) (hnoDigit _ (by decide))]
    simp only [expect_cons]
    rw [readFixed_padded (by decide) (show _ < 100 by omega) (hnoDigit _ (by decide))]
    simp only [expect_cons]
    rw [readFixed_padded (by decide) (show _ < 100 by omega) (hnoDigit _ (by decide))]
    simp only [hfraction, Nat.mul_one, readOffset_utc, hback, atOffset_zero]
    rfl
  · rw [if_neg hyear]
    obtain ⟨c, rest, htext, hc⟩ := yearText_sign hyear
    rw [htext, List.cons_append, readFixed_of_sign hc]

/-- Times whose year has four digits, the only ones that the strict grammar can read. -/
def HasFourDigitYear (t : Time) : Prop := 0 ≤ t.date.year ∧ t.date.year ≤ 9999

instance (t : Time) : Decidable t.HasFourDigitYear := inferInstanceAs (Decidable (_ ∧ _))

/-- The longer form is read back in the strict grammar exactly if the year has four digits. -/
theorem ofStrictString?_toNanoString (t : Time) :
    ofStrictString? t.toNanoString = if t.HasFourDigitYear then some t else none := by
  rw [ofStrictString?, toNanoString, String.toList_ofList, readStrict_toNanoText]
  rfl

@[simp] theorem ofString?_toNanoString (t : Time) : ofString? t.toNanoString = some t := by
  rw [ofString?, toNanoString, String.toList_ofList, readRelaxed_toNanoText]

@[simp] theorem ofString?_toString (t : Time) : ofString? t.toString = some t := by
  rw [ofString?, Time.toString, String.toList_ofList, readRelaxed_toText]

end Time

end EventJournal
