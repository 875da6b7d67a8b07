import EventJournal.Text.Numeral

/-!
# Numerals read back

A run of digits is read up to the first character that is none, and stands for the number that it
was written for.

* `NoDigit`, a text that does not go on with a digit;
* `Numeral.value_padded`, the number on a fixed count of digits;
* `Numeral.exists_natural_cons`, that numerals have no leading zeros;
* `Numeral.readDigits_append`, the digits at the start of a text;
* `Numeral.readInteger_integer`, a whole text as a signed 64-bit word.
-/

namespace EventJournal

/-- A text that does not go on with a digit. -/
def NoDigit (s : List Char) : Prop := ∀ c tail, s = c :: tail → c.isDigit = false

theorem noDigit_nil : NoDigit [] := by
  intro c tail h
  simp at h

theorem noDigit_cons {c : Char} {tail : List Char} (h : c.isDigit = false) :
    NoDigit (c :: tail) := by
  intro d rest heq
  obtain ⟨rfl, -⟩ := List.cons.inj heq
  exact h

theorem NoDigit.take {s : List Char} (h : NoDigit s) (n : Nat) : NoDigit (s.take n) := by
  cases s with
  | nil =>
    rw [List.take_nil]
    exact noDigit_nil
  | cons c tail =>
    cases n with
    | zero => exact noDigit_nil
    | succ n => exact noDigit_cons (h c tail rfl)

theorem NoDigit.takeWhile_eq {s : List Char} (h : NoDigit s) : s.takeWhile Char.isDigit = [] := by
  cases s with
  | nil => rfl
  | cons c tail => rw [List.takeWhile_cons, h c tail rfl, if_neg Bool.false_ne_true]

/-- The digits at the start of a text are all taken. -/
theorem takeWhile_isDigit_append {digits rest : List Char} (h : ∀ c ∈ digits, c.isDigit = true)
    (hrest : NoDigit rest) : (digits ++ rest).takeWhile Char.isDigit = digits := by
  rw [List.takeWhile_append_of_pos h, hrest.takeWhile_eq, List.append_nil]

namespace Numeral

theorem isDigit_digitChar {n : Nat} (h : n < 10) : n.digitChar.isDigit = true := by
  revert n
  decide

theorem isDigit_of_mem_natural {n : Nat} {c : Char} (h : c ∈ natural n) : c.isDigit = true :=
  Nat.isDigit_of_mem_toDigits (by decide) (by decide) h

theorem isDigit_of_mem_padded {width n : Nat} {c : Char} (h : c ∈ padded width n) :
    c.isDigit = true := by
  induction width generalizing n with
  | zero => simp at h
  | succ width ih =>
    rw [padded, List.mem_append, List.mem_singleton] at h
    rcases h with h | rfl
    · exact ih h
    · exact isDigit_digitChar (Nat.mod_lt _ (by decide))

theorem takeWhile_isDigit_padded (width n : Nat) {rest : List Char} (h : NoDigit rest) :
    (padded width n ++ rest).takeWhile Char.isDigit = padded width n :=
  takeWhile_isDigit_append (fun _ => isDigit_of_mem_padded) h

theorem natural_ne_nil (n : Nat) : natural n ≠ [] := Nat.toDigits_ne_nil

theorem value_append_digitChar (digits : List Char) {n : Nat} (h : n < 10) :
    value (digits ++ [n.digitChar]) = 10 * value digits + n := by
  rw [value, Nat.ofDigitChars_append, Nat.ofDigitChars_cons_digitChar_of_lt_ten h,
    Nat.ofDigitChars_nil]
  rfl

/-- A fixed count of digits stands for the last digits of the number. -/
theorem value_padded_eq_mod (width n : Nat) : value (padded width n) = n % Nat.pow 10 width := by
  induction width generalizing n with
  | zero =>
    have hone : Nat.pow 10 0 = 1 := rfl
    rw [padded_zero, hone, Nat.mod_one]
    rfl
  | succ width ih =>
    have hdigit : n % 10 < 10 := Nat.mod_lt _ (by decide)
    have hpow : Nat.pow 10 (width + 1) = Nat.pow 10 width * 10 := rfl
    rw [padded, value_append_digitChar _ hdigit, ih, hpow,
      Nat.mul_comm (Nat.pow 10 width), Nat.mod_mul]
    omega

theorem value_padded {width n : Nat} (h : n < Nat.pow 10 width) : value (padded width n) = n := by
  rw [value_padded_eq_mod, Nat.mod_eq_of_lt h]

/-- The numeral of a positive number does not start with a zero. -/
theorem exists_natural_cons {n : Nat} (h : 0 < n) :
    ∃ c tail, natural n = c :: tail ∧ c ≠ '0' := by
  induction n using Nat.strongRecOn with
  | ind n ih =>
    by_cases hlt : n < 10
    · refine ⟨n.digitChar, [], Nat.toDigits_of_lt_base hlt, ?_⟩
      rw [ne_eq, Nat.digitChar_eq_zero]
      omega
    · obtain ⟨c, tail, hdigits, hc⟩ := ih (n / 10) (by omega) (by omega)
      refine ⟨c, tail ++ [(n % 10).digitChar], ?_, hc⟩
      show Nat.toDigits 10 n = _
      rw [Nat.toDigits_of_base_le (by decide) (by omega)]
      rw [natural] at hdigits
      rw [hdigits, List.cons_append]

/-- Digits are read up to a character that is none. -/
theorem readDigits_append {digits rest : List Char} {limit : Nat}
    (h : ∀ c ∈ digits, c.isDigit = true) (nonempty : digits ≠ []) (hlimit : digits.length ≤ limit)
    (hrest : NoDigit rest) : readDigits limit (digits ++ rest) = some (value digits, rest) := by
  have htake : ((digits ++ rest).take limit).takeWhile Char.isDigit = digits := by
    rw [List.take_append, List.take_of_length_le hlimit]
    exact takeWhile_isDigit_append h (hrest.take _)
  unfold readDigits
  rw [htake]
  cases digits with
  | nil => exact (nonempty rfl).elim
  | cons c tail => simp

/-- A number on a fixed count of digits is read back. -/
theorem readDigits_padded {width limit n : Nat} {rest : List Char} (hwidth : 0 < width)
    (hlimit : width ≤ limit) (hn : n < Nat.pow 10 width) (hrest : NoDigit rest) :
    readDigits limit (padded width n ++ rest) = some (n, rest) := by
  have hlength := length_padded width n
  rw [readDigits_append (fun _ => isDigit_of_mem_padded) ?_ (by omega) hrest, value_padded hn]
  intro hnil
  rw [hnil, List.length_nil] at hlength
  omega

/-- A numeral is read back. -/
theorem readDigits_natural {limit n : Nat} {rest : List Char}
    (hlimit : (natural n).length ≤ limit) (hrest : NoDigit rest) :
    readDigits limit (natural n ++ rest) = some (n, rest) := by
  rw [readDigits_append (fun _ => isDigit_of_mem_natural) (natural_ne_nil n) hlimit hrest,
    value_natural]

/-- Digits only make a number greater. -/
theorem le_ofDigitChars (digits : List Char) (sofar : Nat) :
    sofar ≤ Nat.ofDigitChars 10 digits sofar := by
  induction digits generalizing sofar with
  | nil => exact Nat.le_refl sofar
  | cons c rest ih =>
    rw [Nat.ofDigitChars_cons]
    exact Nat.le_trans (by omega) (ih _)

/-- Digits are read as a magnitude if that is within the bound. No part of such digits goes past the
bound, and of others some part does. -/
theorem readMagnitude_digits {bound sofar : Nat} {overflow : Fault} {digits : List Char}
    (h : ∀ c ∈ digits, c.isDigit = true) (hsofar : sofar ≤ bound) :
    readMagnitude bound overflow sofar digits =
      if Nat.ofDigitChars 10 digits sofar ≤ bound then .ok (Nat.ofDigitChars 10 digits sofar)
      else .error overflow := by
  induction digits generalizing sofar with
  | nil => exact (if_pos hsofar).symm
  | cons c rest ih =>
    have hgrows := le_ofDigitChars rest (10 * sofar + (c.toNat - '0'.toNat))
    rw [readMagnitude, if_pos (h c (List.mem_cons_self ..)), Nat.ofDigitChars_cons]
    dsimp only
    split
    · next hnext => exact ih (fun d hd => h d (List.mem_cons_of_mem _ hd)) hnext
    · next hnext => rw [if_neg fun hbound => hnext (Nat.le_trans hgrows hbound)]

theorem readMagnitude_natural (bound n : Nat) (overflow : Fault) :
    readMagnitude bound overflow 0 (natural n) = if n ≤ bound then .ok n else .error overflow := by
  have hvalue : Nat.ofDigitChars 10 (natural n) 0 = n := value_natural n
  rw [readMagnitude_digits (fun _ => isDigit_of_mem_natural) (Nat.zero_le bound), hvalue]

/-- Digits without a sign are read as a magnitude. -/
theorem readInteger_natural (least greatest : Int) (n : Nat) :
    readInteger least greatest (natural n) =
      (readMagnitude greatest.toNat .tooLarge 0 (natural n)).map Int.ofNat := by
  have hdigit : ∀ c ∈ natural n, c.isDigit = true := fun _ => isDigit_of_mem_natural
  unfold readInteger
  split
  · next heq => exact (natural_ne_nil n heq).elim
  · next heq => simp [heq, Char.isDigit] at hdigit
  · next heq => simp [heq, Char.isDigit] at hdigit
  · rfl

/-- A numeral is read as a signed 64-bit word exactly if its number is one. -/
theorem readInteger_integer (n : Int) :
    readInteger minInt64 maxInt64 (integer n) =
      if IsInt64 n then .ok n else .error (if 0 ≤ n then .tooLarge else .tooSmall) := by
  cases n with
  | ofNat n =>
    have hfits : IsInt64 (Int.ofNat n) ↔ n ≤ maxInt64.toNat := by
      simp only [IsInt64, minInt64, maxInt64, Int.ofNat_eq_natCast]
      omega
    show readInteger minInt64 maxInt64 (natural n) = _
    rw [readInteger_natural, readMagnitude_natural]
    by_cases hbound : n ≤ maxInt64.toNat
    · rw [if_pos hbound, if_pos (hfits.2 hbound)]
      rfl
    · rw [if_neg hbound, if_neg (hbound ∘ hfits.1)]
      rfl
  | negSucc n =>
    have hfits : IsInt64 (Int.negSucc n) ↔ n + 1 ≤ (-minInt64).toNat := by
      simp only [IsInt64, minInt64, maxInt64]
      omega
    have hempty : (natural (n + 1)).isEmpty = false := by
      simpa using natural_ne_nil (n + 1)
    have hnegative : ¬ 0 ≤ minInt64 := by decide
    show readInteger minInt64 maxInt64 ('-' :: natural (n + 1)) = _
    simp only [readInteger, hempty, hnegative, decide_false, Bool.or_self, Bool.false_eq_true,
      if_false, readMagnitude_natural]
    by_cases hbound : n + 1 ≤ (-minInt64).toNat
    · rw [if_pos hbound, if_pos (hfits.2 hbound)]
      rfl
    · rw [if_neg hbound, if_neg (hbound ∘ hfits.1)]
      rfl

end Numeral

end EventJournal
