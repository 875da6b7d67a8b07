/-!
# Decimal numerals

Whole numbers as runs of ASCII digits.

* `natural`, `integer`: the shortest numeral of a number;
* `padded`: a number on a fixed count of digits;
* `value`: the number that a run of digits stands for;
* `readDigits`: the digits at the start of a text, as many as a limit allows;
* `readInteger`: a whole text as an integer between two bounds, with the reason of a refusal.
-/

namespace EventJournal.Numeral

/-- The shortest decimal numeral of `n`. -/
def natural (n : Nat) : List Char := Nat.toDigits 10 n

/-- The shortest decimal numeral of `n`, with a minus sign in front of a negative number. -/
def integer : Int → List Char
  | .ofNat n => natural n
  | .negSucc n => '-' :: natural (n + 1)

/-- The last `width` decimal digits of `n`, with leading zeros. -/
def padded : Nat → Nat → List Char
  | 0, _ => []
  | width + 1, n => padded width (n / 10) ++ [Nat.digitChar (n % 10)]

/-- The number that a run of digits stands for. -/
def value (digits : List Char) : Nat := Nat.ofDigitChars 10 digits 0

/-- The number on the digits at the start of a text, at least one and at most `limit` of them,
and what follows them. -/
def readDigits (limit : Nat) (s : List Char) : Option (Nat × List Char) :=
  match (s.take limit).takeWhile Char.isDigit with
  | [] => none
  | digits => some (value digits, s.drop digits.length)

/-- Why a text is not an integer between the bounds. -/
inductive Fault
  | empty
  | invalidDigit
  | tooLarge
  | tooSmall
  deriving DecidableEq, Repr

/-- The wording of each fault. -/
def Fault.message : Fault → String
  | .empty => "cannot parse integer from empty string"
  | .invalidDigit => "invalid digit found in string"
  | .tooLarge => "number too large to fit in target type"
  | .tooSmall => "number too small to fit in target type"

/-- Reads digits onto the magnitude `sofar`; the first bad digit or the first step past `bound`
decides which fault is reported. -/
def readMagnitude (bound : Nat) (overflow : Fault) (sofar : Nat) :
    List Char → Except Fault Nat
  | [] => .ok sofar
  | c :: rest =>
    if c.isDigit then
      let next := 10 * sofar + (c.toNat - '0'.toNat)
      if next ≤ bound then readMagnitude bound overflow next rest else .error overflow
    else .error .invalidDigit

/-- Reads a whole text as an integer from `least` to `greatest`. A plus sign may stand in front,
and a minus sign too if `least` is negative. -/
def readInteger (least greatest : Int) : List Char → Except Fault Int
  | [] => .error .empty
  | '+' :: digits =>
    if digits.isEmpty then .error .invalidDigit
    else (readMagnitude greatest.toNat .tooLarge 0 digits).map Int.ofNat
  | '-' :: digits =>
    if digits.isEmpty || 0 ≤ least then .error .invalidDigit
    else (readMagnitude (-least).toNat .tooSmall 0 digits).map fun n => -Int.ofNat n
  | digits => (readMagnitude greatest.toNat .tooLarge 0 digits).map Int.ofNat

/-- The least number of a signed 64-bit word. -/
def minInt64 : Int := -9223372036854775808

/-- The greatest number of a signed 64-bit word. -/
def maxInt64 : Int := 9223372036854775807

/-- The numbers that fit in a signed 64-bit word. -/
def IsInt64 (n : Int) : Prop := minInt64 ≤ n ∧ n ≤ maxInt64

instance (n : Int) : Decidable (IsInt64 n) := inferInstanceAs (Decidable (_ ∧ _))

/-- The number after a number of a signed 64-bit word. After the greatest they start over. -/
def nextInt64 (n : Int) : Int := if n = maxInt64 then minInt64 else n + 1

theorem nextInt64_of_ne {n : Int} (h : n ≠ maxInt64) : nextInt64 n = n + 1 := if_neg h

theorem nextInt64_of_lt {n : Int} (h : n < maxInt64) : nextInt64 n = n + 1 :=
  nextInt64_of_ne (Int.ne_of_lt h)

@[simp] theorem padded_zero (n : Nat) : padded 0 n = [] := rfl

@[simp] theorem length_padded (width n : Nat) : (padded width n).length = width := by
  induction width generalizing n with
  | zero => rfl
  | succ width ih => simp [padded, ih]

/-- Reading a numeral gives its number back. -/
@[simp] theorem value_natural (n : Nat) : value (natural n) = n :=
  Nat.ofDigitChars_toDigits (by decide) (by decide)

end EventJournal.Numeral
