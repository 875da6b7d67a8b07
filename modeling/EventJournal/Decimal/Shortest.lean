import EventJournal.Decimal.Binary64
import EventJournal.Text.Numeral

/-!
# Shortest decimals

The decimal with the fewest digits that rounds to a given binary number: among those the nearest,
and of two equally near the one that the caller prefers.

* `Decimal`, a whole number of powers of ten; `Decimal.Tie`, the preference;
* `Decimal.shortest`, the search over ever finer decimal grids, in whole numbers throughout;
* `Decimal.positional`, digits with a point and no exponent.
-/

namespace EventJournal

/-- The number `digits · 10 ^ exponent`. -/
structure Decimal where
  digits : Nat
  exponent : Int
  deriving DecidableEq, Repr

namespace Decimal

/-- Which of two equally near decimals is preferred. -/
inductive Tie
  /-- The one whose last digit is even. -/
  | toEven
  /-- The greater one. -/
  | up
  deriving DecidableEq, Repr

/-- Whether `n` is preferred to `n + 1`. -/
def Tie.prefersLow (tie : Tie) (n : Nat) : Bool :=
  match tie with
  | .toEven => n % 2 == 0
  | .up => false

/-- The magnitudes that round to one binary number, as fractions over one denominator. -/
structure Interval where
  low : Nat
  mid : Nat
  high : Nat
  denominator : Nat
  /-- Whether the two ends belong to it. -/
  closed : Bool

/-- The interval of the magnitude of a finite number: half a gap to each side of it, with the ends
if the significand is even. -/
def Interval.of (x : Binary64) : Interval :=
  let m := x.significand
  let q := x.exponent - 2
  let scale := Nat.pow 2 q.toNat
  { low := (4 * m - if x.atBoundary then 1 else 2) * scale
    mid := 4 * m * scale
    high := (4 * m + 2) * scale
    denominator := Nat.pow 2 (-q).toNat
    closed := m % 2 == 0 }

/-- Whether `n · 10 ^ e` lies in the interval. -/
def Interval.holds (i : Interval) (n : Nat) (e : Int) : Bool :=
  let point := n * Nat.pow 10 e.toNat * i.denominator
  let unit := Nat.pow 10 (-e).toNat
  if i.closed then i.low * unit ≤ point && point ≤ i.high * unit
  else i.low * unit < point && point < i.high * unit

/-- Of the two neighbours of the middle on the grid of `10 ^ e`, the one that lies in the interval,
the nearer of both, the preferred one of equally near ones. -/
def Interval.onGrid? (tie : Tie) (i : Interval) (e : Int) : Option Nat :=
  let step := Nat.pow 10 e.toNat * i.denominator
  let target := i.mid * Nat.pow 10 (-e).toNat
  let n := target / step
  match i.holds n e, i.holds (n + 1) e with
  | false, false => none
  | true, false => some n
  | false, true => some (n + 1)
  | true, true =>
    let below := target - n * step
    let above := (n + 1) * step - target
    some (if below < above || (below == above && tie.prefersLow n) then n else n + 1)

/-- The first hit on the grids of `10 ^ e`, `10 ^ (e - 1)`, and so on. -/
def search (tie : Tie) (i : Interval) : Nat → Int → Decimal
  | 0, e => ⟨i.mid / i.denominator, e⟩
  | steps + 1, e =>
    match i.onGrid? tie e with
    | some n => ⟨n, e⟩
    | none => search tie i steps (e - 1)

/-- The shortest decimal that rounds to the magnitude of a finite number. The first grid tried is
coarser than the number, and 17 digits always suffice. -/
def shortest (tie : Tie) (x : Binary64) : Decimal :=
  if x.isZero then ⟨0, 0⟩
  else
    let bits : Int := (x.significand.log2 + 1 : Nat) + x.exponent
    search tie (Interval.of x) 24 (bits * 30103 / 100000 + 2)

/-- The decimal as digits with a point where it is needed, and no exponent. -/
def positional (d : Decimal) : List Char :=
  let digits := Numeral.natural d.digits
  if 0 ≤ d.exponent then digits ++ List.replicate d.exponent.toNat '0'
  else
    let places := (-d.exponent).toNat
    if places < digits.length then
      digits.take (digits.length - places) ++ '.' :: digits.drop (digits.length - places)
    else '0' :: '.' :: (List.replicate (places - digits.length) '0' ++ digits)

end Decimal

end EventJournal
