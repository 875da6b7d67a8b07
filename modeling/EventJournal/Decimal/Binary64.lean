/-!
# Binary floating-point numbers

A 64-bit binary floating-point number by its bits, so that two numbers are equal exactly when every
text written for them is.

* `Binary64`, with `add`, `mul` and `div` rounded to nearest;
* `Binary64.ofNat`, `Binary64.powerOfTen`: the nearest numbers to a whole number and to a power of
  ten;
* `Binary64.significand`, `Binary64.exponent`: a finite magnitude as `significand · 2 ^ exponent`.
-/

namespace EventJournal

/-- A 64-bit binary floating-point number. -/
structure Binary64 where
  bits : UInt64
  deriving DecidableEq, Repr

namespace Binary64

/-- The number that a machine float holds. -/
def ofFloat (x : Float) : Binary64 := ⟨x.toBits⟩

/-- The machine float that holds the number. -/
def toFloat (x : Binary64) : Float := Float.ofBits x.bits

/-- The sum, rounded to nearest. -/
def add (x y : Binary64) : Binary64 := ofFloat (x.toFloat + y.toFloat)

/-- The product, rounded to nearest. -/
def mul (x y : Binary64) : Binary64 := ofFloat (x.toFloat * y.toFloat)

/-- The quotient, rounded to nearest. -/
def div (x y : Binary64) : Binary64 := ofFloat (x.toFloat / y.toFloat)

/-- Whether `x` is at most `y`; never for a number that is not one. -/
def le (x y : Binary64) : Bool := x.toFloat ≤ y.toFloat

/-- The number with the other sign. -/
def neg (x : Binary64) : Binary64 := ⟨x.bits ^^^ 0x8000000000000000⟩

/-- The nearest number to a whole number below `2 ^ 64`. -/
def ofNat (n : Nat) : Binary64 := ofFloat (Float.ofNat n)

/-- The nearest number to `10 ^ n`. -/
def powerOfTen (n : Nat) : Binary64 := ofFloat (Float.ofScientific 1 false n)

/-- The nearest number to `mantissa · 10 ^ -places`. -/
def ofDecimal (mantissa places : Nat) : Binary64 :=
  ofFloat (Float.ofScientific mantissa true places)

/-- Zero without a sign. -/
def zero : Binary64 := ⟨0⟩

/-- Whether the sign bit is set. -/
def isNegative (x : Binary64) : Bool := x.bits >>> 63 == 1

/-- The exponent field. -/
def exponentField (x : Binary64) : Nat := ((x.bits >>> 52) &&& 0x7FF).toNat

/-- The fraction field. -/
def fractionField (x : Binary64) : Nat := (x.bits &&& 0xFFFFFFFFFFFFF).toNat

/-- Whether the number is neither infinite nor undefined. -/
def isFinite (x : Binary64) : Bool := x.exponentField != 2047

/-- Whether the number is infinite. -/
def isInfinite (x : Binary64) : Bool := x.exponentField == 2047 && x.fractionField == 0

/-- Whether the number is undefined, such as the difference of two infinite ones. -/
def isUndefined (x : Binary64) : Bool := x.exponentField == 2047 && x.fractionField != 0

/-- Whether the number is zero, of either sign. -/
def isZero (x : Binary64) : Bool := x.exponentField == 0 && x.fractionField == 0

/-- The whole number that the power of two of a finite magnitude multiplies. -/
def significand (x : Binary64) : Nat :=
  if x.exponentField = 0 then x.fractionField else x.fractionField + Nat.pow 2 52

/-- The power of two of a finite magnitude. -/
def exponent (x : Binary64) : Int :=
  if x.exponentField = 0 then -1074 else (x.exponentField : Int) - 1075

/-- Whether the gap to the next smaller magnitude is half the gap to the next greater one. -/
def atBoundary (x : Binary64) : Bool := x.fractionField == 0 && 1 < x.exponentField

end Binary64

end EventJournal
