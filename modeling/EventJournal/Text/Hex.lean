/-!
# Hexadecimal digits

* `hexDigit`, the lower-case digit of a number below 16;
* `hexValue?`, the number of a digit in either case;
* `hexDigits`, the last digits of a number.
-/

namespace EventJournal.Text

/-- The lower-case hexadecimal digit of a number below 16. -/
def hexDigit (n : Fin 16) : Char := Nat.digitChar n.val

/-- The number of a hexadecimal digit in either case. -/
def hexValue? (c : Char) : Option (Fin 16) :=
  if '0' ≤ c && c ≤ '9' then some (Fin.ofNat 16 (c.toNat - '0'.toNat))
  else if 'a' ≤ c && c ≤ 'f' then some (Fin.ofNat 16 (c.toNat - 'a'.toNat + 10))
  else if 'A' ≤ c && c ≤ 'F' then some (Fin.ofNat 16 (c.toNat - 'A'.toNat + 10))
  else none

/-- The last `n` hexadecimal digits of a number. -/
def hexDigits : Nat → Nat → List (Fin 16)
  | 0, _ => []
  | n + 1, x => hexDigits n (x / 16) ++ [Fin.ofNat 16 x]

@[simp] theorem hexValue?_hexDigit (n : Fin 16) : hexValue? (hexDigit n) = some n := by
  revert n
  decide

@[simp] theorem length_hexDigits (n x : Nat) : (hexDigits n x).length = n := by
  induction n generalizing x with
  | zero => rfl
  | succ n ih => simp [hexDigits, ih]

end EventJournal.Text
