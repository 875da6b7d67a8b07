/-!
# Blank characters

The white space of running text: every character with the Unicode property `White_Space`.
Values typed by people (settings, relaxed times) are trimmed of these.

* `isBlank`, the property;
* `trimStart`, `trim`, which drop blanks at the start or at both ends of a text.
-/

namespace EventJournal.Text

/-- The characters with the Unicode property `White_Space`. -/
def isBlank (c : Char) : Bool :=
  let n := c.toNat
  (0x09 ≤ n && n ≤ 0x0D) || n == 0x20 || n == 0x85 || n == 0xA0 || n == 0x1680 ||
    (0x2000 ≤ n && n ≤ 0x200A) || n == 0x2028 || n == 0x2029 || n == 0x202F || n == 0x205F ||
    n == 0x3000

/-- The text without the blanks at its start. -/
def trimStart (s : List Char) : List Char := s.dropWhile isBlank

/-- The text without the blanks at its two ends. -/
def trim (s : List Char) : List Char := (trimStart (trimStart s).reverse).reverse

@[simp] theorem trimStart_nil : trimStart [] = [] := rfl

theorem trimStart_cons_of_not_blank {c : Char} {s : List Char} (h : isBlank c = false) :
    trimStart (c :: s) = c :: s := by
  simp [trimStart, h]

/-- The text of `s` without the blanks at its two ends. -/
def trimmed (s : String) : String := String.ofList (trim s.toList)

end EventJournal.Text
