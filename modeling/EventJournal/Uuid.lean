import EventJournal.Text.Hex

/-!
# Universally unique identifiers

A UUID is 32 hexadecimal digits, written in lower case with hyphens after the 8th, 12th, 16th and
20th digit.

* `Uuid.toText`, `Uuid.toString`: the written form;
* `Uuid.read`: the forms that are read: 32 digits, the hyphenated form, and the hyphenated form in
  braces or after `urn:uuid:`, hexadecimal digits and the prefix in either case;
* `Uuid.timed`, `Uuid.random`: identifiers of version 7 and of version 4 made from given numbers.
-/

namespace EventJournal

/-- A UUID, as its 32 hexadecimal digits. -/
structure Uuid where
  digits : List (Fin 16)
  length_digits : digits.length = 32
  deriving DecidableEq, Repr

namespace Uuid

open Text (hexDigit hexValue? hexDigits)

/-- The hyphenated lower-case form. -/
def toText (u : Uuid) : List Char :=
  let cs := u.digits.map hexDigit
  cs.take 8 ++ '-' :: ((cs.drop 8).take 4 ++ '-' :: ((cs.drop 12).take 4 ++
    '-' :: ((cs.drop 16).take 4 ++ '-' :: cs.drop 20)))

/-- The hyphenated lower-case form as a string. -/
protected def toString (u : Uuid) : String := String.ofList u.toText

instance : ToString Uuid := ⟨Uuid.toString⟩

/-- The UUID on exactly 32 hexadecimal digits. -/
def ofHex? (s : List Char) : Option Uuid :=
  (s.mapM hexValue?).bind fun ds => if h : ds.length = 32 then some ⟨ds, h⟩ else none

/-- Drops a hyphen from the start of a text. -/
def dropHyphen? : List Char → Option (List Char)
  | '-' :: rest => some rest
  | _ => none

/-- The UUID in hyphenated form: 8, 4, 4, 4 and 12 digits with a hyphen between the groups. -/
def ofHyphenated? (s : List Char) : Option Uuid := do
  let s₁ ← dropHyphen? (s.drop 8)
  let s₂ ← dropHyphen? (s₁.drop 4)
  let s₃ ← dropHyphen? (s₂.drop 4)
  let s₄ ← dropHyphen? (s₃.drop 4)
  ofHex? (s.take 8 ++ s₁.take 4 ++ s₂.take 4 ++ s₃.take 4 ++ s₄)

/-- Reads a UUID. Bare digits stand alone; braces and the prefix `urn:uuid:` only enclose the
hyphenated form. -/
def read (s : List Char) : Option Uuid :=
  match s.length with
  | 32 => ofHex? s
  | 36 => ofHyphenated? s
  | 38 =>
    if s.head? == some '\x7b' && s.getLast? == some '\x7d' then ofHyphenated? (s.drop 1).dropLast
    else none
  | 45 =>
    if (s.take 9).map Char.toLower == "urn:uuid:".toList then ofHyphenated? (s.drop 9) else none
  | _ => none

/-- Reads a UUID from a string. -/
def ofString? (s : String) : Option Uuid := read s.toList

/-- An identifier of version 7: a millisecond count, then a number that tells identifiers of one
millisecond apart. -/
def timed (milliseconds tail : Nat) : Uuid :=
  ⟨hexDigits 12 milliseconds ++
      ⟨7, by decide⟩ :: (hexDigits 3 (tail / Nat.pow 16 15) ++
        ⟨8, by decide⟩ :: hexDigits 15 tail), by simp⟩

/-- An identifier of version 4 on the given random bits. -/
def random (bits : Nat) : Uuid :=
  ⟨hexDigits 12 (bits / Nat.pow 16 18) ++
      ⟨4, by decide⟩ :: (hexDigits 3 (bits / Nat.pow 16 15) ++
        ⟨8, by decide⟩ :: hexDigits 15 bits), by simp⟩

/-- The version that an identifier states, its 13th digit. -/
def version (u : Uuid) : Nat := ((u.digits[12]?).map Fin.val).getD 0

@[simp] theorem version_timed (milliseconds tail : Nat) :
    (timed milliseconds tail).version = 7 := by
  have h : (timed milliseconds tail).digits[12]? = some 7 := by
    have hlength := Text.length_hexDigits 12 milliseconds
    rw [timed, List.getElem?_append_right (Nat.le_of_eq hlength), hlength]
    rfl
  rw [version, h]
  rfl

end Uuid

end EventJournal
