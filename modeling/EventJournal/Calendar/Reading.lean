import EventJournal.Calendar.Time
import EventJournal.Text.Blank

/-!
# Reading times

Two grammars for a date, a time of day and an offset from UTC.

* `Time.readStrict`: fixed widths, one colon in the offset, nothing around;
* `Time.readRelaxed`: blanks before numbers and separators, one or two digits, signed years of any
  length, the zone `UTC`, offsets with any run of colons or blanks between hour and minute, blanks
  at the end.

Both give the time in UTC, and refuse dates and times that do not exist.
-/

namespace EventJournal

open Text (isBlank trimStart)
open Numeral (readDigits)

namespace Time

/-- Drops one given character from the start of a text. -/
def expect (c : Char) : List Char → Option (List Char)
  | d :: rest => if d = c then some rest else none
  | [] => none

/-- Reads exactly `count` digits. -/
def readFixed (count : Nat) (s : List Char) : Option (Nat × List Char) :=
  if (s.take count).all Char.isDigit && (s.take count).length == count then readDigits count s
  else none

/-- Drops the letter or the space between date and time of day. -/
def dropDivider : List Char → Option (List Char)
  | 'T' :: rest | 't' :: rest | ' ' :: rest => some rest
  | _ => none

/-- Reads the fraction of a second, in nanoseconds: a point and at least one digit, digits beyond
the ninth dropped; 0 if there is no point. -/
def readFraction : List Char → Option (Nat × List Char)
  | '.' :: s =>
    let digits := s.takeWhile Char.isDigit
    if digits.isEmpty then none
    else
      let kept := digits.take 9
      some (Numeral.value kept * Nat.pow 10 (9 - kept.length), s.drop digits.length)
  | s => some (0, s)

/-- Drops the sign of an offset: true for a minus, the hyphen or U+2212. -/
def readSign : List Char → Option (Bool × List Char)
  | '+' :: rest => some (false, rest)
  | '-' :: rest | '\u2212' :: rest => some (true, rest)
  | _ => none

/-- Reads an offset from UTC in minutes: `Z`, or a sign, two digits of hours, what `separator` drops
and two digits of minutes. It stays below 24 hours. -/
def readOffset (separator : List Char → Option (List Char)) (s : List Char) :
    Option (Int × List Char) :=
  match s with
  | 'Z' :: rest | 'z' :: rest => some (0, rest)
  | _ => do
    let (negative, s) ← readSign s
    let (hours, s) ← readFixed 2 s
    let s ← separator s
    let (minutes, s) ← readFixed 2 s
    if hours < 24 ∧ minutes < 60 then
      let offset : Int := (hours * 60 + minutes : Nat)
      some (if negative then -offset else offset, s)
    else none

/-- The UTC time of a local date and time of day at an offset. -/
def atOffset (year : Int) (month day hour minute second nano : Nat) (offset : Int) :
    Option Time := do
  let date ← Date.of? year month day
  let time ← of? date hour minute second nano
  time.shift? (-offset)

/-- Reads a time in the strict grammar: `YYYY-MM-DD`, `T` or a space, `HH:MM:SS`, an optional
fraction and an offset. -/
def readStrict (s : List Char) : Option Time := do
  let (year, s) ← readFixed 4 s
  let s ← expect '-' s
  let (month, s) ← readFixed 2 s
  let s ← expect '-' s
  let (day, s) ← readFixed 2 s
  let s ← dropDivider s
  let (hour, s) ← readFixed 2 s
  let s ← expect ':' s
  let (minute, s) ← readFixed 2 s
  let s ← expect ':' s
  let (second, s) ← readFixed 2 s
  let (nano, s) ← readFraction s
  let (offset, s) ← readOffset (expect ':') s
  if s.isEmpty then atOffset year month day hour minute second nano offset else none

/-- Reads a year: at most four digits, or a sign and any number of them. -/
def readYear (s : List Char) : Option (Int × List Char) :=
  match trimStart s with
  | '-' :: s => (readDigits s.length s).map fun (n, rest) => (-(n : Int), rest)
  | '+' :: s => (readDigits s.length s).map fun (n, rest) => ((n : Int), rest)
  | s => (readDigits 4 s).map fun (n, rest) => ((n : Int), rest)

/-- Reads one or two digits after any blanks. -/
def readShort (s : List Char) : Option (Nat × List Char) := readDigits 2 (trimStart s)

/-- Drops one given character after any blanks. -/
def expectBlank (c : Char) (s : List Char) : Option (List Char) := expect c (trimStart s)

/-- Reads a zone: the letters `UTC` in any case, or an offset with any run of colons or blanks
between hour and minute. -/
def readZone (s : List Char) : Option (Int × List Char) :=
  if (s.take 3).map Char.toLower == ['u', 't', 'c'] then some (0, s.drop 3)
  else readOffset (fun s => some (s.dropWhile fun c => c == ':' || isBlank c)) s

/-- Reads a time in the relaxed grammar. -/
def readRelaxed (s : List Char) : Option Time := do
  let (year, s) ← readYear s
  let s ← expectBlank '-' s
  let (month, s) ← readShort s
  let s ← expectBlank '-' s
  let (day, s) ← readShort s
  let s ← dropDivider s
  let (hour, s) ← readShort s
  let s ← expectBlank ':' s
  let (minute, s) ← readShort s
  let s ← expectBlank ':' s
  let (second, s) ← readShort s
  let (nano, s) ← readFraction s
  let (offset, s) ← readZone (trimStart s)
  if (trimStart s).isEmpty then atOffset year month day hour minute second nano offset else none

/-- Reads a string in the relaxed grammar. -/
def ofString? (s : String) : Option Time := readRelaxed s.toList

/-- Reads a string in the strict grammar. -/
def ofStrictString? (s : String) : Option Time := readStrict s.toList

end Time

end EventJournal
