import EventJournal.Json.Basic
import EventJournal.Text.Hex

/-!
# JSON texts by their form

What the grammar of JSON sees in a text, before numbers are weighed and escapes are joined to
characters. A reader that skips a member looks at its form only; one that keeps it asks for its
value.

* `Form`, `NumberForm`, `Piece`: the parts of a text;
* `Form.read`, the form of a whole text, and `Form.ofBytes?`, that of a text given as bytes;
* `joinPieces`, the characters of a string, none if half of a surrogate pair is missing;
* `NumberForm.value?`, the number of a numeral, none if it is too large;
* `Form.toJson?`, the value of a form, none if a number or a string in it has none;
* `Form.depth`, how deeply arrays and objects are nested.
-/

namespace EventJournal.Json

open Text (hexValue?)

/-- A part of a string literal: a character, or a UTF-16 unit written as an escape. -/
inductive Piece
  | char (c : Char)
  | unit (code : Nat)
  deriving DecidableEq, Repr

/-- A numeral: digits before the point, digits after it if there are any, and the sign and digits
of the exponent if there is one. -/
structure NumberForm where
  negative : Bool
  whole : List Char
  fraction : List Char
  exponent : Option (Bool × List Char)
  deriving DecidableEq, Repr

/-- The form of a JSON text. -/
inductive Form
  | null
  | bool (b : Bool)
  | number (n : NumberForm)
  | string (pieces : List Piece)
  | array (elements : List Form)
  | object (members : List (List Piece × Form))
  deriving Repr

/-! ### Reading -/

/-- The blanks that may stand between the parts of a text. -/
def isSpace (c : Char) : Bool := c == ' ' || c == '\t' || c == '\n' || c == '\r'

/-- The text without the blanks at its start. -/
def skipSpace (s : List Char) : List Char := s.dropWhile isSpace

/-- The UTF-16 unit of four hexadecimal digits. -/
def unit? (a b c d : Char) : Option Nat := do
  let a ← hexValue? a
  let b ← hexValue? b
  let c ← hexValue? c
  let d ← hexValue? d
  some (a.val * 4096 + b.val * 256 + c.val * 16 + d.val)

/-- The character that an escape of one letter stands for. -/
def shortEscape? : Char → Option Char
  | '"' => some '"'
  | '\\' => some '\\'
  | '/' => some '/'
  | 'b' => some '\x08'
  | 'f' => some '\x0c'
  | 'n' => some '\n'
  | 'r' => some '\r'
  | 't' => some '\t'
  | _ => none

/-- Reads a string literal after its opening quote. Controls must be escaped. -/
def readString : List Char → Option (List Piece × List Char)
  | [] => none
  | '"' :: rest => some ([], rest)
  | '\\' :: 'u' :: a :: b :: c :: d :: rest => do
    let code ← unit? a b c d
    let (pieces, rest) ← readString rest
    some (.unit code :: pieces, rest)
  | '\\' :: e :: rest => do
    let c ← shortEscape? e
    let (pieces, rest) ← readString rest
    some (.char c :: pieces, rest)
  | c :: rest =>
    if c.toNat < 0x20 || c == '\\' then none
    else do
      let (pieces, rest) ← readString rest
      some (.char c :: pieces, rest)

/-- Reads the digits before the point: a zero, or digits that do not start with one. -/
def readWhole : List Char → Option (List Char × List Char)
  | '0' :: rest => some (['0'], rest)
  | s =>
    match s.takeWhile Char.isDigit with
    | [] => none
    | digits => some (digits, s.drop digits.length)

/-- Reads a point and at least one digit, or nothing. -/
def readFractionDigits : List Char → Option (List Char × List Char)
  | '.' :: s =>
    match s.takeWhile Char.isDigit with
    | [] => none
    | digits => some (digits, s.drop digits.length)
  | s => some ([], s)

/-- Reads the sign of an exponent, if there is one: true for a minus. -/
def readExponentSign : List Char → Bool × List Char
  | '-' :: s => (true, s)
  | '+' :: s => (false, s)
  | s => (false, s)

/-- Reads an exponent mark, a sign and at least one digit, or nothing. -/
def readExponent : List Char → Option (Option (Bool × List Char) × List Char)
  | 'e' :: s | 'E' :: s =>
    let (negative, s) := readExponentSign s
    match s.takeWhile Char.isDigit with
    | [] => none
    | digits => some (some (negative, digits), s.drop digits.length)
  | s => some (none, s)

/-- Reads a minus sign, if there is one. -/
def readMinus : List Char → Bool × List Char
  | '-' :: s => (true, s)
  | s => (false, s)

/-- Reads a numeral. -/
def readNumber (s : List Char) : Option (NumberForm × List Char) := do
  let (negative, s) := readMinus s
  let (whole, s) ← readWhole s
  let (fraction, s) ← readFractionDigits s
  let (exponent, s) ← readExponent s
  some (⟨negative, whole, fraction, exponent⟩, s)

mutual

/-- Reads one value after any blanks. -/
def readValue : Nat → List Char → Option (Form × List Char)
  | 0, _ => none
  | fuel + 1, s =>
    match skipSpace s with
    | 'n' :: 'u' :: 'l' :: 'l' :: rest => some (.null, rest)
    | 't' :: 'r' :: 'u' :: 'e' :: rest => some (.bool true, rest)
    | 'f' :: 'a' :: 'l' :: 's' :: 'e' :: rest => some (.bool false, rest)
    | '"' :: rest => (readString rest).map fun (pieces, rest) => (.string pieces, rest)
    | '[' :: rest =>
      match skipSpace rest with
      | ']' :: rest => some (.array [], rest)
      | rest => (readElements fuel rest).map fun (elements, rest) => (.array elements, rest)
    | '\x7b' :: rest =>
      match skipSpace rest with
      | '\x7d' :: rest => some (.object [], rest)
      | rest => (readMembers fuel rest).map fun (members, rest) => (.object members, rest)
    | rest => (readNumber rest).map fun (n, rest) => (.number n, rest)

/-- Reads the elements of an array, at least one, and the closing bracket. -/
def readElements : Nat → List Char → Option (List Form × List Char)
  | 0, _ => none
  | fuel + 1, s => do
    let (element, s) ← readValue fuel s
    match skipSpace s with
    | ',' :: rest => do
      let (elements, rest) ← readElements fuel rest
      some (element :: elements, rest)
    | ']' :: rest => some ([element], rest)
    | _ => none

/-- Reads the members of an object, at least one, and the closing brace. -/
def readMembers : Nat → List Char → Option (List (List Piece × Form) × List Char)
  | 0, _ => none
  | fuel + 1, s =>
    match skipSpace s with
    | '"' :: s => do
      let (key, s) ← readString s
      match skipSpace s with
      | ':' :: s => do
        let (value, s) ← readValue fuel s
        match skipSpace s with
        | ',' :: rest => do
          let (members, rest) ← readMembers fuel rest
          some ((key, value) :: members, rest)
        | '\x7d' :: rest => some ([(key, value)], rest)
        | _ => none
      | _ => none
    | _ => none

end

/-- The form of a whole text: one value, with blanks around it. Every two levels of reading use up a
character, which bounds their number. -/
def Form.read (s : List Char) : Option Form :=
  match readValue (2 * s.length + 2) s with
  | some (form, rest) => if (skipSpace rest).isEmpty then some form else none
  | none => none

/-- What is read for a byte that is no part of a character: halves of surrogate pairs, which can be
skipped in a string but give it no value, and which are out of place anywhere else. Two of them, so
that no neighbour completes both; after a backslash a control, with which no escape goes on. -/
def strayByte (escaped : Bool) : List Char :=
  if escaped then ['\x00'] else "\\udc00\\udc00".toList

/-- The characters of a text given as bytes from position `i` on, some of which are stray; `escaped`
tells whether a backslash stands before. -/
def charsFrom (bytes : ByteArray) (escaped : Bool) (i : Nat) : List Char :=
  if i < bytes.size then
    match bytes.utf8DecodeChar? i with
    | some c => c :: charsFrom bytes (c == '\\' && !escaped) (i + c.utf8Size)
    | none => strayByte escaped ++ charsFrom bytes false (i + 1)
  else []
termination_by bytes.size - i
decreasing_by
  · have := c.utf8Size_pos
    omega
  · omega

/-- The form of a text given as bytes. Bytes that are not UTF-8 may stand in strings that are
skipped, and nowhere else. -/
def Form.ofBytes? (bytes : ByteArray) : Option Form :=
  match String.fromUTF8? bytes with
  | some s => Form.read s.toList
  | none => Form.read (charsFrom bytes false 0)

/-! ### Strings -/

/-- The units that open a surrogate pair. -/
def isLeading (code : Nat) : Bool := 0xD800 ≤ code && code ≤ 0xDBFF

/-- The units that close a surrogate pair. -/
def isTrailing (code : Nat) : Bool := 0xDC00 ≤ code && code ≤ 0xDFFF

/-- The characters of a string literal; none if a surrogate stands alone. -/
def joinPieces : List Piece → Option (List Char)
  | [] => some []
  | .char c :: rest => (joinPieces rest).map (c :: ·)
  | .unit high :: .unit low :: rest =>
    if isLeading high then
      if isTrailing low then
        (joinPieces rest).map (Char.ofNat ((high - 0xD800) * 0x400 + (low - 0xDC00) + 0x10000) :: ·)
      else none
    else if isTrailing high then none
    else (joinPieces (.unit low :: rest)).map (Char.ofNat high :: ·)
  | .unit code :: rest =>
    if isLeading code || isTrailing code then none
    else (joinPieces rest).map (Char.ofNat code :: ·)

/-- The string of a string literal. -/
def pieceString? (pieces : List Piece) : Option String := (joinPieces pieces).map String.ofList

/-! ### Numbers -/

/-- The greatest number of an unsigned 64-bit word. -/
def maxWord : Nat := 18446744073709551615

/-- Takes digits onto a significand as long as it fits a word; also how many were taken. -/
def takeDigits (significand : Nat) : List Char → Nat × Nat
  | [] => (significand, 0)
  | c :: rest =>
    let next := 10 * significand + (c.toNat - '0'.toNat)
    if next ≤ maxWord then
      let (significand, count) := takeDigits next rest
      (significand, count + 1)
    else (significand, 0)

/-- The greatest exponent that is not out of all proportion. -/
def maxExponent : Nat := 2147483647

/-- The number nearest to `x · 10 ^ e`, by one multiplication or by divisions; none if it is
infinite. Divisions by `10 ^ 308` bring a far exponent near until nothing is left of the number. -/
def scale? (x : Binary64) (e : Int) : Option Binary64 :=
  if e < -308 then
    if x.isZero then some x else scale? (x.div (.powerOfTen 308)) (e + 308)
  else if e < 0 then some (x.div (.powerOfTen e.natAbs))
  else if e ≤ 308 then
    let y := x.mul (.powerOfTen e.natAbs)
    if y.isInfinite then none else some y
  else if x.isZero then some x else none
termination_by (-e).toNat

/-- The floating-point number of a numeral: the digits that fit a word, scaled by the exponent that
is left. -/
def NumberForm.real? (n : NumberForm) : Option Binary64 :=
  let (head, wholeCount) := takeDigits 0 n.whole
  let (significand, fractionCount) := takeDigits head n.fraction
  let position : Int := (n.whole.length - wholeCount : Nat) - fractionCount
  let magnitude? :=
    match n.exponent with
    | none => scale? (.ofNat significand) position
    | some (negative, digits) =>
      let amount := Numeral.value digits
      if maxExponent < amount then
        if negative || significand == 0 then some .zero else none
      else
        scale? (.ofNat significand) (if negative then position - amount else position + amount)
  magnitude?.map fun x => if n.negative then x.neg else x

/-- The number of a numeral. Without point and exponent it is an integer, as long as it fits a word
and is not a negative zero; otherwise it is a floating-point number. -/
def NumberForm.value? (n : NumberForm) : Option Number :=
  let magnitude := Numeral.value n.whole
  if n.fraction.isEmpty && n.exponent.isNone then
    if n.negative then
      if 0 < magnitude && magnitude ≤ Nat.pow 2 63 then some (.integer (-(magnitude : Int)))
      else n.real?.map .real
    else if magnitude ≤ maxWord then some (.integer magnitude)
    else n.real?.map .real
  else n.real?.map .real

/-! ### Values -/

/-- The value of a form, none if a number is too large or a string holds half a surrogate pair. Of
members of one key the last wins. -/
def Form.toJson? : Form → Option Json
  | .null => some .null
  | .bool b => some (.bool b)
  | .number n => n.value?.map .number
  | .string pieces => (pieceString? pieces).map .string
  | .array elements => (elementValues? elements).map .array
  | .object members => (memberValues? members).map fun members => .object (Members.settle members)
where
  /-- The values of the elements of an array. -/
  elementValues? : List Form → Option (List Json)
    | [] => some []
    | element :: rest => do
      let value ← element.toJson?
      let values ← elementValues? rest
      some (value :: values)
  /-- The members of an object with their values. -/
  memberValues? : List (List Piece × Form) → Option Members
    | [] => some []
    | (key, form) :: rest => do
      let name ← pieceString? key
      let value ← form.toJson?
      let values ← memberValues? rest
      some ((name, value) :: values)

/-- How deeply arrays and objects are nested. -/
def Form.depth : Form → Nat
  | .null | .bool _ | .number _ | .string _ => 0
  | .array elements => elementDepth elements + 1
  | .object members => memberDepth members + 1
where
  /-- The greatest depth of the elements. -/
  elementDepth : List Form → Nat
    | [] => 0
    | element :: rest => max element.depth (elementDepth rest)
  /-- The greatest depth of the members. -/
  memberDepth : List (List Piece × Form) → Nat
    | [] => 0
    | (_, form) :: rest => max form.depth (memberDepth rest)

/-- The deepest nesting of a value that is kept. -/
def maxDepth : Nat := 127

/-- The value of a form that is nested at most `limit` levels deep. -/
def Form.value? (limit : Nat) (form : Form) : Option Json :=
  if form.depth ≤ limit then form.toJson? else none

/-- The value of a text given as bytes. -/
def ofBytes? (bytes : ByteArray) : Option Json :=
  (Form.ofBytes? bytes).bind (Form.value? maxDepth)

/-- The value of a text. -/
def ofString (s : String) : Option Json := (Form.read s.toList).bind (Form.value? maxDepth)

end EventJournal.Json
