import EventJournal.Json.Basic
import EventJournal.Text.Hex

/-!
# Writing JSON

The compact text of a JSON value: no blanks, members in the order of the value, strings escaped only
where the grammar demands it.

* `escape`, the characters of a string literal;
* `Number.toText`, integers as numerals, floating-point numbers with the fewest digits that read
  back;
* `Json.toText`, `Json.toBytes`, the text of a value.
-/

namespace EventJournal.Json

open Text (hexDigit hexDigits)

/-- A character inside a string literal: quote, backslash and controls are escaped. -/
def escapeChar (c : Char) : List Char :=
  if c = '"' then ['\\', '"']
  else if c = '\\' then ['\\', '\\']
  else if c.toNat < 0x20 then
    if c = '\x08' then ['\\', 'b']
    else if c = '\t' then ['\\', 't']
    else if c = '\n' then ['\\', 'n']
    else if c = '\x0c' then ['\\', 'f']
    else if c = '\r' then ['\\', 'r']
    else '\\' :: 'u' :: (hexDigits 4 c.toNat).map hexDigit
  else [c]

/-- The characters of a string literal between its quotes. -/
def escape (s : List Char) : List Char := s.flatMap escapeChar

/-- A string literal. -/
def quote (s : String) : List Char := '"' :: (escape s.toList ++ ['"'])

/-- The digits of a decimal: positional with a point while the point stands at most 16 digits to
the right of the first digit and at most five to the left of it, with an exponent otherwise. -/
def decimalText (d : Decimal) : List Char :=
  let digits := Numeral.natural d.digits
  let point : Int := digits.length + d.exponent
  if 0 ≤ d.exponent ∧ point ≤ 16 then
    digits ++ List.replicate d.exponent.toNat '0' ++ ['.', '0']
  else if -5 < point ∧ point ≤ 16 then d.positional
  else
    let mantissa := match digits with
      | [c] => [c]
      | digits => digits.take 1 ++ '.' :: digits.drop 1
    mantissa ++ 'e' :: Numeral.integer (point - 1)

/-- The text of a number; one that is not finite has none and is written as `null`. -/
def Number.toText : Number → List Char
  | .integer n => Numeral.integer n
  | .real x =>
    if !x.isFinite then "null".toList
    else
      let magnitude := decimalText (Decimal.shortest .toEven x)
      if x.isNegative then '-' :: magnitude else magnitude

/-- The compact text of a value. -/
def toText : Json → List Char
  | .null => "null".toList
  | .bool true => "true".toList
  | .bool false => "false".toList
  | .number n => n.toText
  | .string s => quote s
  | .array elements => '[' :: (elementsText elements ++ [']'])
  | .object members => '\x7b' :: (membersText members ++ ['\x7d'])
where
  /-- The elements of an array with commas between them. -/
  elementsText : List Json → List Char
    | [] => []
    | [value] => value.toText
    | value :: rest => value.toText ++ ',' :: elementsText rest
  /-- The members of an object with commas between them. -/
  membersText : List (String × Json) → List Char
    | [] => []
    | [(key, value)] => quote key ++ ':' :: value.toText
    | (key, value) :: rest => quote key ++ ':' :: (value.toText ++ ',' :: membersText rest)

/-- The compact text of a value as a string. -/
protected def toString (value : Json) : String := String.ofList value.toText

/-- The compact text of a value as bytes. -/
def toBytes (value : Json) : ByteArray := value.toString.toUTF8

@[simp] theorem escape_nil : escape [] = [] := rfl

@[simp] theorem escape_cons (c : Char) (s : List Char) :
    escape (c :: s) = escapeChar c ++ escape s :=
  rfl

end EventJournal.Json
