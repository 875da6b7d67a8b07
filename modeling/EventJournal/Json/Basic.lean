import EventJournal.Decimal.Shortest

/-!
# JSON values

* `Json`, a value of the data format;
* `Json.Number`, an integer or a binary floating-point number;
* `Json.Members`, the members of an object, and `Members.settle`, which lets the last of several
  members of one key win;
* `Json.ofTable?`, a table as an object, which only keys that can be written as texts allow.
-/

namespace EventJournal

/-- A number of a JSON value. -/
inductive Json.Number
  | integer (n : Int)
  | real (x : Binary64)
  deriving DecidableEq, Repr

/-- A JSON value. -/
inductive Json
  | null
  | bool (b : Bool)
  | number (n : Json.Number)
  | string (s : String)
  | array (elements : List Json)
  | object (members : List (String × Json))
  deriving Inhabited, Repr

namespace Json

/-- The members of a JSON object. -/
abbrev Members := List (String × Json)

/-- An integer as a JSON value. -/
def ofInt (n : Int) : Json := .number (.integer n)

/-- A string, or `null` where there is none. -/
def ofString? : Option String → Json
  | some s => .string s
  | none => .null

/-- The value of a key. -/
def Members.get? (members : Members) (key : String) : Option Json := members.lookup key

/-- Of the members of one key, only the last. -/
def Members.settle : Members → Members
  | [] => []
  | (key, value) :: rest =>
    if rest.any (·.1 == key) then Members.settle rest else (key, value) :: Members.settle rest

/-- The members of both, those of `extra` winning. -/
def Members.overwrite (members extra : Members) : Members := Members.settle (members ++ extra)

/-- A key as the text that stands for it in an object; arrays, objects and `null` cannot be keys. -/
def keyText? : Json → Option String
  | .string s => some s
  | .number (.integer n) => some (String.ofList (Numeral.integer n))
  | .bool true => some "true"
  | .bool false => some "false"
  | _ => none

/-- A table as an object, if every key can be written as a text. -/
def ofTable? (entries : List (Json × Json)) : Option Json :=
  (entries.mapM fun entry => (keyText? entry.1).map (·, entry.2)).map .object

@[simp] theorem Members.settle_nil : Members.settle [] = [] := rfl

end Json

end EventJournal
