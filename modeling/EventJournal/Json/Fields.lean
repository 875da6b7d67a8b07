import EventJournal.Calendar.Reading
import EventJournal.Json.Form
import EventJournal.Json.Writing
import EventJournal.Uuid

/-!
# Reading typed values from JSON forms

How a value of a known shape is read from the form of a text: by the members it needs, in any order,
skipping the ones it does not know. A skipped member only needs to have a form.

* `Form.members?`, `Form.fields?`: the members of an object under their names, known ones once each;
* `required`, `optional`: one field; `null` and absence are the same for an optional one;
* `Form.string?`, `Form.integer?`, `Form.uuid?`, `Form.time?`, `Form.list?`: the values of fields;
* `Form.tagged?`, the variant name and the content of a value that is one of several variants;
* `tagged`, how such a value is written.
-/

namespace EventJournal.Json

namespace Form

/-- The members of an object under their names. -/
def members? : Form → Option (List (String × Form))
  | .object members => members.mapM fun member => (pieceString? member.1).map (·, member.2)
  | _ => none

/-- The members of an object, if none of the known names occurs twice. -/
def fields? (known : List String) (form : Form) : Option (List (String × Form)) :=
  form.members?.bind fun members =>
    if known.all fun name => members.countP (·.1 == name) ≤ 1 then some members else none

/-- The string of a string literal. -/
def string? : Form → Option String
  | .string pieces => pieceString? pieces
  | _ => none

/-- An integer between two bounds; `1.0` and `-0` are none. -/
def integer? (least greatest : Int) : Form → Option Int
  | .number n =>
    match n.value? with
    | some (.integer n) => if least ≤ n ∧ n ≤ greatest then some n else none
    | _ => none
  | _ => none

/-- A UUID in one of its written forms. -/
def uuid? (form : Form) : Option Uuid := form.string?.bind Uuid.ofString?

/-- A time in the relaxed grammar. -/
def time? (form : Form) : Option Time := form.string?.bind Time.ofString?

/-- The elements of an array, each read by `read`. -/
def list? {α : Type} (read : Form → Option α) : Form → Option (List α)
  | .array elements => elements.mapM read
  | _ => none

/-- The name of a variant as a member: a string, or an object whose only member has that name and
the value `null`. -/
def variantName? : Form → Option String
  | .string pieces => pieceString? pieces
  | .object [(name, .null)] => pieceString? name
  | _ => none

/-- Whether the member `data` stands before the member `type`. -/
def contentFirst (members : List (String × Form)) : Bool :=
  (members.takeWhile (·.1 != "type")).any (·.1 == "data")

/-- The variant name and the content, if there is one, of a value that is one of several variants:
an array of both, where the name is a string, or an object with the members `type` and `data`.
Content that stands before its type has to be kept until the type is known, so all of it needs a
value; the object around it is one level of nesting. -/
def tagged? : Form → Option (String × Option Form)
  | .array [.string pieces, content] => (pieceString? pieces).map (·, some content)
  | .array _ => none
  | form => do
    let members ← form.fields? ["type", "data"]
    let name ← members.lookup "type"
    let variant ← variantName? name
    match members.lookup "data" with
    | none => some (variant, none)
    | some content =>
      if contentFirst members && (content.value? (maxDepth - 1)).isNone then none
      else some (variant, some content)

end Form

/-- A field that has to be there. -/
def required {α : Type} (read : Form → Option α) (fields : List (String × Form)) (name : String) :
    Option α :=
  (fields.lookup name).bind read

/-- A field that may be missing or `null`. -/
def optional {α : Type} (read : Form → Option α) (fields : List (String × Form)) (name : String) :
    Option (Option α) :=
  match fields.lookup name with
  | none | some .null => some none
  | some form => (read form).map some

/-- A value of a named variant with its content. -/
def tagged (variant : String) (content : Members) : Json :=
  .object [("type", .string variant), ("data", .object content)]

/-- A value of a variant without content. -/
def taggedUnit (variant : String) : Json := .object [("type", .string variant)]

/-- A UUID as a JSON value. -/
def ofUuid (u : Uuid) : Json := .string u.toString

/-- A time as a JSON value, with the shortest fraction. -/
def ofTime (t : Time) : Json := .string t.toString

/-- A UUID, or `null` where there is none. -/
def ofUuid? : Option Uuid → Json
  | some u => ofUuid u
  | none => .null

end EventJournal.Json
