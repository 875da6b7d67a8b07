import EventJournal.Proofs.Calendar.Written
import EventJournal.Proofs.Json.Members
import EventJournal.Proofs.Json.Written
import EventJournal.Proofs.Text.Identifiers

/-!
# Written fields read back

Each kind of field is read back from the form that it is written in, and a field that is written
once stands once among the members of the object.

* `string?_toForm`, `uuid?_ofUuid`, `time?_ofTime`, `integer?_ofInt`: single values;
* `written`, the members of an object as they are written;
* `once_of_written`, a field that has to be there; `perhaps_ofString?`, `perhaps_ofUuid?`, fields
  that may be `null`.
-/

namespace EventJournal.Json

/-! ### Single values -/

@[simp] theorem string?_toForm (s : String) : (toForm (.string s)).string? = some s :=
  pieceString?_piecesOf s

@[simp] theorem uuid?_ofUuid (u : Uuid) : (toForm (ofUuid u)).uuid? = some u := by
  rw [Form.uuid?, ofUuid, string?_toForm, Option.bind_some, Uuid.ofString?_toString]

@[simp] theorem time?_ofTime (t : Time) : (toForm (ofTime t)).time? = some t := by
  rw [Form.time?, ofTime, string?_toForm, Option.bind_some, Time.ofString?_toString]

theorem integer?_ofInt {n least greatest : Int} (fits : FitsWord n) (hleast : least ≤ n)
    (hgreatest : n ≤ greatest) : (toForm (ofInt n)).integer? least greatest = some n := by
  rw [ofInt, toForm, Form.integer?, NumberForm.value?_ofInt fits]
  simp only [hleast, hgreatest, and_self, if_true]

/-! ### Objects -/

/-- The members of an object as they are written. -/
def written (members : Members) : List (String × Form) :=
  members.map fun member => (member.1, member.2.toForm)

theorem members?_memberForms (members : Members) :
    (Form.object (memberForms members)).members? = some (written members) := by
  show (memberForms members).mapM (fun member => (pieceString? member.1).map (·, member.2)) = _
  induction members with
  | nil => rfl
  | cons member rest ih =>
    obtain ⟨key, value⟩ := member
    simp [memberForms, written, List.mapM_cons, ih]

variable {members : Members} {name : String} {value : Json}

theorem under_written (members : Members) (name : String) :
    under (written members) name =
      ((members.filter (·.1 == name)).map Prod.snd).map toForm := by
  simp [under, written, List.filter_map, Function.comp_def]

/-- A field that is written once stands once. -/
theorem once_of_written {tells : Form → Prop}
    (h : (members.filter (·.1 == name)).map Prod.snd = [value]) (htells : tells value.toForm) :
    Once (written members) name tells :=
  ⟨value.toForm, by rw [under_written, h]; rfl, htells⟩

/-- A string that may be missing is written as `null` where there is none. -/
theorem perhaps_ofString? {s : Option String}
    (h : (members.filter (·.1 == name)).map Prod.snd = [ofString? s]) :
    Perhaps (written members) name Form.string? s := by
  cases s with
  | none => exact .inr (once_of_written h rfl)
  | some s => exact once_of_written h (string?_toForm s)

/-- A UUID that may be missing is written as `null` where there is none. -/
theorem perhaps_ofUuid? {u : Option Uuid}
    (h : (members.filter (·.1 == name)).map Prod.snd = [ofUuid? u]) :
    Perhaps (written members) name Form.uuid? u := by
  cases u with
  | none => exact .inr (once_of_written h rfl)
  | some u => exact once_of_written h (uuid?_ofUuid u)

/-! ### Plain values -/

theorem plain_ofString? (s : Option String) : (ofString? s).Plain := by
  cases s <;> trivial

theorem plain_ofUuid? (u : Option Uuid) : (ofUuid? u).Plain := by
  cases u <;> trivial

/-- A value of a named variant is plain if its content is. -/
theorem plain_tagged {variant : String} {content : Members} (plain : PlainMembers content)
    (names : (content.map Prod.fst).Nodup) : (tagged variant content).Plain :=
  ⟨⟨trivial, ⟨plain, names⟩, trivial⟩, by simp⟩

end EventJournal.Json
