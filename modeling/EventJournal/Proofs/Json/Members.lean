import EventJournal.Json.Fields
import Mathlib.Data.List.Basic

/-!
# Members in any order

What the members of an object say of a name, whatever their order and whatever stands between them;
and which forms can be kept until it is known what they are for.

* `under`, the values of the members of a name;
* `Once`, a name with one value; `Perhaps`, a name that may be missing or `null`;
* `required_of_once`, `optional_of_perhaps`: how fields are read from such members;
* `Form.fields?_of_once`, `Form.fields?_of_twice`: when an object is refused for its names;
* `Form.Kept`, the forms that can be kept, by how they are put together.
-/

namespace EventJournal.Json

/-! ### Names and their values -/

/-- The values of the members of a name, in the order in which they stand. -/
def under (members : List (String × Form)) (name : String) : List Form :=
  (members.filter (·.1 == name)).map Prod.snd

/-- A name stands once among the members, with a value of some kind. -/
def Once (members : List (String × Form)) (name : String) (tells : Form → Prop) : Prop :=
  ∃ form, under members name = [form] ∧ tells form

/-- A name stands once among the members with a value that reads as some value; where there is none,
it is missing or stands once with `null`. -/
def Perhaps {α : Type} (members : List (String × Form)) (name : String)
    (read : Form → Option α) : Option α → Prop
  | some value => Once members name (read · = some value)
  | none => under members name = [] ∨ Once members name (· = .null)

section Fields

variable {α : Type} {members : List (String × Form)} {name : String} {read : Form → Option α}

@[simp] theorem under_nil (name : String) : under [] name = [] := rfl

theorem under_cons (member : String × Form) (rest : List (String × Form)) (name : String) :
    under (member :: rest) name =
      if member.1 = name then member.2 :: under rest name else under rest name := by
  by_cases h : member.1 = name <;> simp [under, h]

theorem mem_under_iff {form : Form} : form ∈ under members name ↔ (name, form) ∈ members := by
  simp [under]

/-- The first value of a name is the one that is looked up. -/
theorem lookup_eq_head?_under (members : List (String × Form)) (name : String) :
    members.lookup name = (under members name).head? := by
  induction members with
  | nil => rfl
  | cons member rest ih =>
    rw [List.lookup_cons, under_cons, ih]
    by_cases h : member.1 = name
    · subst h
      simp
    · have hne : (name == member.1) = false := by simpa using Ne.symm h
      simp only [hne, if_neg h]

theorem length_under (members : List (String × Form)) (name : String) :
    (under members name).length = members.countP (·.1 == name) := by
  rw [under, List.length_map, List.countP_eq_length_filter]

theorem lookup_of_once {tells : Form → Prop} (h : Once members name tells) :
    ∃ form, members.lookup name = some form ∧ tells form := by
  obtain ⟨form, hunder, htells⟩ := h
  exact ⟨form, by rw [lookup_eq_head?_under, hunder]; rfl, htells⟩

theorem Once.imp {tells tells' : Form → Prop} (h : Once members name tells)
    (himp : ∀ form, tells form → tells' form) : Once members name tells' := by
  obtain ⟨form, hunder, htells⟩ := h
  exact ⟨form, hunder, himp form htells⟩

theorem Once.length_le {tells : Form → Prop} (h : Once members name tells) :
    (under members name).length ≤ 1 := by
  obtain ⟨form, hunder, -⟩ := h
  simp [hunder]

theorem Perhaps.length_le {value : Option α} (h : Perhaps members name read value) :
    (under members name).length ≤ 1 := by
  cases value with
  | some value => exact Once.length_le h
  | none =>
    rcases h with h | h
    · simp [h]
    · exact h.length_le

/-- A field that stands once is read. -/
theorem required_of_once {value : α} (h : Once members name (read · = some value)) :
    required read members name = some value := by
  obtain ⟨form, hlookup, hread⟩ := lookup_of_once h
  rw [required, hlookup, Option.bind_some, hread]

/-- A field that may be missing is read, unless `null` has a meaning of its own. -/
theorem optional_of_perhaps (hnull : read .null = none) {value : Option α}
    (h : Perhaps members name read value) : optional read members name = some value := by
  rw [optional]
  cases value with
  | none =>
    rcases h with h | h
    · rw [lookup_eq_head?_under, h]
      rfl
    · obtain ⟨form, hlookup, rfl⟩ := lookup_of_once h
      rw [hlookup]
  | some value =>
    obtain ⟨form, hlookup, hread⟩ := lookup_of_once h
    rw [hlookup]
    split
    · next heq => simp at heq
    · next heq =>
      rw [Option.some.inj heq, hnull] at hread
      simp at hread
    · next heq =>
      rw [← Option.some.inj heq, hread]
      rfl

end Fields

namespace Form

variable {form : Form} {members : List (String × Form)} {known : List String} {limit : Nat}

/-- Members are taken as they are where no known name stands twice. -/
theorem fields?_of_once (known : List String) (named : form.members? = some members)
    (once : ∀ name ∈ known, (under members name).length ≤ 1) :
    form.fields? known = some members := by
  rw [fields?, named, Option.bind_some, if_pos]
  rw [List.all_eq_true]
  intro name hname
  rw [decide_eq_true_eq, ← length_under]
  exact once name hname

/-- An object is refused where a known name stands twice. -/
theorem fields?_of_twice (named : form.members? = some members) {name : String}
    (hname : name ∈ known) (twice : 2 ≤ (under members name).length) :
    form.fields? known = none := by
  rw [fields?, named, Option.bind_some, if_neg]
  rw [List.all_eq_true]
  intro hall
  have hone := of_decide_eq_true (hall name hname)
  rw [← length_under] at hone
  omega

/-! ### Forms that can be kept -/

/-- A form that can be kept until it is known what it is for: its numbers are in range, its strings
are texts, and it is not nested too deeply. -/
def Kept (limit : Nat) (form : Form) : Prop := form.depth ≤ limit ∧ form.toJson?.isSome = true

theorem kept_iff : form.Kept limit ↔ (form.value? limit).isSome = true := by
  rw [Kept, value?]
  split
  · next h => simp [h]
  · next h => simp [h]

theorem Kept.mono {limit' : Nat} (h : form.Kept limit) (hle : limit ≤ limit') :
    form.Kept limit' :=
  ⟨Nat.le_trans h.1 hle, h.2⟩

theorem kept_null : Form.null.Kept limit := ⟨Nat.zero_le _, rfl⟩

/-- What reads as a string can be kept. -/
theorem kept_of_string? {s : String} (h : form.string? = some s) : form.Kept limit := by
  cases form with
  | string pieces =>
    refine ⟨Nat.zero_le _, ?_⟩
    have hpieces : pieceString? pieces = some s := h
    rw [toJson?, hpieces]
    rfl
  | _ => simp [string?] at h

theorem kept_of_uuid? {u : Uuid} (h : form.uuid? = some u) : form.Kept limit := by
  obtain ⟨s, hs, -⟩ := Option.bind_eq_some_iff.1 h
  exact kept_of_string? hs

theorem kept_of_time? {t : Time} (h : form.time? = some t) : form.Kept limit := by
  obtain ⟨s, hs, -⟩ := Option.bind_eq_some_iff.1 h
  exact kept_of_string? hs

/-- What reads as an integer can be kept. -/
theorem kept_of_integer? {least greatest n : Int} (h : form.integer? least greatest = some n) :
    form.Kept limit := by
  cases form with
  | number numeral =>
    refine ⟨Nat.zero_le _, ?_⟩
    rw [toJson?, Option.isSome_map]
    rw [integer?] at h
    split at h
    · next hvalue => rw [hvalue]; rfl
    · simp at h
  | _ => simp [integer?] at h

/-- An array can be kept if all its elements can. -/
theorem kept_array {elements : List Form} (h : ∀ element ∈ elements, element.Kept limit) :
    (Form.array elements).Kept (limit + 1) := by
  have hparts : depth.elementDepth elements ≤ limit ∧
      (toJson?.elementValues? elements).isSome = true := by
    induction elements with
    | nil => exact ⟨Nat.zero_le _, rfl⟩
    | cons element rest ih =>
      obtain ⟨hdepth, hvalue⟩ := h element (List.mem_cons_self ..)
      obtain ⟨hdepths, hvalues⟩ := ih fun e he => h e (List.mem_cons_of_mem _ he)
      obtain ⟨value, hvalue⟩ := Option.isSome_iff_exists.1 hvalue
      obtain ⟨values, hvalues⟩ := Option.isSome_iff_exists.1 hvalues
      refine ⟨Nat.max_le.2 ⟨hdepth, hdepths⟩, ?_⟩
      simp [toJson?.elementValues?, hvalue, hvalues]
  refine ⟨Nat.succ_le_succ hparts.1, ?_⟩
  rw [toJson?, Option.isSome_map]
  exact hparts.2

/-- An object whose keys are texts can be kept if all its members can. -/
theorem kept_object {parts : List (List Piece × Form)}
    (named : (Form.object parts).members? = some members)
    (h : ∀ member ∈ members, member.2.Kept limit) : (Form.object parts).Kept (limit + 1) := by
  have hparts : depth.memberDepth parts ≤ limit ∧
      (toJson?.memberValues? parts).isSome = true := by
    have hnamed : parts.mapM (fun part => (pieceString? part.1).map (·, part.2)) = some members :=
      named
    clear named
    induction parts generalizing members with
    | nil => exact ⟨Nat.zero_le _, rfl⟩
    | cons part rest ih =>
      obtain ⟨key, form⟩ := part
      rw [List.mapM_cons] at hnamed
      simp only [Option.pure_def, Option.bind_eq_bind, Option.bind_eq_some_iff,
        Option.map_eq_some_iff] at hnamed
      obtain ⟨member, ⟨name, hname, rfl⟩, others, hothers, heq⟩ := hnamed
      obtain rfl := Option.some.inj heq
      obtain ⟨hdepth, hvalue⟩ := h (name, form) (List.mem_cons_self ..)
      obtain ⟨hdepths, hvalues⟩ := ih (fun m hm => h m (List.mem_cons_of_mem _ hm)) hothers
      obtain ⟨value, hvalue⟩ := Option.isSome_iff_exists.1 hvalue
      obtain ⟨values, hvalues⟩ := Option.isSome_iff_exists.1 hvalues
      refine ⟨Nat.max_le.2 ⟨hdepth, hdepths⟩, ?_⟩
      simp [toJson?.memberValues?, hname, hvalue, hvalues]
  refine ⟨Nat.succ_le_succ hparts.1, ?_⟩
  rw [toJson?, Option.isSome_map]
  exact hparts.2

end Form

/-! ### What is kept of an object -/

section Kept

variable {α : Type} {members : List (String × Form)} {name : String} {limit : Nat}

/-- A value of a name that stands once is the one that is told of. -/
theorem Once.kept {tells : Form → Prop} (h : Once members name tells)
    (htells : ∀ form, tells form → form.Kept limit) {form : Form} (hmem : (name, form) ∈ members) :
    form.Kept limit := by
  obtain ⟨only, hunder, hone⟩ := h
  rw [← mem_under_iff, hunder, List.mem_singleton] at hmem
  exact hmem ▸ htells only hone

theorem Perhaps.kept {read : Form → Option α} {value : Option α}
    (h : Perhaps members name read value)
    (hread : ∀ form value, read form = some value → form.Kept limit) {form : Form}
    (hmem : (name, form) ∈ members) : form.Kept limit := by
  cases value with
  | some value => exact Once.kept h (fun form => hread form value) hmem
  | none =>
    rcases h with h | h
    · rw [← mem_under_iff, h] at hmem
      simp at hmem
    · refine h.kept ?_ hmem
      rintro _ rfl
      exact Form.kept_null

end Kept

end EventJournal.Json
