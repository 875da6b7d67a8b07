import EventJournal.Proofs.Json.Reading
import EventJournal.Proofs.Json.Strings

/-!
# Written values read back

The compact text of a value spells the form that it was written in, and that form stands for the
value. This holds of plain values: without floating-point numbers, with integers that fit a word and
with keys that differ.

* `Plain`, the values that are read back; `toForm`, the form in which a value is written;
* `spelled_toText`, that the text of a value spells its form, by recursion over the value.

The main statements are `Form.read_toText` and `Form.toJson?_toForm`.
-/

namespace EventJournal.Json

open Numeral (natural)

/-- Integers that fit a word with or without a sign. -/
def FitsWord (n : Int) : Prop := -9223372036854775808 ≤ n ∧ n ≤ 18446744073709551615

mutual

/-- A value without floating-point numbers, with integers that fit a word and keys that differ. -/
def Plain : Json → Prop
  | .null | .bool _ | .string _ => True
  | .number (.integer n) => FitsWord n
  | .number (.real _) => False
  | .array elements => PlainElements elements
  | .object members => PlainMembers members ∧ (members.map Prod.fst).Nodup

/-- Plain elements of an array. -/
def PlainElements : List Json → Prop
  | [] => True
  | element :: rest => element.Plain ∧ PlainElements rest

/-- Members of an object with plain values. -/
def PlainMembers : List (String × Json) → Prop
  | [] => True
  | (_, value) :: rest => value.Plain ∧ PlainMembers rest

end

/-- The numeral of an integer. -/
def NumberForm.ofInt (n : Int) : NumberForm := ⟨decide (n < 0), natural n.natAbs, [], none⟩

mutual

/-- The form in which a plain value is written. -/
def toForm : Json → Form
  | .null => .null
  | .bool b => .bool b
  | .number (.integer n) => .number (.ofInt n)
  | .number (.real _) => .null
  | .string s => .string (piecesOf s)
  | .array elements => .array (elementForms elements)
  | .object members => .object (memberForms members)

/-- The forms of the elements of an array. -/
def elementForms : List Json → List Form
  | [] => []
  | element :: rest => element.toForm :: elementForms rest

/-- The forms of the members of an object. -/
def memberForms : List (String × Json) → List (List Piece × Form)
  | [] => []
  | (key, value) :: rest => (piecesOf key, value.toForm) :: memberForms rest

end

/-! ### Numbers -/

/-- The digits of a natural number have no zero in front. -/
theorem wholeDigits_natural (n : Nat) : WholeDigits (natural n) := by
  refine ⟨⟨Numeral.natural_ne_nil n, fun c => Numeral.isDigit_of_mem_natural⟩, fun tail heq => ?_⟩
  rcases Nat.eq_zero_or_pos n with rfl | hpos
  · exact (List.cons.inj heq).2.symm
  · obtain ⟨c, more, hdigits, hc⟩ := Numeral.exists_natural_cons hpos
    rw [hdigits] at heq
    exact (hc (List.cons.inj heq).1).elim

/-- An integer is written as its numeral is spelled. -/
theorem NumberForm.spelled_ofInt (n : Int) : (NumberForm.ofInt n).Spelled (Numeral.integer n) := by
  have hspelled := Spelled.intro (n := .ofInt n) (wholeDigits_natural n.natAbs) .none .none
  simp only [List.append_nil] at hspelled
  cases n with
  | ofNat m =>
    have hsign : (NumberForm.ofInt (.ofNat m)).negative = false :=
      decide_eq_false (Int.not_lt.2 (Int.natCast_nonneg m))
    rwa [hsign] at hspelled
  | negSucc m =>
    have hsign : (NumberForm.ofInt (.negSucc m)).negative = true :=
      decide_eq_true (Int.negSucc_lt_zero m)
    rwa [hsign] at hspelled

/-- The numeral of an integer that fits a word stands for it. -/
theorem NumberForm.value?_ofInt {n : Int} (h : FitsWord n) :
    (NumberForm.ofInt n).value? = some (.integer n) := by
  obtain ⟨hleast, hgreatest⟩ := h
  unfold NumberForm.value? NumberForm.ofInt
  simp only [Numeral.value_natural, List.isEmpty_nil, Option.isNone_none, Bool.and_self, if_true,
    Bool.and_eq_true, decide_eq_true_eq]
  by_cases hneg : n < 0
  · have hpos : 0 < n.natAbs := by omega
    have hfits : n.natAbs ≤ Nat.pow 2 63 := by
      show n.natAbs ≤ 9223372036854775808
      omega
    have hback : -((n.natAbs : Nat) : Int) = n := by omega
    rw [if_pos hneg, if_pos ⟨hpos, hfits⟩, hback]
  · have hfits : n.natAbs ≤ maxWord := by
      rw [maxWord]
      omega
    have hback : ((n.natAbs : Nat) : Int) = n := by omega
    rw [if_neg hneg, if_pos hfits, hback]

/-! ### Values -/

open Json.toText (elementsText membersText)

theorem Blank.nil : Blank [] := by simp [Blank]

/-- Blanks are allowed, but none are needed. -/
theorem Form.Spelled.laid {form : Form} {s : List Char} (h : form.Spelled s) : form.Laid s := by
  have hlaid : form.Laid ([] ++ (s ++ [])) := .intro .nil h .nil
  simpa using hlaid

theorem nameLaid_quote (name : String) : NameLaid (piecesOf name) (quote name) := by
  have hlaid := NameLaid.intro .nil (piecesSpelled_escape name) .nil
  exact hlaid

mutual

/-- A written value spells its form. -/
theorem spelled_toText (j : Json) (plain : j.Plain) : j.toForm.Spelled j.toText := by
  match j with
  | .null => exact .null
  | .bool true => exact .bool_true
  | .bool false => exact .bool_false
  | .number (.integer n) => exact .number (NumberForm.spelled_ofInt n)
  | .number (.real _) => exact plain.elim
  | .string s => exact .string (piecesSpelled_escape s)
  | .array [] => exact .emptyArray .nil
  | .array (element :: rest) =>
    exact .array (elementsLaid_elementsText (element :: rest) (by simp) plain)
  | .object [] => exact .emptyObject .nil
  | .object (member :: rest) =>
    exact .object (membersLaid_membersText (member :: rest) (by simp) plain.1)

/-- Written elements are laid out without blanks. -/
theorem elementsLaid_elementsText (elements : List Json) (hne : elements ≠ [])
    (plain : PlainElements elements) :
    ElementsLaid (elementForms elements) (elementsText elements) := by
  match elements with
  | [] => exact (hne rfl).elim
  | [element] => exact .last (spelled_toText element plain.1).laid
  | element :: next :: rest =>
    exact .next (spelled_toText element plain.1).laid
      (elementsLaid_elementsText (next :: rest) (by simp) plain.2)

/-- Written members are laid out without blanks. -/
theorem membersLaid_membersText (members : List (String × Json)) (hne : members ≠ [])
    (plain : PlainMembers members) :
    MembersLaid (memberForms members) (membersText members) := by
  match members with
  | [] => exact (hne rfl).elim
  | [(name, value)] => exact .last (nameLaid_quote name) (spelled_toText value plain.1).laid
  | (name, value) :: next :: rest =>
    exact .next (nameLaid_quote name) (spelled_toText value plain.1).laid
      (membersLaid_membersText (next :: rest) (by simp) plain.2)

end

/-- A written value is read as its form. -/
theorem Form.read_toText {j : Json} (plain : j.Plain) : Form.read j.toText = some j.toForm :=
  Form.read_eq_some_iff.2 (spelled_toText j plain).laid

/-! ### What a form stands for -/

theorem settle_of_nodup {members : Members} (h : (members.map Prod.fst).Nodup) :
    members.settle = members := by
  induction members with
  | nil => rfl
  | cons member rest ih =>
    obtain ⟨key, value⟩ := member
    rw [List.map_cons, List.nodup_cons] at h
    have hany : (rest.any fun other => other.1 == key) = false := by
      rw [List.any_eq_false]
      intro other hother heq
      exact h.1 (eq_of_beq heq ▸ List.mem_map.2 ⟨other, hother, rfl⟩)
    rw [Members.settle, hany, ih h.2]
    rfl

mutual

/-- The form of a plain value stands for it. -/
theorem Form.toJson?_toForm (j : Json) (plain : j.Plain) : j.toForm.toJson? = some j := by
  match j with
  | .null => rfl
  | .bool b => rfl
  | .number (.integer n) =>
    rw [toForm, Form.toJson?, NumberForm.value?_ofInt plain]
    rfl
  | .number (.real _) => exact plain.elim
  | .string s =>
    rw [toForm, Form.toJson?, pieceString?_piecesOf]
    rfl
  | .array elements =>
    rw [toForm, Form.toJson?, elementValues?_elementForms elements plain]
    rfl
  | .object members =>
    rw [toForm, Form.toJson?, memberValues?_memberForms members plain.1, Option.map_some,
      settle_of_nodup plain.2]

theorem elementValues?_elementForms (elements : List Json) (plain : PlainElements elements) :
    Form.toJson?.elementValues? (elementForms elements) = some elements := by
  match elements with
  | [] => rfl
  | element :: rest =>
    rw [elementForms, Form.toJson?.elementValues?, Form.toJson?_toForm element plain.1,
      elementValues?_elementForms rest plain.2]
    rfl

theorem memberValues?_memberForms (members : List (String × Json)) (plain : PlainMembers members) :
    Form.toJson?.memberValues? (memberForms members) = some members := by
  match members with
  | [] => rfl
  | (key, value) :: rest =>
    rw [memberForms, Form.toJson?.memberValues?, pieceString?_piecesOf,
      Form.toJson?_toForm value plain.1, memberValues?_memberForms rest plain.2]
    rfl

end

/-- The text of a written value is laid out as its form. -/
theorem laid_toString {j : Json} (plain : j.Plain) : j.toForm.Laid j.toString.toList := by
  rw [Json.toString, String.toList_ofList]
  exact (spelled_toText j plain).laid

/-- The bytes of a written value are read as its form. -/
theorem Form.ofBytes?_toBytes {j : Json} (plain : j.Plain) :
    Form.ofBytes? j.toBytes = some j.toForm :=
  Form.ofBytes?_toUTF8 (laid_toString plain)

/-- A written value is read back from its bytes, unless it is nested too deeply. -/
theorem ofBytes?_toBytes {j : Json} (plain : j.Plain) (depth : j.toForm.depth ≤ maxDepth) :
    ofBytes? j.toBytes = some j := by
  rw [ofBytes?, Form.ofBytes?_toBytes plain, Option.bind_some, Form.value?, if_pos depth,
    Form.toJson?_toForm j plain]

/-- A written value is read back from its text, unless it is nested too deeply. -/
theorem ofString_toString {j : Json} (plain : j.Plain) (depth : j.toForm.depth ≤ maxDepth) :
    ofString j.toString = some j := by
  rw [ofString, Json.toString, String.toList_ofList, Form.read_toText plain, Option.bind_some,
    Form.value?, if_pos depth, Form.toJson?_toForm j plain]

end EventJournal.Json
