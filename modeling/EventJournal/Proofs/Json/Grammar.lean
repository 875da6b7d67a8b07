import EventJournal.Json.Form
import EventJournal.Proofs.Text.Numerals
import Mathlib.Data.List.DropRight

/-!
# The grammar of JSON texts

Which texts spell a form, told without the reader: any blanks between the parts, any characters
escaped or not, members in any order. String literals and numerals are read exactly as they are
spelled.

* `Piece.Spelled`, `NumberForm.Spelled`: the parts of string literals and numerals;
* `Form.Spelled`, a form as it begins and ends, and `Form.Laid`, with blanks around it;
* `Ends`, what may follow a value inside a text.

The main statements are `readString_of_piecesSpelled` and `piecesSpelled_of_readString`,
`readNumber_of_spelled` and `spelled_of_readNumber`.
-/

namespace EventJournal.Json

/-- Nothing but blanks. -/
def Blank (s : List Char) : Prop := ∀ c ∈ s, isSpace c = true

/-! ### The grammar -/

/-- How a part of a string literal is spelled. -/
inductive Piece.Spelled : Piece → List Char → Prop
  | plain {c : Char} (quote : c ≠ '"') (slash : c ≠ '\\') (control : ¬ c.toNat < 0x20) :
      Spelled (.char c) [c]
  | short {e c : Char} (escape : shortEscape? e = some c) : Spelled (.char c) ['\\', e]
  | unit {a b c d : Char} {code : Nat} (digits : unit? a b c d = some code) :
      Spelled (.unit code) ['\\', 'u', a, b, c, d]

/-- How the pieces of a string literal are spelled between the quotes. -/
inductive PiecesSpelled : List Piece → List Char → Prop
  | nil : PiecesSpelled [] []
  | cons {p : Piece} {pieces : List Piece} {s t : List Char} (piece : p.Spelled s)
      (rest : PiecesSpelled pieces t) : PiecesSpelled (p :: pieces) (s ++ t)

/-- At least one digit, and nothing else. -/
def Digits (s : List Char) : Prop := s ≠ [] ∧ ∀ c ∈ s, c.isDigit = true

/-- The digits before the point: none but a single zero starts with one. -/
def WholeDigits (s : List Char) : Prop := Digits s ∧ ∀ tail, s = '0' :: tail → tail = []

/-- A point with digits behind it, or nothing. -/
inductive FractionSpelled : List Char → List Char → Prop
  | none : FractionSpelled [] []
  | point {digits : List Char} (some_digits : Digits digits) :
      FractionSpelled digits ('.' :: digits)

/-- The sign of an exponent: a minus, a plus or nothing. -/
inductive SignSpelled : Bool → List Char → Prop
  | minus : SignSpelled true ['-']
  | plus : SignSpelled false ['+']
  | none : SignSpelled false []

/-- The mark of an exponent with a sign and digits behind it, or nothing. -/
inductive ExponentSpelled : Option (Bool × List Char) → List Char → Prop
  | none : ExponentSpelled none []
  | mark {c : Char} {negative : Bool} {sign digits : List Char} (letter : c = 'e' ∨ c = 'E')
      (signed : SignSpelled negative sign) (some_digits : Digits digits) :
      ExponentSpelled (some (negative, digits)) (c :: (sign ++ digits))

/-- The sign of a numeral. -/
def minusText (negative : Bool) : List Char := if negative then ['-'] else []

/-- How a numeral is spelled. -/
inductive NumberForm.Spelled : NumberForm → List Char → Prop
  | intro {n : NumberForm} {fraction exponent : List Char} (whole : WholeDigits n.whole)
      (fraction_spelled : FractionSpelled n.fraction fraction)
      (exponent_spelled : ExponentSpelled n.exponent exponent) :
      Spelled n (minusText n.negative ++ (n.whole ++ (fraction ++ exponent)))

/-- A name with blanks around it. -/
inductive NameLaid : List Piece → List Char → Prop
  | intro {pieces : List Piece} {before s after : List Char} (blank_before : Blank before)
      (spelled : PiecesSpelled pieces s) (blank_after : Blank after) :
      NameLaid pieces (before ++ '"' :: (s ++ '"' :: after))

mutual

/-- How a form is spelled, from its first character to its last. -/
inductive Form.Spelled : Form → List Char → Prop
  | null : Form.Spelled .null ['n', 'u', 'l', 'l']
  | bool_true : Form.Spelled (.bool true) ['t', 'r', 'u', 'e']
  | bool_false : Form.Spelled (.bool false) ['f', 'a', 'l', 's', 'e']
  | number {n : NumberForm} {s : List Char} (spelled : n.Spelled s) : Form.Spelled (.number n) s
  | string {pieces : List Piece} {s : List Char} (spelled : PiecesSpelled pieces s) :
      Form.Spelled (.string pieces) ('"' :: (s ++ ['"']))
  | emptyArray {s : List Char} (blank : Blank s) : Form.Spelled (.array []) ('[' :: (s ++ [']']))
  | array {elements : List Form} {s : List Char} (laid : ElementsLaid elements s) :
      Form.Spelled (.array elements) ('[' :: (s ++ [']']))
  | emptyObject {s : List Char} (blank : Blank s) :
      Form.Spelled (.object []) ('\x7b' :: (s ++ ['\x7d']))
  | object {members : List (List Piece × Form)} {s : List Char} (laid : MembersLaid members s) :
      Form.Spelled (.object members) ('\x7b' :: (s ++ ['\x7d']))

/-- A form with blanks around it. -/
inductive Form.Laid : Form → List Char → Prop
  | intro {form : Form} {before s after : List Char} (blank_before : Blank before)
      (spelled : form.Spelled s) (blank_after : Blank after) :
      Form.Laid form (before ++ (s ++ after))

/-- The elements of an array, at least one, with commas between them. -/
inductive ElementsLaid : List Form → List Char → Prop
  | last {form : Form} {s : List Char} (laid : Form.Laid form s) : ElementsLaid [form] s
  | next {form : Form} {rest : List Form} {s t : List Char} (laid : Form.Laid form s)
      (more : ElementsLaid rest t) : ElementsLaid (form :: rest) (s ++ ',' :: t)

/-- The members of an object, at least one, with commas between them. -/
inductive MembersLaid : List (List Piece × Form) → List Char → Prop
  | last {name : List Piece} {form : Form} {s t : List Char} (named : NameLaid name s)
      (laid : Form.Laid form t) : MembersLaid [(name, form)] (s ++ ':' :: t)
  | next {name : List Piece} {form : Form} {rest : List (List Piece × Form)} {s t u : List Char}
      (named : NameLaid name s) (laid : Form.Laid form t) (more : MembersLaid rest u) :
      MembersLaid ((name, form) :: rest) (s ++ ':' :: (t ++ ',' :: u))

end

/-! ### Blanks -/

theorem skipSpace_cons {c : Char} (h : isSpace c = false) (tail : List Char) :
    skipSpace (c :: tail) = c :: tail := by
  rw [skipSpace, List.dropWhile_cons, h]
  rfl

theorem skipSpace_append {blanks : List Char} (h : Blank blanks) (s : List Char) :
    skipSpace (blanks ++ s) = skipSpace s :=
  List.dropWhile_append_of_pos h

@[simp] theorem skipSpace_skipSpace (s : List Char) : skipSpace (skipSpace s) = skipSpace s :=
  List.dropWhile_idempotent ..

/-- What is skipped at the start of a text are blanks. -/
theorem exists_blank (s : List Char) : ∃ blanks, Blank blanks ∧ s = blanks ++ skipSpace s :=
  ⟨s.takeWhile isSpace, fun _ => List.mem_takeWhile_imp, (List.takeWhile_append_dropWhile ..).symm⟩

/-- What may follow a value inside a text: a blank, a comma, a closing bracket, or nothing. -/
def Ends (rest : List Char) : Prop :=
  ∀ c tail, rest = c :: tail → isSpace c = true ∨ c ∈ [',', ']', '\x7d']

theorem ends_nil : Ends [] := by
  intro c tail h
  simp at h

theorem ends_cons {c : Char} (h : c ∈ [',', ']', '\x7d']) (tail : List Char) :
    Ends (c :: tail) := by
  intro d rest heq
  obtain ⟨rfl, -⟩ := List.cons.inj heq
  exact .inr h

theorem Ends.append {blanks rest : List Char} (blank : Blank blanks) (h : Ends rest) :
    Ends (blanks ++ rest) := by
  cases blanks with
  | nil => exact h
  | cons c tail =>
    intro d rest heq
    obtain ⟨rfl, -⟩ := List.cons.inj heq
    exact .inl (blank _ (List.mem_cons_self ..))

/-- What follows a value goes on with neither a digit, nor a point, nor an exponent. -/
theorem Ends.ne {rest : List Char} (h : Ends rest) {c : Char} {tail : List Char}
    (heq : rest = c :: tail) : c.isDigit = false ∧ c ∉ ['.', 'e', 'E'] := by
  rcases h c tail heq with hspace | hclose
  · simp only [isSpace, Bool.or_eq_true, beq_iff_eq] at hspace
    rcases hspace with ((rfl | rfl) | rfl) | rfl <;> decide
  · simp only [List.mem_cons, List.not_mem_nil, or_false] at hclose
    rcases hclose with rfl | rfl | rfl <;> decide

theorem Ends.noDigit {rest : List Char} (h : Ends rest) : NoDigit rest :=
  fun _ _ heq => (h.ne heq).1

/-! ### String literals -/

/-- A character that needs no escape is read as itself. -/
theorem readString_cons_plain {c : Char} (hquote : c ≠ '"') (hslash : c ≠ '\\')
    (hcontrol : ¬ c.toNat < 0x20) (s : List Char) :
    readString (c :: s) = (readString s).map fun (pieces, rest) => (.char c :: pieces, rest) := by
  rw [readString.eq_def]
  split
  · next heq => simp at heq
  · next heq => exact (hquote (List.cons.inj heq).1).elim
  · next heq => exact (hslash (List.cons.inj heq).1).elim
  · next heq => exact (hslash (List.cons.inj heq).1).elim
  · next d rest _ _ _ heq =>
    obtain ⟨rfl, rfl⟩ := List.cons.inj heq
    rw [if_neg (by simp [hcontrol, hslash])]
    cases readString s <;> rfl

theorem readString_cons_escape {e c : Char} (h : shortEscape? e = some c) (hu : e ≠ 'u')
    (s : List Char) :
    readString ('\\' :: e :: s) =
      (readString s).map fun (pieces, rest) => (.char c :: pieces, rest) := by
  rw [readString.eq_def]
  split
  · next heq => simp at heq
  · next heq => simp at heq
  · next heq =>
    obtain ⟨-, heq⟩ := List.cons.inj heq
    exact (hu (List.cons.inj heq).1).elim
  · next d rest _ heq =>
    obtain ⟨-, heq⟩ := List.cons.inj heq
    obtain ⟨rfl, rfl⟩ := List.cons.inj heq
    simp only [h, bind, Option.bind]
    cases readString s <;> rfl
  · next hne heq =>
    obtain ⟨rfl, rfl⟩ := List.cons.inj heq
    exact (hne _ _ rfl rfl).elim

theorem readString_of_spelled {p : Piece} {s : List Char} (h : p.Spelled s) (rest : List Char) :
    readString (s ++ rest) =
      (readString rest).map fun (pieces, rest) => (p :: pieces, rest) := by
  cases h with
  | plain quote slash control => exact readString_cons_plain quote slash control rest
  | @short e c escape =>
    have hu : e ≠ 'u' := by
      rintro rfl
      simp [shortEscape?] at escape
    exact readString_cons_escape escape hu rest
  | @unit a b c d code digits =>
    show readString ('\\' :: 'u' :: a :: b :: c :: d :: rest) = _
    rw [readString, digits]
    cases readString rest <;> rfl

/-- The pieces between the quotes are read up to the closing one. -/
theorem readString_of_piecesSpelled {pieces : List Piece} {s : List Char}
    (h : PiecesSpelled pieces s) (rest : List Char) :
    readString (s ++ '"' :: rest) = some (pieces, rest) := by
  induction h with
  | nil => rfl
  | cons piece _ ih =>
    rw [List.append_assoc, readString_of_spelled piece, ih]
    rfl

theorem piecesSpelled_of_readString {s rest : List Char} {pieces : List Piece}
    (h : readString s = some (pieces, rest)) :
    ∃ t, PiecesSpelled pieces t ∧ s = t ++ '"' :: rest := by
  induction s using readString.induct generalizing pieces rest with
  | case1 => simp [readString] at h
  | case2 s =>
    obtain ⟨rfl, rfl⟩ := Prod.mk.inj (Option.some.inj h)
    exact ⟨[], .nil, rfl⟩
  | case3 a b c d s ih =>
    simp only [readString, Option.bind_eq_bind, Option.bind_eq_some_iff] at h
    obtain ⟨code, hcode, ⟨read, s'⟩, hread, heq⟩ := h
    obtain ⟨rfl, rfl⟩ := Prod.mk.inj (Option.some.inj heq)
    obtain ⟨t, ht, rfl⟩ := ih hread
    exact ⟨_, .cons (.unit hcode) ht, rfl⟩
  | case4 e s hu ih =>
    rw [readString.eq_4 _ _ hu] at h
    simp only [Option.bind_eq_bind, Option.bind_eq_some_iff] at h
    obtain ⟨c, hc, ⟨read, s'⟩, hread, heq⟩ := h
    obtain ⟨rfl, rfl⟩ := Prod.mk.inj (Option.some.inj heq)
    obtain ⟨t, ht, rfl⟩ := ih hread
    exact ⟨_, .cons (.short hc) ht, rfl⟩
  | case5 c s hquote hunit hescape hbad =>
    rw [readString.eq_5 _ _ hquote hunit hescape, if_pos hbad] at h
    simp at h
  | case6 c s hquote hunit hescape hgood ih =>
    rw [readString.eq_5 _ _ hquote hunit hescape, if_neg hgood] at h
    simp only [Option.bind_eq_bind, Option.bind_eq_some_iff] at h
    obtain ⟨⟨read, s'⟩, hread, heq⟩ := h
    obtain ⟨rfl, rfl⟩ := Prod.mk.inj (Option.some.inj heq)
    obtain ⟨t, ht, rfl⟩ := ih hread
    simp only [Bool.or_eq_true, decide_eq_true_eq, beq_iff_eq, not_or] at hgood
    exact ⟨_, .cons (.plain (fun h => hquote h) hgood.2 hgood.1) ht, rfl⟩

/-! ### Numerals -/

theorem isDigit_of_takeWhile {s : List Char} {c : Char} (h : c ∈ s.takeWhile Char.isDigit) :
    c.isDigit = true :=
  List.mem_takeWhile_imp h

theorem FractionSpelled.noDigit {digits s rest : List Char} (h : FractionSpelled digits s)
    (hrest : NoDigit rest) : NoDigit (s ++ rest) := by
  cases h with
  | none => exact hrest
  | point _ => exact noDigit_cons (by decide)

theorem ExponentSpelled.noDigit {exponent : Option (Bool × List Char)} {s rest : List Char}
    (h : ExponentSpelled exponent s) (hrest : NoDigit rest) : NoDigit (s ++ rest) := by
  cases h with
  | none => exact hrest
  | mark letter _ _ => rcases letter with rfl | rfl <;> exact noDigit_cons (by decide)

theorem ExponentSpelled.noPoint {exponent : Option (Bool × List Char)} {s rest : List Char}
    (h : ExponentSpelled exponent s) (hrest : Ends rest) (tail : List Char) :
    s ++ rest ≠ '.' :: tail := by
  cases h with
  | none => exact fun heq => (hrest.ne heq).2 (by simp)
  | mark letter _ _ => rcases letter with rfl | rfl <;> simp

theorem readMinus_minusText (negative : Bool) {s : List Char} (h : ∀ tail, s ≠ '-' :: tail) :
    readMinus (minusText negative ++ s) = (negative, s) := by
  cases negative with
  | true => rfl
  | false =>
    show readMinus s = _
    unfold readMinus
    split
    · exact (h _ rfl).elim
    · rfl

theorem readWhole_of_digits {digits rest : List Char} (h : WholeDigits digits)
    (hrest : NoDigit rest) : readWhole (digits ++ rest) = some (digits, rest) := by
  obtain ⟨⟨hne, hdigits⟩, hzero⟩ := h
  have htake := takeWhile_isDigit_append hdigits hrest
  unfold readWhole
  split
  · next s heq =>
    cases digits with
    | nil => exact (hne rfl).elim
    | cons c tail =>
      obtain ⟨rfl, rfl⟩ := List.cons.inj heq
      rw [hzero tail rfl]
      rfl
  · rw [htake]
    cases digits with
    | nil => exact (hne rfl).elim
    | cons c tail => simp

theorem readFractionDigits_of_spelled {digits s rest : List Char} (h : FractionSpelled digits s)
    (hrest : NoDigit rest) (hpoint : ∀ tail, rest ≠ '.' :: tail) :
    readFractionDigits (s ++ rest) = some (digits, rest) := by
  cases h with
  | none =>
    rw [List.nil_append]
    unfold readFractionDigits
    split
    · exact (hpoint _ rfl).elim
    · rfl
  | point some_digits =>
    rw [List.cons_append, readFractionDigits, takeWhile_isDigit_append some_digits.2 hrest]
    split
    · exact (some_digits.1 rfl).elim
    · simp

theorem readExponentSign_of_spelled {negative : Bool} {sign : List Char}
    (h : SignSpelled negative sign) {digits : List Char} (hdigits : Digits digits)
    (rest : List Char) :
    readExponentSign (sign ++ (digits ++ rest)) = (negative, digits ++ rest) := by
  cases h with
  | minus => rfl
  | plus => rfl
  | none =>
    obtain ⟨hne, hdigits⟩ := hdigits
    cases digits with
    | nil => exact (hne rfl).elim
    | cons c tail =>
      have hc : c.isDigit = true := hdigits c (List.mem_cons_self ..)
      rw [List.nil_append, List.cons_append]
      unfold readExponentSign
      split
      · next heq =>
        obtain ⟨rfl, -⟩ := List.cons.inj heq
        simp [Char.isDigit] at hc
      · next heq =>
        obtain ⟨rfl, -⟩ := List.cons.inj heq
        simp [Char.isDigit] at hc
      · rfl

theorem readExponent_of_spelled {exponent : Option (Bool × List Char)} {s rest : List Char}
    (h : ExponentSpelled exponent s) (hrest : Ends rest) :
    readExponent (s ++ rest) = some (exponent, rest) := by
  cases h with
  | none =>
    rw [List.nil_append]
    unfold readExponent
    split
    · next s => exact ((hrest.ne (c := 'e') rfl).2 (by simp)).elim
    · next s => exact ((hrest.ne (c := 'E') rfl).2 (by simp)).elim
    · rfl
  | @mark c negative sign digits letter signed some_digits =>
    have hsign := readExponentSign_of_spelled signed some_digits rest
    have htake := takeWhile_isDigit_append some_digits.2 hrest.noDigit
    have hread : readExponent (c :: (sign ++ (digits ++ rest))) =
        some (some (negative, digits), rest) := by
      rcases letter with rfl | rfl
      all_goals
        simp only [readExponent, hsign, htake]
        split
        · exact (some_digits.1 rfl).elim
        · simp
    rw [List.cons_append, List.append_assoc]
    exact hread

/-- A numeral is read up to what follows it. -/
theorem readNumber_of_spelled {n : NumberForm} {s rest : List Char} (h : n.Spelled s)
    (hrest : Ends rest) : readNumber (s ++ rest) = some (n, rest) := by
  cases h with
  | @intro fraction exponent whole fraction_spelled exponent_spelled =>
  have hexponent : NoDigit (exponent ++ rest) := exponent_spelled.noDigit hrest.noDigit
  have hpoint : ∀ tail, exponent ++ rest ≠ '.' :: tail := exponent_spelled.noPoint hrest
  have hminus : ∀ tail, n.whole ++ (fraction ++ (exponent ++ rest)) ≠ '-' :: tail := by
    intro tail heq
    obtain ⟨⟨hne, hdigits⟩, -⟩ := whole
    cases hwhole : n.whole with
    | nil => exact hne hwhole
    | cons c more =>
      have hc : c.isDigit = true := hdigits c (hwhole ▸ List.mem_cons_self ..)
      rw [hwhole, List.cons_append] at heq
      obtain ⟨rfl, -⟩ := List.cons.inj heq
      simp [Char.isDigit] at hc
  simp only [List.append_assoc]
  simp only [readNumber, readMinus_minusText n.negative hminus,
    readWhole_of_digits whole (fraction_spelled.noDigit hexponent),
    readFractionDigits_of_spelled fraction_spelled hexponent hpoint,
    readExponent_of_spelled exponent_spelled hrest, bind, Option.bind]

theorem eq_of_readMinus {s rest : List Char} {negative : Bool}
    (h : readMinus s = (negative, rest)) : s = minusText negative ++ rest := by
  unfold readMinus at h
  split at h
  all_goals
    obtain ⟨rfl, rfl⟩ := Prod.mk.inj h
    rfl

/-- The digits at the start of a text, where there are some. -/
theorem digits_of_takeWhile {s digits : List Char} (hne : digits ≠ [])
    (htake : s.takeWhile Char.isDigit = digits) :
    Digits digits ∧ s = digits ++ s.drop digits.length := by
  refine ⟨⟨hne, fun c hc => isDigit_of_takeWhile (htake ▸ hc)⟩, ?_⟩
  have hprefix : s.takeWhile Char.isDigit <+: s := List.takeWhile_prefix _
  rw [htake] at hprefix
  exact (List.prefix_iff_eq_append.1 hprefix).symm

theorem wholeDigits_of_readWhole {s rest digits : List Char}
    (h : readWhole s = some (digits, rest)) : WholeDigits digits ∧ s = digits ++ rest := by
  unfold readWhole at h
  split at h
  · obtain ⟨rfl, rfl⟩ := Prod.mk.inj (Option.some.inj h)
    have hzero : Digits ['0'] := ⟨by simp, List.forall_mem_singleton.2 rfl⟩
    exact ⟨⟨hzero, fun tail heq => (List.cons.inj heq).2.symm⟩, rfl⟩
  · next hzero =>
    split at h
    · simp at h
    · next hne =>
      obtain ⟨rfl, rfl⟩ := Prod.mk.inj (Option.some.inj h)
      obtain ⟨hdigits, hs⟩ := digits_of_takeWhile (fun heq => hne heq) rfl
      refine ⟨⟨hdigits, fun tail heq => ?_⟩, hs⟩
      rw [heq] at hs
      exact (hzero _ hs).elim

theorem fractionSpelled_of_read {s rest digits : List Char}
    (h : readFractionDigits s = some (digits, rest)) :
    ∃ t, FractionSpelled digits t ∧ s = t ++ rest := by
  unfold readFractionDigits at h
  split at h
  · split at h
    · simp at h
    · next hne =>
      obtain ⟨rfl, rfl⟩ := Prod.mk.inj (Option.some.inj h)
      obtain ⟨hdigits, hs⟩ := digits_of_takeWhile (fun heq => hne heq) rfl
      exact ⟨_, .point hdigits, congrArg (List.cons '.') hs⟩
  · obtain ⟨rfl, rfl⟩ := Prod.mk.inj (Option.some.inj h)
    exact ⟨[], .none, rfl⟩

theorem signSpelled_of_read {s rest : List Char} {negative : Bool}
    (h : readExponentSign s = (negative, rest)) :
    ∃ sign, SignSpelled negative sign ∧ s = sign ++ rest := by
  unfold readExponentSign at h
  split at h
  · obtain ⟨rfl, rfl⟩ := Prod.mk.inj h
    exact ⟨_, .minus, rfl⟩
  · obtain ⟨rfl, rfl⟩ := Prod.mk.inj h
    exact ⟨_, .plus, rfl⟩
  · obtain ⟨rfl, rfl⟩ := Prod.mk.inj h
    exact ⟨_, .none, rfl⟩

/-- An exponent as it stands after its mark. -/
theorem exponentSpelled_of_mark {c : Char} (letter : c = 'e' ∨ c = 'E') {s digits : List Char}
    (nonempty : digits ≠ []) (taken : (readExponentSign s).2.takeWhile Char.isDigit = digits) :
    ∃ t, ExponentSpelled (some ((readExponentSign s).1, digits)) t ∧
      c :: s = t ++ (readExponentSign s).2.drop digits.length := by
  obtain ⟨sign, hsign, hs⟩ : ∃ sign, SignSpelled (readExponentSign s).1 sign ∧
      s = sign ++ (readExponentSign s).2 := signSpelled_of_read rfl
  obtain ⟨hdigits, hdrop⟩ := digits_of_takeWhile nonempty taken
  refine ⟨_, .mark letter hsign hdigits, ?_⟩
  rw [List.cons_append, List.append_assoc, ← hdrop]
  exact congrArg (List.cons c) hs

theorem exponentSpelled_of_read {s rest : List Char} {exponent : Option (Bool × List Char)}
    (h : readExponent s = some (exponent, rest)) :
    ∃ t, ExponentSpelled exponent t ∧ s = t ++ rest := by
  unfold readExponent at h
  split at h
  · dsimp only at h
    split at h
    · simp at h
    · next nonempty =>
      obtain ⟨rfl, rfl⟩ := Prod.mk.inj (Option.some.inj h)
      exact exponentSpelled_of_mark (.inl rfl) (fun heq => nonempty heq) rfl
  · dsimp only at h
    split at h
    · simp at h
    · next nonempty =>
      obtain ⟨rfl, rfl⟩ := Prod.mk.inj (Option.some.inj h)
      exact exponentSpelled_of_mark (.inr rfl) (fun heq => nonempty heq) rfl
  · obtain ⟨rfl, rfl⟩ := Prod.mk.inj (Option.some.inj h)
    exact ⟨[], .none, rfl⟩

/-- What is read as a numeral spells it. -/
theorem spelled_of_readNumber {s rest : List Char} {n : NumberForm}
    (h : readNumber s = some (n, rest)) : ∃ t, n.Spelled t ∧ s = t ++ rest := by
  simp only [readNumber, Option.bind_eq_bind, Option.bind_eq_some_iff] at h
  obtain ⟨⟨whole, s₁⟩, hwhole, ⟨fraction, s₂⟩, hfraction, ⟨exponent, s₃⟩, hexponent, heq⟩ := h
  obtain ⟨rfl, rfl⟩ := Prod.mk.inj (Option.some.inj heq)
  obtain ⟨hdigits, hs⟩ := wholeDigits_of_readWhole hwhole
  obtain ⟨t, ht, rfl⟩ := fractionSpelled_of_read hfraction
  obtain ⟨u, hu, rfl⟩ := exponentSpelled_of_read hexponent
  refine ⟨_, .intro hdigits ht hu, ?_⟩
  have hminus : s = minusText (readMinus s).1 ++ (readMinus s).2 := eq_of_readMinus rfl
  rw [hs] at hminus
  simpa only [List.append_assoc] using hminus

end EventJournal.Json
