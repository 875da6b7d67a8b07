import EventJournal.Proofs.Json.Grammar

/-!
# Reading what the grammar allows

The reader finds the form of a text exactly when the text spells it. It is followed along the
derivation of a text, and a derivation is built along what it reads; in both directions values,
elements and members call for one another.

* `readValue_of_spelled`, `readValue_of_laid`: what the grammar allows is read;
* `spelled_of_readValue`: what is read is allowed by the grammar;
* `Form.Laid.unique`, that no text has two forms;
* `Form.same`, which compares two forms, so that it can be computed whether a text spells one.

The main statement is `Form.read_eq_some_iff`.
-/

namespace EventJournal.Json

/-! ### How values start -/

/-- A numeral starts with a minus or a digit. -/
theorem NumberForm.Spelled.exists_cons {n : NumberForm} {s : List Char} (h : n.Spelled s) :
    ∃ c tail, s = c :: tail ∧ (c = '-' ∨ c.isDigit = true) := by
  cases h with
  | @intro fraction exponent whole fraction_spelled exponent_spelled =>
    obtain ⟨⟨hne, hdigits⟩, -⟩ := whole
    cases hminus : n.negative with
    | true => exact ⟨'-', n.whole ++ (fraction ++ exponent), rfl, .inl rfl⟩
    | false =>
      obtain ⟨c, tail, hwhole⟩ := List.exists_cons_of_ne_nil hne
      refine ⟨c, tail ++ (fraction ++ exponent), ?_, .inr (hdigits c ?_)⟩
      · rw [hwhole]
        rfl
      · rw [hwhole]
        exact List.mem_cons_self ..

/-- What a numeral starts with starts nothing else. -/
theorem ne_of_numeral {c : Char} (h : c = '-' ∨ c.isDigit = true) :
    isSpace c = false ∧ c ∉ ['n', 't', 'f', '"', '[', '\x7b', ']', '\x7d'] := by
  have hcode : c.toNat = 45 ∨ 48 ≤ c.toNat ∧ c.toNat ≤ 57 := by
    rcases h with rfl | h
    · exact .inl rfl
    · exact .inr (by simpa [Char.isDigit, UInt32.le_iff_toNat_le] using h)
  have hne : ∀ {d : Char}, d.toNat ≠ 45 → (d.toNat < 48 ∨ 57 < d.toNat) → c ≠ d := by
    rintro d hminus hdigit rfl
    omega
  constructor
  · simp only [isSpace, Bool.or_eq_false_iff, beq_eq_false_iff_ne]
    refine ⟨⟨⟨?_, ?_⟩, ?_⟩, ?_⟩ <;> exact hne (by decide) (by decide)
  · simp only [List.mem_cons, List.not_mem_nil, or_false, not_or]
    refine ⟨?_, ?_, ?_, ?_, ?_, ?_, ?_, ?_⟩ <;> exact hne (by decide) (by decide)

/-- A form is spelled with something first that is neither a blank nor a closing bracket. -/
theorem Form.Spelled.exists_cons {form : Form} {s : List Char} (h : form.Spelled s) :
    ∃ c tail, s = c :: tail ∧ isSpace c = false ∧ c ∉ [']', '\x7d'] := by
  cases h with
  | number spelled =>
    obtain ⟨c, tail, rfl, hc⟩ := spelled.exists_cons
    obtain ⟨hspace, hne⟩ := ne_of_numeral hc
    refine ⟨c, tail, rfl, hspace, fun hmem => hne ?_⟩
    simp only [List.mem_cons, List.not_mem_nil, or_false] at hmem ⊢
    rcases hmem with rfl | rfl <;> simp
  | _ => exact ⟨_, _, rfl, by decide, by decide⟩

theorem readValue_skipSpace (fuel : Nat) (s : List Char) :
    readValue fuel (skipSpace s) = readValue fuel s := by
  cases fuel with
  | zero => rfl
  | succ fuel => rw [readValue, readValue, skipSpace_skipSpace]

theorem readElements_skipSpace (fuel : Nat) (s : List Char) :
    readElements fuel (skipSpace s) = readElements fuel s := by
  cases fuel with
  | zero => rfl
  | succ fuel => rw [readElements, readElements, readValue_skipSpace]

theorem readMembers_skipSpace (fuel : Nat) (s : List Char) :
    readMembers fuel (skipSpace s) = readMembers fuel s := by
  cases fuel with
  | zero => rfl
  | succ fuel => rw [readMembers, readMembers, skipSpace_skipSpace]

theorem readValue_numeral {c : Char} (h : c = '-' ∨ c.isDigit = true) (fuel : Nat)
    (tail : List Char) :
    readValue (fuel + 1) (c :: tail) =
      (readNumber (c :: tail)).map fun (n, rest) => (.number n, rest) := by
  obtain ⟨hspace, hne⟩ := ne_of_numeral h
  simp only [List.mem_cons, List.not_mem_nil, or_false, not_or] at hne
  obtain ⟨hn, ht, hf, hquote, hbracket, hbrace, -, -⟩ := hne
  rw [readValue, skipSpace_cons hspace]
  split
  · next heq => exact (hn (List.cons.inj heq).1).elim
  · next heq => exact (ht (List.cons.inj heq).1).elim
  · next heq => exact (hf (List.cons.inj heq).1).elim
  · next heq => exact (hquote (List.cons.inj heq).1).elim
  · next heq => exact (hbracket (List.cons.inj heq).1).elim
  · next heq => exact (hbrace (List.cons.inj heq).1).elim
  · rfl

/-- An array with elements is read as they are. -/
theorem readValue_bracket {fuel : Nat} {s : List Char} (h : ∀ tail, skipSpace s ≠ ']' :: tail) :
    readValue (fuel + 1) ('[' :: s) =
      (readElements fuel s).map fun (elements, rest) => (.array elements, rest) := by
  rw [readValue, skipSpace_cons (by decide)]
  simp only [readElements_skipSpace]

/-- An object with members is read as they are. -/
theorem readValue_brace {fuel : Nat} {s : List Char} (h : ∀ tail, skipSpace s ≠ '\x7d' :: tail) :
    readValue (fuel + 1) ('\x7b' :: s) =
      (readMembers fuel s).map fun (members, rest) => (.object members, rest) := by
  rw [readValue, skipSpace_cons (by decide)]
  simp only [readMembers_skipSpace]

theorem Form.Laid.skipSpace_ne {form : Form} {s : List Char} (h : form.Laid s)
    (rest : List Char) {d : Char} (hd : d ∈ [']', '\x7d']) (tail : List Char) :
    skipSpace (s ++ rest) ≠ d :: tail := by
  obtain ⟨blank_before, spelled, -⟩ := h
  obtain ⟨c, more, rfl, hspace, hc⟩ := spelled.exists_cons
  rw [List.append_assoc, skipSpace_append blank_before, List.append_assoc, List.cons_append,
    skipSpace_cons hspace]
  intro heq
  exact hc ((List.cons.inj heq).1 ▸ hd)

theorem ElementsLaid.skipSpace_ne {elements : List Form} {s : List Char}
    (h : ElementsLaid elements s) (rest tail : List Char) :
    skipSpace (s ++ rest) ≠ ']' :: tail := by
  cases h with
  | last laid => exact laid.skipSpace_ne rest (by decide) tail
  | next laid _ =>
    rw [List.append_assoc]
    exact laid.skipSpace_ne _ (by decide) tail

theorem NameLaid.skipSpace_append {name : List Piece} {s : List Char} (h : NameLaid name s)
    (rest : List Char) : ∃ tail, skipSpace (s ++ rest) = '"' :: tail ∧
      ∃ after, readString tail = some (name, after) ∧ skipSpace after = skipSpace rest := by
  obtain ⟨blank_before, spelled, blank_after⟩ := h
  rename_i before t after
  refine ⟨t ++ '"' :: (after ++ rest), ?_, after ++ rest,
    readString_of_piecesSpelled spelled _, Json.skipSpace_append blank_after _⟩
  simp only [List.append_assoc, List.cons_append]
  rw [Json.skipSpace_append blank_before, skipSpace_cons (by decide)]

theorem MembersLaid.skipSpace_ne {members : List (List Piece × Form)} {s : List Char}
    (h : MembersLaid members s) (rest tail : List Char) :
    skipSpace (s ++ rest) ≠ '\x7d' :: tail := by
  cases h with
  | last named _ | next named _ _ =>
    rw [List.append_assoc]
    obtain ⟨more, heq, -⟩ := named.skipSpace_append _
    rw [heq]
    simp

/-! ### From the grammar to the reader -/

mutual

/-- What spells a form is read as this form, up to what follows. Twice its length is fuel enough. -/
theorem readValue_of_spelled {form : Form} {s : List Char} (h : form.Spelled s) {fuel : Nat}
    (hfuel : 2 * s.length < fuel) {rest : List Char} (hrest : Ends rest) :
    readValue fuel (s ++ rest) = some (form, rest) := by
  obtain ⟨fuel, rfl⟩ : ∃ n, fuel = n + 1 := ⟨fuel - 1, by omega⟩
  cases h with
  | null => rfl
  | bool_true => rfl
  | bool_false => rfl
  | number spelled =>
    obtain ⟨c, tail, rfl, hc⟩ := spelled.exists_cons
    have hread := readNumber_of_spelled spelled hrest
    rw [List.cons_append] at hread ⊢
    rw [readValue_numeral hc, hread]
    rfl
  | string spelled =>
    have hread := readString_of_piecesSpelled spelled rest
    rw [List.cons_append, List.append_assoc, readValue, skipSpace_cons (by decide)]
    simp only [List.singleton_append, hread, Option.map_some]
  | emptyArray blank =>
    rw [List.cons_append, List.append_assoc, readValue, skipSpace_cons (by decide)]
    simp only [skipSpace_append blank, List.singleton_append,
      skipSpace_cons (by decide : isSpace ']' = false)]
  | emptyObject blank =>
    rw [List.cons_append, List.append_assoc, readValue, skipSpace_cons (by decide)]
    simp only [skipSpace_append blank, List.singleton_append,
      skipSpace_cons (by decide : isSpace '\x7d' = false)]
  | array laid =>
    simp only [List.length_cons, List.length_append, List.length_nil] at hfuel
    rw [List.cons_append, List.append_assoc, readValue_bracket (laid.skipSpace_ne _),
      List.singleton_append, readElements_of_laid laid (by omega)]
    rfl
  | object laid =>
    simp only [List.length_cons, List.length_append, List.length_nil] at hfuel
    rw [List.cons_append, List.append_assoc, readValue_brace (laid.skipSpace_ne _),
      List.singleton_append, readMembers_of_laid laid (by omega)]
    rfl
termination_by (fuel, 0)
decreasing_by all_goals exact Prod.Lex.left _ _ (by omega)

/-- A form with blanks around it is read, and only blanks are left of it. -/
theorem readValue_of_laid {form : Form} {s : List Char} (h : form.Laid s) {fuel : Nat}
    (hfuel : 2 * s.length < fuel) {rest : List Char} (hrest : Ends rest) :
    ∃ after, readValue fuel (s ++ rest) = some (form, after) ∧
      skipSpace after = skipSpace rest := by
  obtain ⟨blank_before, spelled, blank_after⟩ := h
  rename_i before t after
  simp only [List.length_append] at hfuel
  refine ⟨after ++ rest, ?_, skipSpace_append blank_after rest⟩
  rw [← readValue_skipSpace, List.append_assoc, skipSpace_append blank_before, readValue_skipSpace,
    List.append_assoc]
  exact readValue_of_spelled spelled (by omega) (hrest.append blank_after)
termination_by (fuel, 1)
decreasing_by exact Prod.Lex.right _ Nat.zero_lt_one

/-- The elements of an array are read up to the closing bracket. -/
theorem readElements_of_laid {elements : List Form} {s : List Char} (h : ElementsLaid elements s)
    {fuel : Nat} (hfuel : 2 * s.length + 1 < fuel) (rest : List Char) :
    readElements fuel (s ++ ']' :: rest) = some (elements, rest) := by
  obtain ⟨fuel, rfl⟩ : ∃ n, fuel = n + 1 := ⟨fuel - 1, by omega⟩
  cases h with
  | last laid =>
    obtain ⟨after, hread, hafter⟩ :=
      readValue_of_laid laid (show 2 * s.length < fuel by omega)
        (ends_cons (c := ']') (by decide) rest)
    rw [readElements, hread]
    simp only [bind, Option.bind, hafter, skipSpace_cons (by decide : isSpace ']' = false)]
  | next laid more =>
    rename_i form forms t u
    simp only [List.length_append, List.length_cons] at hfuel
    obtain ⟨after, hread, hafter⟩ := readValue_of_laid laid (show 2 * t.length < fuel by omega)
      (ends_cons (c := ',') (by decide) (u ++ ']' :: rest))
    have hmore := readElements_of_laid more (show 2 * u.length + 1 < fuel by omega) rest
    rw [List.append_assoc, List.cons_append, readElements, hread]
    simp only [bind, Option.bind, hafter, skipSpace_cons (by decide : isSpace ',' = false), hmore]
termination_by (fuel, 0)
decreasing_by all_goals exact Prod.Lex.left _ _ (by omega)

/-- The members of an object are read up to the closing brace. -/
theorem readMembers_of_laid {members : List (List Piece × Form)} {s : List Char}
    (h : MembersLaid members s) {fuel : Nat} (hfuel : 2 * s.length + 1 < fuel)
    (rest : List Char) :
    readMembers fuel (s ++ '\x7d' :: rest) = some (members, rest) := by
  obtain ⟨fuel, rfl⟩ : ∃ n, fuel = n + 1 := ⟨fuel - 1, by omega⟩
  cases h with
  | last named laid =>
    rename_i name form t u
    simp only [List.length_append, List.length_cons] at hfuel
    obtain ⟨after, hread, hafter⟩ := readValue_of_laid laid (show 2 * u.length < fuel by omega)
      (ends_cons (c := '\x7d') (by decide) rest)
    obtain ⟨tail, hquote, afterName, hname, hcolon⟩ :=
      named.skipSpace_append (':' :: (u ++ '\x7d' :: rest))
    rw [List.append_assoc, List.cons_append, readMembers, hquote]
    simp only [bind, Option.bind, hname, hcolon, skipSpace_cons (by decide : isSpace ':' = false),
      hread, hafter, skipSpace_cons (by decide : isSpace '\x7d' = false)]
  | next named laid more =>
    rename_i name form members t u v
    simp only [List.length_append, List.length_cons] at hfuel
    obtain ⟨after, hread, hafter⟩ := readValue_of_laid laid (show 2 * u.length < fuel by omega)
      (ends_cons (c := ',') (by decide) (v ++ '\x7d' :: rest))
    have hmore := readMembers_of_laid more (show 2 * v.length + 1 < fuel by omega) rest
    obtain ⟨tail, hquote, afterName, hname, hcolon⟩ :=
      named.skipSpace_append (':' :: (u ++ ',' :: (v ++ '\x7d' :: rest)))
    simp only [List.append_assoc, List.cons_append]
    rw [readMembers, hquote]
    simp only [bind, Option.bind, hname, hcolon, skipSpace_cons (by decide : isSpace ':' = false),
      hread, hafter, skipSpace_cons (by decide : isSpace ',' = false), hmore]
termination_by (fuel, 0)
decreasing_by all_goals exact Prod.Lex.left _ _ (by omega)

end

/-! ### From the reader to the grammar -/

/-- What is read up to a place is a form, laid out with the blanks around it. -/
theorem Form.Spelled.laid_append {form : Form} {s t blanks rest : List Char} (blank : Blank blanks)
    (h : form.Spelled t) (hs : s = blanks ++ (t ++ rest)) :
    ∃ u, form.Laid u ∧ s = u ++ skipSpace rest := by
  obtain ⟨after, hafter, hrest⟩ := exists_blank rest
  refine ⟨_, .intro blank h hafter, ?_⟩
  rw [hs]
  conv_lhs => rw [hrest]
  simp only [List.append_assoc]

mutual

/-- What is read as a form spells it, behind any blanks. -/
theorem spelled_of_readValue {fuel : Nat} {s rest : List Char} {form : Form}
    (h : readValue fuel s = some (form, rest)) :
    ∃ blanks t, Blank blanks ∧ form.Spelled t ∧ s = blanks ++ (t ++ rest) := by
  match fuel with
  | 0 => simp [readValue] at h
  | fuel + 1 =>
    obtain ⟨blanks, hblank, hs⟩ := exists_blank s
    refine ⟨blanks, ?_⟩
    suffices hspelled : ∃ t, form.Spelled t ∧ skipSpace s = t ++ rest by
      obtain ⟨t, ht, hskip⟩ := hspelled
      exact ⟨t, hblank, ht, hskip ▸ hs⟩
    rw [readValue] at h
    split at h
    · next heq =>
      obtain ⟨rfl, rfl⟩ := Prod.mk.inj (Option.some.inj h)
      exact ⟨_, .null, heq⟩
    · next heq =>
      obtain ⟨rfl, rfl⟩ := Prod.mk.inj (Option.some.inj h)
      exact ⟨_, .bool_true, heq⟩
    · next heq =>
      obtain ⟨rfl, rfl⟩ := Prod.mk.inj (Option.some.inj h)
      exact ⟨_, .bool_false, heq⟩
    · next heq =>
      obtain ⟨⟨pieces, after⟩, hread, hform⟩ := Option.map_eq_some_iff.1 h
      obtain ⟨rfl, rfl⟩ := Prod.mk.inj hform
      obtain ⟨t, ht, rfl⟩ := piecesSpelled_of_readString hread
      exact ⟨_, .string ht, by simpa using heq⟩
    · next tail heq =>
      obtain ⟨inner, hinner, htail⟩ := exists_blank tail
      split at h
      · next hclose =>
        obtain ⟨rfl, rfl⟩ := Prod.mk.inj (Option.some.inj h)
        rw [hclose] at htail
        exact ⟨_, .emptyArray hinner, by simpa [htail] using heq⟩
      · rw [readElements_skipSpace] at h
        obtain ⟨⟨elements, after⟩, hread, hform⟩ := Option.map_eq_some_iff.1 h
        obtain ⟨rfl, rfl⟩ := Prod.mk.inj hform
        obtain ⟨t, ht, rfl⟩ := laid_of_readElements hread
        exact ⟨_, .array ht, by simpa using heq⟩
    · next tail heq =>
      obtain ⟨inner, hinner, htail⟩ := exists_blank tail
      split at h
      · next hclose =>
        obtain ⟨rfl, rfl⟩ := Prod.mk.inj (Option.some.inj h)
        rw [hclose] at htail
        exact ⟨_, .emptyObject hinner, by simpa [htail] using heq⟩
      · rw [readMembers_skipSpace] at h
        obtain ⟨⟨members, after⟩, hread, hform⟩ := Option.map_eq_some_iff.1 h
        obtain ⟨rfl, rfl⟩ := Prod.mk.inj hform
        obtain ⟨t, ht, rfl⟩ := laid_of_readMembers hread
        exact ⟨_, .object ht, by simpa using heq⟩
    · obtain ⟨⟨n, after⟩, hread, hform⟩ := Option.map_eq_some_iff.1 h
      obtain ⟨rfl, rfl⟩ := Prod.mk.inj hform
      obtain ⟨t, ht, heq⟩ := spelled_of_readNumber hread
      exact ⟨t, .number ht, heq⟩
termination_by fuel

/-- What is read as the elements of an array lays them out before the closing bracket. -/
theorem laid_of_readElements {fuel : Nat} {s rest : List Char} {elements : List Form}
    (h : readElements fuel s = some (elements, rest)) :
    ∃ t, ElementsLaid elements t ∧ s = t ++ ']' :: rest := by
  match fuel with
  | 0 => simp [readElements] at h
  | fuel + 1 =>
    simp only [readElements, Option.bind_eq_bind, Option.bind_eq_some_iff] at h
    obtain ⟨⟨element, after⟩, hread, h⟩ := h
    obtain ⟨blanks, t, hblank, hspelled, hs⟩ := spelled_of_readValue hread
    obtain ⟨u, hlaid, hu⟩ := hspelled.laid_append hblank hs
    split at h
    · next hcomma =>
      simp only [Option.bind_eq_some_iff] at h
      obtain ⟨⟨more, last⟩, hmore, heq⟩ := h
      obtain ⟨rfl, rfl⟩ := Prod.mk.inj (Option.some.inj heq)
      obtain ⟨v, hv, rfl⟩ := laid_of_readElements hmore
      exact ⟨_, .next hlaid hv, by simpa [hcomma] using hu⟩
    · next hclose =>
      obtain ⟨rfl, rfl⟩ := Prod.mk.inj (Option.some.inj h)
      exact ⟨_, .last hlaid, hclose ▸ hu⟩
    · simp at h
termination_by fuel

/-- What is read as the members of an object lays them out before the closing brace. -/
theorem laid_of_readMembers {fuel : Nat} {s rest : List Char} {members : List (List Piece × Form)}
    (h : readMembers fuel s = some (members, rest)) :
    ∃ t, MembersLaid members t ∧ s = t ++ '\x7d' :: rest := by
  match fuel with
  | 0 => simp [readMembers] at h
  | fuel + 1 =>
    rw [readMembers] at h
    obtain ⟨before, hbefore, hs⟩ := exists_blank s
    split at h
    · next hquote =>
      simp only [Option.bind_eq_bind, Option.bind_eq_some_iff] at h
      obtain ⟨⟨name, afterName⟩, hname, h⟩ := h
      obtain ⟨n, hpieces, rfl⟩ := piecesSpelled_of_readString hname
      obtain ⟨between, hbetween, hafterName⟩ := exists_blank afterName
      split at h
      · next hcolon =>
        simp only [Option.bind_eq_some_iff] at h
        obtain ⟨⟨form, after⟩, hread, h⟩ := h
        obtain ⟨blanks, t, hblank, hspelled, hvalue⟩ := spelled_of_readValue hread
        obtain ⟨u, hlaid, hu⟩ := hspelled.laid_append hblank hvalue
        have hnamed : NameLaid name _ := .intro hbefore hpieces hbetween
        rw [hcolon, hu] at hafterName
        rw [hquote, hafterName] at hs
        split at h
        · next hcomma =>
          simp only [Option.bind_eq_some_iff] at h
          obtain ⟨⟨more, last⟩, hmore, heq⟩ := h
          obtain ⟨rfl, rfl⟩ := Prod.mk.inj (Option.some.inj heq)
          obtain ⟨v, hv, rfl⟩ := laid_of_readMembers hmore
          rw [hcomma] at hs
          exact ⟨_, .next hnamed hlaid hv, by simpa using hs⟩
        · next hclose =>
          obtain ⟨rfl, rfl⟩ := Prod.mk.inj (Option.some.inj h)
          rw [hclose] at hs
          exact ⟨_, .last hnamed hlaid, by simpa using hs⟩
        · simp at h
      · simp at h
    · simp at h
termination_by fuel

end

/-- A text has a form exactly when it spells it, with any blanks around it. -/
theorem Form.read_eq_some_iff {s : List Char} {form : Form} :
    Form.read s = some form ↔ form.Laid s := by
  constructor
  · intro h
    rw [Form.read] at h
    split at h
    · next read rest hread =>
      split at h
      · next hempty =>
        obtain rfl := Option.some.inj h
        obtain ⟨blanks, t, hblank, hspelled, hs⟩ := spelled_of_readValue hread
        obtain ⟨u, hlaid, hu⟩ := hspelled.laid_append hblank hs
        rw [List.isEmpty_iff.1 hempty, List.append_nil] at hu
        exact hu ▸ hlaid
      · simp at h
    · simp at h
  · intro h
    obtain ⟨after, hread, hafter⟩ :=
      readValue_of_laid h (show 2 * s.length < 2 * s.length + 2 by omega) ends_nil
    rw [List.append_nil] at hread
    rw [Form.read, hread]
    simp only [hafter]
    rfl

/-- No text spells two forms. -/
theorem Form.Laid.unique {s : List Char} {form form' : Form} (h : form.Laid s)
    (h' : form'.Laid s) : form = form' :=
  Option.some.inj ((Form.read_eq_some_iff.2 h).symm.trans (Form.read_eq_some_iff.2 h'))

/-- The bytes of a text have the form that the text spells. -/
theorem Form.ofBytes?_toUTF8 {text : String} {form : Form} (h : form.Laid text.toList) :
    Form.ofBytes? text.toUTF8 = some form := by
  have hvalid : text.toUTF8.IsValidUTF8 := text.isValidUTF8
  rw [Form.ofBytes?, String.fromUTF8?, dif_pos hvalid]
  exact Form.read_eq_some_iff.2 h

/-! ### Comparing forms -/

mutual

/-- Whether two forms are the same. -/
def Form.same : Form → Form → Bool
  | .null, .null => true
  | .bool b, .bool b' => decide (b = b')
  | .number n, .number n' => decide (n = n')
  | .string pieces, .string pieces' => decide (pieces = pieces')
  | .array elements, .array elements' => Form.sameElements elements elements'
  | .object members, .object members' => Form.sameMembers members members'
  | _, _ => false

/-- Whether the elements of two arrays are the same. -/
def Form.sameElements : List Form → List Form → Bool
  | [], [] => true
  | form :: rest, form' :: rest' => form.same form' && Form.sameElements rest rest'
  | _, _ => false

/-- Whether the members of two objects are the same. -/
def Form.sameMembers : List (List Piece × Form) → List (List Piece × Form) → Bool
  | [], [] => true
  | (name, form) :: rest, (name', form') :: rest' =>
    decide (name = name') && (form.same form' && Form.sameMembers rest rest')
  | _, _ => false

end

mutual

theorem Form.eq_of_same : ∀ {form form' : Form}, form.same form' = true → form = form'
  | .null, .null, _ => rfl
  | .bool _, .bool _, h => congrArg Form.bool (of_decide_eq_true h)
  | .number _, .number _, h => congrArg Form.number (of_decide_eq_true h)
  | .string _, .string _, h => congrArg Form.string (of_decide_eq_true h)
  | .array _, .array _, h => congrArg Form.array (Form.eq_of_sameElements h)
  | .object _, .object _, h => congrArg Form.object (Form.eq_of_sameMembers h)

theorem Form.eq_of_sameElements :
    ∀ {elements elements' : List Form}, Form.sameElements elements elements' = true →
      elements = elements'
  | [], [], _ => rfl
  | form :: rest, form' :: rest', h => by
    obtain ⟨hform, hrest⟩ := Bool.and_eq_true_iff.1 h
    rw [Form.eq_of_same hform, Form.eq_of_sameElements hrest]

theorem Form.eq_of_sameMembers :
    ∀ {members members' : List (List Piece × Form)}, Form.sameMembers members members' = true →
      members = members'
  | [], [], _ => rfl
  | (name, form) :: rest, (name', form') :: rest', h => by
    obtain ⟨hname, hothers⟩ := Bool.and_eq_true_iff.1 h
    obtain ⟨hform, hrest⟩ := Bool.and_eq_true_iff.1 hothers
    rw [of_decide_eq_true hname, Form.eq_of_same hform, Form.eq_of_sameMembers hrest]

end

/-- A text spells a form if what is read from it is the same. -/
theorem Form.laid_of_same {s : List Char} {form : Form}
    (h : (Form.read s).any (·.same form) = true) : form.Laid s := by
  cases hread : Form.read s with
  | none => simp [hread] at h
  | some form' =>
    rw [hread, Option.any_some] at h
    exact Form.read_eq_some_iff.1 (Form.eq_of_same h ▸ hread)

end EventJournal.Json
