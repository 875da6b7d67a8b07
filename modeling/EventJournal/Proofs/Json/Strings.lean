import EventJournal.Json.Writing
import EventJournal.Proofs.Json.Grammar

/-!
# String literals read back

What is written between quotes is spelled piece by piece, each character as one piece: a control
without a short escape as a UTF-16 unit, any other character as itself.

* `pieceOf`, `piecesOf`: the pieces that a string is written as;
* `piecesSpelled_escape`, that what is written spells them;
* `pieceString?_piecesOf`, that they stand for the string.
-/

namespace EventJournal.Json

open Text (hexDigit hexDigits hexValue?)

/-- The piece that a character is written as. -/
def pieceOf (c : Char) : Piece :=
  if c.toNat < 0x20 ∧ c ∉ ['\x08', '\t', '\n', '\x0c', '\r'] then .unit c.toNat else .char c

/-- The pieces that a string is written as. -/
def piecesOf (s : String) : List Piece := s.toList.map pieceOf

/-- Four hexadecimal digits are the UTF-16 unit that they were written for. -/
theorem unit?_hexDigit {n : Nat} (h : n < 65536) :
    unit? (hexDigit (Fin.ofNat 16 (n / 16 / 16 / 16))) (hexDigit (Fin.ofNat 16 (n / 16 / 16)))
      (hexDigit (Fin.ofNat 16 (n / 16))) (hexDigit (Fin.ofNat 16 n)) = some n := by
  simp only [unit?, Text.hexValue?_hexDigit, bind, Option.bind, Fin.ofNat]
  congr 1
  omega

theorem Piece.spelled_unit {n : Nat} (h : n < 65536) :
    (Piece.unit n).Spelled ('\\' :: 'u' :: (hexDigits 4 n).map hexDigit) :=
  .unit (unit?_hexDigit h)

/-- A control is written as its piece is spelled. -/
theorem Piece.spelled_escapeControl {c : Char} (h : c.toNat < 0x20) :
    (pieceOf c).Spelled (if c = '\x08' then ['\\', 'b'] else if c = '\t' then ['\\', 't']
      else if c = '\n' then ['\\', 'n'] else if c = '\x0c' then ['\\', 'f']
      else if c = '\r' then ['\\', 'r']
      else '\\' :: 'u' :: (hexDigits 4 c.toNat).map hexDigit) := by
  by_cases hshort : c ∈ ['\x08', '\t', '\n', '\x0c', '\r']
  · simp only [List.mem_cons, List.not_mem_nil, or_false] at hshort
    rcases hshort with rfl | rfl | rfl | rfl | rfl
    all_goals exact .short rfl
  · have hpiece : pieceOf c = .unit c.toNat := if_pos ⟨h, hshort⟩
    simp only [List.mem_cons, List.not_mem_nil, or_false, not_or] at hshort
    obtain ⟨hb, ht, hn, hf, hr⟩ := hshort
    rw [if_neg hb, if_neg ht, if_neg hn, if_neg hf, if_neg hr, hpiece]
    exact Piece.spelled_unit (by omega)

/-- A character is escaped as its piece is spelled. -/
theorem Piece.spelled_escapeChar (c : Char) : (pieceOf c).Spelled (escapeChar c) := by
  unfold escapeChar
  split
  · next h =>
    subst h
    exact .short rfl
  · next hquote =>
    split
    · next h =>
      subst h
      exact .short rfl
    · next hslash =>
      split
      · next hcontrol => exact Piece.spelled_escapeControl hcontrol
      · next hcontrol =>
        have hpiece : pieceOf c = .char c := if_neg fun h => hcontrol h.1
        rw [hpiece]
        exact .plain hquote hslash hcontrol

/-- An escaped string is spelled as its pieces are. -/
theorem piecesSpelled_escape (s : String) : PiecesSpelled (piecesOf s) (escape s.toList) := by
  rw [piecesOf]
  induction s.toList with
  | nil => exact .nil
  | cons c rest ih =>
    rw [List.map_cons, escape_cons]
    exact .cons (Piece.spelled_escapeChar c) ih

/-- A unit that is no surrogate stands for a character of its own. -/
theorem joinPieces_unit {code : Nat} (h : code < 0xD800) (rest : List Piece) :
    joinPieces (.unit code :: rest) = (joinPieces rest).map (Char.ofNat code :: ·) := by
  have hleading : isLeading code = false := by
    rw [isLeading, decide_eq_false (by omega), Bool.false_and]
  have htrailing : isTrailing code = false := by
    rw [isTrailing, decide_eq_false (by omega), Bool.false_and]
  cases rest with
  | nil => simp [joinPieces, hleading, htrailing]
  | cons piece rest =>
    cases piece with
    | char c => simp [joinPieces, hleading, htrailing]
    | unit low => simp [joinPieces, hleading, htrailing]

theorem joinPieces_map (s : List Char) : joinPieces (s.map pieceOf) = some s := by
  induction s with
  | nil => rfl
  | cons c s ih =>
    rw [List.map_cons, pieceOf]
    split
    · next h =>
      rw [joinPieces_unit (by omega), ih, Char.ofNat_toNat]
      rfl
    · rw [joinPieces, ih]
      rfl

/-- The pieces that a string is written as stand for it. -/
@[simp] theorem pieceString?_piecesOf (s : String) : pieceString? (piecesOf s) = some s := by
  rw [pieceString?, piecesOf, joinPieces_map, Option.map_some, String.ofList_toList]

end EventJournal.Json
