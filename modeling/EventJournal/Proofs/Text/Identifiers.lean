import EventJournal.Uuid

/-!
# Identifiers read back

The hyphenated form of a UUID is read back.

* `Uuid.ofHyphenated?_append`, the groups between the hyphens.

The main statement is `Uuid.ofString?_toString`.
-/

namespace EventJournal.Uuid

open Text (hexDigit hexValue?)

theorem mapM_hexValue?_map (digits : List (Fin 16)) :
    (digits.map hexDigit).mapM hexValue? = some digits := by
  induction digits with
  | nil => rfl
  | cons d rest ih => simp [List.mapM_cons, ih]

theorem ofHex?_map (u : Uuid) : ofHex? (u.digits.map hexDigit) = some u := by
  rw [ofHex?, mapM_hexValue?_map, Option.bind_some, dif_pos u.length_digits]

theorem dropHyphen?_drop {group : List Char} {n : Nat} (h : group.length = n) (rest : List Char) :
    dropHyphen? ((group ++ '-' :: rest).drop n) = some rest := by
  rw [List.drop_left' h]
  rfl

/-- The groups between the hyphens are put together. -/
theorem ofHyphenated?_append {a b c d : List Char} (ha : a.length = 8) (hb : b.length = 4)
    (hc : c.length = 4) (hd : d.length = 4) (e : List Char) :
    ofHyphenated? (a ++ '-' :: (b ++ '-' :: (c ++ '-' :: (d ++ '-' :: e)))) =
      ofHex? (a ++ b ++ c ++ d ++ e) := by
  simp only [ofHyphenated?, bind, dropHyphen?_drop ha, dropHyphen?_drop hb, dropHyphen?_drop hc,
    dropHyphen?_drop hd, List.take_left' ha, List.take_left' hb, List.take_left' hc,
    List.take_left' hd, Option.bind]

/-- Digits cut into groups are the digits. -/
theorem groups_eq (cs : List Char) :
    cs.take 8 ++ (cs.drop 8).take 4 ++ (cs.drop 12).take 4 ++ (cs.drop 16).take 4 ++ cs.drop 20 =
      cs := by
  simp only [List.append_assoc]
  rw [show cs.drop 20 = (cs.drop 16).drop 4 by simp, List.take_append_drop,
    show cs.drop 16 = (cs.drop 12).drop 4 by simp, List.take_append_drop,
    show cs.drop 12 = (cs.drop 8).drop 4 by simp, List.take_append_drop, List.take_append_drop]

theorem read_toText (u : Uuid) : read u.toText = some u := by
  have hlength : (u.digits.map hexDigit).length = 32 := by rw [List.length_map, u.length_digits]
  have htotal : u.toText.length = 36 := by
    simp only [toText, List.length_append, List.length_cons, List.length_take, List.length_drop,
      hlength]
    omega
  unfold read
  simp only [htotal]
  rw [toText, ofHyphenated?_append, groups_eq, ofHex?_map]
  all_goals
    simp only [List.length_take, List.length_drop, hlength]
    omega

/-- The written form of a UUID is read back. -/
@[simp] theorem ofString?_toString (u : Uuid) : ofString? u.toString = some u := by
  rw [ofString?, Uuid.toString, String.toList_ofList, read_toText]

end EventJournal.Uuid
