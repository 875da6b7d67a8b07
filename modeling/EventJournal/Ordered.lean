/-!
# Items in order

The records of a stream, and those who listen to events, are listed by the numbers that they have.

* `insertBy`, an item put among others by its key;
* `orderedBy`, items by their keys.
-/

namespace EventJournal

variable {α κ : Type} [LE κ] [DecidableLE κ]

/-- Puts an item in front of the first one whose key is not smaller. -/
def insertBy (key : α → κ) (a : α) : List α → List α
  | [] => [a]
  | b :: rest => if key a ≤ key b then a :: b :: rest else b :: insertBy key a rest

/-- Items by their keys, those of one key in their given order. -/
def orderedBy (key : α → κ) (items : List α) : List α := items.foldr (insertBy key) []

end EventJournal
