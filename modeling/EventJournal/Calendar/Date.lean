import EventJournal.Text.Numeral

/-!
# Dates

Dates of the proleptic Gregorian calendar, in the years -262143 to 262142.

* `Date`, a year, month and day that exist;
* `Date.of?`, the date of three numbers, if there is one;
* `Date.next?`, `Date.prev?`, the neighbouring days; `Date.dayNumber`, which counts days;
* `Date.toText`, the written form `YYYY-MM-DD`.
-/

namespace EventJournal

/-- The leap years of the Gregorian calendar. -/
def isLeapYear (year : Int) : Bool :=
  year % 4 == 0 && (year % 100 != 0 || year % 400 == 0)

/-- The number of days of a month; no day for a number that is no month. -/
def daysInMonth (year : Int) (month : Nat) : Nat :=
  match month with
  | 2 => if isLeapYear year then 29 else 28
  | 4 | 6 | 9 | 11 => 30
  | 1 | 3 | 5 | 7 | 8 | 10 | 12 => 31
  | _ => 0

/-- The first year that has dates. -/
def Date.firstYear : Int := -262143

/-- The last year that has dates. -/
def Date.lastYear : Int := 262142

/-- Three numbers that name a day of the calendar. -/
def Date.Exists (year : Int) (month day : Nat) : Prop :=
  Date.firstYear ≤ year ∧ year ≤ Date.lastYear ∧ 1 ≤ day ∧ day ≤ daysInMonth year month

instance (year : Int) (month day : Nat) : Decidable (Date.Exists year month day) :=
  inferInstanceAs (Decidable (_ ∧ _ ∧ _ ∧ _))

/-- A day of the calendar. -/
structure Date where
  year : Int
  month : Nat
  day : Nat
  valid : Date.Exists year month day
  deriving DecidableEq

namespace Date

/-- The date of three numbers, if there is one. -/
def of? (year : Int) (month day : Nat) : Option Date :=
  if h : Date.Exists year month day then some ⟨year, month, day, h⟩ else none

@[simp] theorem of?_eq (d : Date) : of? d.year d.month d.day = some d := by
  simp [of?, d.valid]

/-- The day after, none after the last day of the calendar. -/
def next? (d : Date) : Option Date :=
  if d.day < daysInMonth d.year d.month then of? d.year d.month (d.day + 1)
  else if d.month < 12 then of? d.year (d.month + 1) 1
  else of? (d.year + 1) 1 1

/-- The day before, none before the first day of the calendar. -/
def prev? (d : Date) : Option Date :=
  if 1 < d.day then of? d.year d.month (d.day - 1)
  else if 1 < d.month then of? d.year (d.month - 1) (daysInMonth d.year (d.month - 1))
  else of? (d.year - 1) 12 31

/-- A year: four digits from 0 to 9999; outside them a sign and at least four digits. -/
def yearText (year : Int) : List Char :=
  let digits (n : Nat) := if n < 10000 then Numeral.padded 4 n else Numeral.natural n
  if 0 ≤ year && year ≤ 9999 then digits year.toNat
  else (if year < 0 then '-' else '+') :: digits year.natAbs

/-- The written form `YYYY-MM-DD`. -/
def toText (d : Date) : List Char :=
  yearText d.year ++ '-' :: (Numeral.padded 2 d.month ++ '-' :: Numeral.padded 2 d.day)

/-- The number of days from the start of the year 1 to the end of the date, negative before it. -/
def dayNumber (d : Date) : Int :=
  let years := d.year - 1
  let months := (List.range (d.month - 1)).map fun month => daysInMonth d.year (month + 1)
  365 * years + years / 4 - years / 100 + years / 400 + ((months.foldr (· + ·) d.day : Nat) : Int)

theorem month_pos_and_le (d : Date) : 1 ≤ d.month ∧ d.month ≤ 12 := by
  obtain ⟨year, month, day, -, -, h₁, h₂⟩ := d
  simp only
  unfold daysInMonth at h₂
  split at h₂ <;> omega

end Date

end EventJournal
