import EventJournal.Calendar.Date

/-!
# Times

A moment in UTC to the nanosecond, as a date and a time of day. The second 60 is a leap second, and
any minute may have one.

* `Time`, a date, hour, minute, second and nanosecond;
* `Time.shift?`, the time a number of minutes later or earlier, as an offset from UTC asks;
* `Time.nanosecondsUntil`, the nanoseconds from one time to another;
* `Time.toNanoText`, `Time.toText`: the written forms, with all nine digits of the fraction, and
  with the fewest of 0, 3, 6 or 9 that lose nothing.
-/

namespace EventJournal

/-- A moment in UTC. -/
structure Time where
  date : Date
  hour : Nat
  minute : Nat
  second : Nat
  nano : Nat
  valid : hour < 24 ∧ minute < 60 ∧ second ≤ 60 ∧ nano < 1000000000
  deriving DecidableEq

namespace Time

/-- The time of a date and four numbers, if there is one. -/
def of? (date : Date) (hour minute second nano : Nat) : Option Time :=
  if h : hour < 24 ∧ minute < 60 ∧ second ≤ 60 ∧ nano < 1000000000 then
    some ⟨date, hour, minute, second, nano, h⟩
  else none

@[simp] theorem of?_eq (t : Time) : of? t.date t.hour t.minute t.second t.nano = some t := by
  simp [of?, t.valid]

/-- The time `minutes` later, or earlier if negative. The amount stays below one day, so the date
moves by one day at most; seconds do not move, so a leap second stays one. -/
def shift? (t : Time) (minutes : Int) : Option Time :=
  let total : Int := (t.hour * 60 + t.minute : Nat) + minutes
  let date? :=
    if total < 0 then t.date.prev? else if total < 1440 then some t.date else t.date.next?
  let ofDay := (total % 1440).toNat
  date?.bind fun date => of? date (ofDay / 60) (ofDay % 60) t.second t.nano

/-- The number of nanoseconds from a fixed moment to the time. -/
def nanoseconds (t : Time) : Int :=
  ((t.date.dayNumber * 24 + t.hour) * 60 + t.minute) * 60000000000 +
    ((t.second * 1000000000 + t.nano : Nat) : Int)

/-- The nanoseconds from one time to another, none if it is not later. -/
def nanosecondsUntil (t later : Time) : Nat := (later.nanoseconds - t.nanoseconds).toNat

/-- The time of day to the second, `HH:MM:SS`. -/
def clockText (t : Time) : List Char :=
  Numeral.padded 2 t.hour ++ ':' :: (Numeral.padded 2 t.minute ++ ':' :: Numeral.padded 2 t.second)

/-- The fewest of 0, 3, 6 or 9 digits of a fraction of a second that lose nothing, after a point. -/
def fractionText (nano : Nat) : List Char :=
  if nano = 0 then []
  else if nano % 1000000 = 0 then '.' :: Numeral.padded 3 (nano / 1000000)
  else if nano % 1000 = 0 then '.' :: Numeral.padded 6 (nano / 1000)
  else '.' :: Numeral.padded 9 nano

/-- The written form with nine digits of the fraction. -/
def toNanoText (t : Time) : List Char :=
  t.date.toText ++ 'T' :: (t.clockText ++ '.' :: (Numeral.padded 9 t.nano ++ ['Z']))

/-- The written form with the shortest fraction. -/
def toText (t : Time) : List Char :=
  t.date.toText ++ 'T' :: (t.clockText ++ (fractionText t.nano ++ ['Z']))

/-- The written form with nine digits of the fraction, as a string. -/
def toNanoString (t : Time) : String := String.ofList t.toNanoText

/-- The written form with the shortest fraction, as a string. -/
protected def toString (t : Time) : String := String.ofList t.toText

instance : ToString Time := ⟨Time.toString⟩

/-- No minutes later is the same time. -/
@[simp] theorem shift?_zero (t : Time) : t.shift? 0 = some t := by
  have hv := t.valid
  have hlt : ¬ (((t.hour * 60 + t.minute : Nat) : Int) + 0 < 0) := by omega
  have hle : ((t.hour * 60 + t.minute : Nat) : Int) + 0 < 1440 := by omega
  have hday :
      ((((t.hour * 60 + t.minute : Nat) : Int) + 0) % 1440).toNat = t.hour * 60 + t.minute := by
    omega
  have hh : (t.hour * 60 + t.minute) / 60 = t.hour := by omega
  have hm : (t.hour * 60 + t.minute) % 60 = t.minute := by omega
  simp only [shift?, hlt, hle, hday, hh, hm, if_true, if_false, Option.bind_some, of?_eq]

end Time

end EventJournal
