import EventJournal.Decimal.Shortest
import EventJournal.Table

/-!
# Metrics

What a running system counts, and the text in which it reports it.

* `Tally`, counts by label;
* `Metrics`, with one operation for each thing that is counted;
* `Metrics.families`, the families of samples by name, and `Metrics.lines`, the report: for each
  family a line of help, a line with its kind, and its samples.
-/

namespace EventJournal

/-- Counts by label. -/
abbrev Tally := Table String Nat

namespace Tally

/-- The count under a label. -/
def count (t : Tally) (label : String) : Nat := (t.get? label).getD 0

/-- One more under a label. -/
def increment (t : Tally) (label : String) : Tally := t.set label (count t label + 1)

/-- The counts in the order of their labels. -/
def sorted (t : Tally) : List (String × Nat) := t.entries.mergeSort (fun a b => a.1 ≤ b.1)

@[simp] theorem count_empty (label : String) : count .empty label = 0 := rfl

theorem count_increment (t : Tally) (label other : String) :
    count (increment t label) other = count t other + if other = label then 1 else 0 := by
  unfold increment
  rw [count, Table.get?_set]
  split
  · next h => rw [h, Option.getD_some]
  · rfl

end Tally

/-- What has been counted so far. -/
structure Metrics where
  /-- Events that saves made durable. -/
  persisted : Nat := 0
  /-- Saves that were undone. -/
  saveFailures : Nat := 0
  /-- How many seconds each save took, in the order of the saves. -/
  saveSeconds : List Binary64 := []
  /-- Events handed to a dispatcher, by event type. -/
  dispatched : Tally := .empty
  /-- Failed deliveries, by handler. -/
  handlerFailures : Tally := .empty
  /-- Commits of units of work, by outcome. -/
  commits : Tally := .empty

namespace Metrics

/-- Nothing counted yet. -/
def zero : Metrics := {}

/-- Counts a save of some events. -/
def recordSave (m : Metrics) (events : Nat) (seconds : Binary64) (success : Bool) : Metrics :=
  let m := { m with saveSeconds := m.saveSeconds ++ [seconds] }
  if success then { m with persisted := m.persisted + events }
  else { m with saveFailures := m.saveFailures + 1 }

/-- Counts an event handed to a dispatcher. -/
def recordDispatch (m : Metrics) (eventType : String) : Metrics :=
  { m with dispatched := Tally.increment m.dispatched eventType }

/-- Counts a failed delivery. -/
def recordHandlerFailure (m : Metrics) (handler : String) : Metrics :=
  { m with handlerFailures := Tally.increment m.handlerFailures handler }

/-- Counts a commit. -/
def recordCommit (m : Metrics) (outcome : String) : Metrics :=
  { m with commits := Tally.increment m.commits outcome }

/-! ### The report -/

/-- How samples of a family are to be read. -/
inductive Kind
  | counter
  | histogram
  deriving DecidableEq, Repr

/-- The name of a kind. -/
def Kind.name : Kind → String
  | .counter => "counter"
  | .histogram => "histogram"

/-- Samples of one name, written as lines. -/
structure Family where
  name : String
  help : String
  kind : Kind
  samples : List String

/-- A number as reports show it: the fewest digits that read back, without an exponent; of two
equally near decimals the greater one. -/
def numberText (x : Binary64) : String :=
  let magnitude :=
    if x.isFinite then String.ofList (Decimal.shortest .up x).positional else "inf"
  if x.isUndefined then "NaN" else if x.isNegative then "-" ++ magnitude else magnitude

/-- A count as reports show it. Counts are words of 64 bits and are reported as floating-point
numbers. -/
def countText (n : Nat) : String := numberText (.ofNat (n % Nat.pow 2 64))

/-- A character of a label value: backslashes, quotes and line ends are escaped. -/
def escape (c : Char) : List Char :=
  match c with
  | '\\' => ['\\', '\\']
  | '\n' => ['\\', 'n']
  | '"' => ['\\', '"']
  | c => [c]

/-- A line with one labelled sample. -/
def labelledLine (name label value : String) (count : Nat) : String :=
  name ++ "\x7b" ++ label ++ "=\"" ++ String.ofList (value.toList.flatMap escape) ++ "\"\x7d " ++
    countText count

/-- A family of one counter. -/
def counterFamily (name help : String) (count : Nat) : Family :=
  ⟨name, help, .counter, [name ++ " " ++ countText count]⟩

/-- A family with a counter for each label. -/
def labelledFamily (name help label : String) (tally : Tally) : Family :=
  ⟨name, help, .counter,
    (Tally.sorted tally).map fun (value, count) => labelledLine name label value count⟩

/-- The upper bounds of the duration buckets: 0.005 seconds to 10 seconds. -/
def bucketBounds : List Binary64 :=
  [.ofDecimal 5 3, .ofDecimal 10 3, .ofDecimal 25 3, .ofDecimal 50 3, .ofDecimal 100 3,
   .ofDecimal 250 3, .ofDecimal 500 3, .ofDecimal 1000 3, .ofDecimal 2500 3, .ofDecimal 5000 3,
   .ofDecimal 10000 3]

/-- How many observations do not exceed a bound. -/
def countUpTo (observations : List Binary64) (bound : Binary64) : Nat :=
  observations.countP (·.le bound)

/-- A family with one histogram. -/
def histogramFamily (name help : String) (observations : List Binary64) : Family :=
  let bucket (bound : String) (count : Nat) : String :=
    labelledLine (name ++ "_bucket") "le" bound count
  ⟨name, help, .histogram,
    (bucketBounds.map fun bound => bucket (numberText bound) (countUpTo observations bound)) ++
      [bucket "+Inf" observations.length,
       name ++ "_sum " ++ numberText (observations.foldl .add .zero),
       name ++ "_count " ++ countText observations.length]⟩

/-- The families that have samples, in the order of their names. -/
def families (m : Metrics) : List Family :=
  [labelledFamily "events_dispatched_total" "Total envelopes handed to the dispatcher" "event_type"
      m.dispatched,
   counterFamily "events_persisted_total" "Total events durably written by the event store"
      m.persisted,
   labelledFamily "handler_failures_total" "Total failed handler deliveries" "handler"
      m.handlerFailures,
   histogramFamily "store_save_duration_seconds" "Event store save duration" m.saveSeconds,
   counterFamily "store_save_failures_total" "Total event store saves that were rolled back"
      m.saveFailures,
   labelledFamily "unit_of_work_commits_total" "Unit of work commits by outcome" "outcome"
      m.commits].filter fun family => !family.samples.isEmpty

/-- The lines of a family. -/
def Family.lines (f : Family) : List String :=
  ("# HELP " ++ f.name ++ " " ++ f.help) :: ("# TYPE " ++ f.name ++ " " ++ f.kind.name) :: f.samples

/-- The lines of the report. -/
def lines (m : Metrics) : List String := m.families.flatMap Family.lines

/-- Whether a line tells of a sample that does not depend on how long saves took. -/
def isTimeless (line : String) : Bool :=
  !(line.startsWith "#" || line.startsWith "store_save_duration_seconds_bucket" ||
    line.startsWith "store_save_duration_seconds_sum")

/-- The lines with samples that do not depend on how long saves took. -/
def timelessLines (m : Metrics) : List String := m.lines.filter isTimeless

/-- The report as one text, every line ended. -/
def text (m : Metrics) : String := String.join (m.lines.map (· ++ "\n"))

@[simp] theorem persisted_recordSave (m : Metrics) (events : Nat) (seconds : Binary64)
    (success : Bool) :
    (m.recordSave events seconds success).persisted =
      m.persisted + if success then events else 0 := by
  cases success <;> rfl

@[simp] theorem saveFailures_recordSave (m : Metrics) (events : Nat) (seconds : Binary64)
    (success : Bool) :
    (m.recordSave events seconds success).saveFailures =
      m.saveFailures + if success then 0 else 1 := by
  cases success <;> rfl

@[simp] theorem saveSeconds_recordSave (m : Metrics) (events : Nat) (seconds : Binary64)
    (success : Bool) :
    (m.recordSave events seconds success).saveSeconds = m.saveSeconds ++ [seconds] := by
  cases success <;> rfl

end Metrics

end EventJournal
