import EventJournal.Demo
import Std.Time.DateTime

/-!
# The command

Runs the demonstration with the settings of the environment. The log and the metrics go to the
standard output, a failure to the error output.
-/

namespace EventJournal.Command

/-- The number on some bytes. -/
def numberOf (bytes : ByteArray) : Nat := bytes.foldl (fun n byte => n * 256 + byte.toNat) 0

/-- A fresh random id. -/
def randomId : IO Uuid := do
  return .random (numberOf (← IO.getRandomBytes 16))

/-- The time of a moment of the clock. -/
def timeOf (moment : Std.Time.Timestamp) : Option Time := do
  let m := Std.Time.DateTime.ofTimestampWithZone moment .UTC
  let date ← Date.of? m.year.toInt m.month.val.toNat m.day.val.toNat
  Time.of? date m.hour.val.toNat m.minute.val.toNat m.second.val.toNat m.nanosecond.val.toNat

/-- What makes this demonstration differ from others; the clock has to show a date of
the calendar. -/
def seed : IO Demo.Seed := do
  let moment ← Std.Time.Timestamp.now
  match timeOf moment with
  | none => throw (IO.userError "the clock is out of range")
  | some now =>
    let tail := numberOf (← IO.getRandomBytes 8)
    let milliseconds := moment.toMillisecondsSinceUnixEpoch.val.toNat
    return {
      now
      orderId := ← randomId
      customerId := ← randomId
      firstProduct := ← randomId
      secondProduct := ← randomId
      newId := fun n => .timed milliseconds (tail + n) }

/-- The values of the environment that settings are read from. -/
def environment : IO (List (String × String)) := do
  let values ← Settings.Key.all.mapM fun key => do
    return (← IO.getEnv key).map fun value => (key, value)
  return values.filterMap id

end EventJournal.Command

open EventJournal in
/-- Runs the demonstration and prints what it says. -/
def main : IO UInt32 := do
  let values ← Command.environment
  let seed ← Command.seed
  let report := Demo.run seed fun key => values.lookup key
  for line in report.log do
    IO.println (toString seed.now ++ "  " ++ line.text)
  match report.metrics with
  | some metrics => IO.println metrics.text
  | none => pure ()
  IO.eprint report.errors
  return report.exitCode.toUInt32
