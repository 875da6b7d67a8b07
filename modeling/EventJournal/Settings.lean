import EventJournal.Text.Blank
import EventJournal.UnitOfWork

/-!
# Settings

What a program can be told by named values, such as those of its environment. A value that is
missing or blank keeps its default; blanks around a value do not count.

* `Settings`, with the defaults, and the names of the values in `Settings.Key`;
* `SequenceCheck.read`, `DispatchMode.read`, the words for choices;
* `Settings.ofLookup`, the settings of some values or the first fault, and `SettingError`.
-/

namespace EventJournal

/-- A word without blanks around it, in lower case. -/
def lowered (s : String) : String := String.ofList ((Text.trim s.toList).map Char.toLower)

/-- The sequence check that a word stands for. -/
def SequenceCheck.read (s : String) : Except String SequenceCheck :=
  match lowered s with
  | "strict" => .ok .strict
  | "unchecked" => .ok .unchecked
  | other => .error ("unknown sequence check '" ++ other ++ "', expected 'strict' or 'unchecked'")

/-- The dispatch mode that a word stands for. -/
def DispatchMode.read (s : String) : Except String DispatchMode :=
  match lowered s with
  | "sync" | "synchronous" => .ok .synchronous
  | "detached" | "async" => .ok .detached
  | other => .error ("unknown dispatch mode '" ++ other ++ "', expected 'sync' or 'detached'")

/-- A value that is not what its name asks for. -/
structure SettingError where
  key : String
  value : String
  reason : String
  deriving DecidableEq, Repr

/-- The wording of the error. -/
def SettingError.message (e : SettingError) : String :=
  "invalid value '" ++ e.value ++ "' for " ++ e.key ++ ": " ++ e.reason

/-- What a program can be told. -/
structure Settings where
  store : StoreOptions := {}
  dispatchMode : DispatchMode := .synchronous
  /-- The database to connect to; without one, events are kept in memory. -/
  databaseUrl : Option String := none
  /-- How many connections to a database there may be. -/
  maxConnections : Nat := 5

namespace Settings

namespace Key

/-- The name of the number of records inserted at once. -/
def batchSize : String := "EVENT_RUNTIME_BATCH_SIZE"

/-- The name of the check of sequence numbers. -/
def sequenceCheck : String := "EVENT_RUNTIME_SEQUENCE_CHECK"

/-- The name of the dispatch mode. -/
def dispatchMode : String := "EVENT_RUNTIME_DISPATCH_MODE"

/-- The name of the number of connections. -/
def maxConnections : String := "EVENT_RUNTIME_MAX_CONNECTIONS"

/-- The name of the database. -/
def databaseUrl : String := "DATABASE_URL"

/-- All names. -/
def all : List String := [batchSize, sequenceCheck, dispatchMode, maxConnections, databaseUrl]

end Key

/-- The settings where nothing is said. -/
def default : Settings := {}

/-- A whole number without a sign, up to a bound. -/
def readCount (greatest : Int) (s : String) : Except String Nat :=
  match Numeral.readInteger 0 greatest s.toList with
  | .ok n => .ok n.toNat
  | .error fault => .error fault.message

/-- The greatest number of an unsigned 64-bit word. -/
def maxUInt64 : Int := 18446744073709551615

/-- The greatest number of an unsigned 32-bit word. -/
def maxUInt32 : Int := 4294967295

/-- A value that is there and not blank. -/
def given? (lookup : String → Option String) (key : String) : Option String :=
  (lookup key).filter fun value => !(Text.trim value.toList).isEmpty

/-- Reads the value of a name, if there is one, and puts it into the settings. -/
def absorb {α : Type} (lookup : String → Option String) (key : String)
    (read : String → Except String α) (put : Settings → α → Settings) (s : Settings) :
    Except SettingError Settings :=
  match given? lookup key with
  | none => .ok s
  | some value =>
    match read (Text.trimmed value) with
    | .ok a => .ok (put s a)
    | .error reason => .error ⟨key, value, reason⟩

/-- The settings of some values. They are read in this order, so the first fault is reported. A
batch size and a number of connections of 0 count as 1. -/
def ofLookup (lookup : String → Option String) : Except SettingError Settings := do
  let s ← absorb lookup Key.batchSize (readCount maxUInt64)
    (fun s n => { s with store := s.store.withBatchSize n }) default
  let s ← absorb lookup Key.sequenceCheck SequenceCheck.read
    (fun s check => { s with store := { s.store with sequenceCheck := check } }) s
  let s ← absorb lookup Key.dispatchMode DispatchMode.read
    (fun s mode => { s with dispatchMode := mode }) s
  let s ← absorb lookup Key.maxConnections (readCount maxUInt32)
    (fun s n => { s with maxConnections := max n 1 }) s
  return { s with databaseUrl := given? lookup Key.databaseUrl }

end Settings

end EventJournal
