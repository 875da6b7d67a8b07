import EventJournal.Settings
import EventJournal.System.Rest

/-!
# The demonstration

The life of one order, from its creation to its delivery, in a system with an audit handler that
hears of everything. The settings decide how it is stored and dispatched.

* `Demo.Line`, a line of the log;
* `Demo.Seed`, what differs from one demonstration to the next;
* `Demo.run`, the demonstration under given settings, and `Demo.Report`, what it says.
-/

namespace EventJournal.Demo

/-- A line of the log: a message and named values. -/
structure Line where
  message : String
  fields : List (String × String) := []
  deriving DecidableEq, Repr

/-- The text of a line. -/
def Line.text (line : Line) : String :=
  "INFO " ++ line.message ++
    String.join (line.fields.map fun (name, value) => " " ++ name ++ "=" ++ value)

/-- The message of the lines that tell of deliveries. -/
def deliveredMessage : String := "📨 Event delivered"

/-- What differs from one demonstration to the next. -/
structure Seed where
  now : Time
  orderId : Uuid
  customerId : Uuid
  firstProduct : Uuid
  secondProduct : Uuid
  /-- The ids of saved events. -/
  newId : Nat → Uuid

/-- What a demonstration says: its log, the metrics at the end, and why it broke off. -/
structure Report where
  log : List Line
  metrics : Option Metrics
  failure : Option String

/-- What is asked of the order. -/
def commands (seed : Seed) : List Order.Command :=
  [.create seed.customerId [⟨seed.firstProduct, 2⟩, ⟨seed.secondProduct, 1⟩],
   .confirm,
   .ship "TRACK-123" "UPS",
   .deliver (some "J. Doe")]

/-- The handler that hears of everything. -/
def audit : Handler := ⟨"audit_log", "audit_log", [EventType.everything], fun _ _ => .now .handled⟩

/-- A whole number as the log shows it. -/
def shown (n : Int) : String := String.ofList (Numeral.integer n)

/-- The line that tells of a delivery. -/
def deliveredLine (envelope : Envelope) : Line :=
  ⟨deliveredMessage,
    [("event_type", envelope.event.eventType), ("aggregate_id", envelope.event.aggregateId),
     ("sequence_no", shown envelope.event.sequenceNo), ("event_id", envelope.id.toString)]⟩

/-- The line that tells of the settings. -/
def settingsLine (settings : Settings) : Line :=
  ⟨"Loaded configuration",
    [("batch_size", shown settings.store.batchSize),
     ("sequence_check", settings.store.sequenceCheck.name),
     ("dispatch_mode", settings.dispatchMode.name),
     ("postgres", if settings.databaseUrl.isSome then "true" else "false")]⟩

/-- The system of a demonstration. -/
def system (seed : Seed) (settings : Settings) : System :=
  let registry := Order.register .empty
  let start : System := {
    registry
    options := settings.store
    newId := seed.newId
    clock := seed.now
    metrics := some .zero
    dispatcher := { registry }
    queue :=
      match settings.dispatchMode with
      | .detached => some {}
      | .synchronous => none }
  (start.subscribe audit audit.topics).2

/-- Gives commands to the order one after another, up to the first that fails. -/
def obey (orderId : String) : List Order.Command → System → List Line × Except String System
  | [], s => ([], .ok s)
  | command :: rest, s =>
    let (call, started) := s.handle orderId command
    let after := started.settle
    let delivered := (after.heardSince s).map fun (_, envelope) => deliveredLine envelope
    let lines :=
      ⟨"Handling command", [("order_id", orderId), ("command", command.describe)]⟩ :: delivered
    match after.outcome? call with
    | some (.error e) => (lines, .error e.message)
    | _ =>
      let (more, result) := obey orderId rest after
      (lines ++ more, result)

/-- The state of the order and the number of its events, as the log shows them at the end. -/
def review (orderId : String) (s : System) : List Line × Except String System :=
  match s.loadOrder orderId with
  | (.error e, _) => ([], .error e.message)
  | (.ok order, s) =>
    let complete :=
      match order with
      | none => []
      | some order =>
        [⟨"✅ Order lifecycle complete",
          [("order_id", order.id), ("status", order.status.name),
           ("version", shown order.version)]⟩]
    match s.fetch orderId Numeral.minInt64 with
    | (.error e, _) => (complete, .error e.message)
    | (.ok history, s) =>
      (complete ++ [⟨"Replayed order history", [("events", shown history.length)]⟩], .ok s)

/-- The life of the order in a system. -/
def live (seed : Seed) (s : System) : List Line × Except String System :=
  let orderId := seed.orderId.toString
  match obey orderId (commands seed) s with
  | (lines, .error e) => (lines, .error e)
  | (lines, .ok s) =>
    let (more, result) := review orderId s
    (lines ++ more, result.map fun s => s.shutdown.2.settle.close.settle)

/-- The demonstration under the settings of some values. -/
def run (seed : Seed) (lookup : String → Option String) : Report :=
  let first : List Line := [⟨"🚀 Starting event runtime demo", []⟩]
  match Settings.ofLookup lookup with
  | .error e => ⟨first, none, some e.message⟩
  | .ok settings =>
    let log := first ++ [settingsLine settings]
    match settings.databaseUrl with
    | some _ =>
      match ClosedPool.connect with
      | .error e => ⟨log, none, some e.message⟩
      | .ok _ => ⟨log, none, none⟩
    | none =>
      let log := log ++ [⟨"DATABASE_URL not set, using in-memory backend", []⟩]
      match live seed (system seed settings) with
      | (lines, .error e) => ⟨log ++ lines, none, some e⟩
      | (lines, .ok s) => ⟨log ++ lines, s.metrics, none⟩

/-- What a report leaves on the error output. -/
def Report.errors (r : Report) : String :=
  match r.failure with
  | some message => "Error: " ++ message ++ "\n"
  | none => ""

/-- The exit code of a report. -/
def Report.exitCode (r : Report) : Nat := if r.failure.isSome then 1 else 0

end EventJournal.Demo
