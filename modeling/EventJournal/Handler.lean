import EventJournal.Envelope
import EventJournal.Order.Event
import EventJournal.Transport

/-!
# Handlers

Those who are told of saved events.

* `Handler`, with the topics it asks for and its reaction to an event;
* `Outcome`, how the handling of an event ends, and `Outcome.verdict`;
* `Script`, handlers that follow simple instructions, to try a system out.
-/

namespace EventJournal

namespace Handler

/-- How the handling of an event ends. -/
inductive Outcome
  | handled
  /-- Refused, for a reason and what led to it, the outermost first. -/
  | failed (reasons : List String)
  /-- Broken off, with or without a message. -/
  | panicked (message : Option String)
  deriving DecidableEq, Repr

/-- The verdict on a delivery whose handling ends so. -/
def Outcome.verdict : Outcome → Verdict
  | .handled => .ok ()
  | .failed reasons => .error (String.intercalate ": " reasons)
  | .panicked message =>
    .error ("handler panicked: " ++ message.getD "unknown panic payload")

/-- What a handler does about an event. -/
inductive Reaction
  | now (outcome : Outcome)
  /-- It ends so once a permit has been given to it. -/
  | afterPermit (outcome : Outcome)
  deriving DecidableEq, Repr

/-- When the handling ends, it ends so. -/
def Reaction.outcome : Reaction → Outcome
  | .now outcome | .afterPermit outcome => outcome

end Handler

/-- Somebody who is told of events. -/
structure Handler where
  /-- What tells handlers of one name apart. -/
  label : String
  /-- The name in reports of failures. -/
  name : String
  /-- The topics asked for, patterns among them. -/
  topics : List String
  /-- The reaction to the delivery with a given number. -/
  react : Nat → Envelope → Handler.Reaction

namespace Handler

/-- What a scripted handler does. -/
inductive Behaviour
  | accept
  | refuse
  | panic
  /-- It breaks off without a message. -/
  | panicMutely
  /-- It accepts what can be read as an order event. -/
  | readOrder
  /-- It accepts after a permit. -/
  | waitForPermit
  deriving DecidableEq, Repr

/-- Instructions for a handler. -/
structure Script where
  behaviour : Behaviour
  /-- The reasons of a refusal, the outermost first; the first is also the message of a panic. -/
  messages : List String := []
  /-- The sequence numbers that the instructions are for; other events are accepted. -/
  only : Option (List Int) := none

/-- The reaction to an event that the instructions are for. -/
def Script.follow (s : Script) (envelope : Envelope) : Reaction :=
  match s.behaviour with
  | .accept => .now .handled
  | .refuse => .now (.failed s.messages)
  | .panic => .now (.panicked (some (s.messages.headD "")))
  | .panicMutely => .now (.panicked none)
  | .readOrder =>
    match (DomainEvent.ofEnvelope envelope : Except EventError (DomainEvent Order.Event)) with
    | .ok _ => .now .handled
    | .error e => .now (.failed [e.message])
  | .waitForPermit => .afterPermit .handled

/-- The reaction to any event. -/
def Script.react (s : Script) (envelope : Envelope) : Reaction :=
  match s.only with
  | none => s.follow envelope
  | some numbers =>
    if numbers.contains envelope.event.sequenceNo then s.follow envelope else .now .handled

/-- The handler that follows instructions. -/
def scripted (label name : String) (topics : List String) (script : Script) : Handler :=
  ⟨label, name, topics, fun _ => script.react⟩

end Handler

end EventJournal
