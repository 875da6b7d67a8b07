import EventJournal.Directory
import EventJournal.Message

/-!
# The transport

Messages travel from publishers to subscriptions. A subscription is on one topic, and each has an
inbox of its own, which somebody reads until they drop it. Nothing is delivered twice, and every
delivery ends in one verdict: that of its reader, or that it was abandoned.

* `Transport`, `Delivery`, `Receipt`, `Verdict`;
* `Transport.subscribe`, `Transport.publish`, `Transport.unsubscribe`, `Transport.close`;
* `Transport.receive`, `Transport.settle`, `Transport.dropInbox`, the side of a reader;
* `Transport.verdict?`, what a publisher learns of a delivery.
-/

namespace EventJournal

/-- How a delivery ends: handled, or why not. -/
abbrev Verdict := Except String Unit

/-- The verdict on a delivery that nobody judged. -/
def abandoned : Verdict := .error "delivery abandoned"

/-- Why the transport refuses. -/
inductive TransportError
  | closed
  deriving DecidableEq, Repr

/-- The wording of each error. -/
def TransportError.message : TransportError → String
  | .closed => "transport is closed"

/-- A place in the table of those who listen to topics. -/
structure Subscription where
  id : Nat
  topic : String
  name : String
  deriving DecidableEq, Repr

/-- A message on its way to one subscription. -/
structure Delivery where
  /-- The number that tells deliveries apart. -/
  ticket : Nat
  topic : String
  message : Message
  deriving DecidableEq

/-- What a publisher keeps of a delivery. -/
structure Receipt where
  ticket : Nat
  subscription : Nat
  subscriber : String
  topic : String
  deriving DecidableEq, Repr

/-- Subscriptions and the deliveries under way. -/
structure Transport where
  closed : Bool := false
  /-- The subscriptions on each topic. -/
  directory : Directory Subscription.topic := .empty
  /-- The last number given to a subscription. -/
  lastId : Nat := 0
  /-- The inboxes that still have a reader: what waits in them, the oldest delivery first. -/
  inboxes : Table Nat (List Delivery) := .empty
  /-- The deliveries that a reader has taken and not judged yet, with the number of the inbox. -/
  inHand : List (Nat × Delivery) := []
  /-- The last number given to a delivery. -/
  lastTicket : Nat := 0
  /-- The verdicts so far, the latest in front. -/
  verdicts : Table Nat Verdict := .empty

namespace Transport

/-- The subscriptions on a topic. -/
def subscribers (t : Transport) (topic : String) : List Subscription := t.directory.get topic

/-- All subscriptions, in the order in which they were made. -/
def subscriptions (t : Transport) : List Subscription := t.directory.inOrder Subscription.id

/-- Whether an inbox still has a reader. -/
def isRead (t : Transport) (id : Nat) : Bool := (t.inboxes.get? id).isSome

/-- The verdict on a delivery, once there is one. -/
def verdict? (t : Transport) (ticket : Nat) : Option Verdict := t.verdicts.get? ticket

/-- A new subscription, with an inbox of its number. -/
def subscribe (t : Transport) (topic name : String) : Except TransportError (Nat × Transport) :=
  if t.closed then .error .closed
  else
    let id := t.lastId + 1
    .ok (id, { t with
      directory := t.directory.add ⟨id, topic, name⟩
      lastId := id
      inboxes := t.inboxes.set id [] })

/-- Removes a subscription; whether there was one. Its reader may still take what waits. -/
def unsubscribe (t : Transport) (id : Nat) : Bool × Transport :=
  (t.subscriptions.any (·.id = id),
   { t with directory := t.directory.retain (·.id ≠ id) })

/-- Refuses publishers and subscribers from now on, and removes all subscriptions. -/
def close (t : Transport) : Transport := { t with closed := true, directory := .empty }

/-- Puts a message into the inboxes of some subscriptions, those without a reader left out. -/
def deliver (topic : String) (message : Message) :
    List Subscription → Transport → List Receipt × Transport
  | [], t => ([], t)
  | s :: rest, t =>
    match t.inboxes.get? s.id with
    | none => deliver topic message rest t
    | some waiting =>
      let ticket := t.lastTicket + 1
      let delivery : Delivery := ⟨ticket, topic, message⟩
      let (receipts, t) := deliver topic message rest
        { t with lastTicket := ticket, inboxes := t.inboxes.set s.id (waiting ++ [delivery]) }
      (⟨ticket, s.id, s.name, topic⟩ :: receipts, t)

/-- The subscriptions on a topic whose inboxes have no reader. -/
def unread (t : Transport) (topic : String) : List Nat :=
  ((t.subscribers topic).filter (!t.isRead ·.id)).map Subscription.id

/-- The directory without the subscriptions on a topic that have no reader, if there are any. -/
def swept (t : Transport) (topic : String) : Directory Subscription.topic :=
  if (t.unread topic).isEmpty then t.directory
  else t.directory.prune topic fun s => !(t.unread topic).contains s.id

/-- Publishes a message on a topic: a receipt for each subscription with a reader. The subscriptions
of the topic that have none are removed. -/
def publish (t : Transport) (topic : String) (message : Message) :
    Except TransportError (List Receipt × Transport) :=
  if t.closed then .error .closed
  else
    let (receipts, filled) := deliver topic message (t.subscribers topic) t
    .ok (receipts, { filled with directory := t.swept topic })

/-- What a reader finds in an inbox. -/
inductive Reception
  | delivery (d : Delivery)
  /-- Nothing yet. -/
  | empty
  /-- Nothing, and nothing will come. -/
  | ended
  /-- The inbox has been dropped. -/
  | noInbox
  deriving DecidableEq

/-- Takes the oldest delivery out of an inbox. -/
def receive (t : Transport) (id : Nat) : Reception × Transport :=
  match t.inboxes.get? id with
  | none => (.noInbox, t)
  | some (d :: rest) =>
    (.delivery d, { t with inboxes := t.inboxes.set id rest, inHand := t.inHand ++ [(id, d)] })
  | some [] => if t.subscriptions.any (·.id = id) then (.empty, t) else (.ended, t)

/-- Judges a delivery in hand. A delivery that is not in hand keeps the verdict it has. -/
def settle (t : Transport) (ticket : Nat) (verdict : Verdict) : Transport :=
  if t.inHand.any (·.2.ticket = ticket) then
    { t with
      inHand := t.inHand.filter (·.2.ticket ≠ ticket)
      verdicts := t.verdicts.push ticket verdict }
  else t

/-- Abandons deliveries. -/
def abandon (t : Transport) (deliveries : List Delivery) : Transport :=
  { t with verdicts := deliveries.foldl (fun v d => v.push d.ticket abandoned) t.verdicts }

/-- Drops an inbox with everything that waits in it. -/
def dropInbox (t : Transport) (id : Nat) : Transport :=
  { t with inboxes := t.inboxes.erase id }.abandon ((t.inboxes.get? id).getD [])

/-- The delivery that the reader of an inbox has in hand. -/
def heldBy? (t : Transport) (id : Nat) : Option Delivery :=
  (t.inHand.find? (·.1 = id)).map Prod.snd

/-- The deliveries to an inbox that have no verdict yet. -/
def pending (t : Transport) (id : Nat) : List Delivery :=
  (t.inHand.filter (·.1 = id)).map Prod.snd ++ (t.inboxes.get? id).getD []

/-- The reader of an inbox goes away: what they have in hand and what waits is abandoned. -/
def dropReader (t : Transport) (id : Nat) : Transport :=
  { t with
    inboxes := t.inboxes.erase id
    inHand := t.inHand.filter (·.1 ≠ id) }.abandon (t.pending id)

@[simp] theorem publish_of_closed {t : Transport} (h : t.closed = true) (topic : String)
    (message : Message) : t.publish topic message = .error .closed := by
  simp [publish, h]

@[simp] theorem subscribe_of_closed {t : Transport} (h : t.closed = true) (topic name : String) :
    t.subscribe topic name = .error .closed := by
  simp [subscribe, h]

end Transport

end EventJournal
