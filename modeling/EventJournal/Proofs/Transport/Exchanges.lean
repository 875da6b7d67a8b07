import EventJournal.Proofs.Dispatch.Inboxes
import EventJournal.Proofs.Transport.Directories

/-!
# Exchanges with a transport

Whoever uses a transport asks something of it and is answered. The requests and the answers so far
tell, without a look into the transport, who listens to which topic, what each reader has still to
get, and how each delivery has ended.

* `Transport.Request`, `Transport.Answer`, `Transport.Exchange`, and `Transport.respond?`;
* `Transcript`, a transport with the exchanges so far, and `Transcript.after?`;
* `Exchange.made`, `Exchange.standing`, `Exchange.hasReader`, `Exchange.listening`: who listens;
* `Exchange.issued`, `Exchange.addressed`, `Exchange.meant`, `Exchange.yielded`,
  `Exchange.waiting`, `Exchange.hand`: what is on its way;
* `Exchange.fate`, how a delivery has ended;
* `Transport.readers`, and `Transport.publish_readers`, what becomes of a message;
* `Transport.Response`, what each request does.

The main statement is `Transport.response_of_respond`.
-/

namespace EventJournal

namespace Transport

/-- How the reader of a delivery ends it. -/
inductive Ending
  | acked
  | nacked (cause : String)
  /-- The delivery is dropped without a verdict. -/
  | dropped

/-- The verdict on a delivery that is ended so. -/
def Ending.verdict : Ending → Verdict
  | .acked => .ok ()
  | .nacked cause => .error cause
  | .dropped => abandoned

/-- What is asked of a transport. -/
inductive Request
  | subscribe (topic name : String)
  | publish (topic : String) (message : Message)
  | receive (id : Nat)
  | ends (ticket : Nat) (ending : Ending)
  | dropInbox (id : Nat)
  | unsubscribe (id : Nat)
  | close

/-- What a transport answers. -/
inductive Answer
  | subscribed (result : Except TransportError Nat)
  | published (result : Except TransportError (List Receipt))
  | received (reception : Reception)
  | unsubscribed (found : Bool)
  | done

/-- A request with its answer. -/
structure Exchange where
  request : Request
  answer : Answer

/-- The answer to a request, and the transport after it. Only who has an inbox can ask for what is
there and drop it, and only a delivery in hand can be ended. -/
def respond? (t : Transport) : Request → Option (Answer × Transport)
  | .subscribe topic name =>
    match t.subscribe topic name with
    | .error e => some (.subscribed (.error e), t)
    | .ok (id, t) => some (.subscribed (.ok id), t)
  | .publish topic message =>
    match t.publish topic message with
    | .error e => some (.published (.error e), t)
    | .ok (receipts, t) => some (.published (.ok receipts), t)
  | .receive id =>
    if t.isRead id then some (.received (t.receive id).1, (t.receive id).2) else none
  | .ends ticket ending =>
    if t.inHand.any (·.2.ticket = ticket) then some (.done, t.settle ticket ending.verdict)
    else none
  | .dropInbox id => if t.isRead id then some (.done, t.dropInbox id) else none
  | .unsubscribe id => some (.unsubscribed (t.unsubscribe id).1, (t.unsubscribe id).2)
  | .close => some (.done, t.close)

end Transport

open Transport (Exchange)

/-- A transport with the exchanges so far, the latest in front. -/
structure Transcript where
  transport : Transport := {}
  past : List Exchange := []

namespace Transcript

/-- One more request is answered; none if it cannot be made now. -/
def ask? (c : Transcript) (request : Transport.Request) : Option Transcript :=
  match c.transport.respond? request with
  | none => none
  | some (answer, transport) => some ⟨transport, ⟨request, answer⟩ :: c.past⟩

/-- Some requests are answered one after another; none if one of them cannot be made. -/
def after? (c : Transcript) : List Transport.Request → Option Transcript
  | [] => some c
  | request :: rest =>
    match c.ask? request with
    | none => none
    | some c => c.after? rest

end Transcript

/-! ### What the exchanges tell -/

namespace Transport.Exchange

/-- The transport has been closed. -/
def wasClosed : List Exchange → Bool
  | [] => false
  | ⟨.close, _⟩ :: _ => true
  | _ :: past => wasClosed past

/-- The subscriptions that were ever made, in that order. -/
def made : List Exchange → List Subscription
  | [] => []
  | ⟨.subscribe topic name, .subscribed (.ok id)⟩ :: past => made past ++ [⟨id, topic, name⟩]
  | _ :: past => made past

/-- The subscriptions that nobody has removed. -/
def standing : List Exchange → List Subscription
  | [] => []
  | ⟨.subscribe topic name, .subscribed (.ok id)⟩ :: past => standing past ++ [⟨id, topic, name⟩]
  | ⟨.unsubscribe id, _⟩ :: past => (standing past).filter (·.id ≠ id)
  | ⟨.close, _⟩ :: _ => []
  | _ :: past => standing past

/-- Somebody has the inbox of a subscription. -/
def hasReader (id : Nat) : List Exchange → Bool
  | [] => false
  | ⟨.subscribe _ _, .subscribed (.ok other)⟩ :: past => id = other || hasReader id past
  | ⟨.dropInbox other, _⟩ :: past => id ≠ other && hasReader id past
  | _ :: past => hasReader id past

/-- The subscriptions that nobody has removed and that somebody reads. -/
def listening (past : List Exchange) : List Subscription :=
  (standing past).filter fun s => hasReader s.id past

/-- What publishers keep of all deliveries, in the order in which they were made. -/
def issued : List Exchange → List Receipt
  | [] => []
  | ⟨.publish _ _, .published (.ok receipts)⟩ :: past => issued past ++ receipts
  | _ :: past => issued past

/-- The deliveries to a subscription that publishers know of. -/
def addressed (id : Nat) : List Exchange → List Delivery
  | [] => []
  | ⟨.publish _ message, .published (.ok receipts)⟩ :: past =>
    addressed id past ++
      (receipts.filter (·.subscription = id)).map fun r => ⟨r.ticket, r.topic, message⟩
  | _ :: past => addressed id past

/-- What is meant for a subscription: the messages that are published on its topic while it
stands. -/
def meant (id : Nat) : List Exchange → List (String × Message)
  | [] => []
  | ⟨.publish topic message, .published (.ok _)⟩ :: past =>
    meant id past ++
      if ∃ s ∈ standing past, s.id = id ∧ s.topic = topic then [(topic, message)] else []
  | _ :: past => meant id past

/-- What the reader of a subscription has got. -/
def yielded (id : Nat) : List Exchange → List Delivery
  | [] => []
  | ⟨.receive other, .received (.delivery x)⟩ :: past =>
    yielded id past ++ if other = id then [x] else []
  | _ :: past => yielded id past

/-- The deliveries to a subscription that its reader has not got yet. -/
def waiting (id : Nat) (past : List Exchange) : List Delivery :=
  (addressed id past).drop (yielded id past).length

/-- The deliveries that readers have got and not ended yet. -/
def hand : List Exchange → List (Nat × Delivery)
  | [] => []
  | ⟨.receive id, .received (.delivery x)⟩ :: past => hand past ++ [(id, x)]
  | ⟨.ends ticket _, _⟩ :: past => (hand past).filter (·.2.ticket ≠ ticket)
  | _ :: past => hand past

/-- How a delivery has ended, if it has: its reader has ended it, or has dropped the inbox while it
was waiting there. -/
def fate (receipt : Receipt) : List Exchange → Option Verdict
  | [] => none
  | ⟨.ends ticket ending, _⟩ :: past =>
    if ticket = receipt.ticket then some ending.verdict else fate receipt past
  | ⟨.dropInbox id, _⟩ :: past =>
    if id = receipt.subscription ∧ receipt.ticket ∉ (yielded id past).map Delivery.ticket then
      some abandoned
    else fate receipt past
  | _ :: past => fate receipt past

end Transport.Exchange

/-! ### What requests do -/

namespace Transport

/-- The subscriptions on a topic that somebody reads. -/
def readers (t : Transport) (topic : String) : List Subscription :=
  (t.subscribers topic).filter fun s => t.isRead s.id

variable {t t' : Transport} {topic : String} {message : Message} {request : Request}
  {answer : Answer}

/-- Those who are gone take no part in a delivery. -/
theorem deliver_filter (subscriptions : List Subscription) (t : Transport) :
    deliver topic message subscriptions t =
      deliver topic message (subscriptions.filter fun s => t.isRead s.id) t := by
  induction subscriptions generalizing t with
  | nil => rfl
  | cons s rest ih =>
    cases hinbox : t.inboxes.get? s.id with
    | none =>
      rw [List.filter_cons_of_neg (by simp [isRead, hinbox]), deliver, hinbox]
      exact ih t
    | some waiting =>
      rw [List.filter_cons_of_pos (by simp [isRead, hinbox]), deliver, deliver, hinbox]
      simp only
      rw [ih]
      -- to put something into an inbox takes no reader away
      have hsame : ∀ (x : Delivery) (n : Nat),
          (rest.filter fun s' => isRead
            { t with lastTicket := n, inboxes := t.inboxes.set s.id (waiting ++ [x]) } s'.id) =
          rest.filter fun s' => t.isRead s'.id := by
        intro x n
        refine List.filter_congr fun s' _ => ?_
        simp only [isRead, Table.get?_set]
        split
        · next heq => simp [heq, hinbox]
        · rfl
      rw [hsame]

/-- On the topic those who are gone are taken out of the directory. -/
theorem items_swept (t : Transport) (topic : String) : (t.swept topic).items =
    t.directory.items.filter fun s => s.topic ≠ topic || t.isRead s.id := by
  have hgone : ∀ s ∈ t.directory.items,
      (s.topic ≠ topic || !(t.unread topic).contains s.id) =
        (s.topic ≠ topic || t.isRead s.id) := by
    intro s hs
    by_cases htopic : s.topic = topic
    · have hunread : s.id ∈ t.unread topic ↔ t.isRead s.id = false := by
        rw [unread, List.mem_map]
        constructor
        · rintro ⟨s', hs', hid⟩
          simpa [hid] using (List.mem_filter.1 hs').2
        · exact fun hgone =>
            ⟨s, List.mem_filter.2 ⟨Directory.mem_get.2 ⟨hs, htopic⟩, by simp [hgone]⟩, rfl⟩
      cases hread : t.isRead s.id <;> simp [htopic, hunread, hread]
    · simp [htopic]
  rw [← List.filter_congr hgone, swept]
  split
  · next hempty =>
    exact (List.filter_eq_self.2 fun s _ => by simp [List.isEmpty_iff.1 hempty]).symm
  · exact Directory.items_prune ..

theorem occupied_swept (h : t.directory.Occupied) (topic : String) :
    (t.swept topic).Occupied := by
  unfold Transport.swept
  split
  · exact h
  · exact h.prune topic _

/-- A message is put into the inboxes of those who are there, behind what waits, and the
subscriptions of those who are gone are removed. -/
theorem publish_readers (opened : t.closed = false) (topic : String) (message : Message) :
    ∃ inboxes, t.publish topic message =
        .ok ((sendings topic message (t.lastTicket + 1) (t.readers topic)).map receiptOf,
          { t with
            lastTicket := t.lastTicket + (t.readers topic).length
            inboxes
            directory := t.swept topic }) ∧
      ∀ id, inboxes.get? id = (t.inboxes.get? id).map
        (· ++ toInbox id (sendings topic message (t.lastTicket + 1) (t.readers topic))) := by
  have hread : ∀ s ∈ t.readers topic, t.isRead s.id = true := fun s hs => (List.mem_filter.1 hs).2
  obtain ⟨inboxes, hdeliver, hinboxes⟩ :
      ∃ inboxes, deliver topic message (t.readers topic) t = _ ∧ _ := deliver_eq hread
  refine ⟨inboxes, ?_, hinboxes⟩
  rw [publish, deliver_filter, show (t.subscribers topic).filter _ = t.readers topic from rfl,
    hdeliver]
  simp only [opened, Bool.false_eq_true, if_false]

/-- What a request does. -/
inductive Response (t : Transport) : Request → Answer → Transport → Prop
  | refusesReader {topic name : String} (shut : t.closed = true) :
      t.Response (.subscribe topic name) (.subscribed (.error .closed)) t
  | subscribes {topic name : String} (opened : t.closed = false) :
      t.Response (.subscribe topic name) (.subscribed (.ok (t.lastId + 1)))
        { t with
          directory := t.directory.add ⟨t.lastId + 1, topic, name⟩
          lastId := t.lastId + 1
          inboxes := t.inboxes.set (t.lastId + 1) [] }
  | refusesMessage {topic : String} {message : Message} (shut : t.closed = true) :
      t.Response (.publish topic message) (.published (.error .closed)) t
  | publishes {topic : String} {message : Message} {inboxes : Table Nat (List Delivery)}
      (opened : t.closed = false)
      (filled : ∀ id, inboxes.get? id = (t.inboxes.get? id).map
        (· ++ toInbox id (sendings topic message (t.lastTicket + 1) (t.readers topic)))) :
      t.Response (.publish topic message)
        (.published (.ok
          ((sendings topic message (t.lastTicket + 1) (t.readers topic)).map receiptOf)))
        { t with
          lastTicket := t.lastTicket + (t.readers topic).length
          inboxes
          directory := t.swept topic }
  | takes {id : Nat} {x : Delivery} {rest : List Delivery}
      (inbox : t.inboxes.get? id = some (x :: rest)) :
      t.Response (.receive id) (.received (.delivery x))
        { t with inboxes := t.inboxes.set id rest, inHand := t.inHand ++ [(id, x)] }
  | waits {id : Nat} (inbox : t.inboxes.get? id = some []) :
      t.Response (.receive id) (.received .empty) t
  | endsReading {id : Nat} (inbox : t.inboxes.get? id = some []) :
      t.Response (.receive id) (.received .ended) t
  | ends {ticket : Nat} {ending : Ending} {p : Nat × Delivery} (mem : p ∈ t.inHand)
      (ticket_eq : p.2.ticket = ticket) :
      t.Response (.ends ticket ending) .done
        { t with
          inHand := t.inHand.filter (·.2.ticket ≠ ticket)
          verdicts := t.verdicts.push ticket ending.verdict }
  | drops {id : Nat} {waiting : List Delivery} (inbox : t.inboxes.get? id = some waiting) :
      t.Response (.dropInbox id) .done
        (abandon { t with inboxes := t.inboxes.erase id } waiting)
  | removes (id : Nat) :
      t.Response (.unsubscribe id) (.unsubscribed (t.subscriptions.any (·.id = id)))
        { t with directory := t.directory.retain (·.id ≠ id) }
  | closes : t.Response .close .done { t with closed := true, directory := .empty }

/-- A request that is answered does one of these things. -/
theorem response_of_respond (h : t.respond? request = some (answer, t')) :
    t.Response request answer t' := by
  have hclosed : t.closed = true ∨ t.closed = false := by simp
  cases request with
  | subscribe topic name =>
    rcases hclosed with shut | opened
    · simp only [respond?, subscribe_of_closed shut] at h
      obtain ⟨rfl, rfl⟩ := Prod.mk.inj (Option.some.inj h)
      exact .refusesReader shut
    · simp only [respond?, subscribe, opened, Bool.false_eq_true, if_false] at h
      obtain ⟨rfl, rfl⟩ := Prod.mk.inj (Option.some.inj h)
      rw [← opened]
      exact .subscribes opened
  | publish topic message =>
    rcases hclosed with shut | opened
    · simp only [respond?, publish_of_closed shut] at h
      obtain ⟨rfl, rfl⟩ := Prod.mk.inj (Option.some.inj h)
      exact .refusesMessage shut
    · obtain ⟨inboxes, hpublish, filled⟩ := publish_readers opened topic message
      simp only [respond?, hpublish] at h
      obtain ⟨rfl, rfl⟩ := Prod.mk.inj (Option.some.inj h)
      exact .publishes opened filled
  | receive id =>
    simp only [respond?] at h
    split at h
    · next hread =>
      obtain ⟨waiting, hinbox⟩ := Option.isSome_iff_exists.1 hread
      obtain ⟨rfl, rfl⟩ := Prod.mk.inj (Option.some.inj h)
      cases waiting with
      | nil =>
        cases hany : t.subscriptions.any (·.id = id) with
        | true =>
          simp only [receive, hinbox, hany, if_true]
          exact .waits hinbox
        | false =>
          simp only [receive, hinbox, hany, Bool.false_eq_true, if_false]
          exact .endsReading hinbox
      | cons x rest =>
        simp only [receive, hinbox]
        exact .takes hinbox
    · simp at h
  | ends ticket ending =>
    simp only [respond?] at h
    split at h
    · next hany =>
      obtain ⟨rfl, rfl⟩ := Prod.mk.inj (Option.some.inj h)
      obtain ⟨p, hp, hticket⟩ := List.any_eq_true.1 hany
      rw [settle, if_pos hany]
      exact .ends hp (of_decide_eq_true hticket)
    · simp at h
  | dropInbox id =>
    simp only [respond?] at h
    split at h
    · next hread =>
      obtain ⟨waiting, hinbox⟩ := Option.isSome_iff_exists.1 hread
      obtain ⟨rfl, rfl⟩ := Prod.mk.inj (Option.some.inj h)
      rw [dropInbox, hinbox]
      exact .drops hinbox
    · simp at h
  | unsubscribe id =>
    obtain ⟨rfl, rfl⟩ := Prod.mk.inj (Option.some.inj h)
    exact .removes id
  | close =>
    obtain ⟨rfl, rfl⟩ := Prod.mk.inj (Option.some.inj h)
    exact .closes

end Transport

end EventJournal
