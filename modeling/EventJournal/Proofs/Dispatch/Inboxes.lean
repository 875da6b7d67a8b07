import EventJournal.Transport
import Mathlib.Data.List.Basic

/-!
# Inboxes

The deliveries to one inbox stand in a line: those that have been judged, the one that its reader
has in hand, and those that wait. What a reader does moves one delivery on, and leaves the lines of
the other readers as they are.

* `Transport.sendings`, the deliveries of a message, and `Transport.publish_eq`, what becomes of
  them;
* `Transport.Lane`, how far the deliveries to an inbox have come;
* `Transport.Lane.take`, `Transport.Lane.settle`, `Transport.Lane.deliver`: how they move on.
-/

namespace EventJournal.Transport

/-! ### Publishing -/

/-- The deliveries of a message on a topic to some subscriptions, numbered from `ticket` on. -/
def sendings (topic : String) (message : Message) (ticket : Nat)
    (subscriptions : List Subscription) : List (Subscription × Delivery) :=
  (subscriptions.zipIdx ticket).map fun (s, n) => (s, ⟨n, topic, message⟩)

/-- What a publisher keeps of a delivery to a subscription. -/
def receiptOf : Subscription × Delivery → Receipt
  | (s, delivery) => ⟨delivery.ticket, s.id, s.name, delivery.topic⟩

/-- The deliveries to one inbox among those to some subscriptions. -/
def toInbox (id : Nat) (sent : List (Subscription × Delivery)) : List Delivery :=
  (sent.filter (·.1.id = id)).map Prod.snd

variable {t : Transport} {topic : String} {message : Message} {subscriptions : List Subscription}
  {id other ticket : Nat}

theorem sendings_cons (s : Subscription) (rest : List Subscription) :
    sendings topic message ticket (s :: rest) =
      (s, ⟨ticket, topic, message⟩) :: sendings topic message (ticket + 1) rest := by
  simp [sendings, List.zipIdx_cons]

theorem toInbox_cons (p : Subscription × Delivery) (sent : List (Subscription × Delivery)) :
    toInbox id (p :: sent) = (if p.1.id = id then [p.2] else []) ++ toInbox id sent := by
  by_cases h : p.1.id = id <;> simp [toInbox, h]

theorem toInbox_append (id : Nat) (sent others : List (Subscription × Delivery)) :
    toInbox id (sent ++ others) = toInbox id sent ++ toInbox id others := by
  simp [toInbox]

theorem length_sendings : (sendings topic message ticket subscriptions).length =
    subscriptions.length := by
  simp [sendings]

theorem map_ticket_sendings : (sendings topic message ticket subscriptions).map (·.2.ticket) =
    List.range' ticket subscriptions.length := by
  rw [sendings, List.map_map, ← List.zipIdx_map_snd]
  rfl

/-- A message is put into every inbox that has a reader, behind what waits there. -/
theorem deliver_eq (read : ∀ s ∈ subscriptions, t.isRead s.id = true) :
    ∃ inboxes, deliver topic message subscriptions t =
        ((sendings topic message (t.lastTicket + 1) subscriptions).map receiptOf,
          { t with lastTicket := t.lastTicket + subscriptions.length, inboxes }) ∧
      ∀ id, inboxes.get? id = (t.inboxes.get? id).map
        (· ++ toInbox id (sendings topic message (t.lastTicket + 1) subscriptions)) := by
  induction subscriptions generalizing t with
  | nil => exact ⟨t.inboxes, rfl, by simp [sendings, toInbox]⟩
  | cons s rest ih =>
    obtain ⟨waiting, hwaiting⟩ := Option.isSome_iff_exists.1 (read s (List.mem_cons_self ..))
    have hread : ∀ s' ∈ rest, isRead
        { t with
          lastTicket := t.lastTicket + 1
          inboxes := t.inboxes.set s.id (waiting ++ [⟨t.lastTicket + 1, topic, message⟩]) }
        s'.id = true := by
      intro s' hs'
      have hbefore := read s' (List.mem_cons_of_mem _ hs')
      rw [isRead, Table.get?_set]
      split
      · rfl
      · exact hbefore
    obtain ⟨inboxes, hdeliver, hinboxes⟩ := ih hread
    refine ⟨inboxes, ?_, fun id => ?_⟩
    · rw [deliver, hwaiting]
      simp only [hdeliver, sendings_cons, List.map_cons, List.length_cons, receiptOf, Nat.add_assoc,
        Nat.add_comm rest.length]
    · rw [hinboxes, sendings_cons, toInbox_cons, Table.get?_set]
      by_cases hid : id = s.id
      · subst hid
        simp [hwaiting]
      · rw [if_neg hid, if_neg (Ne.symm hid), List.nil_append]

/-- Nobody is taken out of the directory while all on the topic have readers. -/
theorem swept_of_isRead (read : ∀ s ∈ t.subscribers topic, t.isRead s.id = true) :
    t.swept topic = t.directory := by
  have hunread : t.unread topic = [] := by
    rw [unread, List.filter_eq_nil_iff.2, List.map_nil]
    exact fun s hs => by simp [read s hs]
  rw [swept, hunread, List.isEmpty_nil, if_pos rfl]

/-- A message is published to all subscriptions of its topic, if every inbox has a reader. -/
theorem publish_eq (opened : t.closed = false) (message : Message)
    (read : ∀ s ∈ t.subscribers topic, t.isRead s.id = true) :
    ∃ inboxes, t.publish topic message = .ok
        ((sendings topic message (t.lastTicket + 1) (t.subscribers topic)).map receiptOf,
          { t with lastTicket := t.lastTicket + (t.subscribers topic).length, inboxes }) ∧
      ∀ id, inboxes.get? id = (t.inboxes.get? id).map
        (· ++ toInbox id (sendings topic message (t.lastTicket + 1) (t.subscribers topic))) := by
  obtain ⟨inboxes, hdeliver, hinboxes⟩ := deliver_eq read
  refine ⟨inboxes, ?_, hinboxes⟩
  simp only [publish, opened, Bool.false_eq_true, if_false, hdeliver, swept_of_isRead read]

/-- A verdict on a delivery that somebody has in hand. -/
theorem settle_of_mem {x : Delivery} (h : (id, x) ∈ t.inHand) (verdict : Verdict) :
    t.settle x.ticket verdict =
      { t with
        inHand := t.inHand.filter (·.2.ticket ≠ x.ticket)
        verdicts := t.verdicts.push x.ticket verdict } := by
  rw [settle, if_pos (List.any_eq_true.2 ⟨_, h, by simp⟩)]

/-! ### Lanes -/

/-- How far the deliveries to an inbox have come: some have been judged, one may be in hand, and
others wait. The reader has an opinion on each of them. -/
structure Lane (t : Transport) (id : Nat) (opinion : Delivery → Verdict) (judged : List Delivery)
    (held : Option Delivery) (waiting : List Delivery) : Prop where
  inbox : t.inboxes.get? id = some waiting
  hand : t.inHand.filter (·.1 = id) = held.toList.map (id, ·)
  judged : ∀ x ∈ judged, t.verdict? x.ticket = some (opinion x)
  unjudged : ∀ x ∈ held.toList ++ waiting, t.verdict? x.ticket = none

namespace Lane

variable {opinion : Delivery → Verdict} {judged waiting : List Delivery} {held : Option Delivery}
  {x : Delivery} {verdict : Verdict}

theorem heldBy?_eq (h : t.Lane id opinion judged held waiting) : t.heldBy? id = held := by
  rw [heldBy?, ← List.head?_filter, h.hand]
  cases held <;> rfl

/-- A reader takes the delivery that has waited longest. -/
theorem take (h : t.Lane id opinion judged none (x :: waiting)) :
    Lane { t with inboxes := t.inboxes.set id waiting, inHand := t.inHand ++ [(id, x)] } id opinion
      judged (some x) waiting where
  inbox := Table.get?_set_self ..
  hand := by
    have hnone : t.inHand.filter (·.1 = id) = [] := h.hand
    simp [List.filter_append, hnone]
  judged := h.judged
  unjudged := h.unjudged

theorem take_other (h : t.Lane other opinion judged held waiting) (ne : other ≠ id) (x : Delivery)
    (rest : List Delivery) :
    Lane { t with inboxes := t.inboxes.set id rest, inHand := t.inHand ++ [(id, x)] } other opinion
      judged held waiting where
  inbox := by
    rw [Table.get?_set, if_neg ne]
    exact h.inbox
  hand := by
    rw [List.filter_append, h.hand]
    simp [Ne.symm ne]
  judged := h.judged
  unjudged := h.unjudged

theorem mem_inHand (h : t.Lane id opinion judged (some x) waiting) : (id, x) ∈ t.inHand := by
  have hmem : (id, x) ∈ t.inHand.filter (·.1 = id) := by simp [h.hand]
  exact (List.mem_filter.1 hmem).1

/-- A reader judges the delivery in hand. -/
theorem settle (h : t.Lane id opinion judged (some x) waiting)
    (distinct : ∀ y ∈ judged ++ waiting, y.ticket ≠ x.ticket) :
    Lane (t.settle x.ticket (opinion x)) id opinion (judged ++ [x]) none waiting := by
  rw [settle_of_mem h.mem_inHand]
  constructor
  case inbox => exact h.inbox
  case hand =>
    show (t.inHand.filter _).filter _ = []
    rw [List.filter_comm, h.hand]
    simp
  case judged =>
    intro y hy
    rw [verdict?, Table.get?_push]
    split
    · next heq =>
      rcases List.mem_append.1 hy with hy | hy
      · exact (distinct y (List.mem_append_left _ hy) heq).elim
      · rw [List.mem_singleton.1 hy]
    · next hne =>
      rcases List.mem_append.1 hy with hy | hy
      · exact h.judged y hy
      · exact (hne (congrArg Delivery.ticket (List.mem_singleton.1 hy))).elim
  case unjudged =>
    intro y hy
    rw [verdict?, Table.get?_push, if_neg (distinct y (List.mem_append_right _ hy))]
    exact h.unjudged y (List.mem_append_right _ hy)

/-- A reader judges a delivery that is not in this lane. -/
theorem settle_other (h : t.Lane other opinion judged held waiting) (hmem : (id, x) ∈ t.inHand)
    (distinct : ∀ y ∈ judged ++ held.toList ++ waiting, y.ticket ≠ x.ticket) (verdict : Verdict) :
    Lane (t.settle x.ticket verdict) other opinion judged held waiting := by
  rw [settle_of_mem hmem]
  constructor
  case inbox => exact h.inbox
  case hand =>
    show (t.inHand.filter _).filter _ = _
    rw [List.filter_comm, h.hand, List.filter_eq_self]
    intro p hp
    obtain ⟨y, hy, rfl⟩ := List.mem_map.1 hp
    simpa using distinct y (List.mem_append_left _ (List.mem_append_right _ hy))
  case judged =>
    intro y hy
    rw [verdict?, Table.get?_push,
      if_neg (distinct y (List.mem_append_left _ (List.mem_append_left _ hy)))]
    exact h.judged y hy
  case unjudged =>
    intro y hy
    have hne : y.ticket ≠ x.ticket := distinct y (by
      rw [List.append_assoc]
      exact List.mem_append_right _ hy)
    rw [verdict?, Table.get?_push, if_neg hne]
    exact h.unjudged y hy

/-- Further deliveries wait behind the others. -/
theorem deliver (h : t.Lane id opinion judged held waiting) {t' : Transport}
    {new : List Delivery} (inbox : t'.inboxes.get? id = (t.inboxes.get? id).map (· ++ new))
    (inHand : t'.inHand = t.inHand) (verdicts : t'.verdicts = t.verdicts)
    (unjudged : ∀ x ∈ new, t.verdict? x.ticket = none) :
    Lane t' id opinion judged held (waiting ++ new) := by
  have hverdict : ∀ n, t'.verdict? n = t.verdict? n := fun n => by rw [verdict?, verdicts]; rfl
  constructor
  case inbox => rw [inbox, h.inbox, Option.map_some]
  case hand => rw [inHand, h.hand]
  case judged => exact fun y hy => (hverdict _).trans (h.judged y hy)
  case unjudged =>
    intro y hy
    rw [hverdict]
    rw [← List.append_assoc] at hy
    rcases List.mem_append.1 hy with hy | hy
    · exact h.unjudged y hy
    · exact unjudged y hy

end Lane

end EventJournal.Transport
