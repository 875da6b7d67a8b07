import EventJournal.Proofs.Dispatch.Flows
import EventJournal.Proofs.Transport.Queues

/-!
# The contract of a transport

Subscriptions are made and removed, messages are published, readers take and end deliveries or go
away, and at some time the transport is closed. After any such requests, what the transport does
next is what the exchanges so far demand, and every delivery has the verdict that they tell.

* `Exchange.next`, what a reader is to find next;
* `Transport.Contract`, what is guaranteed after some exchanges;
* `Transport.Rulings`, the verdicts as the exchanges tell them, and `Transport.Rulings.respond`,
  what each request makes of them;
* `Transcript.Sound`, what every request preserves.

The main statement is `Transcript.contract_of_after`.
-/

namespace EventJournal

namespace Transport

open Exchange

/-- What the reader of a subscription is to find next: the first delivery that it has not got, and
if there is none, whether one may still come. -/
def Exchange.next (id : Nat) (past : List Exchange) : Reception :=
  match waiting id past with
  | x :: _ => .delivery x
  | [] => if ∃ s ∈ standing past, s.id = id then .empty else .ended

/-- What a transport guarantees after some exchanges. -/
structure Contract (t : Transport) (past : List Exchange) : Prop where
  /-- No two subscriptions ever have the same number, and no two deliveries the same ticket. -/
  numbers : ((made past).map Subscription.id).Pairwise (· < ·) ∧
    ((issued past).map Receipt.ticket).Pairwise (· < ·)
  /-- The table lists those who listen. Others that nobody has removed may be there too, in their
  order. -/
  table : t.subscriptions.Sublist (standing past) ∧
    (t.subscriptions.filter fun s => hasReader s.id past) = listening past
  /-- It keeps no topic with nobody on it. -/
  occupied : t.directory.Occupied
  /-- A new subscription has a new number and comes last. -/
  subscribed : wasClosed past = false → ∀ topic name, ∃ id t',
    t.subscribe topic name = .ok (id, t') ∧ (∀ s ∈ made past, s.id < id) ∧
      t'.subscriptions = t.subscriptions ++ [⟨id, topic, name⟩]
  /-- A message goes to everybody who listens on its topic, in order, with a receipt for each. Those
  on the topic who are gone are taken out of the table, and nobody else is. -/
  published : wasClosed past = false → ∀ topic message, ∃ receipts t',
    t.publish topic message = .ok (receipts, t') ∧
      receipts.map Receipt.addressee = (listening past).filter (·.topic = topic) ∧
      t'.subscriptions = t.subscriptions.filter fun s => s.topic ≠ topic || hasReader s.id past
  /-- Who is in the table can be removed from it, and the others stay in their order. -/
  unsubscribed : ∀ id, ((t.unsubscribe id).1 = true ↔ ∃ s ∈ t.subscriptions, s.id = id) ∧
    (t.unsubscribe id).2.subscriptions = t.subscriptions.filter (·.id ≠ id)
  /-- A transport that was closed refuses readers and messages. -/
  closed : wasClosed past = true → t.subscriptions = [] ∧
    (∀ topic name, t.subscribe topic name = .error .closed) ∧
    ∀ topic message, t.publish topic message = .error .closed
  /-- As long as a subscription is read, everything that is meant for it is sent to it, once and in
  order. -/
  addressed : ∀ id, (addressed id past).map Delivery.content <+: meant id past ∧
    (hasReader id past = true → (addressed id past).map Delivery.content = meant id past)
  /-- A reader gets what was sent to it, once and in order. -/
  yielded : ∀ id, yielded id past <+: Exchange.addressed id past
  received : ∀ id, t.isRead id = hasReader id past ∧
    (hasReader id past = true → (t.receive id).1 = next id past)
  /-- What a reader has got can be ended, once. -/
  hand : t.inHand = hand past
  /-- Every delivery has the verdict that it was ended with, -/
  verdicts : ∀ receipt ∈ issued past, t.verdict? receipt.ticket = fate receipt past
  /-- which is never changed. -/
  settled : ∀ request answer t', t.respond? request = some (answer, t') → ∀ ticket verdict,
    t.verdict? ticket = some verdict → t'.verdict? ticket = some verdict

/-- The verdicts are those that the exchanges tell. -/
structure Rulings (t : Transport) (past : List Exchange) : Prop where
  tickets : (issued past).map Receipt.ticket = List.range' 1 t.lastTicket
  verdicts : ∀ receipt ∈ issued past, t.verdict? receipt.ticket = fate receipt past
  fresh : ∀ ticket, t.lastTicket < ticket → t.verdict? ticket = none
  /-- Nothing has become of a delivery that is still to be made. -/
  unsettled : ∀ receipt : Receipt, t.lastTicket < receipt.ticket →
    hasReader receipt.subscription past = true ∨ t.lastId < receipt.subscription →
    fate receipt past = none
  hand : ∀ p ∈ hand past, t.verdict? p.2.ticket = none
  waiting : ∀ id, hasReader id past = true → ∀ x ∈ waiting id past, t.verdict? x.ticket = none

variable {t t' : Transport} {past : List Exchange} {request : Request} {answer : Answer} {id : Nat}

/-! ### The verdicts -/

namespace Rulings

variable {x y : Delivery} {p : Nat × Delivery} {other : Nat}

theorem nodup_tickets (rulings : t.Rulings past) : ((issued past).map Receipt.ticket).Nodup := by
  rw [rulings.tickets]
  exact List.nodup_range'

theorem ticket_le (rulings : t.Rulings past) {receipt : Receipt} (h : receipt ∈ issued past) :
    receipt.ticket ≤ t.lastTicket := by
  have hmem : receipt.ticket ∈ (issued past).map Receipt.ticket := List.mem_map_of_mem h
  rw [rulings.tickets, List.mem_range'_1] at hmem
  omega

/-- A delivery has a receipt. -/
theorem exists_receipt (hx : x ∈ addressed id past) :
    ∃ receipt ∈ issued past, receipt.subscription = id ∧ receipt.ticket = x.ticket := by
  have hmem : x.ticket ∈ (addressed id past).map Delivery.ticket := List.mem_map_of_mem hx
  rw [map_ticket_addressed] at hmem
  obtain ⟨receipt, hreceipt, hticket⟩ := List.mem_map.1 hmem
  obtain ⟨hissued, hid⟩ := List.mem_filter.1 hreceipt
  exact ⟨receipt, hissued, of_decide_eq_true hid, hticket⟩

theorem ticket_le_of_addressed (rulings : t.Rulings past) (hx : x ∈ addressed id past) :
    x.ticket ≤ t.lastTicket := by
  obtain ⟨receipt, hreceipt, -, hticket⟩ := exists_receipt hx
  exact hticket ▸ rulings.ticket_le hreceipt

/-- Deliveries with one ticket are for one subscription. -/
theorem id_eq (rulings : t.Rulings past) (hx : x ∈ addressed id past)
    (hy : y ∈ addressed other past) (heq : x.ticket = y.ticket) : id = other := by
  obtain ⟨receipt, hreceipt, rfl, hticket⟩ := exists_receipt hx
  obtain ⟨receipt', hreceipt', rfl, hticket'⟩ := exists_receipt hy
  rw [List.inj_on_of_nodup_map rulings.nodup_tickets hreceipt hreceipt'
    (hticket.trans (heq.trans hticket'.symm))]

theorem nodup_addressed (rulings : t.Rulings past) (id : Nat) :
    ((addressed id past).map Delivery.ticket).Nodup := by
  rw [map_ticket_addressed]
  exact rulings.nodup_tickets.sublist (List.filter_sublist.map _)

/-- What is in hand does not wait any more. -/
theorem ticket_ne (rulings : t.Rulings past) (queues : t.Queues past) (hp : p ∈ Exchange.hand past)
    (hx : x ∈ Exchange.waiting id past) : x.ticket ≠ p.2.ticket := by
  intro heq
  have htaken := queues.taken p hp
  have hx' : x ∈ addressed id past := List.mem_of_mem_drop hx
  obtain rfl := rulings.id_eq hx' ((queues.yielded p.1).subset htaken) heq
  have hnodup := rulings.nodup_addressed p.1
  rw [← queues.append_waiting, List.map_append, List.nodup_append] at hnodup
  exact hnodup.2.2 _ (List.mem_map_of_mem htaken) _ (List.mem_map_of_mem hx) heq.symm

/-- What waits in an inbox was issued for its subscription and has not been taken. -/
theorem mem_waiting_iff (rulings : t.Rulings past) (queues : t.Queues past) {receipt : Receipt}
    (h : receipt ∈ issued past) :
    receipt.ticket ∈ (Exchange.waiting id past).map Delivery.ticket ↔
      id = receipt.subscription ∧ receipt.ticket ∉ (yielded id past).map Delivery.ticket := by
  have hnodup := rulings.nodup_addressed id
  have happend := map_ticket_addressed id past
  rw [← queues.append_waiting, List.map_append] at hnodup happend
  rw [List.nodup_append] at hnodup
  constructor
  · intro hmem
    obtain ⟨x, hx, hticket⟩ := List.mem_map.1 hmem
    obtain ⟨receipt', hreceipt', rfl, hticket'⟩ := exists_receipt (List.mem_of_mem_drop hx)
    refine ⟨?_, fun htaken => hnodup.2.2 _ htaken _ hmem rfl⟩
    rw [List.inj_on_of_nodup_map rulings.nodup_tickets hreceipt' h (hticket'.trans hticket)]
  · rintro ⟨rfl, hnot⟩
    have hmem : receipt.ticket ∈
        ((issued past).filter (·.subscription = receipt.subscription)).map Receipt.ticket :=
      List.mem_map_of_mem (List.mem_filter.2 ⟨h, by simp⟩)
    rw [← happend] at hmem
    exact (List.mem_append.1 hmem).resolve_left hnot

/-- Each request changes the verdicts as the exchange tells. -/
theorem respond (rulings : t.Rulings past) (queues : t.Queues past)
    (h : t.Response request answer t') : t'.Rulings (⟨request, answer⟩ :: past) := by
  cases h with
  | refusesReader | refusesMessage | waits | endsReading | removes | closes =>
    exact ⟨rulings.tickets, rulings.verdicts, rulings.fresh, rulings.unsettled, rulings.hand,
      rulings.waiting⟩
  | @subscribes topic name opened =>
    refine ⟨rulings.tickets, rulings.verdicts, rulings.fresh, fun receipt hlt hlater => ?_,
      rulings.hand, fun id hread x hx => ?_⟩
    · refine rulings.unsettled receipt hlt ?_
      rcases hlater with hread | hlt'
      · simp only [hasReader, Bool.or_eq_true, decide_eq_true_eq] at hread
        rcases hread with hnew | hread
        · exact .inr (by omega)
        · exact .inl hread
      · exact .inr (Nat.lt_of_succ_lt hlt')
    · simp only [hasReader, Bool.or_eq_true, decide_eq_true_eq] at hread
      rcases hread with rfl | hread
      · -- nothing has been sent to the new subscription
        have hx' : x ∈ addressed (t.lastId + 1) past := List.mem_of_mem_drop hx
        rw [(queues.strangers _ (Nat.lt_succ_self _)).2.1] at hx'
        simp at hx'
      · exact rulings.waiting id hread x hx
  | @publishes topic message inboxes opened filled =>
    have hnew : ∀ s x, (s, x) ∈ sendings topic message (t.lastTicket + 1) (t.readers topic) →
        t.lastTicket < x.ticket ∧ hasReader s.id past = true := by
      intro s x hmem
      obtain ⟨⟨s', n⟩, hzip, heq⟩ := List.mem_map.1 hmem
      obtain ⟨rfl, rfl⟩ := Prod.mk.inj heq
      refine ⟨List.le_snd_of_mem_zipIdx hzip, ?_⟩
      rw [← queues.isRead_eq]
      exact (List.mem_filter.1 (List.fst_mem_of_mem_zipIdx hzip)).2
    refine ⟨?_, ?_, fun ticket hlt => ?_, fun receipt hlt => ?_, rulings.hand,
      fun id hread x hx => ?_⟩
    · show (issued past ++ _).map _ = List.range' 1 (t.lastTicket + _)
      have htickets : (sendings topic message (t.lastTicket + 1) (t.readers topic)).map
          (·.2.ticket) = _ := map_ticket_sendings
      rw [List.map_append, rulings.tickets, List.map_map, ← List.range'_append_1,
        Nat.add_comm 1 t.lastTicket, ← htickets]
      rfl
    · refine List.forall_mem_append.2 ⟨rulings.verdicts, fun receipt hmem => ?_⟩
      obtain ⟨⟨s, x⟩, hsent, rfl⟩ := List.mem_map.1 hmem
      obtain ⟨hlt, hread⟩ := hnew s x hsent
      exact (rulings.fresh _ hlt).trans (rulings.unsettled _ hlt (.inl hread)).symm
    · exact rulings.fresh ticket (Nat.lt_of_le_of_lt (Nat.le_add_right ..) hlt)
    · exact rulings.unsettled receipt (Nat.lt_of_le_of_lt (Nat.le_add_right ..) hlt)
    · rw [queues.waiting_publish] at hx
      rcases List.mem_append.1 hx with hx | hx
      · exact rulings.waiting id hread x hx
      · obtain ⟨⟨s, x⟩, hsent, rfl⟩ := List.mem_map.1 hx
        exact rulings.fresh _ (hnew s x (List.mem_filter.1 hsent).1).1
  | @takes id x rest inbox =>
    obtain ⟨hread, hwaiting⟩ := queues.waiting_of_inbox inbox
    refine ⟨rulings.tickets, rulings.verdicts, rulings.fresh, rulings.unsettled,
      List.forall_mem_append.2 ⟨rulings.hand, List.forall_mem_singleton.2 ?_⟩,
      fun other hother y hy => ?_⟩
    · exact rulings.waiting id hread x (hwaiting ▸ List.mem_cons_self ..)
    · -- fewer deliveries wait than before
      have hle : (yielded other past).length ≤
          (yielded other (⟨.receive id, .received (.delivery x)⟩ :: past)).length :=
        (List.prefix_append (yielded other past) _).length_le
      exact rulings.waiting other hother y ((List.drop_sublist_drop_left _ hle).subset hy)
  | @ends ticket ending p mem ticket_eq =>
    rw [queues.hand] at mem
    have hle : ticket ≤ t.lastTicket := ticket_eq ▸
      rulings.ticket_le_of_addressed ((queues.yielded p.1).subset (queues.taken p mem))
    have hverdict : ∀ other, verdict? { t with
        inHand := t.inHand.filter (·.2.ticket ≠ ticket)
        verdicts := t.verdicts.push ticket ending.verdict } other =
          if other = ticket then some ending.verdict else t.verdict? other :=
      fun other => Table.get?_push ..
    refine ⟨rulings.tickets, fun receipt hmem => ?_, fun other hlt => ?_,
      fun receipt hlt hlater => ?_, fun q hq => ?_, fun id hread x hx => ?_⟩
    · rw [hverdict, rulings.verdicts receipt hmem]
      show _ = if ticket = receipt.ticket then _ else _
      simp only [eq_comm]
    · have hlt' : t.lastTicket < other := hlt
      rw [hverdict, if_neg (by omega)]
      exact rulings.fresh other hlt
    · have hlt' : t.lastTicket < receipt.ticket := hlt
      show (if ticket = receipt.ticket then _ else _) = none
      rw [if_neg (by omega)]
      exact rulings.unsettled receipt hlt hlater
    · obtain ⟨hq, hne⟩ := List.mem_filter.1 hq
      rw [hverdict, if_neg (of_decide_eq_true hne)]
      exact rulings.hand q hq
    · rw [hverdict, if_neg (ticket_eq ▸ rulings.ticket_ne queues mem hx)]
      exact rulings.waiting id hread x hx
  | @drops id content inbox =>
    obtain ⟨hread, rfl⟩ := queues.waiting_of_inbox inbox
    have hverdict : ∀ ticket, verdict?
        (abandon { t with inboxes := t.inboxes.erase id } (Exchange.waiting id past)) ticket =
          if ticket ∈ (Exchange.waiting id past).map Delivery.ticket then some abandoned
          else t.verdict? ticket := verdict?_abandon _ _
    have hmem_le : ∀ ticket ∈ (Exchange.waiting id past).map Delivery.ticket,
        ticket ≤ t.lastTicket := by
      intro ticket hmem
      obtain ⟨x, hx, rfl⟩ := List.mem_map.1 hmem
      exact rulings.ticket_le_of_addressed (List.mem_of_mem_drop hx)
    refine ⟨rulings.tickets, fun receipt hmem => ?_, fun ticket hlt => ?_,
      fun receipt hlt hlater => ?_, fun p hp => ?_, fun other hother x hx => ?_⟩
    · rw [hverdict, rulings.verdicts receipt hmem]
      simp only [rulings.mem_waiting_iff queues hmem]
      rfl
    · rw [hverdict, if_neg fun hmem => absurd (hmem_le ticket hmem) (Nat.not_le.2 hlt)]
      exact rulings.fresh ticket hlt
    · -- the reader that goes away is none that is still there or still to come
      simp only [hasReader, Bool.and_eq_true, decide_eq_true_eq] at hlater
      have hne : id ≠ receipt.subscription := by
        rintro rfl
        rcases hlater with hlater | hlater
        · exact hlater.1 rfl
        · have hgone := (queues.strangers _ hlater).1
          simp [hread] at hgone
      show (if id = receipt.subscription ∧ _ then _ else _) = none
      rw [if_neg fun h => hne h.1]
      exact rulings.unsettled receipt hlt (hlater.imp_left And.right)
    · rw [hverdict, if_neg]
      · exact rulings.hand p hp
      · intro hmem
        obtain ⟨x, hx, heq⟩ := List.mem_map.1 hmem
        exact rulings.ticket_ne queues hp hx heq
    · simp only [hasReader, Bool.and_eq_true, decide_eq_true_eq] at hother
      rw [hverdict, if_neg]
      · exact rulings.waiting other hother.2 x hx
      · intro hmem
        obtain ⟨y, hy, heq⟩ := List.mem_map.1 hmem
        exact hother.1 (rulings.id_eq (List.mem_of_mem_drop hx) (List.mem_of_mem_drop hy) heq.symm)

/-- A verdict that there is stays what it is. -/
theorem settled (rulings : t.Rulings past) (queues : t.Queues past)
    (h : t.Response request answer t') {ticket : Nat} {verdict : Verdict}
    (hverdict : t.verdict? ticket = some verdict) : t'.verdict? ticket = some verdict := by
  cases h with
  | refusesReader | refusesMessage | waits | endsReading | removes | closes | subscribes
  | publishes | takes => exact hverdict
  | @ends ticket' ending p mem ticket_eq =>
    have hne : ticket ≠ ticket' := by
      rintro rfl
      rw [← ticket_eq, rulings.hand p (queues.hand ▸ mem)] at hverdict
      simp at hverdict
    rw [verdict?, Table.get?_push, if_neg hne]
    exact hverdict
  | @drops id content inbox =>
    obtain ⟨hread, rfl⟩ := queues.waiting_of_inbox inbox
    rw [verdict?_abandon, if_neg]
    · exact hverdict
    · intro hmem
      obtain ⟨x, hx, rfl⟩ := List.mem_map.1 hmem
      rw [rulings.waiting id hread x hx] at hverdict
      simp at hverdict

end Rulings

/-! ### The contract -/

/-- What holds of a transport after some exchanges is what it guarantees. -/
theorem contract_of_roster (roster : t.Roster past) (queues : t.Queues past)
    (rulings : t.Rulings past) : t.Contract past := by
  constructor
  case numbers =>
    rw [roster.numbers, rulings.tickets]
    exact ⟨List.pairwise_lt_range', List.pairwise_lt_range'⟩
  case table => exact ⟨roster.table, roster.listening⟩
  case occupied => exact roster.occupied
  case subscribed =>
    intro opened topic name
    simp only [subscribe, roster.closed.trans opened, Bool.false_eq_true, if_false]
    exact ⟨_, _, rfl, fun s hs => Nat.lt_succ_of_le (roster.id_le_of_made hs),
      Directory.inOrder_add fun s hs => Nat.lt_succ_of_le (roster.id_le hs)⟩
  case published =>
    intro opened topic message
    obtain ⟨inboxes, hpublish, -⟩ := publish_readers (roster.closed.trans opened) topic message
    refine ⟨_, _, hpublish, ?_, ?_⟩
    · rw [map_addressee_sendings, roster.readers_eq queues.isRead_eq]
      exact fun s hs => Directory.topic_of_mem_get (List.mem_filter.1 hs).1
    · simp only [← queues.isRead_eq]
      exact Directory.inOrder_of_items_filter (t.items_swept topic) _
  case unsubscribed =>
    intro id
    refine ⟨?_, t.directory.inOrder_retain ..⟩
    simp [unsubscribe]
  case closed =>
    intro shut
    have hclosed : t.closed = true := roster.closed.trans shut
    refine ⟨?_, fun _ _ => subscribe_of_closed hclosed .., fun _ _ =>
      publish_of_closed hclosed ..⟩
    exact List.sublist_nil.1 (roster.emptied shut ▸ roster.table)
  case addressed => exact fun id => ⟨queues.addressed id, queues.addressed_eq id⟩
  case yielded => exact queues.yielded
  case received =>
    intro id
    refine ⟨queues.isRead_eq id, fun hread => ?_⟩
    have hinbox := queues.inboxes id
    rw [if_pos hread] at hinbox
    rw [receive, hinbox, Exchange.next]
    cases Exchange.waiting id past with
    | cons x rest => rfl
    | nil =>
      -- who is read is in the table exactly if nobody has removed it
      have hiff : t.subscriptions.any (·.id = id) = true ↔ ∃ s ∈ standing past, s.id = id := by
        rw [List.any_eq_true]
        constructor
        · rintro ⟨s, hs, hid⟩
          exact ⟨s, roster.table.subset hs, of_decide_eq_true hid⟩
        · rintro ⟨s, hs, rfl⟩
          have hmem : s ∈ listening past := List.mem_filter.2 ⟨hs, hread⟩
          rw [← roster.listening] at hmem
          exact ⟨s, (List.mem_filter.1 hmem).1, by simp⟩
      by_cases hstands : ∃ s ∈ standing past, s.id = id
      · simp only [hiff.2 hstands, if_pos hstands, if_true]
      · have hnot : ¬ t.subscriptions.any (·.id = id) = true := fun h => hstands (hiff.1 h)
        simp only [if_neg hnot, if_neg hstands]
  case hand => exact queues.hand
  case verdicts => exact rulings.verdicts
  case settled =>
    intro request answer t' h ticket verdict hverdict
    exact rulings.settled queues (response_of_respond h) hverdict

end Transport

namespace Transcript

open Transport

variable {c c' : Transcript} {requests : List Transport.Request}

/-- What every request preserves. -/
structure Sound (c : Transcript) : Prop where
  roster : c.transport.Roster c.past
  queues : c.transport.Queues c.past
  rulings : c.transport.Rulings c.past

theorem Sound.new : Sound {} :=
  ⟨⟨rfl, rfl, List.Sublist.refl _, .empty, .empty, List.Sublist.refl _, rfl, fun _ => rfl⟩,
    ⟨fun _ => rfl, fun _ _ => ⟨rfl, rfl, rfl⟩, fun _ => List.prefix_rfl, fun _ => List.prefix_rfl,
      fun _ _ => rfl, rfl, by simp [Exchange.hand]⟩,
    ⟨rfl, by simp [Exchange.issued], fun _ _ => rfl, fun _ _ _ => rfl, by simp [Exchange.hand],
      fun _ hread => by simp [Exchange.hasReader] at hread⟩⟩

/-- A request is answered. -/
theorem Sound.ask (sound : c.Sound) {request : Transport.Request}
    (h : c.ask? request = some c') : c'.Sound := by
  rw [ask?] at h
  split at h
  · simp at h
  · next answer t' hrespond =>
    obtain rfl := Option.some.inj h
    have response := response_of_respond hrespond
    exact ⟨sound.roster.respond sound.queues.isRead_eq response,
      sound.queues.respond sound.roster response, sound.rulings.respond sound.queues response⟩

theorem Sound.after (sound : c.Sound) (h : c.after? requests = some c') : c'.Sound := by
  induction requests generalizing c with
  | nil =>
    obtain rfl := Option.some.inj h
    exact sound
  | cons request rest ih =>
    rw [after?] at h
    split at h
    · simp at h
    · next c₁ hask => exact ih (sound.ask hask) h

/-- A transport keeps its contract, whatever is asked of it. -/
theorem contract_of_after (h : Transcript.after? {} requests = some c) :
    c.transport.Contract c.past := by
  obtain ⟨roster, queues, rulings⟩ := Sound.new.after h
  exact contract_of_roster roster queues rulings

/-- Two read one topic and a third another. The first accepts a message, drops the next one and
finds a third in its inbox after it was removed; the second refuses the first message and goes away
before it takes the other. -/
def comeAndGo : List Transport.Request :=
  let message (n : Nat) : Message := ⟨.timed 0 n, .empty, []⟩
  [.subscribe "order.created" "first", .subscribe "order.created" "second",
    .subscribe "invoice.created" "third", .publish "order.created" (message 1),
    .receive 1, .ends 1 .acked, .receive 2, .ends 2 (.nacked "boom"),
    .publish "order.created" (message 2), .receive 1, .ends 3 .dropped, .dropInbox 2,
    .publish "order.created" (message 3), .unsubscribe 2, .unsubscribe 1, .receive 1, .receive 1,
    .receive 3, .close, .publish "order.created" (message 4)]

/-- Each of the five deliveries has a verdict of its own, the last none yet. -/
theorem contract_of_comeAndGo :
    ∃ c, Transcript.after? {} comeAndGo = some c ∧ c.transport.Contract c.past ∧
      (List.range' 1 5).map c.transport.verdict? =
        [some (.ok ()), some (.error "boom"), some abandoned, some abandoned, none] ∧
      (Exchange.yielded 1 c.past).map Delivery.ticket = [1, 3, 5] := by
  have hrun : (Transcript.after? {} comeAndGo).map (fun c =>
      ((List.range' 1 5).map c.transport.verdict?,
        (Exchange.yielded 1 c.past).map Delivery.ticket)) =
      some ([some (.ok ()), some (.error "boom"), some abandoned, some abandoned, none],
        [1, 3, 5]) := by
    decide +kernel
  obtain ⟨c, hc, hrun⟩ := Option.map_eq_some_iff.1 hrun
  obtain ⟨hverdicts, hyielded⟩ := Prod.mk.inj hrun
  exact ⟨c, hc, contract_of_after hc, hverdicts, hyielded⟩

end Transcript

end EventJournal
