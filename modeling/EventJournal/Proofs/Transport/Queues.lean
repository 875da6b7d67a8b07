import EventJournal.Proofs.Transport.Exchanges
import Mathlib.Data.List.Nodup

/-!
# The table and the inboxes

What the exchanges with a transport tell is what the transport has: the subscriptions in its table
that somebody reads are those who listen, and an inbox holds what was sent to it and has not been
taken.

* `Transport.Roster`, `Transport.Queues`: the table and the inboxes, as the exchanges tell them;
* `Transport.Roster.readers_eq`, `Transport.Queues.content_toInbox`: whom a message reaches.

The main statements are `Transport.Roster.respond` and `Transport.Queues.respond`: each request
changes them as its exchange tells.
-/

namespace EventJournal

/-- What a delivery says. -/
def Delivery.content (x : Delivery) : String × Message := (x.topic, x.message)

/-- The subscription that a receipt is for. -/
def Receipt.addressee (r : Receipt) : Subscription := ⟨r.subscription, r.topic, r.subscriber⟩

namespace Transport

open Exchange

/-- The table of a transport is that which the exchanges tell. -/
structure Roster (t : Transport) (past : List Exchange) : Prop where
  closed : t.closed = wasClosed past
  numbers : (made past).map Subscription.id = List.range' 1 t.lastId
  standing : (standing past).Sublist (made past)
  ascending : t.directory.Ascending Subscription.id
  occupied : t.directory.Occupied
  table : t.subscriptions.Sublist (Exchange.standing past)
  listening : (t.subscriptions.filter fun s => hasReader s.id past) = listening past
  emptied : wasClosed past = true → Exchange.standing past = []

/-- The inboxes hold what was sent to them and has not been taken. -/
structure Queues (t : Transport) (past : List Exchange) : Prop where
  inboxes : ∀ id, t.inboxes.get? id =
    if hasReader id past then some (waiting id past) else none
  strangers : ∀ id, t.lastId < id →
    hasReader id past = false ∧ addressed id past = [] ∧ meant id past = []
  yielded : ∀ id, yielded id past <+: addressed id past
  addressed : ∀ id, (addressed id past).map Delivery.content <+: meant id past
  addressed_eq : ∀ id, hasReader id past = true →
    (Exchange.addressed id past).map Delivery.content = meant id past
  hand : t.inHand = hand past
  taken : ∀ p ∈ Exchange.hand past, p.2 ∈ Exchange.yielded p.1 past

variable {t t' : Transport} {past : List Exchange} {request : Request} {answer : Answer}
  {topic : String} {message : Message} {id n : Nat} {subscriptions : List Subscription}

/-! ### Deliveries and receipts -/

theorem filter_eq_singleton {α β : Type} {f : α → β} {l : List α} {a : α} {p : α → Bool}
    (distinct : (l.map f).Nodup) (ha : a ∈ l) (only : ∀ b ∈ l, p b = true ↔ b = a) :
    l.filter p = [a] := by
  obtain ⟨before, after, rfl⟩ := List.append_of_mem ha
  have hnodup := distinct.of_map
  rw [List.nodup_append, List.nodup_cons] at hnodup
  obtain ⟨-, ⟨hafter, -⟩, hbefore⟩ := hnodup
  have hfirst : before.filter p = [] := List.filter_eq_nil_iff.2 fun b hb hp =>
    hbefore b hb a (List.mem_cons_self ..) ((only b (by simp [hb])).1 hp)
  have hsecond : after.filter p = [] := List.filter_eq_nil_iff.2 fun b hb hp =>
    hafter ((only b (by simp [hb])).1 hp ▸ hb)
  rw [List.filter_append, hfirst, List.filter_cons_of_pos ((only a ha).2 rfl), hsecond,
    List.nil_append]

/-- The receipts of a message tell what was sent to an inbox. -/
theorem filter_receipts (id : Nat) :
    ((((sendings topic message n subscriptions).map receiptOf).filter (·.subscription = id)).map
      fun r => (⟨r.ticket, r.topic, message⟩ : Delivery)) =
    toInbox id (sendings topic message n subscriptions) := by
  simp only [toInbox, sendings, List.filter_map, List.map_map]
  rfl

theorem addressed_publish (id : Nat) (past : List Exchange) :
    addressed id (⟨.publish topic message,
        .published (.ok ((sendings topic message n subscriptions).map receiptOf))⟩ :: past) =
      addressed id past ++ toInbox id (sendings topic message n subscriptions) := by
  rw [addressed, filter_receipts]

theorem map_content_toInbox (id : Nat) :
    (toInbox id (sendings topic message n subscriptions)).map Delivery.content =
      (subscriptions.filter (·.id = id)).map fun _ => (topic, message) := by
  induction subscriptions generalizing n with
  | nil => rfl
  | cons s rest ih =>
    rw [sendings_cons, toInbox_cons, List.map_append, ih, List.filter_cons]
    by_cases hid : s.id = id <;> simp [hid, Delivery.content]

theorem map_addressee_sendings (same : ∀ s ∈ subscriptions, s.topic = topic) :
    ((sendings topic message n subscriptions).map receiptOf).map Receipt.addressee =
      subscriptions := by
  induction subscriptions generalizing n with
  | nil => rfl
  | cons s rest ih =>
    obtain ⟨hs, hrest⟩ := List.forall_mem_cons.1 same
    rw [sendings_cons, List.map_cons, List.map_cons, ih hrest, ← hs]
    rfl

/-- The tickets of the deliveries to a subscription are those of its receipts. -/
theorem map_ticket_addressed (id : Nat) (past : List Exchange) :
    (addressed id past).map Delivery.ticket =
      ((issued past).filter (·.subscription = id)).map Receipt.ticket := by
  induction past with
  | nil => rfl
  | cons e past ih =>
    obtain ⟨request, answer⟩ := e
    cases request with
    | publish topic message =>
      cases answer with
      | published result =>
        cases result with
        | error e => exact ih
        | ok receipts =>
          simp only [addressed, issued, List.map_append, List.filter_append, ih, List.map_map]
          rfl
      | _ => exact ih
    | _ => exact ih

/-! ### The table -/

namespace Roster

theorem nodup_standing (roster : t.Roster past) :
    ((Exchange.standing past).map Subscription.id).Nodup := by
  refine List.Nodup.sublist (roster.standing.map _) ?_
  rw [roster.numbers]
  exact List.nodup_range'

theorem id_le_of_made (roster : t.Roster past) {s : Subscription} (hs : s ∈ made past) :
    s.id ≤ t.lastId := by
  have hmem : s.id ∈ (made past).map Subscription.id := List.mem_map_of_mem hs
  rw [roster.numbers, List.mem_range'_1] at hmem
  omega

theorem id_le (roster : t.Roster past) {s : Subscription} (hs : s ∈ t.directory.items) :
    s.id ≤ t.lastId :=
  roster.id_le_of_made
    (roster.standing.subset (roster.table.subset (Directory.mem_inOrder.2 hs)))

/-- Those whom a message reaches are those who listen. -/
theorem readers_eq (roster : t.Roster past) (reads : ∀ id, t.isRead id = hasReader id past)
    (topic : String) : t.readers topic = (Exchange.listening past).filter (·.topic = topic) := by
  rw [readers, subscribers, roster.ascending.get_eq, List.filter_comm, ← roster.listening]
  simp only [reads, subscriptions]

/-- Each request changes the table as the exchange tells. -/
theorem respond (roster : t.Roster past) (reads : ∀ id, t.isRead id = hasReader id past)
    (h : t.Response request answer t') : t'.Roster (⟨request, answer⟩ :: past) := by
  cases h with
  | refusesReader | refusesMessage | takes | waits | endsReading | ends =>
    exact ⟨roster.closed, roster.numbers, roster.standing, roster.ascending, roster.occupied,
      roster.table, roster.listening, roster.emptied⟩
  | @subscribes topic name opened =>
    have hne : ∀ s ∈ made past, s.id ≠ t.lastId + 1 := fun s hs => by
      have hle := roster.id_le_of_made hs
      omega
    have hreader : ∀ s ∈ made past, hasReader s.id
        (⟨.subscribe topic name, .subscribed (.ok (t.lastId + 1))⟩ :: past) =
        hasReader s.id past := fun s hs => by simp [hasReader, hne s hs]
    have hgreatest : ∀ s ∈ t.directory.items, s.id < t.lastId + 1 := fun s hs =>
      Nat.lt_succ_of_le (roster.id_le hs)
    have hadd : (t.directory.add ⟨t.lastId + 1, topic, name⟩).inOrder Subscription.id =
        t.subscriptions ++ [⟨t.lastId + 1, topic, name⟩] := Directory.inOrder_add hgreatest
    refine ⟨roster.closed, ?_, ?_, roster.ascending.add hgreatest, roster.occupied.add _,
      ?_, ?_, ?_⟩
    · show (made past ++ [_]).map _ = _
      rw [List.map_append, roster.numbers, List.range'_1_concat, Nat.add_comm 1]
      rfl
    · exact roster.standing.append (List.Sublist.refl _)
    · rw [subscriptions, hadd]
      exact roster.table.append (List.Sublist.refl _)
    · show _ = (Exchange.standing past ++ [_]).filter _
      rw [subscriptions, hadd, List.filter_append, List.filter_append]
      congr 1
      refine Eq.trans (List.filter_congr fun s hs => ?_)
        (roster.listening.trans (List.filter_congr fun s hs => ?_))
      · exact hreader s (roster.standing.subset (roster.table.subset hs))
      · exact (hreader s (roster.standing.subset hs)).symm
    · intro shut
      exact absurd (roster.closed.trans shut) (by simp [opened])
  | @publishes topic message inboxes opened filled =>
    have hswept : (t.swept topic).inOrder Subscription.id =
        t.subscriptions.filter fun s => s.topic ≠ topic || t.isRead s.id :=
      Directory.inOrder_of_items_filter (t.items_swept topic) _
    refine ⟨roster.closed, roster.numbers, roster.standing,
      roster.ascending.of_items_filter (t.items_swept topic), occupied_swept roster.occupied topic, ?_, ?_,
      roster.emptied⟩
    · rw [subscriptions, hswept]
      exact List.filter_sublist.trans roster.table
    -- those who are taken out are gone
    refine Eq.trans ?_ roster.listening
    rw [subscriptions, hswept, List.filter_filter]
    refine List.filter_congr fun s _ => ?_
    show (hasReader s.id past && (_ || t.isRead s.id)) = hasReader s.id past
    rw [reads]
    cases hasReader s.id past <;> simp
  | @drops id waiting inbox =>
    refine ⟨roster.closed, roster.numbers, roster.standing, roster.ascending, roster.occupied,
      roster.table, ?_, roster.emptied⟩
    have hfilter : ∀ l : List Subscription,
        (l.filter fun s => hasReader s.id (⟨.dropInbox id, .done⟩ :: past)) =
          (l.filter fun s => hasReader s.id past).filter (·.id ≠ id) :=
      fun l => (List.filter_filter ..).symm
    show t.subscriptions.filter _ = (Exchange.standing past).filter _
    rw [hfilter, hfilter, roster.listening]
    rfl
  | removes id =>
    have hretain : (t.directory.retain (·.id ≠ id)).inOrder Subscription.id =
        t.subscriptions.filter (·.id ≠ id) := t.directory.inOrder_retain ..
    refine ⟨roster.closed, roster.numbers, List.filter_sublist.trans roster.standing,
      roster.ascending.of_items_filter (t.directory.items_retain _),
      Directory.Occupied.retain _ _, ?_, ?_, fun shut => ?_⟩
    · rw [subscriptions, hretain]
      exact roster.table.filter _
    · show ((t.directory.retain _).inOrder _).filter _ =
        ((Exchange.standing past).filter _).filter _
      rw [hretain, List.filter_comm, List.filter_comm _ _ (Exchange.standing past)]
      exact congrArg _ roster.listening
    · show (Exchange.standing past).filter _ = []
      rw [roster.emptied shut, List.filter_nil]
  | closes =>
    exact ⟨rfl, roster.numbers, List.nil_sublist _, .empty, .empty, List.Sublist.refl _, rfl,
      fun _ => rfl⟩

end Roster

/-! ### The inboxes -/

namespace Queues

theorem isRead_eq (queues : t.Queues past) (id : Nat) : t.isRead id = hasReader id past := by
  rw [isRead, queues.inboxes]
  split <;> simp_all

theorem append_waiting (queues : t.Queues past) (id : Nat) :
    Exchange.yielded id past ++ waiting id past = Exchange.addressed id past :=
  List.prefix_iff_eq_append.1 (queues.yielded id)

/-- An inbox that is there has a reader. -/
theorem waiting_of_inbox (queues : t.Queues past) {content : List Delivery}
    (inbox : t.inboxes.get? id = some content) :
    hasReader id past = true ∧ waiting id past = content := by
  rw [queues.inboxes] at inbox
  split at inbox
  · next hread => exact ⟨hread, Option.some.inj inbox⟩
  · simp at inbox

theorem waiting_publish (queues : t.Queues past) (id : Nat) :
    waiting id (⟨.publish topic message,
        .published (.ok ((sendings topic message n subscriptions).map receiptOf))⟩ :: past) =
      waiting id past ++ toInbox id (sendings topic message n subscriptions) := by
  rw [waiting, addressed_publish]
  exact List.drop_append_of_le_length (queues.yielded id).length_le

/-- What is meant for a subscription that is read is what goes into its inbox. -/
theorem content_toInbox (queues : t.Queues past) (roster : t.Roster past) (topic : String)
    (message : Message) (n : Nat) (hread : hasReader id past = true) :
    (toInbox id (sendings topic message n (t.readers topic))).map Delivery.content =
      if ∃ s ∈ standing past, s.id = id ∧ s.topic = topic then [(topic, message)] else [] := by
  rw [map_content_toInbox, roster.readers_eq queues.isRead_eq, Exchange.listening,
    List.filter_filter, List.filter_filter]
  split
  · next hstands =>
    obtain ⟨s, hs, rfl, rfl⟩ := hstands
    rw [filter_eq_singleton roster.nodup_standing hs]
    · rfl
    · intro s' hs'
      simp only [Bool.and_eq_true, decide_eq_true_eq]
      refine ⟨fun h => List.inj_on_of_nodup_map roster.nodup_standing hs' hs h.1.1, ?_⟩
      rintro rfl
      exact ⟨⟨rfl, rfl⟩, hread⟩
  · next hnone =>
    rw [List.filter_eq_nil_iff.2, List.map_nil]
    intro s hs h
    simp only [Bool.and_eq_true, decide_eq_true_eq] at h
    exact hnone ⟨s, hs, h.1.1, h.1.2⟩

/-- Nothing is put into an inbox that nobody reads. -/
theorem toInbox_eq_nil (queues : t.Queues past) (topic : String) (message : Message) (n : Nat)
    (hgone : hasReader id past = false) :
    toInbox id (sendings topic message n (t.readers topic)) = [] := by
  have hnone : (t.readers topic).filter (·.id = id) = [] := by
    refine List.filter_eq_nil_iff.2 fun s hs hid => ?_
    have hread := (List.mem_filter.1 hs).2
    rw [queues.isRead_eq, of_decide_eq_true hid, hgone] at hread
    simp at hread
  have hmap : (toInbox id (sendings topic message n (t.readers topic))).map Delivery.content = _ :=
    map_content_toInbox id
  rw [hnone, List.map_nil, List.map_eq_nil_iff] at hmap
  exact hmap

/-- Each request changes the inboxes as the exchange tells. -/
theorem respond (queues : t.Queues past) (roster : t.Roster past)
    (h : t.Response request answer t') : t'.Queues (⟨request, answer⟩ :: past) := by
  cases h with
  | refusesReader | refusesMessage | waits | endsReading | removes | closes =>
    exact ⟨queues.inboxes, queues.strangers, queues.yielded, queues.addressed,
      queues.addressed_eq, queues.hand, queues.taken⟩
  | @subscribes topic name opened =>
    obtain ⟨-, haddressed, hmeant⟩ := queues.strangers (t.lastId + 1) (Nat.lt_succ_self _)
    refine ⟨fun id => ?_, fun id hlt => ?_, queues.yielded, queues.addressed, fun id hread => ?_,
      queues.hand, queues.taken⟩
    · show (t.inboxes.set (t.lastId + 1) []).get? id =
        if id = t.lastId + 1 || hasReader id past then some (waiting id past) else none
      rw [Table.get?_set]
      by_cases hid : id = t.lastId + 1
      · subst hid
        simp [waiting, haddressed]
      · simpa [hid] using queues.inboxes id
    · have hlt' : t.lastId + 1 < id := hlt
      obtain ⟨hread, hrest⟩ := queues.strangers id (by omega)
      refine ⟨?_, hrest⟩
      show (id = t.lastId + 1 || hasReader id past) = false
      simp [hread, Nat.ne_of_gt hlt']
    · by_cases hid : id = t.lastId + 1
      · subst hid
        show (Exchange.addressed (t.lastId + 1) past).map _ = meant (t.lastId + 1) past
        rw [haddressed, hmeant, List.map_nil]
      · refine queues.addressed_eq id ?_
        simpa [hasReader, hid] using hread
  | @publishes topic message inboxes opened filled =>
    have hread_eq : ∀ id, hasReader id past = true →
        (Exchange.addressed id past).map Delivery.content ++
          (toInbox id (sendings topic message (t.lastTicket + 1) (t.readers topic))).map
            Delivery.content =
        meant id (⟨.publish topic message, .published (.ok
          ((sendings topic message (t.lastTicket + 1) (t.readers topic)).map receiptOf))⟩ ::
            past) := by
      intro id hread
      rw [queues.addressed_eq id hread, queues.content_toInbox roster _ _ _ hread]
      rfl
    refine ⟨fun id => ?_, fun id hlt => ?_, fun id => ?_, fun id => ?_, fun id hread => ?_,
      queues.hand, queues.taken⟩
    · rw [filled, queues.inboxes, queues.waiting_publish]
      show _ = if hasReader id past then _ else none
      split <;> rfl
    · obtain ⟨hread, haddressed, hmeant⟩ := queues.strangers id hlt
      refine ⟨hread, ?_, ?_⟩
      · rw [addressed_publish, haddressed, queues.toInbox_eq_nil _ _ _ hread, List.append_nil]
      · show meant id past ++ _ = []
        rw [hmeant, if_neg, List.append_nil]
        rintro ⟨s, hs, rfl, -⟩
        have hle := roster.id_le_of_made (roster.standing.subset hs)
        have hlt' : t.lastId < s.id := hlt
        omega
    · rw [addressed_publish]
      exact (queues.yielded id).trans (List.prefix_append ..)
    · rw [addressed_publish, List.map_append]
      cases hread : hasReader id past with
      | true => exact hread_eq id hread ▸ List.prefix_rfl
      | false =>
        -- what is meant for somebody who is gone is not sent any more
        rw [queues.toInbox_eq_nil _ _ _ hread, List.map_nil, List.append_nil]
        exact (queues.addressed id).trans (List.prefix_append ..)
    · rw [addressed_publish, List.map_append]
      exact hread_eq id hread
  | @takes id x rest inbox =>
    obtain ⟨hread, hwaiting⟩ := queues.waiting_of_inbox inbox
    have happend : Exchange.addressed id past = (Exchange.yielded id past ++ [x]) ++ rest := by
      rw [← queues.append_waiting id, hwaiting, List.append_cons]
    have hyielded : ∀ other, Exchange.yielded other
        (⟨.receive id, .received (.delivery x)⟩ :: past) =
          Exchange.yielded other past ++ if id = other then [x] else [] := fun _ => rfl
    refine ⟨fun other => ?_, queues.strangers, fun other => ?_, queues.addressed,
      queues.addressed_eq, congrArg (· ++ _) queues.hand, ?_⟩
    · show (t.inboxes.set id rest).get? other = if hasReader other past then
        some (List.drop _ (Exchange.addressed other past)) else none
      rw [Table.get?_set, hyielded]
      by_cases hid : other = id
      · subst hid
        rw [if_pos rfl, if_pos hread, if_pos rfl, happend, List.drop_left]
      · rw [if_neg hid, if_neg (Ne.symm hid), List.append_nil]
        exact queues.inboxes other
    · rw [hyielded]
      show _ <+: Exchange.addressed other past
      by_cases hid : id = other
      · subst hid
        rw [if_pos rfl, happend]
        exact List.prefix_append ..
      · rw [if_neg hid, List.append_nil]
        exact queues.yielded other
    · refine List.forall_mem_append.2 ⟨fun p hp => ?_, List.forall_mem_singleton.2 ?_⟩
      · rw [hyielded]
        exact List.mem_append_left _ (queues.taken p hp)
      · rw [hyielded]
        simp
  | @ends ticket ending p mem ticket_eq =>
    exact ⟨queues.inboxes, queues.strangers, queues.yielded, queues.addressed,
      queues.addressed_eq, congrArg _ queues.hand,
      fun p hp => queues.taken p (List.mem_filter.1 hp).1⟩
  | @drops id content inbox =>
    refine ⟨fun other => ?_, fun other hlt => ?_, queues.yielded, queues.addressed,
      fun other hread => ?_, queues.hand, queues.taken⟩
    · show (t.inboxes.erase id).get? other =
        if decide (other ≠ id) && hasReader other past then some (waiting other past) else none
      rw [Table.get?_erase]
      by_cases hid : other = id
      · simp [hid]
      · simpa [hid] using queues.inboxes other
    · obtain ⟨hread, hrest⟩ := queues.strangers other hlt
      refine ⟨?_, hrest⟩
      show (decide (other ≠ id) && hasReader other past) = false
      rw [hread, Bool.and_false]
    · refine queues.addressed_eq other ?_
      simp only [hasReader, Bool.and_eq_true] at hread
      exact hread.2

end Queues

end Transport

end EventJournal
