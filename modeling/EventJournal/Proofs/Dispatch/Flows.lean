import EventJournal.Proofs.Dispatch.Courses
import Mathlib.Data.List.Sublists

/-!
# Deliveries while registrations come and go

Registrations are made and removed while messages are published and workers take their turns. The
deliveries to a registration stay in one line all the time. When its worker is stopped, those that
it has not judged are abandoned.

* `judgedBy`, `Errand.towards`: what a worker has judged, and what was sent to it;
* `Transport.Spares`, what leaves an inbox alone, and `Transport.Ended`, an inbox without a reader;
* `Dispatcher.Flows`, how far the deliveries to all registrations have come;
* `Flows.take`, `Flows.judge`, `Flows.stop`, `Flows.send`, `Flows.publish`, `Flows.subscribe`: how
  they move on.

The main statement is `Flows.fate`, how a delivery ends.
-/

namespace EventJournal

open Transport (receiptOf)

/-- The verdicts that a worker has given, in that order, with the tickets of the deliveries. -/
def judgedBy (id : Nat) (log : List (Nat × WorkerStep)) : List (Nat × Verdict) :=
  log.filterMap fun
    | (worker, .judged ticket _ verdict) => if worker = id then some (ticket, verdict) else none
    | _ => none

theorem judgedBy_append (id : Nat) (log others : List (Nat × WorkerStep)) :
    judgedBy id (log ++ others) = judgedBy id log ++ judgedBy id others := List.filterMap_append

/-- What one worker does is nothing that another has taken or judged. -/
theorem nothing_by_other {id other : Nat} (ne : id ≠ other) (step : WorkerStep) :
    tookBy other [(id, step)] = [] ∧ judgedBy other [(id, step)] = [] := by
  cases step <;> simp [tookBy, judgedBy, ne]

/-- The deliveries of some errands to one registration. -/
def Errand.towards (id : Nat) (sent : List Errand) : List Delivery :=
  (sent.filter (·.registration.id = id)).map Errand.delivery

/-- The verdict that the worker of its registration has given on an errand. -/
def Errand.verdictIn (log : List (Nat × WorkerStep)) (x : Errand) : Option Verdict :=
  (judgedBy x.registration.id log).lookup x.ticket

namespace Errand

variable {id other : Nat} {sent others : List Errand} {x y : Delivery}

theorem towards_append (id : Nat) (sent others : List Errand) :
    towards id (sent ++ others) = towards id sent ++ towards id others := by
  simp [towards]

theorem mem_towards :
    x ∈ towards id sent ↔ ∃ e ∈ sent, e.registration.id = id ∧ e.delivery = x := by
  simp [towards, and_assoc]

theorem toInbox_map_sending (id : Nat) (sent : List Errand) :
    Transport.toInbox id (sent.map sending) = towards id sent := by
  rw [Transport.toInbox, towards, List.filter_map, List.map_map]
  rfl

theorem nodup_towards (distinct : (sent.map ticket).Nodup) (id : Nat) :
    ((towards id sent).map Delivery.ticket).Nodup := by
  rw [towards, List.map_map]
  exact distinct.sublist (List.filter_sublist.map _)

/-- Deliveries to different registrations have different tickets. -/
theorem ticket_ne (distinct : (sent.map ticket).Nodup) (hx : x ∈ towards id sent)
    (hy : y ∈ towards other sent) (ne : id ≠ other) : x.ticket ≠ y.ticket := by
  obtain ⟨e, he, rfl, rfl⟩ := mem_towards.1 hx
  obtain ⟨e', he', rfl, rfl⟩ := mem_towards.1 hy
  intro heq
  exact ne (congrArg (·.registration.id) (List.inj_on_of_nodup_map distinct he he' heq))

end Errand

/-! ### Inboxes that are left alone, and inboxes without a reader -/

namespace Transport

/-- An inbox, what its reader has in hand and the verdicts on some deliveries are left alone. -/
structure Spares (t t' : Transport) (id : Nat) (mine : List Delivery) : Prop where
  inbox : t'.inboxes.get? id = t.inboxes.get? id
  hand : t'.inHand.filter (·.1 = id) = t.inHand.filter (·.1 = id)
  verdicts : ∀ x ∈ mine, t'.verdict? x.ticket = t.verdict? x.ticket

/-- An inbox has lost its reader: some deliveries had been judged, the others were abandoned. -/
structure Ended (t : Transport) (id : Nat) (opinion : Delivery → Verdict)
    (judged lost : List Delivery) : Prop where
  inbox : t.inboxes.get? id = none
  hand : t.inHand.filter (·.1 = id) = []
  judged : ∀ x ∈ judged, t.verdict? x.ticket = some (opinion x)
  lost : ∀ x ∈ lost, t.verdict? x.ticket = some abandoned

variable {t t' : Transport} {id other : Nat} {opinion : Delivery → Verdict} {x : Delivery}
  {judged waiting lost mine : List Delivery} {held : Option Delivery}

theorem Lane.spare (h : t.Lane id opinion judged held waiting)
    (spares : t.Spares t' id (judged ++ held.toList ++ waiting)) :
    t'.Lane id opinion judged held waiting where
  inbox := spares.inbox.trans h.inbox
  hand := spares.hand.trans h.hand
  judged y hy := (spares.verdicts y (by simp [hy])).trans (h.judged y hy)
  unjudged y hy := by
    refine (spares.verdicts y ?_).trans (h.unjudged y hy)
    rw [List.append_assoc]
    exact List.mem_append_right _ hy

theorem Ended.spare (h : t.Ended id opinion judged lost)
    (spares : t.Spares t' id (judged ++ lost)) : t'.Ended id opinion judged lost where
  inbox := spares.inbox.trans h.inbox
  hand := spares.hand.trans h.hand
  judged y hy := (spares.verdicts y (List.mem_append_left _ hy)).trans (h.judged y hy)
  lost y hy := (spares.verdicts y (List.mem_append_right _ hy)).trans (h.lost y hy)

/-- A reader takes a delivery from its own inbox. -/
theorem spares_take (ne : id ≠ other) (x : Delivery) (rest : List Delivery) :
    t.Spares { t with inboxes := t.inboxes.set id rest, inHand := t.inHand ++ [(id, x)] } other
      mine where
  inbox := by rw [Table.get?_set, if_neg (Ne.symm ne)]
  hand := by simp [List.filter_append, ne]
  verdicts _ _ := rfl

/-- A reader judges what it has in its own hand. -/
theorem spares_settle (hmem : (id, x) ∈ t.inHand)
    (hand : ∀ p ∈ t.inHand, p.1 = other → p.2.ticket ≠ x.ticket)
    (distinct : ∀ y ∈ mine, y.ticket ≠ x.ticket) (verdict : Verdict) :
    t.Spares (t.settle x.ticket verdict) other mine := by
  rw [settle_of_mem hmem]
  constructor
  case inbox => rfl
  case hand =>
    show (t.inHand.filter _).filter _ = _
    rw [List.filter_comm, List.filter_eq_self]
    intro p hp
    obtain ⟨hp, hid⟩ := List.mem_filter.1 hp
    simpa using hand p hp (by simpa using hid)
  case verdicts =>
    intro y hy
    rw [verdict?, Table.get?_push, if_neg (distinct y hy)]
    rfl

theorem verdict?_abandon (t : Transport) (deliveries : List Delivery) (ticket : Nat) :
    (t.abandon deliveries).verdict? ticket =
      if ticket ∈ deliveries.map Delivery.ticket then some abandoned else t.verdict? ticket := by
  induction deliveries generalizing t with
  | nil => simp [abandon, verdict?]
  | cons d rest ih =>
    have hpush : t.abandon (d :: rest) =
        abandon { t with verdicts := t.verdicts.push d.ticket abandoned } rest := rfl
    rw [hpush, ih, verdict?, Table.get?_push, List.map_cons]
    by_cases hrest : ticket ∈ rest.map Delivery.ticket
    · rw [if_pos hrest, if_pos (List.mem_cons_of_mem _ hrest)]
    · rw [if_neg hrest]
      by_cases heq : ticket = d.ticket
      · rw [if_pos heq, if_pos (heq ▸ List.mem_cons_self ..)]
      · rw [if_neg heq, if_neg (by simp [heq, hrest])]
        rfl

theorem Lane.pending_eq (h : t.Lane id opinion judged held waiting) :
    t.pending id = held.toList ++ waiting := by
  rw [pending, h.hand, h.inbox]
  cases held <;> rfl

/-- The reader of an inbox goes away. -/
theorem Lane.dropReader (h : t.Lane id opinion judged held waiting)
    (distinct : ∀ y ∈ judged, ∀ z ∈ held.toList ++ waiting, y.ticket ≠ z.ticket) :
    (t.dropReader id).Ended id opinion judged (held.toList ++ waiting) := by
  have hverdict : ∀ ticket, (t.dropReader id).verdict? ticket =
      if ticket ∈ (held.toList ++ waiting).map Delivery.ticket then some abandoned
      else t.verdict? ticket := by
    intro ticket
    rw [Transport.dropReader, verdict?_abandon, h.pending_eq]
    rfl
  constructor
  case inbox =>
    show (t.inboxes.erase id).get? id = none
    rw [Table.get?_erase, if_pos rfl]
  case hand =>
    show (t.inHand.filter _).filter _ = []
    rw [List.filter_filter, List.filter_eq_nil_iff]
    simp
  case judged =>
    intro y hy
    rw [hverdict, if_neg, h.judged y hy]
    intro hmem
    obtain ⟨z, hz, heq⟩ := List.mem_map.1 hmem
    exact distinct y hy z hz heq.symm
  case lost =>
    intro y hy
    rw [hverdict, if_pos (List.mem_map_of_mem hy)]

theorem spares_dropReader (ne : id ≠ other)
    (distinct : ∀ y ∈ mine, ∀ z ∈ t.pending id, y.ticket ≠ z.ticket) :
    t.Spares (t.dropReader id) other mine where
  inbox := by
    show (t.inboxes.erase id).get? other = _
    rw [Table.get?_erase, if_neg (Ne.symm ne)]
  hand := by
    show (t.inHand.filter _).filter _ = _
    rw [List.filter_comm, List.filter_eq_self]
    intro p hp
    have hid : p.1 = other := by simpa using (List.mem_filter.1 hp).2
    simp [hid, Ne.symm ne]
  verdicts := by
    intro y hy
    rw [dropReader, verdict?_abandon, if_neg]
    · rfl
    · intro hmem
      obtain ⟨z, hz, heq⟩ := List.mem_map.1 hmem
      exact distinct y hy z hz heq.symm

end Transport

/-! ### Deliveries under way -/

namespace Dispatcher

/-- How far the worker of a registration has come with what was sent to it, or had come when it was
stopped. -/
structure Progress (base : Dispatcher) (alive : List Registration) (sent : List Errand)
    (log : List (Nat × WorkerStep)) (t : Transport) (r : Registration) (judged : List Delivery)
    (held : Option Delivery) (waiting : List Delivery) : Prop where
  sent : Errand.towards r.id sent = judged ++ held.toList ++ waiting
  took : tookBy r.id log = (judged ++ held.toList).map fun x => (base.envelope? x).toOption
  noted : judgedBy r.id log = judged.map fun x => (x.ticket, base.opinion r x)
  lane : r ∈ alive ∧ t.Lane r.id (base.opinion r) judged held waiting ∨
    r ∉ alive ∧ t.Ended r.id (base.opinion r) judged (held.toList ++ waiting)

/-- How far deliveries have come, given the registrations that were ever made, those that there
still are, what was sent and what the workers have done. -/
structure Flows (base : Dispatcher) (made alive : List Registration) (sent : List Errand)
    (log : List (Nat × WorkerStep)) (t : Transport) : Prop where
  sublist : alive.Sublist made
  distinct : (made.map Registration.id).Nodup
  known : ∀ r ∈ made, r.id ≤ t.lastId
  tickets : sent.map Errand.ticket = List.range' 1 sent.length
  lastTicket : t.lastTicket = sent.length
  addressees : ∀ x ∈ sent, x.registration ∈ made
  fresh : ∀ ticket, t.lastTicket < ticket → t.verdict? ticket = none
  hands : ∀ p ∈ t.inHand, ∃ r ∈ made, p.1 = r.id
  progress : ∀ r ∈ made, ∃ judged held waiting,
    base.Progress alive sent log t r judged held waiting
  strangers : ∀ id, (∀ r ∈ made, r.id ≠ id) → tookBy id log = [] ∧ judgedBy id log = []

namespace Flows

variable {base d : Dispatcher} {made alive alive' : List Registration} {sent : List Errand}
  {log new : List (Nat × WorkerStep)} {t t' : Transport} {r r' : Registration} {x : Delivery}
  {judged waiting : List Delivery} {held : Option Delivery}

theorem nodup_tickets (h : base.Flows made alive sent log t) : (sent.map Errand.ticket).Nodup := by
  rw [h.tickets]
  exact List.nodup_range'

theorem ticket_le (h : base.Flows made alive sent log t) {e : Errand} (he : e ∈ sent) :
    e.ticket ≤ t.lastTicket := by
  have hmem : e.ticket ∈ sent.map Errand.ticket := List.mem_map_of_mem he
  rw [h.tickets, List.mem_range'_1] at hmem
  rw [h.lastTicket]
  omega

theorem ticket_le_of_mem_towards (h : base.Flows made alive sent log t) {id : Nat}
    (hx : x ∈ Errand.towards id sent) : x.ticket ≤ t.lastTicket := by
  obtain ⟨e, he, -, rfl⟩ := Errand.mem_towards.1 hx
  exact h.ticket_le he

theorem eq_of_id (h : base.Flows made alive sent log t) (hr : r ∈ made) (hr' : r' ∈ made)
    (hid : r.id = r'.id) : r = r' :=
  List.inj_on_of_nodup_map h.distinct hr hr' hid

/-- What has been sent to a registration and what it has judged or holds have different tickets. -/
theorem ticket_ne_of_append (h : base.Flows made alive sent log t) {id : Nat}
    {first second : List Delivery} (hsent : Errand.towards id sent = first ++ second) :
    ∀ y ∈ first, ∀ z ∈ second, y.ticket ≠ z.ticket := by
  have hnodup := Errand.nodup_towards h.nodup_tickets id
  rw [hsent, List.map_append, List.nodup_append] at hnodup
  exact fun y hy z hz => hnodup.2.2 _ (List.mem_map_of_mem hy) _ (List.mem_map_of_mem hz)

/-- What the reader of an inbox has in hand was sent to its registration. -/
theorem mem_towards_of_inHand (h : base.Flows made alive sent log t) (hr : r ∈ made)
    {p : Nat × Delivery} (hp : p ∈ t.inHand) (hid : p.1 = r.id) :
    p.2 ∈ Errand.towards r.id sent := by
  obtain ⟨judged, held, waiting, progress⟩ := h.progress r hr
  have hmem : p ∈ t.inHand.filter (·.1 = r.id) := List.mem_filter.2 ⟨hp, by simpa using hid⟩
  rcases progress.lane with ⟨-, lane⟩ | ⟨-, ended⟩
  · rw [lane.hand] at hmem
    obtain ⟨y, hy, rfl⟩ := List.mem_map.1 hmem
    rw [progress.sent]
    simp [hy]
  · simp [ended.hand] at hmem

/-- The worker of a registration that there is stands in its lane. -/
theorem lane_of_alive (h : base.Flows made alive sent log t) (hr : r ∈ alive) :
    ∃ judged held waiting, base.Progress alive sent log t r judged held waiting ∧
      t.Lane r.id (base.opinion r) judged held waiting := by
  obtain ⟨judged, held, waiting, progress⟩ := h.progress r (h.sublist.subset hr)
  rcases progress.lane with ⟨-, lane⟩ | ⟨hnot, -⟩
  · exact ⟨judged, held, waiting, progress, lane⟩
  · exact (hnot hr).elim

end Flows

/-- The worker of another registration has acted, which leaves the inbox of this one alone. -/
theorem Progress.spare {base : Dispatcher} {alive alive' : List Registration} {sent : List Errand}
    {log new : List (Nat × WorkerStep)} {t t' : Transport} {r : Registration}
    {judged waiting : List Delivery} {held : Option Delivery}
    (h : base.Progress alive sent log t r judged held waiting)
    (spares : t.Spares t' r.id (Errand.towards r.id sent)) (same : r ∈ alive' ↔ r ∈ alive)
    (nothing : tookBy r.id new = [] ∧ judgedBy r.id new = []) :
    base.Progress alive' sent (log ++ new) t' r judged held waiting where
  sent := h.sent
  took := by rw [tookBy_append, nothing.1, List.append_nil, h.took]
  noted := by rw [judgedBy_append, nothing.2, List.append_nil, h.noted]
  lane := by
    rw [h.sent] at spares
    rw [same]
    rw [List.append_assoc] at spares
    refine h.lane.imp (And.imp_right fun lane => lane.spare ?_)
      (And.imp_right fun ended => ended.spare spares)
    rwa [List.append_assoc]

namespace Flows

variable {base d : Dispatcher} {made alive alive' : List Registration} {sent : List Errand}
  {log new : List (Nat × WorkerStep)} {t t' : Transport} {r r' : Registration} {x : Delivery}
  {judged waiting : List Delivery} {held : Option Delivery}

/-- The worker of one registration acts, or is stopped, and leaves the inboxes of the others alone.
-/
theorem act (h : base.Flows made alive sent log t) (hr : r ∈ made) (sub : alive'.Sublist alive)
    (same : ∀ r' ∈ made, r'.id ≠ r.id → (r' ∈ alive' ↔ r' ∈ alive))
    (lastId : t'.lastId = t.lastId) (lastTicket : t'.lastTicket = t.lastTicket)
    (fresh : ∀ ticket, t.lastTicket < ticket → t'.verdict? ticket = none)
    (hands : ∀ p ∈ t'.inHand, p.1 = r.id ∨ p ∈ t.inHand)
    (byOne : ∀ id, id ≠ r.id → tookBy id new = [] ∧ judgedBy id new = [])
    (own : ∃ judged held waiting,
      base.Progress alive' sent (log ++ new) t' r judged held waiting)
    (others : ∀ r' ∈ made, r'.id ≠ r.id → t.Spares t' r'.id (Errand.towards r'.id sent)) :
    base.Flows made alive' sent (log ++ new) t' := by
  constructor
  case sublist => exact sub.trans h.sublist
  case distinct => exact h.distinct
  case known => exact fun r' hr' => lastId ▸ h.known r' hr'
  case tickets => exact h.tickets
  case lastTicket => exact lastTicket.trans h.lastTicket
  case addressees => exact h.addressees
  case fresh => exact fun ticket hlt => fresh ticket (lastTicket ▸ hlt)
  case hands =>
    intro p hp
    rcases hands p hp with hid | hp
    · exact ⟨r, hr, hid⟩
    · exact h.hands p hp
  case progress =>
    intro r' hr'
    by_cases hid : r'.id = r.id
    · obtain rfl := h.eq_of_id hr' hr hid
      exact own
    · obtain ⟨judged, held, waiting, progress⟩ := h.progress r' hr'
      exact ⟨judged, held, waiting,
        progress.spare (others r' hr' hid) (same r' hr' hid) (byOne r'.id hid)⟩
  case strangers =>
    intro id hid
    have hne : id ≠ r.id := fun heq => hid r hr heq.symm
    rw [tookBy_append, judgedBy_append, (byOne id hne).1, (byOne id hne).2, List.append_nil,
      List.append_nil]
    exact h.strangers id hid

/-- A worker takes the delivery that has waited longest. -/
theorem take (h : base.Flows made alive sent log t) (hr : r ∈ alive) {rest : List Delivery}
    (hand : t.heldBy? r.id = none) (inbox : t.inboxes.get? r.id = some (x :: rest)) :
    base.Flows made alive sent
      (log ++ [(r.id, .took r.handler.label (base.envelope? x).toOption)])
      { t with inboxes := t.inboxes.set r.id rest, inHand := t.inHand ++ [(r.id, x)] } := by
  obtain ⟨judged, held, waiting, progress, lane⟩ := h.lane_of_alive hr
  obtain rfl := lane.heldBy?_eq.symm.trans hand
  obtain rfl := Option.some.inj (lane.inbox.symm.trans inbox)
  refine h.act (h.sublist.subset hr) (List.Sublist.refl _) (fun _ _ _ => Iff.rfl) rfl rfl h.fresh
    ?_ (fun id hid => nothing_by_other (Ne.symm hid) _) ⟨judged, some x, rest, ?_⟩
    fun r' _ hid => Transport.spares_take (Ne.symm hid) x rest
  · intro p hp
    rcases List.mem_append.1 hp with hp | hp
    · exact .inr hp
    · exact .inl (by rw [List.mem_singleton.1 hp])
  constructor
  case sent => simpa using progress.sent
  case took =>
    rw [tookBy_append, progress.took]
    simp [tookBy]
  case noted =>
    rw [judgedBy_append, progress.noted]
    simp [judgedBy]
  case lane => exact .inl ⟨hr, lane.take⟩

/-- A worker judges the delivery that it has in hand. -/
theorem judge (h : base.Flows made alive sent log t) (hr : r ∈ alive)
    (hand : t.heldBy? r.id = some x) :
    base.Flows made alive sent
      (log ++ [(r.id, .judged x.ticket r.handler.name (base.opinion r x))])
      (t.settle x.ticket (base.opinion r x)) := by
  obtain ⟨judged, held, waiting, progress, lane⟩ := h.lane_of_alive hr
  obtain rfl := lane.heldBy?_eq.symm.trans hand
  have hheld := lane.mem_inHand
  have hx : x ∈ Errand.towards r.id sent := by simp [progress.sent]
  have hsettle := Transport.settle_of_mem hheld (base.opinion r x)
  have hsent := progress.sent
  rw [List.append_assoc] at hsent
  refine h.act (h.sublist.subset hr) (List.Sublist.refl _) (fun _ _ _ => Iff.rfl) ?_ ?_ ?_ ?_
    (fun id hid => nothing_by_other (Ne.symm hid) _) ⟨judged ++ [x], none, waiting, ?_⟩ ?_
  · rw [hsettle]
  · rw [hsettle]
  · intro ticket hlt
    have hle := h.ticket_le_of_mem_towards hx
    rw [hsettle, Transport.verdict?, Table.get?_push, if_neg (by omega)]
    exact h.fresh ticket hlt
  · rw [hsettle]
    exact fun p hp => .inr (List.mem_filter.1 hp).1
  · constructor
    case sent => simpa using progress.sent
    case took =>
      rw [tookBy_append, progress.took]
      simp [tookBy]
    case noted =>
      rw [judgedBy_append, progress.noted]
      simp [judgedBy]
    case lane =>
      refine .inl ⟨hr, lane.settle fun y hy => ?_⟩
      rcases List.mem_append.1 hy with hy | hy
      · exact h.ticket_ne_of_append hsent y hy x (by simp)
      · exact (h.ticket_ne_of_append progress.sent x (by simp) y hy).symm
  · intro r' hr' hid
    have hne : ∀ y ∈ Errand.towards r'.id sent, y.ticket ≠ x.ticket :=
      fun y hy => Errand.ticket_ne h.nodup_tickets hy hx hid
    exact Transport.spares_settle hheld
      (fun p hp hp' => hne _ (h.mem_towards_of_inHand hr' hp hp')) hne _

/-- The worker of a registration is stopped, and the registration is no more. -/
theorem stop (h : base.Flows made alive sent log t) (hr : r ∈ alive) (gone : r ∉ alive')
    (sub : alive'.Sublist alive) (same : ∀ r' ∈ made, r'.id ≠ r.id → (r' ∈ alive' ↔ r' ∈ alive)) :
    base.Flows made alive' sent log (t.dropReader r.id) := by
  obtain ⟨judged, held, waiting, progress, lane⟩ := h.lane_of_alive hr
  have hsent := progress.sent
  rw [List.append_assoc] at hsent
  have hpending : ∀ z ∈ t.pending r.id, z ∈ Errand.towards r.id sent := by
    intro z hz
    rw [lane.pending_eq] at hz
    rw [hsent]
    exact List.mem_append_right _ hz
  rw [← List.append_nil log]
  refine h.act (h.sublist.subset hr) sub same rfl rfl ?_
    (fun p hp => .inr (List.mem_filter.1 hp).1) (fun _ _ => ⟨rfl, rfl⟩)
    ⟨judged, held, waiting, ?_⟩ ?_
  · intro ticket hlt
    rw [Transport.dropReader, Transport.verdict?_abandon, if_neg]
    · exact h.fresh ticket hlt
    · intro hmem
      obtain ⟨z, hz, rfl⟩ := List.mem_map.1 hmem
      have hle := h.ticket_le_of_mem_towards (hpending z hz)
      omega
  · rw [List.append_nil]
    exact ⟨progress.sent, progress.took, progress.noted,
      .inr ⟨gone, lane.dropReader (h.ticket_ne_of_append hsent)⟩⟩
  · intro r' hr' hid
    refine Transport.spares_dropReader (Ne.symm hid) fun y hy z hz => ?_
    exact Errand.ticket_ne h.nodup_tickets hy (hpending z hz) hid

/-- What a stopped worker has not judged had no verdict before. -/
theorem verdict?_stop (h : base.Flows made alive sent log t) (hr : r ∈ alive) {ticket : Nat}
    {verdict : Verdict} (hverdict : t.verdict? ticket = some verdict) :
    (t.dropReader r.id).verdict? ticket = some verdict := by
  obtain ⟨judged, held, waiting, progress, lane⟩ := h.lane_of_alive hr
  rw [Transport.dropReader, Transport.verdict?_abandon, if_neg]
  · exact hverdict
  · intro hmem
    obtain ⟨z, hz, rfl⟩ := List.mem_map.1 hmem
    rw [show Transport.pending t r.id = _ from lane.pending_eq] at hz
    simp [lane.unjudged z hz] at hverdict

/-- The delivery in hand had no verdict before. -/
theorem verdict?_judge (h : base.Flows made alive sent log t) (hr : r ∈ alive)
    (hand : t.heldBy? r.id = some x) (new : Verdict) {ticket : Nat} {verdict : Verdict}
    (hverdict : t.verdict? ticket = some verdict) :
    (t.settle x.ticket new).verdict? ticket = some verdict := by
  obtain ⟨judged, held, waiting, progress, lane⟩ := h.lane_of_alive hr
  obtain rfl := lane.heldBy?_eq.symm.trans hand
  have hne : ticket ≠ x.ticket := by
    rintro rfl
    simp [lane.unjudged x (by simp)] at hverdict
  rw [Transport.settle_of_mem lane.mem_inHand, Transport.verdict?, Table.get?_push, if_neg hne]
  exact hverdict

/-- All workers are stopped one after another. -/
theorem stopAll (h : base.Flows made alive sent log t) :
    base.Flows made [] sent log (alive.foldl (fun t r => t.dropReader r.id) t) ∧
      ∀ ticket verdict, t.verdict? ticket = some verdict →
        (alive.foldl (fun t r => t.dropReader r.id) t).verdict? ticket = some verdict := by
  induction alive generalizing t with
  | nil => exact ⟨h, fun _ _ => id⟩
  | cons r rest ih =>
    have hnodup : ((r :: rest).map Registration.id).Nodup :=
      h.distinct.sublist (h.sublist.map _)
    obtain ⟨hnot, -⟩ := List.nodup_cons.1 hnodup
    have hstop : base.Flows made rest sent log (t.dropReader r.id) := by
      refine h.stop (List.mem_cons_self ..) (fun hmem => hnot (List.mem_map_of_mem hmem))
        (List.sublist_cons_self ..) fun r' _ hid => ?_
      have hne : r' ≠ r := fun heq => hid (congrArg _ heq)
      simp [hne]
    obtain ⟨flows, kept⟩ := ih hstop
    exact ⟨flows, fun ticket verdict hverdict =>
      kept ticket verdict (h.verdict?_stop (List.mem_cons_self ..) hverdict)⟩

/-- Who is on which topic has no part in this, nor whether the transport is closed. -/
theorem table (h : base.Flows made alive sent log t) (closed : Bool)
    (directory : Directory Subscription.topic) :
    base.Flows made alive sent log { t with closed, directory } where
  sublist := h.sublist
  distinct := h.distinct
  known := h.known
  tickets := h.tickets
  lastTicket := h.lastTicket
  addressees := h.addressees
  fresh := h.fresh
  hands := h.hands
  progress r hr := by
    obtain ⟨judged, held, waiting, progress⟩ := h.progress r hr
    have hspare : base.Progress alive sent (log ++ []) { t with closed, directory } r judged
        held waiting :=
      progress.spare ⟨rfl, rfl, fun _ _ => rfl⟩ Iff.rfl ⟨rfl, rfl⟩
    rw [List.append_nil] at hspare
    exact ⟨judged, held, waiting, hspare⟩
  strangers := h.strangers

/-- A worker asks for a permit. -/
theorem ask (h : base.Flows made alive sent log t) (id : Nat) :
    base.Flows made alive sent (log ++ [(id, .asked)]) t where
  sublist := h.sublist
  distinct := h.distinct
  known := h.known
  tickets := h.tickets
  lastTicket := h.lastTicket
  addressees := h.addressees
  fresh := h.fresh
  hands := h.hands
  progress r hr := by
    obtain ⟨judged, held, waiting, progress⟩ := h.progress r hr
    exact ⟨judged, held, waiting,
      progress.spare ⟨rfl, rfl, fun _ _ => rfl⟩ Iff.rfl ⟨rfl, rfl⟩⟩
  strangers other hother := by
    obtain ⟨htook, hjudged⟩ := h.strangers other hother
    rw [tookBy_append, judgedBy_append, htook, hjudged]
    exact ⟨rfl, rfl⟩

/-- A new registration has a number of its own, and nothing has been sent to it. -/
theorem subscribe (h : base.Flows made alive sent log t) (topic : String) (handler : Handler) :
    base.Flows (made ++ [⟨t.lastId + 1, topic, handler⟩])
      (alive ++ [⟨t.lastId + 1, topic, handler⟩]) sent log
      { t with lastId := t.lastId + 1, inboxes := t.inboxes.set (t.lastId + 1) [] } := by
  have hne : ∀ r ∈ made, r.id ≠ t.lastId + 1 := fun r hr => by
    have hle := h.known r hr
    omega
  constructor
  case sublist => exact h.sublist.append (List.Sublist.refl _)
  case distinct =>
    rw [List.map_append, List.map_singleton, ← List.concat_eq_append, List.nodup_concat]
    refine ⟨fun hmem => ?_, h.distinct⟩
    obtain ⟨r, hr, hid⟩ := List.mem_map.1 hmem
    exact hne r hr hid
  case known =>
    refine List.forall_mem_append.2 ⟨fun r hr => ?_, List.forall_mem_singleton.2 le_rfl⟩
    exact Nat.le_succ_of_le (h.known r hr)
  case tickets => exact h.tickets
  case lastTicket => exact h.lastTicket
  case addressees => exact fun x hx => List.mem_append_left _ (h.addressees x hx)
  case fresh => exact h.fresh
  case hands =>
    intro p hp
    obtain ⟨r, hr, hid⟩ := h.hands p hp
    exact ⟨r, List.mem_append_left _ hr, hid⟩
  case progress =>
    refine List.forall_mem_append.2 ⟨fun r hr => ?_, List.forall_mem_singleton.2 ?_⟩
    · obtain ⟨judged, held, waiting, progress⟩ := h.progress r hr
      have hr' : r ≠ ⟨t.lastId + 1, topic, handler⟩ := fun heq => hne r hr (congrArg _ heq)
      refine ⟨judged, held, waiting, ?_⟩
      rw [← List.append_nil log]
      exact progress.spare ⟨by rw [Table.get?_set, if_neg (hne r hr)], rfl, fun _ _ => rfl⟩
        (by simp [hr']) ⟨rfl, rfl⟩
    · obtain ⟨htook, hjudged⟩ := h.strangers (t.lastId + 1) hne
      have hsent : Errand.towards (t.lastId + 1) sent = [] := by
        rw [List.eq_nil_iff_forall_not_mem]
        intro x hx
        obtain ⟨e, he, hid, -⟩ := Errand.mem_towards.1 hx
        exact hne _ (h.addressees e he) hid
      have hhand : t.inHand.filter (·.1 = t.lastId + 1) = [] := by
        rw [List.filter_eq_nil_iff]
        intro p hp heq
        obtain ⟨r, hr, hid⟩ := h.hands p hp
        exact hne r hr (hid.symm.trans (by simpa using heq))
      refine ⟨[], none, [], hsent, htook, hjudged, .inl ⟨by simp, ?_⟩⟩
      exact ⟨Table.get?_set_self .., hhand, by simp, by simp⟩
  case strangers =>
    intro id hid
    exact h.strangers id fun r hr => hid r (List.mem_append_left _ hr)

/-- Deliveries with the next tickets are put into the inboxes of registrations that there are. -/
theorem send (h : base.Flows made alive sent log t) {errands : List Errand}
    {inboxes : Table Nat (List Delivery)} (addressed : ∀ e ∈ errands, e.registration ∈ alive)
    (tickets : errands.map Errand.ticket = List.range' (t.lastTicket + 1) errands.length)
    (filled : ∀ id, inboxes.get? id = (t.inboxes.get? id).map (· ++ Errand.towards id errands)) :
    base.Flows made alive (sent ++ errands) log
      { t with inboxes, lastTicket := t.lastTicket + errands.length } := by
  have hfresh : ∀ e ∈ errands, t.lastTicket < e.ticket := by
    intro e he
    have hmem : e.ticket ∈ errands.map Errand.ticket := List.mem_map_of_mem he
    rw [tickets, List.mem_range'_1] at hmem
    omega
  constructor
  case sublist => exact h.sublist
  case distinct => exact h.distinct
  case known => exact h.known
  case tickets =>
    rw [List.map_append, h.tickets, tickets, h.lastTicket, List.length_append, Nat.add_comm _ 1,
      List.range'_append_1]
  case lastTicket =>
    show t.lastTicket + _ = _
    rw [h.lastTicket, List.length_append]
  case addressees =>
    exact List.forall_mem_append.2
      ⟨h.addressees, fun e he => h.sublist.subset (addressed e he)⟩
  case fresh => exact fun ticket hlt => h.fresh ticket (by
    have hlt' : t.lastTicket + errands.length < ticket := hlt
    omega)
  case hands => exact h.hands
  case progress =>
    intro r hr
    obtain ⟨judged, held, waiting, progress⟩ := h.progress r hr
    rcases progress.lane with ⟨hr', lane⟩ | ⟨hr', ended⟩
    · refine ⟨judged, held, waiting ++ Errand.towards r.id errands, ?_, progress.took,
        progress.noted, .inl ⟨hr', lane.deliver (filled r.id) rfl rfl fun x hx => ?_⟩⟩
      · rw [Errand.towards_append, progress.sent, List.append_assoc _ waiting]
      · obtain ⟨e, he, -, rfl⟩ := Errand.mem_towards.1 hx
        exact h.fresh _ (hfresh e he)
    · -- a registration that is no more is sent nothing
      have hnone : Errand.towards r.id errands = [] := by
        rw [List.eq_nil_iff_forall_not_mem]
        intro x hx
        obtain ⟨e, he, hid, -⟩ := Errand.mem_towards.1 hx
        exact hr' (h.eq_of_id (h.sublist.subset (addressed e he)) hr hid ▸ addressed e he)
      refine ⟨judged, held, waiting, ?_, progress.took, progress.noted, .inr ⟨hr', ?_⟩⟩
      · rw [Errand.towards_append, hnone, List.append_nil, progress.sent]
      · refine ⟨?_, ended.hand, ended.judged, ended.lost⟩
        show inboxes.get? r.id = none
        rw [filled, ended.inbox]
        rfl
  case strangers => exact h.strangers

/-- A message that is published is sent to the registrations on its topic. -/
theorem publish (h : base.Flows made d.registrations sent log d.transport)
    (opened : d.transport.closed = false)
    (p : Posting) (subscribers : d.transport.subscribers p.topic =
      (d.registered p.topic).map Registration.subscription) :
    ∃ t', d.transport.publish p.topic p.message =
        .ok ((d.plan [p]).map fun e => receiptOf e.sending, t') ∧
      (t'.closed = d.transport.closed ∧ t'.directory = d.transport.directory ∧
        t'.lastId = d.transport.lastId ∧ t'.verdicts = d.transport.verdicts) ∧
      base.Flows made d.registrations (sent ++ d.plan [p]) log t' := by
  have hread : ∀ s ∈ d.transport.subscribers p.topic, d.transport.isRead s.id = true := by
    rw [subscribers]
    intro s hs
    obtain ⟨r, hr, rfl⟩ := List.mem_map.1 hs
    obtain ⟨judged, held, waiting, -, lane⟩ := h.lane_of_alive (mem_registered.1 hr).1
    have hinbox : d.transport.inboxes.get? r.subscription.id = some waiting := lane.inbox
    simp only [Transport.isRead, hinbox, Option.isSome_some]
  have hsending : (d.plan [p]).map Errand.sending =
      Transport.sendings p.topic p.message (d.transport.lastTicket + 1)
        (d.transport.subscribers p.topic) := by
    rw [subscribers]
    exact map_sending_errands p
  have hlength : (d.plan [p]).length = (d.transport.subscribers p.topic).length := by
    rw [← List.length_map Errand.sending, hsending, Transport.length_sendings]
  have htickets : (d.plan [p]).map Errand.ticket =
      List.range' (d.transport.lastTicket + 1) (d.plan [p]).length := by
    have hsendings := congrArg (List.map (·.2.ticket)) hsending
    rwa [Transport.map_ticket_sendings, ← hlength, List.map_map] at hsendings
  obtain ⟨inboxes, hpublish, hinboxes⟩ := Transport.publish_eq opened p.message hread
  rw [← hsending, List.map_map, ← hlength] at hpublish
  refine ⟨_, hpublish, ⟨rfl, rfl, rfl, rfl⟩, h.send (fun e => mem_registrations_of_errand)
    htickets fun id => ?_⟩
  rw [hinboxes, ← hsending, Errand.toInbox_map_sending]

/-- A worker has taken the first of the deliveries that were sent to it, in their order. -/
theorem tookBy_isPrefix (h : base.Flows made alive sent log t) (hr : r ∈ made) :
    tookBy r.id log <+: (Errand.towards r.id sent).map fun x => (base.envelope? x).toOption := by
  obtain ⟨judged, held, waiting, progress⟩ := h.progress r hr
  rw [progress.took, progress.sent]
  exact (List.prefix_append _ waiting).map _

/-- A worker has judged the first of the deliveries that were sent to it, in their order. -/
theorem judgedBy_isPrefix (h : base.Flows made alive sent log t) (hr : r ∈ made) :
    judgedBy r.id log <+:
      (Errand.towards r.id sent).map fun x => (x.ticket, base.opinion r x) := by
  obtain ⟨judged, held, waiting, progress⟩ := h.progress r hr
  rw [progress.noted, progress.sent, List.append_assoc]
  exact (List.prefix_append judged _).map _

/-- The verdict that has been given on a delivery is that of its handler. -/
theorem verdictIn_of_judged (h : base.Flows made alive sent log t) {e : Errand}
    (progress : base.Progress alive sent log t e.registration judged held waiting)
    (hmem : e.delivery ∈ judged) :
    e.verdictIn log = some (base.opinion e.registration e.delivery) := by
  obtain ⟨first, second, rfl⟩ := List.append_of_mem hmem
  have hsent := progress.sent
  rw [List.append_assoc, List.append_assoc, List.cons_append] at hsent
  rw [Errand.verdictIn, progress.noted, List.lookup_eq_some_iff]
  refine ⟨_, _, by rw [List.map_append, List.map_cons]; rfl, fun p hp => ?_⟩
  obtain ⟨y, hy, rfl⟩ := List.mem_map.1 hp
  have hne := h.ticket_ne_of_append hsent y hy e.delivery (List.mem_cons_self ..)
  simpa [Errand.delivery] using Ne.symm hne

theorem verdictIn_of_unjudged (h : base.Flows made alive sent log t) {e : Errand}
    (progress : base.Progress alive sent log t e.registration judged held waiting)
    (hmem : e.delivery ∈ held.toList ++ waiting) : e.verdictIn log = none := by
  have hsent := progress.sent
  rw [List.append_assoc] at hsent
  rw [Errand.verdictIn, progress.noted, List.lookup_eq_none_iff]
  intro p hp
  obtain ⟨y, hy, rfl⟩ := List.mem_map.1 hp
  have hne := h.ticket_ne_of_append hsent y hy _ hmem
  simpa [Errand.delivery] using Ne.symm hne

/-- A delivery has been judged by the worker of its registration, or not yet. -/
theorem exists_progress (h : base.Flows made alive sent log t) {e : Errand} (he : e ∈ sent) :
    ∃ judged held waiting, base.Progress alive sent log t e.registration judged held waiting ∧
      (e.delivery ∈ judged ∨ e.delivery ∈ held.toList ++ waiting) := by
  obtain ⟨judged, held, waiting, progress⟩ := h.progress _ (h.addressees e he)
  have hmem : e.delivery ∈ Errand.towards e.registration.id sent :=
    Errand.mem_towards.2 ⟨e, he, rfl, rfl⟩
  rw [progress.sent, List.append_assoc, List.mem_append] at hmem
  exact ⟨judged, held, waiting, progress, hmem⟩

/-- A delivery is judged by the worker of its registration as the handler sees it, or it waits for
that, or the registration is no more and the delivery was abandoned. -/
theorem fate (h : base.Flows made alive sent log t) {e : Errand} (he : e ∈ sent) :
    e.verdictIn log = some (base.opinion e.registration e.delivery) ∧
        t.verdict? e.ticket = some (base.opinion e.registration e.delivery) ∨
      e.verdictIn log = none ∧
        (e.registration ∈ alive ∧ t.verdict? e.ticket = none ∨
          e.registration ∉ alive ∧ t.verdict? e.ticket = some abandoned) := by
  obtain ⟨judged, held, waiting, progress, hjudged | hunjudged⟩ := h.exists_progress he
  · refine .inl ⟨h.verdictIn_of_judged progress hjudged, ?_⟩
    rcases progress.lane with ⟨-, lane⟩ | ⟨-, ended⟩
    · exact lane.judged _ hjudged
    · exact ended.judged _ hjudged
  · exact .inr ⟨h.verdictIn_of_unjudged progress hunjudged,
      progress.lane.imp (And.imp_right fun lane => lane.unjudged _ hunjudged)
        (And.imp_right fun ended => ended.lost _ hunjudged)⟩

/-- What a worker has judged, it has taken before. -/
theorem mem_tookBy (h : base.Flows made alive sent log t) {e : Errand} (he : e ∈ sent)
    (judged : e.verdictIn log ≠ none) :
    (base.envelope? e.delivery).toOption ∈ tookBy e.registration.id log := by
  obtain ⟨done, held, waiting, progress, hdone | hrest⟩ := h.exists_progress he
  · rw [progress.took]
    exact List.mem_map_of_mem (List.mem_append_left _ hdone)
  · exact (judged (h.verdictIn_of_unjudged progress hrest)).elim

end Flows

end Dispatcher

end EventJournal
