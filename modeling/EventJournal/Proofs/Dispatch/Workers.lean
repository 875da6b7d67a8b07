import EventJournal.Dispatcher
import EventJournal.Proofs.Dispatch.Inboxes
import EventJournal.Proofs.Transport.Directories
import Mathlib.Data.List.Nodup

/-!
# Workers

While a dispatch is under way, the worker of each registration takes its deliveries one after
another and judges each of them, whatever the handlers do and in whatever order the workers take
their turns.

* `Directory.Mirrors`, that subscriptions are those of registrations;
* `Dispatcher.Rests`, that nothing is under way;
* `Dispatcher.opinion`, the verdict that a delivery ends with;
* `Dispatcher.WorkStep`, what a step of a worker does;
* `Dispatcher.Works`, what holds while deliveries are under way.

The main statements are `Dispatcher.Works.work`, `Dispatcher.Works.publish` and
`Dispatcher.Works.rests`.
-/

namespace EventJournal

open Transport (toInbox receiptOf)

/-- The place of a registration in the table of the transport. -/
def Registration.subscription (r : Registration) : Subscription := ⟨r.id, r.topic, r.handler.name⟩

/-- The subscriptions on each topic are those of the registrations there. -/
def Directory.Mirrors (directory : Directory Subscription.topic)
    (handlers : Directory Registration.topic) : Prop :=
  ∀ topic, directory.get topic = (handlers.get topic).map Registration.subscription

namespace Directory.Mirrors

variable {directory : Directory Subscription.topic} {handlers : Directory Registration.topic}

theorem add (h : directory.Mirrors handlers) (r : Registration) :
    (directory.add r.subscription).Mirrors (handlers.add r) := by
  intro topic
  have htopic : r.subscription.topic = r.topic := rfl
  rw [get_add, get_add, htopic]
  split
  · rw [h topic, List.map_append, List.map_singleton]
  · exact h topic

theorem retain (h : directory.Mirrors handlers) (id : Nat) :
    (directory.retain (·.id ≠ id)).Mirrors (handlers.retain (·.id ≠ id)) := by
  intro topic
  rw [get_retain, get_retain, h topic, List.filter_map]
  rfl

end Directory.Mirrors

/-- The envelopes that a worker has taken, in that order, as far as they could be read. -/
def tookBy (id : Nat) (log : List (Nat × WorkerStep)) : List (Option Envelope) :=
  log.filterMap fun
    | (worker, .took _ envelope) => if worker = id then some envelope else none
    | _ => none

theorem tookBy_append (id : Nat) (log others : List (Nat × WorkerStep)) :
    tookBy id (log ++ others) = tookBy id log ++ tookBy id others := List.filterMap_append

namespace Dispatcher

/-- A dispatcher at rest: it is open, the transport knows its registrations, and nothing is under
way. -/
structure Rests (d : Dispatcher) : Prop where
  opened : d.closed = false ∧ d.transport.closed = false
  mirrors : d.transport.directory.Mirrors d.handlers
  distinct : (d.registrations.map Registration.id).Nodup
  known : ∀ r ∈ d.registrations, r.id ≤ d.transport.lastId
  inboxes : ∀ r ∈ d.registrations, d.transport.inboxes.get? r.id = some []
  inHand : d.transport.inHand = []
  fresh : ∀ ticket, d.transport.lastTicket < ticket → d.transport.verdict? ticket = none

/-- The deliveries of a message on a topic to the registrations there, numbered from `ticket` on. -/
def sendings (d : Dispatcher) (topic : String) (message : Message) (ticket : Nat) :
    List (Subscription × Delivery) :=
  Transport.sendings topic message ticket ((d.registered topic).map Registration.subscription)

/-- The verdict on a delivery to a registration, whenever it is given. -/
def opinion (d : Dispatcher) (r : Registration) (delivery : Delivery) : Verdict :=
  match d.reaction r delivery with
  | .error cause => .error cause
  | .ok reaction => reaction.outcome.verdict

/-- What the worker of a registration does in a step. -/
inductive WorkStep (d : Dispatcher) (r : Registration) : WorkerStep → Dispatcher → Prop
  | took {x : Delivery} {rest : List Delivery} (hand : d.transport.heldBy? r.id = none)
      (inbox : d.transport.inboxes.get? r.id = some (x :: rest)) :
      WorkStep d r (.took r.handler.label (d.envelope? x).toOption)
        { d with
          transport :=
            { d.transport with
              inboxes := d.transport.inboxes.set r.id rest
              inHand := d.transport.inHand ++ [(r.id, x)] } }
  | asked {x : Delivery} (hand : d.transport.heldBy? r.id = some x)
      (gates : Table String (Gate Nat)) : WorkStep d r .asked { d with gates }
  | judged {x : Delivery} (hand : d.transport.heldBy? r.id = some x)
      (gates : Table String (Gate Nat)) :
      WorkStep d r (.judged x.ticket r.handler.name (d.opinion r x))
        { d with gates, transport := d.transport.settle x.ticket (d.opinion r x) }

variable {d d' d₀ : Dispatcher} {r : Registration} {id : Nat} {step : WorkerStep}
  {log : List (Nat × WorkerStep)} {sent : List (Subscription × Delivery)} {topic : String}

theorem mem_registered : r ∈ d.registered topic ↔ r ∈ d.registrations ∧ r.topic = topic := by
  rw [registered, Directory.mem_get, registrations, Directory.mem_inOrder]

theorem judge?_cases {x : Delivery} (hand : d.transport.heldBy? r.id = some x)
    (h : d.judge? r x = some (step, d')) : d.WorkStep r step d' := by
  have hjudged : ∀ {verdict} (gates : Table String (Gate Nat)), d.opinion r x = verdict →
      some ({ d with gates }.conclude r x verdict) = some (step, d') → d.WorkStep r step d' := by
    rintro _ gates rfl heq
    obtain ⟨rfl, rfl⟩ := Prod.mk.inj (Option.some.inj heq)
    exact .judged hand gates
  unfold judge? at h
  split at h
  · next cause hreaction => exact hjudged d.gates (by simp [opinion, hreaction]) h
  · next outcome hreaction =>
    exact hjudged d.gates (by simp [opinion, hreaction, Handler.Reaction.outcome]) h
  · next outcome hreaction =>
    simp only at h
    split at h
    · exact hjudged _ (by simp [opinion, hreaction, Handler.Reaction.outcome]) h
    · split at h
      · simp at h
      · obtain ⟨rfl, rfl⟩ := Prod.mk.inj (Option.some.inj h)
        exact .asked hand _

theorem take?_cases (hand : d.transport.heldBy? r.id = none) (h : d.take? r = some (step, d')) :
    d.WorkStep r step d' := by
  unfold take? Transport.receive at h
  cases hinbox : d.transport.inboxes.get? r.id with
  | none => simp [hinbox] at h
  | some waiting =>
    cases waiting with
    | nil =>
      cases hany : d.transport.subscriptions.any (·.id = r.id) <;> simp [hinbox, hany] at h
    | cons x rest =>
      simp only [hinbox] at h
      obtain ⟨rfl, rfl⟩ := Prod.mk.inj (Option.some.inj h)
      exact .took hand hinbox

/-- A step of a worker does one of these things. -/
theorem work?_cases (h : d.work? id = some (step, d')) :
    ∃ r ∈ d.registrations, r.id = id ∧ d.WorkStep r step d' := by
  unfold work? at h
  split at h
  · simp at h
  · next r hfind =>
    have hr : r.id = id := by simpa using List.find?_some hfind
    refine ⟨r, List.mem_of_find?_eq_some hfind, hr, ?_⟩
    subst hr
    split at h
    · next x hand => exact judge?_cases hand h
    · next hand => exact take?_cases hand h

/-! ### Deliveries under way -/

/-- How far the worker of a registration has come with the deliveries that were sent to it. -/
structure Serves (d₀ : Dispatcher) (sent : List (Subscription × Delivery))
    (log : List (Nat × WorkerStep)) (t : Transport) (r : Registration) (judged : List Delivery)
    (held : Option Delivery) (waiting : List Delivery) : Prop where
  sent : toInbox r.id sent = judged ++ held.toList ++ waiting
  lane : t.Lane r.id (d₀.opinion r) judged held waiting
  took : tookBy r.id log = (judged ++ held.toList).map fun x => (d₀.envelope? x).toOption

/-- What holds of a dispatcher while deliveries are under way, given how it was before. -/
structure Works (d₀ : Dispatcher) (sent : List (Subscription × Delivery))
    (log : List (Nat × WorkerStep)) (d : Dispatcher) : Prop where
  before : d₀.Rests
  registry : d.registry = d₀.registry
  handlers : d.handlers = d₀.handlers
  opened : d.closed = false ∧ d.transport.closed = false
  directory : d.transport.directory = d₀.transport.directory
  lastId : d.transport.lastId = d₀.transport.lastId
  tickets : sent.map (·.2.ticket) = List.range' (d₀.transport.lastTicket + 1) sent.length
  lastTicket : d.transport.lastTicket = d₀.transport.lastTicket + sent.length
  addressees : ∀ p ∈ sent, ∃ r ∈ d₀.registrations, p.1 = r.subscription
  fresh : ∀ ticket, d.transport.lastTicket < ticket → d.transport.verdict? ticket = none
  hands : ∀ p ∈ d.transport.inHand, ∃ r ∈ d₀.registrations, p.1 = r.id
  serves : ∀ r ∈ d₀.registrations, ∃ judged held waiting,
    d₀.Serves sent log d.transport r judged held waiting
  strangers : ∀ id, (∀ r ∈ d₀.registrations, r.id ≠ id) → tookBy id log = []

namespace Works

variable {t : Transport} {judged waiting : List Delivery} {held : Option Delivery} {other : Nat}

theorem registrations (h : d₀.Works sent log d) : d.registrations = d₀.registrations := by
  rw [Dispatcher.registrations, h.handlers, Dispatcher.registrations]

/-- Nothing is under way at the start. -/
theorem of_rests (h : d.Rests) : d.Works [] [] d where
  before := h
  registry := rfl
  handlers := rfl
  opened := h.opened
  directory := rfl
  lastId := rfl
  tickets := rfl
  lastTicket := rfl
  addressees := by simp
  fresh := h.fresh
  hands := by simp [h.inHand]
  serves r hr := ⟨[], none, [], rfl, ⟨h.inboxes r hr, by simp [h.inHand], by simp, by simp⟩, rfl⟩
  strangers _ _ := rfl

theorem nodup_tickets (h : d₀.Works sent log d) : (sent.map (·.2.ticket)).Nodup := by
  rw [h.tickets]
  exact List.nodup_range'

theorem ticket_le (h : d₀.Works sent log d) {p : Subscription × Delivery} (hp : p ∈ sent) :
    p.2.ticket ≤ d.transport.lastTicket := by
  have hmem : p.2.ticket ∈ sent.map (·.2.ticket) := List.mem_map_of_mem hp
  rw [h.tickets, List.mem_range'_1] at hmem
  rw [h.lastTicket]
  omega

theorem mem_sent (serves : d₀.Serves sent log t r judged held waiting) {x : Delivery}
    (hx : x ∈ judged ++ held.toList ++ waiting) : ∃ s, s.id = r.id ∧ (s, x) ∈ sent := by
  rw [← serves.sent, toInbox, List.mem_map] at hx
  obtain ⟨⟨s, y⟩, hmem, rfl⟩ := hx
  obtain ⟨hmem, hid⟩ := List.mem_filter.1 hmem
  exact ⟨s, by simpa using hid, hmem⟩

/-- Deliveries to different inboxes have different tickets. -/
theorem ticket_ne (h : d₀.Works sent log d) {s s' : Subscription} {x y : Delivery}
    (hx : (s, x) ∈ sent) (hy : (s', y) ∈ sent) (ne : s'.id ≠ s.id) : y.ticket ≠ x.ticket := by
  intro heq
  have hpair := List.inj_on_of_nodup_map h.nodup_tickets hy hx heq
  exact ne (congrArg (fun p => p.1.id) hpair)

/-- The other deliveries to an inbox have other tickets than the one in hand. -/
theorem ticket_ne_held (h : d₀.Works sent log d) {x : Delivery}
    (serves : d₀.Serves sent log t r judged (some x) waiting) :
    ∀ y ∈ judged ++ waiting, y.ticket ≠ x.ticket := by
  have hnodup : ((toInbox r.id sent).map Delivery.ticket).Nodup := by
    rw [toInbox, List.map_map]
    exact h.nodup_tickets.sublist (List.filter_sublist.map _)
  rw [serves.sent, List.append_assoc, Option.toList_some, List.singleton_append, List.map_append,
    List.map_cons, List.nodup_middle, List.nodup_cons] at hnodup
  intro y hy heq
  refine hnodup.1 ?_
  rw [← List.map_append, ← heq]
  exact List.mem_map_of_mem hy

/-- The gates have no part in this. -/
theorem gates (h : d₀.Works sent log d) (gates : Table String (Gate Nat)) :
    d₀.Works sent log { d with gates } :=
  ⟨h.before, h.registry, h.handlers, h.opened, h.directory, h.lastId, h.tickets,
    h.lastTicket, h.addressees, h.fresh, h.hands, h.serves, h.strangers⟩

theorem opinion_eq (h : d₀.Works sent log d) (r : Registration) : d.opinion r = d₀.opinion r := by
  funext x
  rw [opinion, opinion, reaction, reaction, envelope?, envelope?, h.registry]

/-- What one worker has done is nothing that another has taken. -/
theorem tookBy_other (ne : id ≠ other) :
    tookBy other (log ++ [(id, step)]) = tookBy other log := by
  have hnone : tookBy other [(id, step)] = [] := by cases step <;> simp [tookBy, ne]
  rw [tookBy_append, hnone, List.append_nil]

/-- The worker of a registration does something that leaves the lanes of the others as they are. -/
theorem advance (h : d₀.Works sent log d) (hr : r ∈ d₀.registrations)
    {inboxes : Table Nat (List Delivery)} {inHand : List (Nat × Delivery)}
    {verdicts : Table Nat Verdict} (ht : t = { d.transport with inboxes, inHand, verdicts })
    (fresh : ∀ ticket, d.transport.lastTicket < ticket → t.verdict? ticket = none)
    (hands : ∀ p ∈ inHand, p.1 = r.id ∨ p ∈ d.transport.inHand)
    (serves : ∃ judged held waiting,
      d₀.Serves sent (log ++ [(r.id, step)]) t r judged held waiting)
    (others : ∀ r' ∈ d₀.registrations, r'.id ≠ r.id → ∀ judged held waiting,
      d₀.Serves sent log d.transport r' judged held waiting →
        t.Lane r'.id (d₀.opinion r') judged held waiting) :
    d₀.Works sent (log ++ [(r.id, step)]) { d with transport := t } := by
  subst ht
  constructor
  case before => exact h.before
  case registry => exact h.registry
  case handlers => exact h.handlers
  case opened => exact h.opened
  case directory => exact h.directory
  case lastId => exact h.lastId
  case tickets => exact h.tickets
  case lastTicket => exact h.lastTicket
  case addressees => exact h.addressees
  case fresh => exact fresh
  case hands =>
    intro p hp
    rcases hands p hp with hid | hp
    · exact ⟨r, hr, hid⟩
    · exact h.hands p hp
  case serves =>
    intro r' hr'
    -- the registration that acts, or one whose lane is left alone
    by_cases hid : r'.id = r.id
    · obtain rfl := List.inj_on_of_nodup_map h.before.distinct hr' hr hid
      exact serves
    · obtain ⟨judged', held', waiting', serves'⟩ := h.serves r' hr'
      refine ⟨judged', held', waiting', serves'.sent,
        others r' hr' hid judged' held' waiting' serves', ?_⟩
      rw [tookBy_other (Ne.symm hid)]
      exact serves'.took
  case strangers =>
    intro id hid
    rw [tookBy_other (hid r hr)]
    exact h.strangers id hid

/-- The worker of a registration takes a delivery. -/
theorem take (h : d₀.Works sent log d) (hr : r ∈ d₀.registrations) {x : Delivery}
    {rest : List Delivery} (hand : d.transport.heldBy? r.id = none)
    (inbox : d.transport.inboxes.get? r.id = some (x :: rest)) :
    d₀.Works sent (log ++ [(r.id, .took r.handler.label (d.envelope? x).toOption)])
      { d with
        transport :=
          { d.transport with
            inboxes := d.transport.inboxes.set r.id rest
            inHand := d.transport.inHand ++ [(r.id, x)] } } := by
  obtain ⟨judged, held, waiting, serves⟩ := h.serves r hr
  obtain rfl := serves.lane.heldBy?_eq.symm.trans hand
  obtain rfl := Option.some.inj (serves.lane.inbox.symm.trans inbox)
  refine h.advance hr rfl h.fresh ?_ ⟨judged, some x, rest, ?_, serves.lane.take, ?_⟩ ?_
  · intro p hp
    rcases List.mem_append.1 hp with hp | hp
    · exact .inr hp
    · exact .inl (by rw [List.mem_singleton.1 hp])
  · simpa using serves.sent
  · rw [tookBy_append, serves.took]
    simp [tookBy, envelope?, h.registry]
  · intro r' hr' hid judged' held' waiting' serves'
    exact serves'.lane.take_other hid x rest

/-- The worker of a registration judges the delivery that it has in hand. -/
theorem judge (h : d₀.Works sent log d) (hr : r ∈ d₀.registrations) {x : Delivery}
    (hand : d.transport.heldBy? r.id = some x) :
    d₀.Works sent (log ++ [(r.id, .judged x.ticket r.handler.name (d.opinion r x))])
      { d with transport := d.transport.settle x.ticket (d.opinion r x) } := by
  obtain ⟨judged, held, waiting, serves⟩ := h.serves r hr
  obtain rfl := serves.lane.heldBy?_eq.symm.trans hand
  have hheld := serves.lane.mem_inHand
  obtain ⟨s, hs, hsent⟩ := mem_sent serves (x := x) (by simp)
  rw [h.opinion_eq]
  have hsettle := Transport.settle_of_mem hheld (d₀.opinion r x)
  refine h.advance hr hsettle ?_ (fun p hp => .inr (List.mem_filter.1 hp).1)
    ⟨judged ++ [x], none, waiting, ?_, serves.lane.settle (h.ticket_ne_held serves), ?_⟩ ?_
  · intro ticket hlt
    have hle : x.ticket ≤ d.transport.lastTicket := h.ticket_le hsent
    rw [hsettle, Transport.verdict?, Table.get?_push, if_neg (by omega)]
    exact h.fresh ticket hlt
  · simpa using serves.sent
  · rw [tookBy_append, serves.took]
    simp [tookBy]
  · intro r' hr' hid judged' held' waiting' serves'
    refine serves'.lane.settle_other hheld (fun y hy => ?_) _
    obtain ⟨s', hs', hsent'⟩ := mem_sent serves' hy
    exact h.ticket_ne hsent hsent' (by rw [hs, hs']; exact hid)

/-- A step of a worker keeps deliveries in their lanes. -/
theorem work (h : d₀.Works sent log d) (hwork : d.work? id = some (step, d')) :
    d₀.Works sent (log ++ [(id, step)]) d' := by
  obtain ⟨r, hr, rfl, does⟩ := work?_cases hwork
  rw [h.registrations] at hr
  cases does with
  | took hand inbox => exact h.take hr hand inbox
  | asked hand gates =>
    obtain ⟨judged, held, waiting, serves⟩ := h.serves r hr
    refine (h.advance hr rfl h.fresh (fun p hp => .inr hp)
      ⟨judged, held, waiting, serves.sent, serves.lane, ?_⟩
      fun _ _ _ _ _ _ serves' => serves'.lane).gates gates
    rw [tookBy_append, serves.took]
    simp [tookBy]
  | judged hand gates => exact (h.judge hr hand).gates gates

/-- The transport knows the registrations on a topic. -/
theorem subscribers_eq (h : d₀.Works sent log d) (topic : String) :
    d.transport.subscribers topic = (d₀.registered topic).map Registration.subscription := by
  rw [Transport.subscribers, h.directory]
  exact h.before.mirrors topic

/-- Every inbox has its reader. -/
theorem isRead (h : d₀.Works sent log d) {s : Subscription}
    (hs : s ∈ d.transport.subscribers topic) : d.transport.isRead s.id = true := by
  rw [h.subscribers_eq] at hs
  obtain ⟨r, hr, rfl⟩ := List.mem_map.1 hs
  obtain ⟨judged, held, waiting, serves⟩ := h.serves r (mem_registered.1 hr).1
  have hinbox : d.transport.inboxes.get? r.subscription.id = some waiting := serves.lane.inbox
  simp only [Transport.isRead, hinbox, Option.isSome_some]

/-- A message that is published is sent to the registrations on its topic. -/
theorem publish (h : d₀.Works sent log d) (topic : String) (message : Message) :
    ∃ t, d.transport.publish topic message =
        .ok ((d₀.sendings topic message (d.transport.lastTicket + 1)).map receiptOf, t) ∧
      d₀.Works (sent ++ d₀.sendings topic message (d.transport.lastTicket + 1)) log
        { d with transport := t } := by
  obtain ⟨inboxes, hpublish, hinboxes⟩ :=
    Transport.publish_eq h.opened.2 message fun _ (hs : _ ∈ d.transport.subscribers topic) =>
      h.isRead hs
  rw [h.subscribers_eq] at hpublish hinboxes
  refine ⟨_, hpublish, ?_⟩
  constructor
  case before => exact h.before
  case registry => exact h.registry
  case handlers => exact h.handlers
  case opened => exact h.opened
  case directory => exact h.directory
  case lastId => exact h.lastId
  case tickets =>
    rw [List.map_append, h.tickets, sendings, Transport.map_ticket_sendings, h.lastTicket,
      List.length_append, Transport.length_sendings, Nat.add_right_comm, List.range'_append_1]
  case lastTicket =>
    show d.transport.lastTicket + _ = _
    rw [h.lastTicket, List.length_append, sendings, Transport.length_sendings, Nat.add_assoc]
  case addressees =>
    intro p hp
    rcases List.mem_append.1 hp with hp | hp
    · exact h.addressees p hp
    · obtain ⟨⟨s, n⟩, hmem, rfl⟩ := List.mem_map.1 hp
      obtain ⟨r, hr, rfl⟩ := List.mem_map.1 (List.fst_mem_of_mem_zipIdx hmem)
      exact ⟨r, (mem_registered.1 hr).1, rfl⟩
  case fresh =>
    intro ticket hlt
    exact h.fresh ticket (Nat.lt_of_le_of_lt (Nat.le_add_right ..) hlt)
  case hands => exact h.hands
  case serves =>
    intro r hr
    obtain ⟨judged, held, waiting, serves⟩ := h.serves r hr
    refine ⟨judged, held, waiting ++ toInbox r.id _, ?_,
      serves.lane.deliver (hinboxes r.id) rfl rfl ?_, serves.took⟩
    · rw [Transport.toInbox_append, serves.sent, List.append_assoc _ waiting]
      rfl
    · -- the tickets of the new deliveries have not been given before
      intro x hx
      obtain ⟨p, hp, rfl⟩ := List.mem_map.1 hx
      have hticket : p.2.ticket ∈ _ :=
        List.mem_map_of_mem (f := fun p : Subscription × Delivery => p.2.ticket)
          (List.mem_filter.1 hp).1
      rw [Transport.map_ticket_sendings, List.mem_range'_1] at hticket
      exact h.fresh _ (by omega)
  case strangers => exact h.strangers

/-- A delivery is judged as its handler sees it. -/
theorem verdict?_eq (h : d₀.Works sent log d) (hr : r ∈ d₀.registrations) {x : Delivery}
    (hx : (r.subscription, x) ∈ sent) {verdict : Verdict}
    (hverdict : d.transport.verdict? x.ticket = some verdict) : verdict = d₀.opinion r x := by
  obtain ⟨judged, held, waiting, serves⟩ := h.serves r hr
  have hmem : x ∈ toInbox r.id sent :=
    List.mem_map.2 ⟨_, List.mem_filter.2 ⟨hx, by simp [Registration.subscription]⟩, rfl⟩
  rw [serves.sent, List.append_assoc, List.mem_append] at hmem
  rcases hmem with hjudged | hunjudged
  · rw [serves.lane.judged x hjudged] at hverdict
    exact (Option.some.inj hverdict).symm
  · rw [serves.lane.unjudged x hunjudged] at hverdict
    simp at hverdict

/-- A worker has taken the first of the deliveries that were sent to it. -/
theorem tookBy_isPrefix (h : d₀.Works sent log d) (hr : r ∈ d₀.registrations) :
    tookBy r.id log <+: (toInbox r.id sent).map fun x => (d₀.envelope? x).toOption := by
  obtain ⟨judged, held, waiting, serves⟩ := h.serves r hr
  rw [serves.took, serves.sent]
  exact (List.prefix_append _ waiting).map _

/-- When all deliveries have been judged, the dispatcher is at rest, and every worker has taken what
was sent to it. -/
theorem rests (h : d₀.Works sent log d)
    (judged : ∀ p ∈ sent, d.transport.verdict? p.2.ticket ≠ none) :
    d.Rests ∧ ∀ r ∈ d₀.registrations,
      tookBy r.id log = (toInbox r.id sent).map fun x => (d₀.envelope? x).toOption := by
  -- what is in hand or waits has no verdict, so nothing is
  have hdone : ∀ r ∈ d₀.registrations, ∃ all, d₀.Serves sent log d.transport r all none [] := by
    intro r hr
    obtain ⟨all, held, waiting, serves⟩ := h.serves r hr
    have hnone : held.toList ++ waiting = [] := by
      refine List.eq_nil_iff_forall_not_mem.2 fun x hx => ?_
      obtain ⟨s, -, hsent⟩ := mem_sent serves (x := x) (by
        rw [List.append_assoc]
        exact List.mem_append_right _ hx)
      exact judged _ hsent (serves.lane.unjudged x hx)
    obtain ⟨hheld, rfl⟩ := List.append_eq_nil_iff.1 hnone
    obtain rfl := Option.toList_eq_nil_iff.1 hheld
    exact ⟨all, serves⟩
  constructor
  · constructor
    case opened => exact h.opened
    case mirrors =>
      rw [h.directory, h.handlers]
      exact h.before.mirrors
    case distinct =>
      rw [h.registrations]
      exact h.before.distinct
    case known =>
      rw [h.registrations, h.lastId]
      exact h.before.known
    case inboxes =>
      rw [h.registrations]
      intro r hr
      obtain ⟨all, serves⟩ := hdone r hr
      exact serves.lane.inbox
    case inHand =>
      refine List.eq_nil_iff_forall_not_mem.2 fun p hp => ?_
      obtain ⟨r, hr, hid⟩ := h.hands p hp
      obtain ⟨all, serves⟩ := hdone r hr
      have hmem : p ∈ d.transport.inHand.filter (·.1 = r.id) :=
        List.mem_filter.2 ⟨hp, by simp [hid]⟩
      rw [serves.lane.hand] at hmem
      simp at hmem
    case fresh => exact h.fresh
  · intro r hr
    obtain ⟨all, serves⟩ := hdone r hr
    have hsent := serves.sent
    rw [Option.toList_none, List.append_nil, List.append_nil] at hsent
    rw [serves.took, hsent, Option.toList_none, List.append_nil]

end Works

end Dispatcher

end EventJournal
