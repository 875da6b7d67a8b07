import EventJournal.Proofs.Dispatch.Traffic

/-!
# The two tables of a dispatcher

Who is on which topic is written down twice: the dispatcher lists its registrations, with the
handlers, and the transport lists its subscriptions, with their names. Whatever happens at a
dispatcher, the two directories say the same on every topic, unless closing is cut into steps. So
those who are listed on the topics of an event are those whom a dispatch reaches.

* `Incident.isWhole`, that closing is not cut into steps, and `Incident.isQuiet`, that nobody comes
  or goes;
* `Dispatcher.KeepsTables`, what leaves both tables alone, and `Dispatcher.Matched`, what holds of
  them at any time;
* `Directory.Mirrors.inOrder`, that all subscriptions are those of all registrations;
* `Dispatcher.Addresses`, whom a dispatch has reached by the registrations alone;
* `Traffic.Quiet`, what happens while nobody comes or goes;
* `Dispatcher.Concord`, what is guaranteed of the tables, and `Traffic.Agreement`, of a dispatcher
  with all that has happened there.

The main statement is `Traffic.agreement_of_incidents`.
-/

namespace EventJournal

open Dispatching (post report)

/-- Closing is not cut into steps here. -/
def Incident.isWhole : Incident → Bool
  | .bars | .shuts | .stops _ => false
  | _ => true

/-- Nobody comes or goes. -/
def Incident.isQuiet : Incident → Bool
  | .starts _ | .goes _ | .works _ | .releases .. => true
  | _ => false

namespace Dispatcher

/-- What the tables of a dispatcher guarantee. -/
structure Concord (d : Dispatcher) : Prop where
  /-- On each topic both list the same numbers and names in the same order. -/
  same : ∀ topic, (d.registered topic).map (fun r => (r.id, r.handler.name)) =
    (d.transport.subscribers topic).map fun s => (s.id, s.name)
  /-- No number is given twice, and both tables are in the order in which numbers were given, -/
  ordered : (d.registrations.map Registration.id).Pairwise (· < ·) ∧
    (d.transport.subscriptions.map Subscription.id).Pairwise (· < ·)
  /-- on each topic as on all of them. -/
  listed : ∀ topic, d.registered topic = d.registrations.filter (·.topic = topic) ∧
    d.transport.subscribers topic = d.transport.subscriptions.filter (·.topic = topic)
  /-- Neither table keeps a topic with an empty list. -/
  occupied : d.handlers.Occupied ∧ d.transport.directory.Occupied
  /-- The topics are those with somebody on them, each of them once and in their order. -/
  topics : d.topics.Nodup ∧ d.topics.Pairwise (· ≤ ·) ∧
    ∀ topic, topic ∈ d.topics ↔ d.registered topic ≠ []
  /-- What is published on a topic reaches those who are listed there, in that order, and all of
  them stay in the table: as many as are counted there, with the names that are told, and somebody
  if the topic is told of. -/
  published : d.closed = false → ∀ topic message, ∃ receipts transport,
    d.transport.publish topic message = .ok (receipts, transport) ∧
      receipts.map (fun receipt => (receipt.subscription, receipt.subscriber)) =
        (d.registered topic).map (fun r => (r.id, r.handler.name)) ∧
      receipts.length = d.handlerCount topic ∧
      receipts.map Receipt.subscriber = d.handlerNames topic ∧
      (receipts ≠ [] ↔ topic ∈ d.topics) ∧
      transport.directory = d.transport.directory
  /-- An envelope is for those whose names are told on its topics, if any of these is told of. -/
  addressed : ∀ envelope : Envelope,
    (d.addressees envelope).map (·.handler.name) =
      (EventType.topics envelope.event.eventType).flatMap d.handlerNames ∧
    (d.addressees envelope ≠ [] ↔
      ∃ topic ∈ EventType.topics envelope.event.eventType, topic ∈ d.topics)
  /-- Who is registered can be removed, from both tables, and nobody else is. -/
  removed : ∀ before r after, d.registrations = before ++ r :: after →
    (d.unsubscribe r.id).1 = true ∧ (d.unsubscribe r.id).2.registrations = before ++ after ∧
      (d.unsubscribe r.id).2.transport.subscriptions =
        d.transport.subscriptions.filter (·.id ≠ r.id)
  /-- Who is not registered cannot be removed, and then nothing is changed. -/
  unknown : ∀ id, (∀ r ∈ d.registrations, r.id ≠ id) → d.unsubscribe id = (false, d)
  /-- Nobody is left once the dispatcher is closed, -/
  emptied : d.closed = true → (d.registrations = [] ∧ d.topics = []) ∧
    d.transport.subscriptions = [] ∧ d.transport.directory.topics = []
  /-- and it refuses dispatches and registrations, except those of a handler without topics. -/
  refused : d.closed = true →
    (∀ envelopes, Dispatching.step? d (.starting envelopes) =
      some ⟨.done (.error .closed), d, none, []⟩) ∧
    (∀ topic handler, d.subscribe topic handler = .error .closed) ∧
    ∀ handler topic rest, d.subscribeAll handler (topic :: rest) = (.error .closed, d)

/-- Whom a dispatch of envelopes has reached with its errands, by the registrations at its start:
those on the topics of each envelope, in order, as far as it has come. -/
inductive Addresses (d : Dispatcher) (envelopes : List Envelope) :
    List Errand → Dispatching → Prop
  | starting : d.Addresses envelopes [] (.starting envelopes)
  | refused {e : DispatchError} (unwritable : post envelopes = .error e) :
      d.Addresses envelopes [] (.done (.error e))
  | publishing {published rest : List Posting} {own : List Errand} {awaited : List Awaited}
      (posted : post envelopes = .ok (published ++ rest))
      (reached : own.map Errand.registration = published.flatMap fun p => d.registered p.topic) :
      d.Addresses envelopes own (.publishing rest awaited)
  | awaiting {own : List Errand} {rest : List Awaited} {failures : List HandlerFailure}
      (reached : own.map Errand.registration = envelopes.flatMap d.addressees) :
      d.Addresses envelopes own (.awaiting rest failures)
  | done {own : List Errand} {failures : List HandlerFailure}
      (reached : own.map Errand.registration = envelopes.flatMap d.addressees) :
      d.Addresses envelopes own (.done (report failures))

end Dispatcher

namespace Traffic

/-- What is guaranteed of the tables after some incidents. -/
structure Agreement (t : Traffic) (incidents : List Incident) : Prop where
  concord : t.dispatcher.Concord
  /-- A dispatcher is closed for ever. -/
  closed : t.dispatcher.closed = true ↔ .closes ∈ incidents
  /-- A dispatch that starts now reaches those who are registered now, as long as nobody comes or
  goes. -/
  reached : t.dispatcher.closed = false → ∀ envelopes quiet t',
    (∀ incident ∈ quiet, incident.isQuiet = true) →
    t.after? (.starts envelopes :: quiet) = some t' →
    ∃ account x, t'.calls[t.calls.length]? = some (account, x) ∧
      account.Reaches t'.dispatcher x ∧ t.dispatcher.Addresses envelopes account.own x

end Traffic

/-! ### The two directories -/

namespace Directory.Mirrors

variable {directory : Directory Subscription.topic} {handlers : Directory Registration.topic}

theorem perm_items (h : directory.Mirrors handlers) :
    directory.items.Perm (handlers.items.map Registration.subscription) :=
  perm_items_of_get (fun _ => rfl) h

/-- All subscriptions are those of all registrations, in the same order. -/
theorem inOrder (h : directory.Mirrors handlers)
    (distinct : ((handlers.inOrder Registration.id).map Registration.id).Nodup) :
    directory.inOrder Subscription.id =
      (handlers.inOrder Registration.id).map Registration.subscription := by
  have hids : ((handlers.items.map Registration.subscription).map Subscription.id).Nodup := by
    rw [List.map_map]
    exact ((handlers.perm_inOrder _).map _).nodup_iff.1 distinct
  rw [Directory.inOrder, ← orderedBy_eq_of_perm h.perm_items.symm hids]
  exact (map_orderedBy Registration.subscription Subscription.id handlers.items).symm

end Directory.Mirrors

/-! ### What leaves the tables alone -/

namespace Dispatcher

/-- Both tables are left alone, and nothing is closed. -/
structure KeepsTables (d d' : Dispatcher) : Prop where
  handlers : d'.handlers = d.handlers
  directory : d'.transport.directory = d.transport.directory
  closed : d'.closed = d.closed
  shut : d'.transport.closed = d.transport.closed

/-- What holds of the tables between any two incidents. -/
structure Matched (d : Dispatcher) : Prop where
  mirrors : d.transport.directory.Mirrors d.handlers
  ascending : d.handlers.Ascending Registration.id
  occupied : d.handlers.Occupied ∧ d.transport.directory.Occupied
  shut : d.transport.closed = d.closed
  emptied : d.closed = true → d.registrations = []

variable {base d d' d₀ : Dispatcher} {made : List Registration} {sent : List Errand}
  {log : List (Nat × WorkerStep)} {envelopes : List Envelope} {x : Dispatching}
  {a : Dispatching.Advance}

theorem KeepsTables.refl (d : Dispatcher) : d.KeepsTables d := ⟨rfl, rfl, rfl, rfl⟩

/-- A worker goes on, however its handler ends: it neither comes nor goes. -/
theorem keepsTables_work {id : Nat} {step : WorkerStep} (h : d.work? id = some (step, d')) :
    d.KeepsTables d' := by
  obtain ⟨r, -, rfl, does⟩ := work?_cases h
  cases does with
  | took => exact ⟨rfl, rfl, rfl, rfl⟩
  | asked => exact ⟨rfl, rfl, rfl, rfl⟩
  | @judged x hand gates =>
    have hsettle : (d.transport.settle x.ticket (d.opinion r x)).closed = d.transport.closed ∧
        (d.transport.settle x.ticket (d.opinion r x)).directory = d.transport.directory := by
      unfold Transport.settle
      split <;> exact ⟨rfl, rfl⟩
    exact ⟨rfl, hsettle.2, rfl, hsettle.1⟩

namespace Busy

/-- What is published reaches all registrations on its topic, and nobody is found to be gone. -/
theorem publishes (h : base.Busy made sent log d) (opened : d.transport.closed = false)
    (p : Posting) :
    ∃ t, d.transport.publish p.topic p.message =
        .ok ((d.plan [p]).map fun e => Transport.receiptOf e.sending, t) ∧
      d.KeepsTables { d with transport := t } := by
  obtain ⟨t, hpublish, ⟨hclosed, hdirectory, -⟩, -⟩ :=
    h.flows.publish opened p (h.mirrors opened p.topic)
  exact ⟨t, hpublish, rfl, hdirectory, rfl, hclosed⟩

/-- A dispatch takes a step, and all who are in the tables stay there. -/
theorem keepsTables (h : base.Busy made sent log d) (hstep : x.step? d = some a) :
    d.KeepsTables a.dispatcher := by
  cases Dispatching.step_of_advance hstep with
  | refuses | unwritable | begins | published | shut | concludes | handled | failed =>
    exact .refl d
  | @publishes p rest awaited receipts transport sent =>
    cases hclosed : d.transport.closed with
    | true => simp [Transport.publish_of_closed hclosed] at sent
    | false =>
      obtain ⟨t, hpublish, keeps⟩ := h.publishes hclosed p
      obtain ⟨rfl, rfl⟩ := Prod.mk.inj (Except.ok.inj (hpublish.symm.trans sent))
      exact keeps

end Busy

/-! ### What changes both tables -/

/-- A number is taken out of both tables, whether it is there or not. -/
theorem tables_unsubscribe (d : Dispatcher) (id : Nat) :
    (d.unsubscribe id).2.handlers = d.handlers.retain (·.id ≠ id) ∧
      (d.unsubscribe id).2.transport.directory = d.transport.directory.retain (·.id ≠ id) ∧
      (d.unsubscribe id).2.closed = d.closed ∧
      (d.unsubscribe id).2.transport.closed = d.transport.closed := by
  simp only [Dispatcher.unsubscribe]
  split <;> exact ⟨rfl, rfl, rfl, rfl⟩

namespace Matched

theorem new (registry : Registry) : Matched { registry } :=
  ⟨fun _ => rfl, .empty, ⟨.empty, .empty⟩, rfl, fun _ => rfl⟩

theorem keep (h : d.Matched) (keeps : d.KeepsTables d') : d'.Matched where
  mirrors := by
    rw [keeps.directory, keeps.handlers]
    exact h.mirrors
  ascending := keeps.handlers ▸ h.ascending
  occupied := by
    rw [keeps.directory, keeps.handlers]
    exact h.occupied
  shut := by rw [keeps.shut, keeps.closed, h.shut]
  emptied hclosed := by
    rw [registrations, keeps.handlers]
    exact h.emptied (keeps.closed ▸ hclosed)

/-- A new registration has the greatest number, and stands at the end of its topic in both tables. -/
theorem subscribe (h : d.Matched) (busy : base.Busy made sent log d) {topic : String}
    {handler : Handler} {id : Nat} (ok : d.subscribe topic handler = .ok (id, d')) :
    d'.Matched ∧ d'.closed = d.closed := by
  cases hclosed : d.closed with
  | true => simp [Dispatcher.subscribe, hclosed] at ok
  | false =>
    simp only [Dispatcher.subscribe, Transport.subscribe, hclosed, h.shut, Bool.false_eq_true,
      if_false] at ok
    obtain ⟨rfl, rfl⟩ := Prod.mk.inj (Except.ok.inj ok)
    let r : Registration := ⟨d.transport.lastId + 1, topic, handler⟩
    have hgreatest : ∀ r' ∈ d.handlers.items, r'.id < r.id := fun r' hr' =>
      Nat.lt_succ_of_le (busy.known (Directory.mem_inOrder.2 hr'))
    exact ⟨⟨h.mirrors.add r, h.ascending.add hgreatest,
      ⟨h.occupied.1.add r, h.occupied.2.add r.subscription⟩, rfl, by simp⟩, rfl⟩

theorem subscribeAll (h : d.Matched) (busy : base.Busy made sent log d) (handler : Handler)
    (topics : List String) :
    (d.subscribeAll handler topics).2.Matched ∧
      (d.subscribeAll handler topics).2.closed = d.closed := by
  induction topics generalizing d made with
  | nil => exact ⟨h, rfl⟩
  | cons topic rest ih =>
    rw [Dispatcher.subscribeAll]
    split
    · exact ⟨h, rfl⟩
    · next id d' ok =>
      obtain ⟨⟨r, busy'⟩, -⟩ := busy.subscribe ok
      obtain ⟨matched, hclosed⟩ := h.subscribe busy ok
      have hrest := ih matched busy'
      rw [hclosed] at hrest
      split
      · next heq => rwa [heq] at hrest
      · next heq => rwa [heq] at hrest

/-- Who is not registered is not in the table of the transport either. -/
theorem unknown (h : d.Matched) {id : Nat} (none : ∀ r ∈ d.registrations, r.id ≠ id) :
    d.unsubscribe id = (false, d) := by
  have hfind : d.registrations.find? (·.id = id) = Option.none :=
    List.find?_eq_none.2 fun r hr => by simpa using none r hr
  have hhandlers : d.handlers.retain (·.id ≠ id) = d.handlers :=
    h.occupied.1.retain_eq fun r hr => decide_eq_true (none r (Directory.mem_inOrder.2 hr))
  have hdirectory : d.transport.directory.retain (·.id ≠ id) = d.transport.directory := by
    refine h.occupied.2.retain_eq fun s hs => ?_
    obtain ⟨r, hr, rfl⟩ := List.mem_map.1 (h.mirrors.perm_items.subset hs)
    exact decide_eq_true (none r (Directory.mem_inOrder.2 hr))
  simp only [Dispatcher.unsubscribe, Transport.unsubscribe, hfind, hhandlers, hdirectory]

/-- A registration is removed from both tables. -/
theorem removed (distinct : (d.registrations.map Registration.id).Nodup)
    {before after : List Registration} {r : Registration}
    (table : d.registrations = before ++ r :: after) :
    (d.unsubscribe r.id).1 = true ∧ (d.unsubscribe r.id).2.registrations = before ++ after ∧
      (d.unsubscribe r.id).2.transport.subscriptions =
        d.transport.subscriptions.filter (·.id ≠ r.id) := by
  obtain ⟨hhandlers, hdirectory, -⟩ := tables_unsubscribe d r.id
  rw [table, List.map_append, List.map_cons, List.nodup_append, List.nodup_cons] at distinct
  obtain ⟨-, ⟨hafter, -⟩, hbefore⟩ := distinct
  have hfirst : ∀ r' ∈ before, decide (r'.id ≠ r.id) = true := fun r' hr' =>
    decide_eq_true (hbefore _ (List.mem_map_of_mem hr') r.id (List.mem_cons_self ..))
  have hsecond : ∀ r' ∈ after, decide (r'.id ≠ r.id) = true := fun r' hr' =>
    decide_eq_true fun heq => hafter (heq ▸ List.mem_map_of_mem hr')
  refine ⟨?_, ?_, ?_⟩
  · cases hfind : d.registrations.find? (·.id = r.id) with
    | none => simpa [table] using List.find?_eq_none.1 hfind r
    | some r' => simp [Dispatcher.unsubscribe, hfind]
  · rw [registrations, hhandlers, Directory.inOrder_retain, ← registrations, table,
      List.filter_append, List.filter_cons_of_neg (by simp), List.filter_eq_self.2 hfirst,
      List.filter_eq_self.2 hsecond]
  · rw [Transport.subscriptions, hdirectory, Directory.inOrder_retain]
    rfl

theorem unsubscribe (h : d.Matched) (id : Nat) :
    (d.unsubscribe id).2.Matched ∧ (d.unsubscribe id).2.closed = d.closed := by
  obtain ⟨hhandlers, hdirectory, hclosed, hshut⟩ := tables_unsubscribe d id
  refine ⟨⟨?_, ?_, ?_, hshut.trans (h.shut.trans hclosed.symm), fun closed => ?_⟩, hclosed⟩
  · rw [hdirectory, hhandlers]
    exact h.mirrors.retain id
  · rw [hhandlers]
    exact h.ascending.of_items_filter (d.handlers.items_retain _)
  · rw [hdirectory, hhandlers]
    exact ⟨Directory.Occupied.retain _ _, Directory.Occupied.retain _ _⟩
  · rw [registrations, hhandlers, Directory.inOrder_retain, ← registrations,
      h.emptied (hclosed.symm.trans closed), List.filter_nil]

/-- The dispatcher is closed: nobody is left in either table. -/
theorem close (h : d.Matched) : d.close.Matched ∧ d.close.closed = true := by
  unfold Dispatcher.close
  split
  · next hclosed => exact ⟨h, hclosed⟩
  · obtain ⟨gates, hstop⟩ := Busy.foldl_stop d.registrations
      { d with closed := true, transport := d.transport.close, handlers := .empty }
    obtain ⟨hclosed, hdirectory, -⟩ :=
      Busy.foldl_dropReader d.registrations d.transport.close
    rw [hstop]
    refine ⟨⟨?_, .empty, ⟨.empty, ?_⟩, hclosed, fun _ => rfl⟩, rfl⟩
    · rw [hdirectory]
      exact fun _ => rfl
    · rw [hdirectory]
      exact .empty

end Matched

theorem nodup_topics (d : Dispatcher) : d.topics.Nodup :=
  (List.mergeSort_perm _ _).nodup_iff.2 d.handlers.distinct

namespace Matched

theorem mem_topics (h : d.Matched) {topic : String} :
    topic ∈ d.topics ↔ d.registered topic ≠ [] := by
  rw [topics, List.mem_mergeSort, h.occupied.1.mem_topics, registered]

/-- Without registrations no topic is left in either table. -/
theorem topics_eq_nil (h : d.Matched) (none : d.registrations = []) :
    d.topics = [] ∧ d.transport.directory.topics = [] := by
  have hregistered : ∀ topic, d.registered topic = [] := by
    refine fun topic => List.eq_nil_iff_forall_not_mem.2 fun r hr => ?_
    have hr' := (mem_registered.1 hr).1
    simp [none] at hr'
  refine ⟨List.eq_nil_iff_forall_not_mem.2 fun topic htopic => ?_,
    List.eq_nil_iff_forall_not_mem.2 fun topic htopic => ?_⟩
  · exact h.mem_topics.1 htopic (hregistered topic)
  · refine h.occupied.2.mem_topics.1 htopic ?_
    rw [h.mirrors topic, show d.handlers.get topic = [] from hregistered topic, List.map_nil]

end Matched

/-- What the tables guarantee follows from what holds of them at any time. -/
theorem Matched.concord (h : d.Matched) (busy : base.Busy made sent log d) : d.Concord := by
  have distinct := busy.flows.distinct.sublist (busy.flows.sublist.map Registration.id)
  have hsubscriptions := h.mirrors.inOrder distinct
  constructor
  case same =>
    intro topic
    rw [Transport.subscribers, h.mirrors topic, List.map_map]
    rfl
  case ordered =>
    have hordered := Directory.pairwise_lt_inOrder distinct
    refine ⟨hordered, ?_⟩
    rw [Transport.subscriptions, hsubscriptions, List.map_map]
    exact hordered
  case listed =>
    refine fun topic => ⟨h.ascending.get_eq topic, ?_⟩
    rw [Transport.subscribers, h.mirrors topic, h.ascending.get_eq topic,
      Transport.subscriptions, hsubscriptions, List.filter_map]
    rfl
  case occupied => exact h.occupied
  case topics =>
    exact ⟨d.nodup_topics, List.pairwise_mergeSort' (· ≤ ·) _, fun _ => h.mem_topics⟩
  case addressed =>
    intro envelope
    refine ⟨?_, ?_⟩
    · rw [addressees, List.map_flatMap]
      rfl
    · rw [addressees, Ne, List.flatMap_eq_nil_iff]
      simp only [h.mem_topics, not_forall, exists_prop]
  case published =>
    intro opened topic message
    let p : Posting := ⟨topic, message, "", true⟩
    obtain ⟨t, hpublish, keeps⟩ := busy.publishes (h.shut.trans opened) p
    have hreached : (d.plan [p]).map Errand.registration = d.registered topic :=
      Account.map_registration_plan d p
    have hnames : ((d.plan [p]).map fun e => Transport.receiptOf e.sending).map
        Receipt.subscriber = d.handlerNames topic := by
      rw [handlerNames, ← hreached, List.map_map, List.map_map]
      rfl
    have hcount : ((d.plan [p]).map fun e => Transport.receiptOf e.sending).length =
        d.handlerCount topic := by
      rw [handlerCount, ← hreached, List.length_map, List.length_map]
    refine ⟨_, t, hpublish, ?_, hcount, hnames, ?_, keeps.directory⟩
    · rw [← hreached, List.map_map, List.map_map]
      rfl
    · rw [h.mem_topics, ← List.length_pos_iff, hcount, handlerCount, List.length_pos_iff]
  case removed => exact fun before r after => removed distinct
  case unknown => exact fun id => h.unknown
  case emptied =>
    intro hclosed
    have hnone := h.emptied hclosed
    obtain ⟨htopics, hkeys⟩ := h.topics_eq_nil hnone
    refine ⟨⟨hnone, htopics⟩, ?_, hkeys⟩
    rw [Transport.subscriptions, hsubscriptions, ← registrations, hnone, List.map_nil]
  case refused =>
    intro hclosed
    have hsubscribe : ∀ topic handler, d.subscribe topic handler = .error .closed := by
      simp [Dispatcher.subscribe, hclosed]
    refine ⟨by simp [Dispatching.step?, hclosed], hsubscribe, fun handler topic rest => ?_⟩
    rw [Dispatcher.subscribeAll, hsubscribe]

/-! ### Whom a dispatch reaches -/

theorem flatMap_registered_of_post {postings : List Posting} (h : post envelopes = .ok postings) :
    (postings.flatMap fun p => d.registered p.topic) = envelopes.flatMap d.addressees := by
  have hcarries := (carries_of_post (d := d) h).imp fun _ _ carries => carries.2.1
  have hsnd : ∀ {xs : List (Posting × Registration)} {ys : List (Envelope × Registration)},
      List.Forall₂ (fun x y => x.2 = y.2) xs ys → xs.map Prod.snd = ys.map Prod.snd := by
    intro xs ys hall
    rwa [← List.forall₂_eq_eq_eq, List.forall₂_map_left_iff, List.forall₂_map_right_iff]
  simpa [assignments, List.map_flatMap, Function.comp_def] using hsnd hcarries

/-- A dispatch goes on while the registrations are those of its start. -/
theorem Addresses.advance {own : List Errand} (h : d₀.Addresses envelopes own x)
    (busy : base.Busy made sent log d) (opened : d.closed = false)
    (shut : d.transport.closed = false) (same : d.handlers = d₀.handlers)
    (hstep : x.step? d = some a) : d₀.Addresses envelopes (own ++ d.sends x) a.next := by
  cases Dispatching.step_of_advance hstep with
  | refuses closed => simp [closed] at opened
  | unwritable _ failed =>
    cases h
    exact .refused failed
  | @begins _ postings _ posted =>
    cases h
    exact .publishing (show post envelopes = .ok ([] ++ postings) from posted) rfl
  | published =>
    cases h with
    | publishing posted reached =>
      rw [List.append_nil] at posted
      rw [flatMap_registered_of_post posted] at reached
      exact .awaiting (by simpa [sends] using reached)
  | @shut p _ _ _ refused =>
    obtain ⟨t, hpublish, -⟩ := busy.publishes shut p
    simp [hpublish] at refused
  | @publishes p rest awaited receipts transport sent =>
    cases h with
    | publishing posted reached =>
      rw [List.append_cons] at posted
      have hregistered : d.registered p.topic = d₀.registered p.topic := by
        rw [registered, registered, same]
      refine .publishing posted ?_
      simp [sends, shut, reached, Account.map_registration_plan, hregistered]
  | concludes =>
    cases h with
    | awaiting reached =>
      rw [Dispatching.conclude_eq]
      exact .done (by simpa [sends] using reached)
  | handled | failed =>
    cases h with
    | awaiting reached => exact .awaiting (by simpa [sends] using reached)

end Dispatcher

/-! ### Whatever happens at a dispatcher -/

namespace Traffic

/-- Something happens, and nobody comes or goes. -/
inductive Quiet (t : Traffic) : Traffic → Prop
  | starts (envelopes : List Envelope) :
      t.Quiet { t with
        calls := t.calls ++ [({ start := t.dispatcher, envelopes }, .starting envelopes)] }
  | goes {place : Nat} {account : Account} {x : Dispatching} {a : Dispatching.Advance}
      (get : t.calls[place]? = some (account, x)) (step : x.step? t.dispatcher = some a) :
      t.Quiet { t with
        dispatcher := a.dispatcher
        calls := t.calls.set place (account.add (t.dispatcher.sends x), a.next)
        sent := t.sent ++ t.dispatcher.sends x }
  | works {id : Nat} {step : WorkerStep} {d : Dispatcher}
      (work : t.dispatcher.work? id = some (step, d)) : t.Quiet (t.turn d [(id, step)])
  | releases (label : String) (permits : Nat) :
      t.Quiet (t.turn (t.dispatcher.release label permits).2 [])

theorem quiet_of_perform {t t' : Traffic} {incident : Incident} (quiet : incident.isQuiet = true)
    (h : t.perform? incident = some t') : t.Quiet t' := by
  cases incident with
  | starts envelopes =>
    obtain rfl := Option.some.inj h
    exact .starts envelopes
  | goes place =>
    simp only [perform?] at h
    split at h
    · simp at h
    · next get =>
      split at h
      · simp at h
      · next step =>
        obtain rfl := Option.some.inj h
        exact .goes get step
  | works id =>
    simp only [perform?] at h
    split at h
    · simp at h
    · next work =>
      obtain rfl := Option.some.inj h
      exact .works work
  | releases label permits =>
    obtain rfl := Option.some.inj h
    exact .releases label permits
  | subscribes | unsubscribes | closes | bars | shuts | stops => simp [Incident.isQuiet] at quiet

namespace Sound

variable {base d₀ : Dispatcher} {t t' : Traffic} {incident : Incident} {incidents : List Incident}

/-- What is quiet leaves the tables alone. -/
theorem keepsTables (sound : Sound base t) (quiet : t.Quiet t') :
    t.dispatcher.KeepsTables t'.dispatcher := by
  obtain ⟨made, busy⟩ := sound.busy
  cases quiet with
  | starts => exact .refl _
  | goes _ step => exact busy.keepsTables step
  | works work => exact Dispatcher.keepsTables_work work
  | releases => exact ⟨rfl, rfl, rfl, rfl⟩

/-- Whatever happens at a dispatcher, the tables match, and only closing closes it. -/
theorem matched (sound : Sound base t) (matched : t.dispatcher.Matched)
    (whole : incident.isWhole = true) (h : t.perform? incident = some t') :
    t'.dispatcher.Matched ∧
      (t'.dispatcher.closed = true ↔ t.dispatcher.closed = true ∨ incident = .closes) := by
  obtain ⟨made, busy⟩ := sound.busy
  have hquiet : incident.isQuiet = true → incident ≠ .closes → t'.dispatcher.Matched ∧
      (t'.dispatcher.closed = true ↔ t.dispatcher.closed = true ∨ incident = .closes) := by
    intro quiet hne
    have keeps := sound.keepsTables (quiet_of_perform quiet h)
    exact ⟨matched.keep keeps, by simp [keeps.closed, hne]⟩
  cases incident with
  | starts | goes | works | releases => exact hquiet rfl (by simp)
  | subscribes handler topics =>
    obtain rfl := Option.some.inj h
    obtain ⟨matched', hclosed⟩ := matched.subscribeAll busy handler topics
    exact ⟨matched', by rw [or_iff_left (by simp), ← hclosed]; rfl⟩
  | unsubscribes id =>
    obtain rfl := Option.some.inj h
    obtain ⟨matched', hclosed⟩ := matched.unsubscribe id
    exact ⟨matched', by rw [or_iff_left (by simp), ← hclosed]; rfl⟩
  | closes =>
    obtain rfl := Option.some.inj h
    obtain ⟨matched', hclosed⟩ := matched.close
    exact ⟨matched', iff_of_true hclosed (.inr rfl)⟩
  | bars | shuts | stops => simp [Incident.isWhole] at whole

theorem matched_after (sound : Sound base t) (matched : t.dispatcher.Matched)
    (whole : ∀ incident ∈ incidents, incident.isWhole = true)
    (h : t.after? incidents = some t') :
    t'.dispatcher.Matched ∧
      (t'.dispatcher.closed = true ↔ t.dispatcher.closed = true ∨ .closes ∈ incidents) := by
  induction incidents generalizing t with
  | nil =>
    obtain rfl := Option.some.inj h
    exact ⟨matched, by simp⟩
  | cons incident rest ih =>
    obtain ⟨hfirst, hrest⟩ := List.forall_mem_cons.1 whole
    rw [after?] at h
    split at h
    · simp at h
    · next t₁ hperform =>
      obtain ⟨matched₁, hclosed₁⟩ := sound.matched matched hfirst hperform
      obtain ⟨matched', hclosed'⟩ := ih (sound.perform hperform) matched₁ hrest h
      refine ⟨matched', ?_⟩
      rw [hclosed', hclosed₁, List.mem_cons, or_assoc, @eq_comm _ incident]

/-- Something quiet happens while a dispatch is under way. -/
theorem addresses (sound : Sound base t) (quiet : t.Quiet t') {place : Nat} {account : Account}
    {x : Dispatching} (opened : t.dispatcher.closed = false)
    (shut : t.dispatcher.transport.closed = false)
    (same : t.dispatcher.handlers = d₀.handlers)
    (get : t.calls[place]? = some (account, x))
    (addresses : d₀.Addresses account.envelopes account.own x) :
    ∃ account' x', t'.calls[place]? = some (account', x') ∧
      account'.envelopes = account.envelopes ∧
      d₀.Addresses account'.envelopes account'.own x' := by
  obtain ⟨made, busy⟩ := sound.busy
  have hlt := (List.getElem?_eq_some_iff.1 get).1
  cases quiet with
  | starts => exact ⟨account, x, (List.getElem?_append_left hlt).trans get, rfl, addresses⟩
  | @goes other account₁ x₁ a get₁ step =>
    by_cases hplace : other = place
    · subst hplace
      obtain ⟨rfl, rfl⟩ := Prod.mk.inj (Option.some.inj (get₁.symm.trans get))
      exact ⟨_, _, List.getElem?_set_self hlt, rfl, addresses.advance busy opened shut same step⟩
    · exact ⟨account, x, (List.getElem?_set_ne hplace).trans get, rfl, addresses⟩
  | works | releases => exact ⟨account, x, get, rfl, addresses⟩

theorem addresses_after (sound : Sound base t)
    (quiet : ∀ incident ∈ incidents, incident.isQuiet = true)
    (h : t.after? incidents = some t') {place : Nat} {account : Account} {x : Dispatching}
    (opened : t.dispatcher.closed = false) (shut : t.dispatcher.transport.closed = false)
    (same : t.dispatcher.handlers = d₀.handlers)
    (get : t.calls[place]? = some (account, x))
    (addresses : d₀.Addresses account.envelopes account.own x) :
    ∃ account' x', t'.calls[place]? = some (account', x') ∧
      account'.envelopes = account.envelopes ∧
      d₀.Addresses account'.envelopes account'.own x' := by
  induction incidents generalizing t account x with
  | nil =>
    obtain rfl := Option.some.inj h
    exact ⟨account, x, get, rfl, addresses⟩
  | cons incident rest ih =>
    obtain ⟨hfirst, hrest⟩ := List.forall_mem_cons.1 quiet
    rw [after?] at h
    split at h
    · simp at h
    · next t₁ hperform =>
      have hquiet := quiet_of_perform hfirst hperform
      have keeps := sound.keepsTables hquiet
      obtain ⟨account₁, x₁, get₁, henvelopes, addresses₁⟩ :=
        sound.addresses hquiet opened shut same get addresses
      rw [← henvelopes]
      exact ih (sound.perform hperform) hrest h (keeps.closed.trans opened)
        (keeps.shut.trans shut) (keeps.handlers.trans same) get₁ addresses₁

end Sound

variable {t : Traffic}

/-- The two tables of a dispatcher agree after everything that can happen there. -/
theorem agreement_of_incidents {registry : Registry} {incidents : List Incident}
    (whole : ∀ incident ∈ incidents, incident.isWhole = true)
    (h : Traffic.after? { dispatcher := { registry } } incidents = some t) :
    t.Agreement incidents := by
  have sound := (Sound.new registry).after h
  obtain ⟨made, busy⟩ := sound.busy
  obtain ⟨matched, hclosed⟩ := (Sound.new registry).matched_after (.new registry) whole h
  constructor
  case concord => exact matched.concord busy
  case closed => simpa using hclosed
  case reached =>
    intro opened envelopes quiet t' hquiet h'
    have sound' := sound.after h'
    have hstart : (t.calls ++ [({ start := t.dispatcher, envelopes }, .starting envelopes)])[
        t.calls.length]? = some ({ start := t.dispatcher, envelopes }, .starting envelopes) :=
      List.getElem?_concat_length
    have hstarting : t.dispatcher.Addresses envelopes [] (.starting envelopes) := .starting
    obtain ⟨account, x, get, henvelopes, addresses⟩ := (sound.starts envelopes).addresses_after
      hquiet h' opened (matched.shut.trans opened) rfl hstart hstarting
    obtain ⟨reaches, -, -⟩ := sound'.stand _ (List.mem_of_getElem? get)
    rw [show account.envelopes = envelopes from henvelopes] at addresses
    exact ⟨account, x, get, reaches, addresses⟩

/-- A handler asks for one topic twice and breaks off on every event; another asks for nothing. One
of the registrations is removed, twice over, and so is somebody unknown. In the end the only one on
another topic is removed. -/
def turnover : List Incident :=
  let fan : Handler :=
    .scripted "f" "fan" ["order.*", "order.*", "*.*"] { behaviour := .panic, messages := ["boom"] }
  let idler : Handler := .scripted "i" "idler" [] { behaviour := .accept }
  let audit : Handler := .scripted "a" "audit" ["order.*"] { behaviour := .accept }
  [.subscribes fan fan.topics, .subscribes idler idler.topics, .subscribes audit audit.topics,
    .unsubscribes 1, .unsubscribes 1, .unsubscribes 9, .starts (Envelope.ofOrder.take 1)] ++
  List.replicate 6 (.goes 0) ++ [.works 2, .works 3, .works 2, .works 3, .unsubscribes 3]

/-- The handler that breaks off is still there, and a topic is left only as long as somebody is. -/
theorem agreement_of_turnover :
    ∃ t, Traffic.after? { dispatcher := { registry := .empty } } turnover = some t ∧
      t.Agreement turnover ∧ judgedBy 2 t.log = [(1, .error "handler panicked: boom")] ∧
      t.dispatcher.handlerNames "order.*" = ["fan", "audit"] ∧
      t.dispatcher.transport.subscribers "order.*" =
        [⟨2, "order.*", "fan"⟩, ⟨4, "order.*", "audit"⟩] ∧
      t.dispatcher.handlers.topics = ["order.*"] ∧
      t.dispatcher.transport.directory.topics = ["order.*"] := by
  have htables : (Traffic.after? { dispatcher := { registry := .empty } } turnover).map
      (fun t => (judgedBy 2 t.log, t.dispatcher.transport.subscribers "order.*",
        [t.dispatcher.handlerNames "order.*", t.dispatcher.handlers.topics,
          t.dispatcher.transport.directory.topics])) =
      some ([(1, .error "handler panicked: boom")],
        [⟨2, "order.*", "fan"⟩, ⟨4, "order.*", "audit"⟩],
        [["fan", "audit"], ["order.*"], ["order.*"]]) := by
    decide +kernel
  obtain ⟨t, ht, htables⟩ := Option.map_eq_some_iff.1 htables
  simp only [Prod.mk.injEq, List.cons.injEq, and_true] at htables
  obtain ⟨hjudged, hsubscribers, hnames, htopics⟩ := htables
  exact ⟨t, ht, agreement_of_incidents (by decide) ht, hjudged, hnames, hsubscribers, htopics⟩

end Traffic

end EventJournal
