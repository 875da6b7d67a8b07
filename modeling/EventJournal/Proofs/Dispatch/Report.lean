import EventJournal.Proofs.Dispatch.Assignments
import EventJournal.Proofs.Dispatch.Endings
import EventJournal.Proofs.System.Run

/-!
# Reports of dispatches

What a dispatch comes to depends on the envelopes, the registrations and the handlers, but not on
the order in which the workers take their turns.

* `Dispatcher.Reached`, the dispatchers that come of subscriptions and dispatches, and
  `Dispatcher.Reached.rests`, that they are at rest;
* `DispatchReport`, what is guaranteed of a dispatch.

The main statement is `Dispatching.report_of_course`.
-/

namespace EventJournal

namespace Dispatcher

/-! ### Dispatchers at rest -/

/-- A dispatcher that has come of subscriptions and dispatches, each of which has ended. -/
inductive Reached : Dispatcher → Prop
  | new (registry : Registry) : Reached { registry }
  | subscribe {d d' : Dispatcher} {topic : String} {handler : Handler} {id : Nat}
      (h : Reached d) (made : d.subscribe topic handler = .ok (id, d')) : Reached d'
  | subscribeAll {d : Dispatcher} (h : Reached d) (handler : Handler) (topics : List String) :
      Reached (d.subscribeAll handler topics).2
  | unsubscribe {d : Dispatcher} (h : Reached d) (id : Nat) : Reached (d.unsubscribe id).2
  | dispatch {d d' : Dispatcher} {envelopes : List Envelope} {log : List (Nat × WorkerStep)}
      {result : Except DispatchError Unit} (h : Reached d)
      (course : Dispatching.Course (.starting envelopes, d) log (.done result, d')) : Reached d'
  | release {d : Dispatcher} (h : Reached d) (label : String) (permits : Nat) :
      Reached (d.release label permits).2

variable {d d' : Dispatcher}

theorem rests_new (registry : Registry) : Rests { registry } where
  opened := ⟨rfl, rfl⟩
  mirrors _ := rfl
  distinct := .nil
  known := by simp [registrations]
  inboxes := by simp [registrations]
  inHand := rfl
  fresh _ _ := rfl

/-- The gates have no part in this. -/
theorem Rests.gates (h : d.Rests) (gates : Table String (Gate Nat)) : Rests { d with gates } :=
  ⟨h.opened, h.mirrors, h.distinct, h.known, h.inboxes, h.inHand, h.fresh⟩

/-- A new registration has a number of its own, and nothing waits for it. -/
theorem Rests.subscribe (h : d.Rests) {topic : String} {handler : Handler} {id : Nat}
    (made : d.subscribe topic handler = .ok (id, d')) : d'.Rests := by
  simp only [Dispatcher.subscribe, Transport.subscribe, h.opened, Bool.false_eq_true,
    if_false] at made
  obtain ⟨rfl, rfl⟩ := Prod.mk.inj (Except.ok.inj made)
  let r : Registration := ⟨d.transport.lastId + 1, topic, handler⟩
  have hadd : (d.handlers.add r).inOrder Registration.id = d.registrations ++ [r] :=
    Directory.inOrder_add fun r' hr' => Nat.lt_succ_of_le (h.known r' (Directory.mem_inOrder.2 hr'))
  constructor
  case opened => exact ⟨rfl, rfl⟩
  case mirrors => exact h.mirrors.add r
  case distinct =>
    rw [registrations, hadd, List.map_append, List.nodup_append]
    refine ⟨h.distinct, by simp, fun n hn m hm => ?_⟩
    obtain ⟨r, hr, rfl⟩ := List.mem_map.1 hn
    have hle := h.known r hr
    have hm : m = d.transport.lastId + 1 := by simpa using hm
    omega
  case known =>
    rw [registrations, hadd]
    intro r hr
    rcases List.mem_append.1 hr with hr | hr
    · exact Nat.le_succ_of_le (h.known r hr)
    · obtain rfl := List.mem_singleton.1 hr
      exact Nat.le_refl _
  case inboxes =>
    rw [registrations, hadd]
    intro r hr
    show (d.transport.inboxes.set _ _).get? r.id = some []
    rw [Table.get?_set]
    split
    · rfl
    · next hne =>
      rcases List.mem_append.1 hr with hr | hr
      · exact h.inboxes r hr
      · exact (hne (by rw [List.mem_singleton.1 hr])).elim
  case inHand => exact h.inHand
  case fresh => exact h.fresh

theorem Rests.subscribeAll (h : d.Rests) (handler : Handler) (topics : List String) :
    (d.subscribeAll handler topics).2.Rests := by
  induction topics generalizing d with
  | nil => exact h
  | cons topic rest ih =>
    rw [Dispatcher.subscribeAll]
    split
    · exact h
    · next id d' made =>
      have hrest := ih (h.subscribe made)
      split
      · next heq => rwa [heq] at hrest
      · next heq => rwa [heq] at hrest

/-- The worker of a registration that is removed has nothing to give up. -/
theorem Rests.unsubscribe (h : d.Rests) (id : Nat) : (d.unsubscribe id).2.Rests := by
  have hretain : (d.handlers.retain (·.id ≠ id)).inOrder Registration.id =
      d.registrations.filter (·.id ≠ id) := d.handlers.inOrder_retain ..
  have hkept : ∀ r' ∈ (d.handlers.retain (·.id ≠ id)).inOrder Registration.id,
      r' ∈ d.registrations ∧ r'.id ≠ id := by
    rw [hretain]
    intro r' hr'
    simpa using hr'
  have hdistinct :
      (((d.handlers.retain (·.id ≠ id)).inOrder Registration.id).map Registration.id).Nodup := by
    rw [hretain]
    exact h.distinct.sublist (List.filter_sublist.map _)
  have hmirrors := h.mirrors.retain id
  unfold Dispatcher.unsubscribe
  simp only
  split
  · exact ⟨h.opened, hmirrors, hdistinct, fun r' hr' => h.known r' (hkept r' hr').1,
      fun r' hr' => h.inboxes r' (hkept r' hr').1, h.inHand, h.fresh⟩
  · next r hsome =>
    have hr := List.mem_of_find?_eq_some hsome
    have hid : r.id = id := by simpa using List.find?_some hsome
    subst hid
    have hpending : (d.transport.unsubscribe r.id).2.pending r.id = [] := by
      simp [Transport.pending, Transport.unsubscribe, h.inHand, h.inboxes r hr]
    constructor
    case opened => exact h.opened
    case mirrors => exact hmirrors
    case distinct => exact hdistinct
    case known => exact fun r' hr' => h.known r' (hkept r' hr').1
    case inboxes =>
      intro r' hr'
      show (d.transport.inboxes.erase r.id).get? r'.id = some []
      rw [Table.get?_erase, if_neg (hkept r' hr').2]
      exact h.inboxes r' (hkept r' hr').1
    case inHand =>
      show d.transport.inHand.filter _ = []
      rw [h.inHand, List.filter_nil]
    case fresh =>
      intro ticket hlt
      show Transport.verdict? (Transport.dropReader _ _) ticket = none
      rw [Transport.dropReader, hpending]
      exact h.fresh ticket hlt

/-- A dispatcher that has come of subscriptions and dispatches is at rest. -/
theorem Reached.rests (h : d.Reached) : d.Rests := by
  induction h with
  | new registry => exact rests_new registry
  | subscribe _ made ih => exact ih.subscribe made
  | subscribeAll _ handler topics ih => exact ih.subscribeAll handler topics
  | unsubscribe _ id ih => exact ih.unsubscribe id
  | dispatch _ course ih =>
    obtain ⟨sent, works, stands⟩ := course.stands ih
    exact (works.rests stands.judged).1
  | release _ label permits ih => exact ih.gates _

end Dispatcher

/-! ### Reports -/

/-- What is guaranteed of a dispatch at a dispatcher `d`, wherever it stands, in terms of what the
workers have done in the meantime. -/
structure DispatchReport (d : Dispatcher) (envelopes : List Envelope)
    (log : List (Nat × WorkerStep)) (x : Dispatching) (d' : Dispatcher) : Prop where
  /-- Nobody takes anything but the workers of registrations. -/
  strangers : ∀ id, (∀ r ∈ d.registrations, r.id ≠ id) → tookBy id log = []
  /-- A worker takes the envelopes that are for its registration, each once and in their order. -/
  inOrder : (∀ e ∈ envelopes, e.IsWritable) → ∀ r ∈ d.registrations,
    tookBy r.id log <+: d.inbound r envelopes
  /-- When the dispatch has ended, the worker has taken all of them. -/
  all : (∀ e ∈ envelopes, e.IsWritable) → ∀ result, x = .done result → ∀ r ∈ d.registrations,
    tookBy r.id log = d.inbound r envelopes
  /-- The dispatch succeeds if every envelope was read and handled wherever it was delivered. -/
  succeeds : (∀ e ∈ envelopes, e.IsWritable) → ∀ result, x = .done result →
    (result = .ok () ↔ ∀ p ∈ d.numbered envelopes, d.verdictOn p.2 p.1.1 p.1.2 = .ok ())
  /-- Otherwise it reports the deliveries where that was not so, in the order of assignments. -/
  fails : (∀ e ∈ envelopes, e.IsWritable) → ∀ result, x = .done result → result ≠ .ok () →
    result = .error (.handlerFailures (d.failures envelopes))
  /-- If an envelope cannot be written, nothing is delivered, and the first such is reported. -/
  refused : ∀ before envelope after err, envelopes = before ++ envelope :: after →
    (∀ e ∈ before, e.IsWritable) → envelope.event.payload = .error err →
    (∀ id, tookBy id log = []) ∧ d'.transport.lastTicket = d.transport.lastTicket ∧
      ∀ result, x = .done result → result = .error (.encode envelope.id err)
  /-- The registrations are as they were, however the handlers have fared. -/
  registrations : d'.registry = d.registry ∧ d'.registrations = d.registrations
  /-- After its end, there can be further dispatches. -/
  again : ∀ result, x = .done result → d'.Reached
  /-- The dispatch can be brought to its end. -/
  ends : ∃ new result d'', Dispatching.Course (x, d') new (.done result, d'')

namespace Dispatching

variable {d d' : Dispatcher} {envelopes : List Envelope} {log : List (Nat × WorkerStep)}
  {x : Dispatching} {sent : List (Subscription × Delivery)} {postings : List Posting}
  {result : Except DispatchError Unit}

theorem failures_eq_nil_iff :
    d.failures envelopes = [] ↔
      ∀ p ∈ d.numbered envelopes, d.verdictOn p.2 p.1.1 p.1.2 = .ok () := by
  rw [Dispatcher.failures, List.filterMap_eq_nil_iff]
  refine forall₂_congr fun p hp => ?_
  obtain ⟨⟨envelope, r⟩, ticket⟩ := p
  simp only [Dispatcher.failureOn?]
  split <;> simp_all

/-- The result of a dispatch of envelopes that can be written. -/
theorem Stands.result_eq (h : Stands d envelopes d' sent (.done result))
    (posted : post envelopes = .ok postings) :
    result = report (d.failures envelopes) ∧ sent = (d.plan postings).map Errand.sending := by
  generalize hx : Dispatching.done result = x at h
  cases h with
  | done posted' judged =>
    obtain rfl := Except.ok.inj (posted'.symm.trans posted)
    obtain rfl := Dispatching.done.inj hx
    exact ⟨by rw [Dispatcher.filterMap_failure? posted], rfl⟩
  | refused posted' => simp [posted] at posted'
  | _ => simp at hx

/-- A dispatch of which nothing could be posted has sent nothing. -/
theorem Stands.of_refused {e : DispatchError} (h : Stands d envelopes d' sent x)
    (refused : post envelopes = .error e) :
    sent = [] ∧ ∀ result, x = .done result → result = .error e := by
  cases h with
  | starting => simp
  | refused posted =>
    obtain rfl := Except.error.inj (posted.symm.trans refused)
    simp
  | publishing posted => simp [refused] at posted
  | awaiting posted => simp [refused] at posted
  | done posted => simp [refused] at posted

/-- Nobody takes anything if nothing was sent. -/
theorem tookBy_of_nothing (works : d.Works [] log d') (id : Nat) : tookBy id log = [] := by
  by_cases hid : ∃ r ∈ d.registrations, r.id = id
  · obtain ⟨r, hr, rfl⟩ := hid
    exact List.eq_nil_of_prefix_nil (works.tookBy_isPrefix hr)
  · exact works.strangers id fun r hr heq => hid ⟨r, hr, heq⟩

/-- A dispatch at a dispatcher that has come of subscriptions and dispatches delivers every envelope
to each of its registrations, and reports every failure. -/
theorem report_of_course (reached : d.Reached)
    (course : Course (.starting envelopes, d) log (x, d')) :
    DispatchReport d envelopes log x d' := by
  obtain ⟨sent, works, stands⟩ := course.stands reached.rests
  constructor
  case strangers => exact works.strangers
  case inOrder =>
    intro writable r hr
    obtain ⟨postings, posted⟩ := Dispatcher.exists_post writable
    rw [← Dispatcher.map_toInbox_plan works.before.distinct posted hr]
    exact (works.tookBy_isPrefix hr).trans
      ((((stands.isPrefix posted).filter _).map _).map _)
  case all =>
    rintro writable result rfl r hr
    obtain ⟨postings, posted⟩ := Dispatcher.exists_post writable
    obtain ⟨-, rfl⟩ := stands.result_eq posted
    rw [(works.rests stands.judged).2 r hr]
    exact Dispatcher.map_toInbox_plan works.before.distinct posted hr
  case succeeds =>
    rintro writable result rfl
    obtain ⟨postings, posted⟩ := Dispatcher.exists_post writable
    rw [(stands.result_eq posted).1, report_eq_ok_iff, failures_eq_nil_iff]
  case fails =>
    rintro writable result rfl failed
    obtain ⟨postings, posted⟩ := Dispatcher.exists_post writable
    rw [(stands.result_eq posted).1] at failed ⊢
    exact report_of_ne_ok failed
  case refused =>
    rintro before envelope after err rfl writable herr
    obtain ⟨rfl, hresult⟩ := stands.of_refused (Dispatcher.post_of_unwritable writable herr)
    exact ⟨tookBy_of_nothing works, works.lastTicket, hresult⟩
  case registrations => exact ⟨works.registry, works.registrations⟩
  case again =>
    rintro result rfl
    exact .dispatch reached course
  case ends => exact exists_done works stands

end Dispatching

/-- A dispatcher with a handler of everything, also of orders, and one that refuses new orders. -/
def Dispatcher.overlapping : Dispatcher :=
  let audit : Handler := .scripted "a" "audit" [] { behaviour := .accept }
  let mailer : Handler :=
    .scripted "m" "mailer" [] { behaviour := .refuse, messages := ["bounced"] }
  let d := (Dispatcher.subscribeAll {} audit ["order.*", "*.*"]).2
  (d.subscribeAll mailer ["order.created"]).2

/-- Two envelopes of an order. -/
def Envelope.ofOrder : List Envelope :=
  let envelope (n : Nat) (type : String) : Envelope :=
    let event := Event.raw ⟨type, "o", n, System.blank.clock⟩ ByteArray.empty
    ⟨event, System.blank.newId n, System.blank.clock, deriveMetadata event⟩
  [envelope 1 "order.created", envelope 2 "order.shipped"]

/-- One of the five deliveries of two envelopes fails. -/
theorem Dispatching.report_of_overlapping :
    Dispatcher.overlapping.Reached ∧
      (∀ e ∈ Envelope.ofOrder, e.IsWritable) ∧
      ∃ log result d', Course (.starting Envelope.ofOrder, .overlapping) log (.done result, d') ∧
        DispatchReport .overlapping Envelope.ofOrder log (.done result) d' ∧
        (Dispatcher.overlapping.numbered Envelope.ofOrder).length = 5 ∧
        result = .error (.handlerFailures
          [⟨"mailer", "order.created", "order.created", System.blank.newId 1, "bounced"⟩]) := by
  have reached : Dispatcher.overlapping.Reached :=
    .subscribeAll (.subscribeAll (.new .empty) _ _) _ _
  have writable : ∀ e ∈ Envelope.ofOrder, e.IsWritable := by
    intro e he
    rcases List.mem_pair.1 he with rfl | rfl <;> exact ⟨_, rfl⟩
  obtain ⟨log, result, d', course⟩ := (report_of_course reached .start).ends
  have report := report_of_course reached course
  have hfailures : Dispatcher.overlapping.failures Envelope.ofOrder =
      [⟨"mailer", "order.created", "order.created", System.blank.newId 1, "bounced"⟩] := by
    decide +kernel
  refine ⟨reached, writable, log, result, d', course, report, by decide +kernel, ?_⟩
  rw [← hfailures]
  refine report.fails writable result rfl fun hok => ?_
  have hnone := failures_eq_nil_iff.2 ((report.succeeds writable result rfl).1 hok)
  simp [hfailures] at hnone

end EventJournal
