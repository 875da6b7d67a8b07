import EventJournal.Proofs.Dispatch.Workers

/-!
# Courses of a dispatch

A dispatch publishes its messages and then takes note of the verdicts, one after another, while the
workers and the handlers do what they like in the meantime.

* `Dispatching.Move`, `Dispatching.Course`: what can happen while a dispatch is under way;
* `Dispatching.Step`, what its own steps presuppose and come to, case by case;
* `Errand`, a message on its way to a registration, and `Dispatcher.errands`, those of a dispatch;
* `Dispatching.Stands`, how far a dispatch has come.

The main statement is `Dispatching.Course.stands`.
-/

namespace EventJournal

open Transport (receiptOf)

namespace Dispatching

/-- Something happens while a dispatch is under way: the dispatch goes on, a worker takes a step, or
the handlers of one label are given permits. -/
inductive Move :
    Dispatching × Dispatcher → List (Nat × WorkerStep) → Dispatching × Dispatcher → Prop
  | advance {x : Dispatching} {d : Dispatcher} {advance : Advance} (h : step? d x = some advance) :
      Move (x, d) [] (advance.next, advance.dispatcher)
  | work {x : Dispatching} {d d' : Dispatcher} {id : Nat} {step : WorkerStep}
      (h : d.work? id = some (step, d')) : Move (x, d) [(id, step)] (x, d')
  | release {x : Dispatching} {d : Dispatcher} (label : String) (permits : Nat) :
      Move (x, d) [] (x, (d.release label permits).2)

/-- What has happened so far, with the steps of the workers. -/
inductive Course (start : Dispatching × Dispatcher) :
    List (Nat × WorkerStep) → Dispatching × Dispatcher → Prop
  | start : Course start [] start
  | move {log new : List (Nat × WorkerStep)} {s s' : Dispatching × Dispatcher}
      (h : Course start log s) (move : Move s new s') : Course start (log ++ new) s'

/-- What the next step of a dispatch presupposes and comes to. -/
inductive Step (d : Dispatcher) : Dispatching → Advance → Prop
  | refuses {envelopes : List Envelope} (closed : d.closed = true) :
      Step d (.starting envelopes) ⟨.done (.error .closed), d, none, []⟩
  | unwritable {envelopes : List Envelope} {e : DispatchError} (opened : d.closed = false)
      (failed : post envelopes = .error e) :
      Step d (.starting envelopes) ⟨.done (.error e), d, none, []⟩
  | begins {envelopes : List Envelope} {postings : List Posting} (opened : d.closed = false)
      (posted : post envelopes = .ok postings) :
      Step d (.starting envelopes) ⟨.publishing postings [], d, none, []⟩
  | published {awaited : List Awaited} :
      Step d (.publishing [] awaited) ⟨.awaiting awaited [], d, none, []⟩
  | shut {p : Posting} {rest : List Posting} {awaited : List Awaited} {e : TransportError}
      (refused : d.transport.publish p.topic p.message = .error e) :
      Step d (.publishing (p :: rest) awaited)
        ⟨.done (.error (.transport e)), d, if p.first then some p.eventType else none, []⟩
  | publishes {p : Posting} {rest : List Posting} {awaited : List Awaited}
      {receipts : List Receipt} {transport : Transport}
      (sent : d.transport.publish p.topic p.message = .ok (receipts, transport)) :
      Step d (.publishing (p :: rest) awaited)
        ⟨.publishing rest
            (awaited ++ receipts.map fun receipt => ⟨receipt, p.eventType, p.message.id⟩),
          { d with transport }, if p.first then some p.eventType else none,
          receipts.map Receipt.subscription⟩
  | concludes {failures : List HandlerFailure} :
      Step d (.awaiting [] failures) ⟨.done (conclude failures), d, none, []⟩
  | handled {y : Awaited} {rest : List Awaited} {failures : List HandlerFailure}
      (judged : d.transport.verdict? y.receipt.ticket = some (.ok ())) :
      Step d (.awaiting (y :: rest) failures) ⟨.awaiting rest failures, d, none, []⟩
  | failed {y : Awaited} {rest : List Awaited} {failures : List HandlerFailure} {cause : String}
      (judged : d.transport.verdict? y.receipt.ticket = some (.error cause)) :
      Step d (.awaiting (y :: rest) failures)
        ⟨.awaiting rest (y.failure cause :: failures), d, none, []⟩

theorem step_of_advance {d : Dispatcher} {x : Dispatching} {a : Advance}
    (h : step? d x = some a) : Step d x a := by
  cases x with
  | starting envelopes =>
    simp only [step?] at h
    split at h
    · next closed =>
      obtain rfl := Option.some.inj h
      exact .refuses closed
    · next opened =>
      split at h
      · next failed =>
        obtain rfl := Option.some.inj h
        exact .unwritable (by simpa using opened) failed
      · next posted =>
        obtain rfl := Option.some.inj h
        exact .begins (by simpa using opened) posted
  | publishing rest awaited =>
    cases rest with
    | nil =>
      obtain rfl := Option.some.inj h
      exact .published
    | cons p rest =>
      simp only [step?] at h
      split at h
      · next refused =>
        obtain rfl := Option.some.inj h
        exact .shut refused
      · next sent =>
        obtain rfl := Option.some.inj h
        exact .publishes sent
  | awaiting rest failures =>
    cases rest with
    | nil =>
      obtain rfl := Option.some.inj h
      exact .concludes
    | cons y rest =>
      simp only [step?] at h
      split at h
      · simp at h
      · next judged =>
        obtain rfl := Option.some.inj h
        exact .handled judged
      · next judged =>
        obtain rfl := Option.some.inj h
        exact .failed judged
  | done result => simp [step?] at h

end Dispatching

/-! ### Errands -/

/-- A message on its way to a registration. -/
structure Errand where
  ticket : Nat
  posting : Posting
  registration : Registration

namespace Errand

/-- The delivery of an errand. -/
def delivery (x : Errand) : Delivery := ⟨x.ticket, x.posting.topic, x.posting.message⟩

/-- What is sent over the transport. -/
def sending (x : Errand) : Subscription × Delivery := (x.registration.subscription, x.delivery)

/-- What the dispatch awaits. -/
def awaited (x : Errand) : Awaited :=
  ⟨receiptOf x.sending, x.posting.eventType, x.posting.message.id⟩

end Errand

namespace Dispatcher

/-- The errands of postings: each goes to every registration on its topic, and they are numbered
from `first` on. -/
def errands (d : Dispatcher) (first : Nat) (postings : List Posting) : List Errand :=
  ((postings.flatMap fun p => (d.registered p.topic).map (p, ·)).zipIdx first).map
    fun ((posting, registration), ticket) => ⟨ticket, posting, registration⟩

/-- What is reported of an errand, if its delivery is not handled. -/
def failure? (d : Dispatcher) (x : Errand) : Option HandlerFailure :=
  match d.opinion x.registration x.delivery with
  | .ok () => none
  | .error cause => some (x.awaited.failure cause)

variable {d : Dispatcher} {first : Nat}

theorem errands_append (postings others : List Posting) :
    d.errands first (postings ++ others) =
      d.errands first postings ++ d.errands (first + (d.errands first postings).length) others := by
  simp [errands, List.zipIdx_append]

theorem map_sending_errands (p : Posting) :
    (d.errands first [p]).map Errand.sending = d.sendings p.topic p.message first := by
  simp only [errands, List.flatMap_singleton, List.map_map, sendings, Transport.sendings,
    List.zipIdx_map]
  rfl

theorem map_awaited_errands (p : Posting) :
    (d.errands first [p]).map Errand.awaited =
      ((d.sendings p.topic p.message first).map receiptOf).map
        fun receipt => ⟨receipt, p.eventType, p.message.id⟩ := by
  rw [← map_sending_errands, List.map_map, List.map_map]
  refine List.map_congr_left fun x hx => ?_
  obtain ⟨⟨⟨posting, r⟩, n⟩, hmem, rfl⟩ := List.mem_map.1 hx
  have hposting : (posting, r) ∈ (d.registered p.topic).map (p, ·) := by
    simpa using List.fst_mem_of_mem_zipIdx hmem
  obtain ⟨r', -, heq⟩ := List.mem_map.1 hposting
  obtain ⟨rfl, rfl⟩ := Prod.mk.inj heq
  rfl

theorem mem_registrations_of_errand {postings : List Posting} {x : Errand}
    (hx : x ∈ d.errands first postings) : x.registration ∈ d.registrations := by
  obtain ⟨⟨⟨posting, r⟩, n⟩, hmem, rfl⟩ := List.mem_map.1 hx
  obtain ⟨p, hp, hr⟩ := List.mem_flatMap.1 (List.fst_mem_of_mem_zipIdx hmem)
  obtain ⟨r', hr', heq⟩ := List.mem_map.1 hr
  obtain ⟨rfl, rfl⟩ := Prod.mk.inj heq
  exact (mem_registered.1 hr').1

/-- The errands of a dispatch, numbered from the next ticket on. -/
def plan (d : Dispatcher) (postings : List Posting) : List Errand :=
  d.errands (d.transport.lastTicket + 1) postings

end Dispatcher

namespace Dispatching

/-- The result of a dispatch with some failures. -/
def report : List HandlerFailure → Except DispatchError Unit
  | [] => .ok ()
  | failures => .error (.handlerFailures failures)

theorem report_eq_ok_iff {failures : List HandlerFailure} :
    report failures = .ok () ↔ failures = [] := by
  cases failures <;> simp [report]

theorem report_of_ne_ok {failures : List HandlerFailure} (h : report failures ≠ .ok ()) :
    report failures = .error (.handlerFailures failures) := by
  cases failures with
  | nil => exact (h rfl).elim
  | cons failure rest => rfl

/-- How far a dispatch has come: what it has sent, and which of the verdicts it has taken note
of. -/
inductive Stands (d₀ : Dispatcher) (envelopes : List Envelope) (d : Dispatcher) :
    List (Subscription × Delivery) → Dispatching → Prop
  | starting : Stands d₀ envelopes d [] (.starting envelopes)
  | publishing {published rest : List Posting} (posted : post envelopes = .ok (published ++ rest)) :
      Stands d₀ envelopes d ((d₀.plan published).map Errand.sending)
        (.publishing rest ((d₀.plan published).map Errand.awaited))
  | awaiting {postings : List Posting} {noted rest : List Errand}
      {failures : List HandlerFailure} (posted : post envelopes = .ok postings)
      (plan : d₀.plan postings = noted ++ rest)
      (judged : ∀ x ∈ noted, d.transport.verdict? x.ticket ≠ none)
      (failures_eq : failures.reverse = noted.filterMap d₀.failure?) :
      Stands d₀ envelopes d ((d₀.plan postings).map Errand.sending)
        (.awaiting (rest.map Errand.awaited) failures)
  | done {postings : List Posting} (posted : post envelopes = .ok postings)
      (judged : ∀ x ∈ d₀.plan postings, d.transport.verdict? x.ticket ≠ none) :
      Stands d₀ envelopes d ((d₀.plan postings).map Errand.sending)
        (.done (report ((d₀.plan postings).filterMap d₀.failure?)))
  | refused {e : DispatchError} (posted : post envelopes = .error e) :
      Stands d₀ envelopes d [] (.done (.error e))

variable {d₀ d d' : Dispatcher} {envelopes : List Envelope} {x : Dispatching}
  {sent : List (Subscription × Delivery)} {log : List (Nat × WorkerStep)} {a : Advance}

/-- A dispatch stands where it is as long as no verdict is lost. -/
theorem Stands.mono (h : Stands d₀ envelopes d sent x)
    (kept : ∀ ticket, d.transport.verdict? ticket ≠ none → d'.transport.verdict? ticket ≠ none) :
    Stands d₀ envelopes d' sent x := by
  cases h with
  | starting => exact .starting
  | publishing posted => exact .publishing posted
  | awaiting posted plan judged failures_eq =>
    exact .awaiting posted plan (fun x hx => kept _ (judged x hx)) failures_eq
  | done posted judged => exact .done posted fun x hx => kept _ (judged x hx)
  | refused posted => exact .refused posted

theorem conclude_eq (failures : List HandlerFailure) :
    conclude failures = report failures.reverse := by
  unfold conclude report
  cases failures.reverse <;> rfl

/-- The errands of further postings. -/
theorem plan_append (postings others : List Posting) :
    d₀.plan (postings ++ others) = d₀.plan postings ++
      d₀.errands (d₀.transport.lastTicket + 1 + (d₀.plan postings).length) others :=
  Dispatcher.errands_append postings others

/-- The dispatch publishes a posting. -/
theorem advance_of_publishing {published rest : List Posting} {p : Posting}
    (works : d₀.Works ((d₀.plan published).map Errand.sending) log d)
    (posted : post envelopes = .ok (published ++ p :: rest))
    (hadvance : step? d (.publishing (p :: rest) ((d₀.plan published).map Errand.awaited)) =
      some a) :
    ∃ sent', d₀.Works sent' log a.dispatcher ∧
      Stands d₀ envelopes a.dispatcher sent' a.next := by
  obtain ⟨t, hpublish, works'⟩ := works.publish p.topic p.message
  simp only [step?, hpublish] at hadvance
  obtain rfl := Option.some.inj hadvance
  -- the tickets go on from those of the errands so far
  have hticket : d.transport.lastTicket + 1 =
      d₀.transport.lastTicket + 1 + (d₀.plan published).length := by
    rw [works.lastTicket, List.length_map, Nat.add_right_comm]
  rw [List.append_cons] at posted
  rw [hticket, ← Dispatcher.map_sending_errands, ← List.map_append, ← plan_append] at works'
  refine ⟨_, works', ?_⟩
  rw [hticket, ← Dispatcher.map_awaited_errands, ← List.map_append, ← plan_append]
  exact .publishing posted

/-- The dispatch takes note of a verdict. -/
theorem advance_of_awaiting {postings : List Posting} {noted rest : List Errand} {y : Errand}
    {failures : List HandlerFailure}
    (works : d₀.Works ((d₀.plan postings).map Errand.sending) log d)
    (posted : post envelopes = .ok postings) (plan : d₀.plan postings = noted ++ y :: rest)
    (judged : ∀ x ∈ noted, d.transport.verdict? x.ticket ≠ none)
    (failures_eq : failures.reverse = noted.filterMap d₀.failure?)
    (hadvance : step? d (.awaiting ((y :: rest).map Errand.awaited) failures) = some a) :
    ∃ sent', d₀.Works sent' log a.dispatcher ∧
      Stands d₀ envelopes a.dispatcher sent' a.next := by
  have hy : y ∈ d₀.plan postings := by simp [plan]
  rw [List.append_cons] at plan
  -- whenever the verdict was given, it is what the handler makes of the delivery
  have hopinion : ∀ {verdict}, d.transport.verdict? y.ticket = some verdict →
      verdict = d₀.opinion y.registration y.delivery := fun hverdict =>
    works.verdict?_eq (Dispatcher.mem_registrations_of_errand hy) (List.mem_map_of_mem hy)
      hverdict
  have hnoted : ∀ {verdict}, d.transport.verdict? y.ticket = some verdict →
      ∀ x ∈ noted ++ [y], d.transport.verdict? x.ticket ≠ none := by
    intro verdict hverdict
    exact List.forall_mem_append.2 ⟨judged, List.forall_mem_singleton.2 (by simp [hverdict])⟩
  simp only [List.map_cons, step?] at hadvance
  split at hadvance
  · simp at hadvance
  · next hverdict =>
    obtain rfl := Option.some.inj hadvance
    have hnone : d₀.failure? y = none := by simp [Dispatcher.failure?, ← hopinion hverdict]
    refine ⟨_, works, .awaiting posted plan (hnoted hverdict) ?_⟩
    rw [List.filterMap_append, failures_eq]
    simp [hnone]
  · next cause hverdict =>
    obtain rfl := Option.some.inj hadvance
    have hsome : d₀.failure? y = some (y.awaited.failure cause) := by
      simp [Dispatcher.failure?, ← hopinion hverdict]
    refine ⟨_, works, .awaiting posted plan (hnoted hverdict) ?_⟩
    rw [List.filterMap_append, List.reverse_cons, failures_eq]
    simp [hsome]

/-- A step of the dispatch itself. -/
theorem Stands.advance (h : Stands d₀ envelopes d sent x) (works : d₀.Works sent log d)
    (hadvance : step? d x = some a) :
    ∃ sent', d₀.Works sent' log a.dispatcher ∧
      Stands d₀ envelopes a.dispatcher sent' a.next := by
  cases h with
  | starting =>
    simp only [step?, works.opened.1, Bool.false_eq_true, if_false] at hadvance
    split at hadvance
    · next e hpost =>
      obtain rfl := Option.some.inj hadvance
      exact ⟨[], works, .refused hpost⟩
    · next postings hpost =>
      obtain rfl := Option.some.inj hadvance
      exact ⟨[], works, @Stands.publishing d₀ envelopes d [] postings hpost⟩
  | @publishing published rest posted =>
    cases rest with
    | nil =>
      obtain rfl := Option.some.inj hadvance
      rw [List.append_nil] at posted
      exact ⟨_, works, @Stands.awaiting d₀ envelopes d published [] _ [] posted rfl (by simp) rfl⟩
    | cons p rest => exact advance_of_publishing works posted hadvance
  | @awaiting postings noted rest failures posted plan judged failures_eq =>
    cases rest with
    | nil =>
      obtain rfl := Option.some.inj hadvance
      rw [List.append_nil] at plan
      refine ⟨_, works, ?_⟩
      rw [conclude_eq, failures_eq, ← plan]
      exact .done posted (plan ▸ judged)
    | cons y rest => exact advance_of_awaiting works posted plan judged failures_eq hadvance
  | done posted judged => simp [step?] at hadvance
  | refused posted => simp [step?] at hadvance

/-- A verdict that has been given is not taken back by the step of a worker. -/
theorem verdict?_of_work {id : Nat} {step : WorkerStep} (hwork : d.work? id = some (step, d'))
    (ticket : Nat) (h : d.transport.verdict? ticket ≠ none) :
    d'.transport.verdict? ticket ≠ none := by
  obtain ⟨r, -, -, does⟩ := Dispatcher.work?_cases hwork
  cases does with
  | took hand inbox => exact h
  | asked hand gates => exact h
  | @judged x hand gates =>
    show (d.transport.settle x.ticket _).verdict? ticket ≠ none
    unfold Transport.settle
    split
    · rw [Transport.verdict?, Table.get?_push]
      split
      · simp
      · exact h
    · exact h

/-- A dispatch has sent the first of its errands. -/
theorem Stands.isPrefix {postings : List Posting} (h : Stands d₀ envelopes d sent x)
    (posted : post envelopes = .ok postings) : sent <+: (d₀.plan postings).map Errand.sending := by
  cases h with
  | starting => exact List.nil_prefix
  | publishing posted' =>
    obtain rfl := Except.ok.inj (posted'.symm.trans posted)
    rw [plan_append, List.map_append]
    exact List.prefix_append ..
  | awaiting posted' | done posted' =>
    obtain rfl := Except.ok.inj (posted'.symm.trans posted)
    exact List.prefix_refl _
  | refused posted' => simp [posted] at posted'

/-- When a dispatch has ended, everything that it has sent is judged. -/
theorem Stands.judged {result : Except DispatchError Unit}
    (h : Stands d₀ envelopes d sent (.done result)) :
    ∀ p ∈ sent, d.transport.verdict? p.2.ticket ≠ none := by
  generalize hx : Dispatching.done result = x at h
  cases h with
  | done posted judged =>
    intro p hp
    obtain ⟨y, hy, rfl⟩ := List.mem_map.1 hp
    exact judged y hy
  | refused posted => simp
  | _ => simp at hx

/-- Wherever a dispatch stands, it stands somewhere afterwards, whatever happens. -/
theorem Course.keeps {s s' : Dispatching × Dispatcher} {new : List (Nat × WorkerStep)}
    (course : Course s new s') (works : d₀.Works sent log s.2)
    (stands : Stands d₀ envelopes s.2 sent s.1) :
    ∃ sent', d₀.Works sent' (log ++ new) s'.2 ∧ Stands d₀ envelopes s'.2 sent' s'.1 := by
  induction course with
  | start => exact ⟨sent, by rwa [List.append_nil], stands⟩
  | move _ move ih =>
    obtain ⟨sent', works', stands'⟩ := ih
    cases move with
    | advance hadvance =>
      rw [List.append_nil]
      exact stands'.advance works' hadvance
    | work hwork =>
      rw [← List.append_assoc]
      exact ⟨sent', works'.work hwork, stands'.mono (verdict?_of_work hwork)⟩
    | release label permits =>
      rw [List.append_nil]
      exact ⟨sent', works'.gates _, stands'.mono fun _ => id⟩

/-- A dispatch at a dispatcher at rest stands somewhere, whatever happens. -/
theorem Course.stands {s : Dispatching × Dispatcher} (rests : d₀.Rests)
    (course : Course (.starting envelopes, d₀) log s) :
    ∃ sent, d₀.Works sent log s.2 ∧ Stands d₀ envelopes s.2 sent s.1 :=
  course.keeps (.of_rests rests) .starting

end Dispatching

end EventJournal
