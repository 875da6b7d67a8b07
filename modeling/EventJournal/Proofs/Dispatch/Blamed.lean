import EventJournal.Proofs.Dispatch.Accounts

/-!
# Who is blamed

A handler fails in the step of a worker, while the dispatch that sent the delivery finds out later.
At any time the handlers that have failed are those of the errands with a failure for a verdict, one
for each errand.

* `WorkerStep.blamed?`, the handler that fails in the step of a worker;
* `Dispatcher.failing`, the handlers of the errands with a failure for a verdict;
* `Dispatching.verdicts_of_step`, that dispatches give no verdicts.

The main statements are `Busy.failing_dispatch` and `Busy.perm_failing_work`: a dispatch adds no
such handler, and a worker the one that it blames.
-/

namespace EventJournal

/-- The handler that has failed in the step of a worker. -/
def WorkerStep.blamed? : WorkerStep → Option String
  | .judged _ handler (.error _) => some handler
  | _ => none

/-- The handlers of the errands with a failure for a verdict. -/
def Dispatcher.failing (d : Dispatcher) (sent : List Errand) : List String :=
  (sent.filterMap d.blames?).map HandlerFailure.handler

namespace Dispatching

variable {d : Dispatcher} {x : Dispatching} {a : Advance}

/-- The step of a dispatch leaves the dispatcher alone, unless it publishes something. -/
theorem dispatcher_of_step (h : x.step? d = some a) :
    a.dispatcher = d ∨ ∃ p rest awaited receipts t, x = .publishing (p :: rest) awaited ∧
      d.transport.publish p.topic p.message = .ok (receipts, t) ∧
      a.dispatcher = { d with transport := t } := by
  cases x with
  | starting envelopes =>
    simp only [step?] at h
    split at h
    · obtain rfl := Option.some.inj h
      exact .inl rfl
    · split at h
      · obtain rfl := Option.some.inj h
        exact .inl rfl
      · obtain rfl := Option.some.inj h
        exact .inl rfl
  | publishing rest awaited =>
    cases rest with
    | nil =>
      obtain rfl := Option.some.inj h
      exact .inl rfl
    | cons p rest =>
      simp only [step?] at h
      split at h
      · obtain rfl := Option.some.inj h
        exact .inl rfl
      · next receipts t hpublish =>
        obtain rfl := Option.some.inj h
        exact .inr ⟨p, rest, awaited, receipts, t, rfl, hpublish, rfl⟩
  | awaiting rest failures =>
    cases rest with
    | nil =>
      obtain rfl := Option.some.inj h
      exact .inl rfl
    | cons y rest =>
      simp only [step?] at h
      split at h
      · simp at h
      · obtain rfl := Option.some.inj h
        exact .inl rfl
      · obtain rfl := Option.some.inj h
        exact .inl rfl
  | done result => simp [step?] at h

/-- A dispatch does not close the dispatcher. -/
theorem closed_of_step (h : x.step? d = some a) : a.dispatcher.closed = d.closed := by
  rcases dispatcher_of_step h with heq | ⟨p, rest, awaited, receipts, t, -, -, heq⟩
  · rw [heq]
  · rw [heq]

end Dispatching

namespace Dispatcher

variable {base d d' : Dispatcher} {made : List Registration} {sent : List Errand}
  {log : List (Nat × WorkerStep)} {x : Dispatching} {a : Dispatching.Advance} {id : Nat}
  {step : WorkerStep}

theorem blames?_congr {y : Errand}
    (h : d'.transport.verdict? y.ticket = d.transport.verdict? y.ticket) :
    d'.blames? y = d.blames? y := by
  rw [blames?, blames?, h]

theorem blames?_of_unjudged {y : Errand} (h : d.transport.verdict? y.ticket = none) :
    d.blames? y = none := by
  rw [blames?, h]

theorem failing_append (d : Dispatcher) (sent others : List Errand) :
    d.failing (sent ++ others) = d.failing sent ++ d.failing others := by
  simp [failing]

theorem failing_cons (d : Dispatcher) (y : Errand) (sent : List Errand) :
    d.failing (y :: sent) = d.failing [y] ++ d.failing sent :=
  failing_append d [y] sent

theorem failing_congr
    (h : ∀ y ∈ sent, d'.transport.verdict? y.ticket = d.transport.verdict? y.ticket) :
    d'.failing sent = d.failing sent := by
  rw [failing, failing, List.filterMap_congr fun y hy => blames?_congr (h y hy)]

theorem failing_of_unjudged (h : ∀ y ∈ sent, d.transport.verdict? y.ticket = none) :
    d.failing sent = [] := by
  rw [failing, List.filterMap_eq_nil_iff.2 fun y hy => blames?_of_unjudged (h y hy), List.map_nil]

/-- Once an errand is judged its handler is blamed if the verdict is a failure, and others are as
before. -/
theorem perm_failing_of_judged {before after : List Errand} {y : Errand}
    {verdict : Except String Unit} (unjudged : d.transport.verdict? y.ticket = none)
    (now : d'.transport.verdict? y.ticket = some verdict)
    (others : ∀ z ∈ before ++ after, d'.transport.verdict? z.ticket =
      d.transport.verdict? z.ticket) :
    (d'.failing (before ++ y :: after)).Perm (d.failing (before ++ y :: after) ++
      (WorkerStep.judged y.ticket y.registration.handler.name verdict).blamed?.toList) := by
  obtain ⟨hbefore, hafter⟩ := List.forall_mem_append.1 others
  have hnow : d'.failing [y] =
      (WorkerStep.judged y.ticket y.registration.handler.name verdict).blamed?.toList := by
    cases verdict with
    | ok => simp [failing, blames?, now, WorkerStep.blamed?]
    | error cause =>
      simp [failing, blames?, now, WorkerStep.blamed?]
      rfl
  have hbefore' : d.failing [y] = [] := failing_of_unjudged (by simpa using unjudged)
  rw [failing_append, failing_cons, failing_congr hbefore, failing_congr hafter, hnow,
    failing_append, failing_cons, hbefore', List.nil_append, List.append_assoc]
  exact .append_left _ List.perm_append_comm

/-- Errands are given tickets that nobody has had. -/
theorem lt_ticket_of_mem_sends {y : Errand} (hy : y ∈ d.sends x) :
    d.transport.lastTicket < y.ticket := by
  unfold sends at hy
  split at hy
  · split at hy
    · simp at hy
    · obtain ⟨⟨pair, ticket⟩, hmem, rfl⟩ := List.mem_map.1 hy
      exact List.le_snd_of_mem_zipIdx hmem
  · simp at hy

namespace Busy

/-- A dispatch that takes a step gives no verdicts. -/
theorem verdict?_dispatch (h : base.Busy made sent log d) (hstep : x.step? d = some a)
    (ticket : Nat) : a.dispatcher.transport.verdict? ticket = d.transport.verdict? ticket := by
  rcases Dispatching.dispatcher_of_step hstep with
    heq | ⟨p, rest, awaited, receipts, t, rfl, hpublish, heq⟩
  · rw [heq]
  · rw [heq]
    cases hclosed : d.transport.closed with
    | true => simp [Transport.publish_of_closed hclosed] at hpublish
    | false =>
      obtain ⟨t', hpublish', ⟨-, -, -, hverdicts⟩, -⟩ :=
        h.flows.publish hclosed p (h.mirrors hclosed p.topic)
      obtain ⟨-, rfl⟩ := Prod.mk.inj (Except.ok.inj (hpublish.symm.trans hpublish'))
      rw [Transport.verdict?, Transport.verdict?, hverdicts]

/-- A dispatch that takes a step blames nobody. -/
theorem failing_dispatch (h : base.Busy made sent log d) (hstep : x.step? d = some a) :
    a.dispatcher.failing (sent ++ d.sends x) = d.failing sent := by
  have hnew : ∀ y ∈ d.sends x, a.dispatcher.transport.verdict? y.ticket = none := by
    intro y hy
    rw [h.verdict?_dispatch hstep]
    exact h.flows.fresh y.ticket (lt_ticket_of_mem_sends hy)
  rw [failing_append, failing_of_unjudged hnew, List.append_nil]
  exact failing_congr fun y _ => h.verdict?_dispatch hstep y.ticket

/-- What the worker of a registration holds has been sent to it, and has no verdict. -/
theorem exists_errand (h : base.Busy made sent log d) {r : Registration} {delivery : Delivery}
    (hr : r ∈ d.registrations) (hand : d.transport.heldBy? r.id = some delivery) :
    (∃ before e after, sent = before ++ e :: after ∧ e.registration = r ∧ e.delivery = delivery) ∧
      (r.id, delivery) ∈ d.transport.inHand ∧ d.transport.verdict? delivery.ticket = none := by
  obtain ⟨judged, held, waiting, progress, lane⟩ := h.flows.lane_of_alive hr
  obtain rfl := lane.heldBy?_eq.symm.trans hand
  have hmem : delivery ∈ Errand.towards r.id sent := by simp [progress.sent]
  obtain ⟨e, he, hid, hdelivery⟩ := Errand.mem_towards.1 hmem
  obtain ⟨before, after, hsent⟩ := List.append_of_mem he
  have hregistration : e.registration = r :=
    h.flows.eq_of_id (h.flows.addressees e he) (h.flows.sublist.subset hr) hid
  exact ⟨⟨before, e, after, hsent, hregistration, hdelivery⟩, lane.mem_inHand,
    lane.unjudged delivery (by simp)⟩

/-- A worker that takes a step blames the handler of the errand that it judges, if that is a
failure. -/
theorem perm_failing_work (h : base.Busy made sent log d) (hwork : d.work? id = some (step, d')) :
    (d'.failing sent).Perm (d.failing sent ++ step.blamed?.toList) := by
  have hkeep : (∀ ticket, d'.transport.verdict? ticket = d.transport.verdict? ticket) →
      step.blamed? = none → (d'.failing sent).Perm (d.failing sent ++ step.blamed?.toList) := by
    intro hsame hnone
    rw [failing_congr fun y _ => hsame y.ticket, hnone, Option.toList_none, List.append_nil]
  obtain ⟨r, hr, rfl, does⟩ := work?_cases hwork
  cases does with
  | took hand inbox => exact hkeep (fun _ => rfl) rfl
  | asked hand gates => exact hkeep (fun _ => rfl) rfl
  | @judged delivery hand gates =>
    obtain ⟨⟨before, e, after, rfl, rfl, rfl⟩, hheld, hnone⟩ := h.exists_errand hr hand
    have hverdict : ∀ ticket, (d.transport.settle e.ticket
        (d.opinion e.registration e.delivery)).verdict? ticket =
          if ticket = e.ticket then some (d.opinion e.registration e.delivery)
          else d.transport.verdict? ticket := by
      intro ticket
      have hsettle := Transport.settle_of_mem hheld (d.opinion e.registration e.delivery)
      rw [show e.delivery.ticket = e.ticket from rfl] at hsettle
      rw [hsettle, Transport.verdict?, Table.get?_push]
      rfl
    -- no other errand has its ticket
    have hnodup := h.flows.nodup_tickets
    rw [List.map_append, List.map_cons, List.nodup_middle, List.nodup_cons, ← List.map_append]
      at hnodup
    have hother : ∀ y ∈ before ++ after, y.ticket ≠ e.ticket := by
      intro y hy heq
      exact hnodup.1 (heq ▸ List.mem_map_of_mem hy)
    have hkept : ∀ y ∈ before ++ after, (d.transport.settle e.ticket
        (d.opinion e.registration e.delivery)).verdict? y.ticket =
          d.transport.verdict? y.ticket := by
      intro y hy
      rw [hverdict, if_neg (hother y hy)]
    exact perm_failing_of_judged hnone ((hverdict e.ticket).trans (if_pos rfl)) hkept

end Busy

end Dispatcher

end EventJournal
