import EventJournal.Proofs.Dispatch.Accounts
import EventJournal.Proofs.Dispatch.Report

/-!
# Interleaved dispatches

Any number of dispatches go on at one dispatcher, each by its own steps. In between, registrations
are made and removed, workers take deliveries and judge them, and the dispatcher is closed, at once
or step by step. What a dispatch reports in the end is what has become of its own deliveries.

* `Traffic`, the dispatches at a dispatcher with what has happened so far, `Incident`, what can
  happen next, and `Traffic.after?`;
* `Errand.Handled`, `Errand.failureIn`: how a delivery has ended, by what the workers have done;
* `Traffic.Truthful`, what is guaranteed of a dispatch that has ended, and `Traffic.Report`, what is
  guaranteed of all together;
* `Traffic.Sound`, what every incident preserves.

The main statement is `Traffic.report_of_incidents`.
-/

namespace EventJournal

open Dispatching (post postings report)

/-- A dispatcher with what has happened there: the dispatches with their accounts and where they
stand, the first to start in front, all that was sent, and what the workers have done. -/
structure Traffic where
  dispatcher : Dispatcher
  calls : List (Account × Dispatching) := []
  sent : List Errand := []
  log : List (Nat × WorkerStep) := []

/-- What can happen at a dispatcher. -/
inductive Incident
  | starts (envelopes : List Envelope)
  /-- The dispatch at a place takes its next step. -/
  | goes (place : Nat)
  | works (id : Nat)
  | subscribes (handler : Handler) (topics : List String)
  | unsubscribes (id : Nat)
  | closes
  /-- Closing begins: the dispatcher starts nothing new. -/
  | bars
  /-- Closing goes on: the transport is closed. -/
  | shuts
  /-- Closing goes on: one more worker is stopped. -/
  | stops (id : Nat)
  | releases (label : String) (permits : Nat)

namespace Traffic

/-- The dispatcher has changed, and workers have taken steps. -/
def turn (t : Traffic) (dispatcher : Dispatcher) (steps : List (Nat × WorkerStep)) : Traffic :=
  { t with dispatcher, log := t.log ++ steps }

/-- What has happened after one more incident; none if it cannot happen now. -/
def perform? (t : Traffic) : Incident → Option Traffic
  | .starts envelopes =>
    some { t with
      calls := t.calls ++ [({ start := t.dispatcher, envelopes }, .starting envelopes)] }
  | .goes place =>
    match t.calls[place]? with
    | none => none
    | some (account, x) =>
      match x.step? t.dispatcher with
      | none => none
      | some a =>
        some { t with
          dispatcher := a.dispatcher
          calls := t.calls.set place (account.add (t.dispatcher.sends x), a.next)
          sent := t.sent ++ t.dispatcher.sends x }
  | .works id =>
    match t.dispatcher.work? id with
    | none => none
    | some (step, d) => some (t.turn d [(id, step)])
  | .subscribes handler topics => some (t.turn (t.dispatcher.subscribeAll handler topics).2 [])
  | .unsubscribes id => some (t.turn (t.dispatcher.unsubscribe id).2 [])
  | .closes => some (t.turn t.dispatcher.close [])
  | .bars => some (t.turn { t.dispatcher with closed := true } [])
  | .shuts =>
    if t.dispatcher.closed then
      some (t.turn { t.dispatcher with transport := t.dispatcher.transport.close } [])
    else none
  | .stops id =>
    match t.dispatcher.registrations.find? (·.id = id) with
    | none => none
    | some r =>
      if t.dispatcher.transport.closed then
        let handlers := t.dispatcher.handlers.retain (·.id ≠ r.id)
        some (t.turn ({ t.dispatcher with handlers }.stop r) [])
      else none
  | .releases label permits => some (t.turn (t.dispatcher.release label permits).2 [])

/-- What has happened after some incidents; none if one of them could not happen. -/
def after? (t : Traffic) : List Incident → Option Traffic
  | [] => some t
  | incident :: rest =>
    match t.perform? incident with
    | none => none
    | some t => t.after? rest

end Traffic

namespace Errand

/-- The handler was called with what could be read of an errand, it ended well, and its worker has
said so. -/
structure Handled (d : Dispatcher) (log : List (Nat × WorkerStep)) (x : Errand) : Prop where
  judged : x.verdictIn log = some (.ok ())
  called : ∃ envelope, d.envelope? x.delivery = .ok envelope ∧
    some envelope ∈ tookBy x.registration.id log ∧
    (x.registration.handler.react x.ticket envelope).outcome = .handled

/-- What is to be reported of an errand, if it has failed. One that nobody has judged was
abandoned. -/
def failureIn (log : List (Nat × WorkerStep)) (x : Errand) : Option HandlerFailure :=
  match (x.verdictIn log).getD abandoned with
  | .ok () => none
  | .error cause => some (x.awaited.failure cause)

end Errand

namespace Traffic

/-- What is guaranteed of a dispatch that has ended. -/
structure Truthful (t : Traffic) (account : Account) (result : Except DispatchError Unit) :
    Prop where
  /-- What it has published is among all that was published, in the same order. -/
  own : account.own.Sublist t.sent
  /-- It succeeds only if everything that it has published was handled. -/
  handled : result = .ok () → ∀ x ∈ account.own, x.Handled t.dispatcher t.log
  /-- Then everybody who was registered all the time has handled each envelope on their topic, once
  and in the order of the envelopes. -/
  reached : result = .ok () → ∀ r ∈ account.start.registrations,
    r ∈ t.dispatcher.registrations →
    ∃ mine, mine = account.own.filter (·.registration.id = r.id) ∧
      List.Forall₂ (fun x envelope => x.registration = r ∧ x.posting.IsOf envelope) mine
        (account.envelopes.filter (r.topic ∈ EventType.topics ·.event.eventType)) ∧
      (judgedBy r.id t.log).filter (·.1 ∈ mine.map Errand.ticket) =
        mine.map fun x => (x.ticket, .ok ())
  /-- If it reports failures, these are its own deliveries that have failed or were abandoned. The
  latter were for registrations that are no more. -/
  failed : ∀ failures, result = .error (.handlerFailures failures) →
    failures ≠ [] ∧ failures = account.own.filterMap (·.failureIn t.log) ∧
      ∀ x ∈ account.own, x.verdictIn t.log = none → x.registration ∉ t.dispatcher.registrations

/-- What is guaranteed of all that has happened at a dispatcher. -/
structure Report (t : Traffic) : Prop where
  truthful : ∀ account result, (account, .done result) ∈ t.calls → t.Truthful account result
  /-- Every delivery is that of one dispatch, and no two have the same ticket. -/
  owned : t.sent.Perm (t.calls.flatMap (·.1.own)) ∧ (t.sent.map Errand.ticket).Nodup
  /-- Every worker takes deliveries in the order in which they were published for it. -/
  took : ∀ id, tookBy id t.log <+:
    (Errand.towards id t.sent).map fun x => (t.dispatcher.envelope? x).toOption
  /-- It judges them in that order, as its handler does. -/
  judged : ∀ id, judgedBy id t.log <+: (t.sent.filter (·.registration.id = id)).map
    fun x => (x.ticket, t.dispatcher.opinion x.registration x.delivery)

end Traffic

/-! ### Invariants -/

theorem filter_mem_map_of_sublist {α β : Type} [DecidableEq β] {f : α → β} {l l' : List α}
    (h : l.Sublist l') (distinct : (l'.map f).Nodup) : l'.filter (f · ∈ l.map f) = l := by
  induction h with
  | slnil => rfl
  | @cons l l' a h ih =>
    obtain ⟨hnot, hrest⟩ := List.nodup_cons.1 distinct
    rw [List.filter_cons_of_neg, ih hrest]
    simp only [decide_eq_true_eq]
    exact fun hmem => hnot ((h.map f).subset hmem)
  | @cons_cons l l' a h ih =>
    obtain ⟨hnot, hrest⟩ := List.nodup_cons.1 distinct
    rw [List.filter_cons_of_pos (by simp)]
    refine congrArg (a :: ·) (Eq.trans (List.filter_congr fun b hb => ?_) (ih hrest))
    have hne : f b ≠ f a := fun heq => hnot (heq ▸ List.mem_map_of_mem hb)
    simp [hne]

namespace Traffic

/-- What every incident preserves: the deliveries are in their lines, each dispatch stands
somewhere, and whatever was sent was sent by one of them. -/
structure Sound (base : Dispatcher) (t : Traffic) : Prop where
  busy : ∃ made, base.Busy made t.sent t.log t.dispatcher
  stand : ∀ call ∈ t.calls, call.1.Reaches t.dispatcher call.2 ∧ call.1.own.Sublist t.sent ∧
    ∀ r ∈ call.1.start.registrations, r.id ≤ t.dispatcher.transport.lastId
  owned : t.sent.Perm (t.calls.flatMap (·.1.own))

namespace Sound

variable {base : Dispatcher} {t t' : Traffic}

theorem new (registry : Registry) : Sound { registry } { dispatcher := { registry } } :=
  ⟨⟨[], .new registry⟩, by simp, .nil⟩

theorem starts (sound : Sound base t) (envelopes : List Envelope) :
    Sound base { t with
      calls := t.calls ++ [({ start := t.dispatcher, envelopes }, .starting envelopes)] } := by
  obtain ⟨made, busy⟩ := sound.busy
  refine ⟨sound.busy, List.forall_mem_append.2 ⟨sound.stand, List.forall_mem_singleton.2 ?_⟩, ?_⟩
  · exact ⟨.starting rfl, List.nil_sublist _, fun r => busy.known⟩
  · simpa using sound.owned

theorem goes (sound : Sound base t) {place : Nat} {account : Account} {x : Dispatching}
    {a : Dispatching.Advance} (get : t.calls[place]? = some (account, x))
    (step : x.step? t.dispatcher = some a) :
    Sound base { t with
      dispatcher := a.dispatcher
      calls := t.calls.set place (account.add (t.dispatcher.sends x), a.next)
      sent := t.sent ++ t.dispatcher.sends x } := by
  obtain ⟨made, busy⟩ := sound.busy
  obtain ⟨busy', later⟩ := busy.dispatch step
  obtain ⟨hlt, hget⟩ := List.getElem?_eq_some_iff.1 get
  refine ⟨⟨made, busy'⟩, fun call hcall => ?_, ?_⟩
  · rcases List.mem_or_eq_of_mem_set hcall with hcall | rfl
    · obtain ⟨reaches, own, known⟩ := sound.stand call hcall
      exact ⟨reaches.mono known later, own.trans (List.sublist_append_left ..),
        fun r hr => (known r hr).trans later.lastId⟩
    · obtain ⟨reaches, own, known⟩ := sound.stand _ (List.mem_of_getElem? get)
      exact ⟨reaches.advance busy step, own.append (List.Sublist.refl _),
        fun r hr => (known r hr).trans later.lastId⟩
  · have howned := sound.owned
    obtain ⟨before, after, hcalls, -, hset⟩ :=
      @List.exists_of_set _ _ (account.add (t.dispatcher.sends x), a.next) _ hlt
    rw [hset]
    rw [hcalls, hget, List.flatMap_append, List.flatMap_cons] at howned
    rw [List.flatMap_append, List.flatMap_cons]
    show (t.sent ++ _).Perm (_ ++ ((account.own ++ t.dispatcher.sends x) ++ _))
    refine (howned.append_right (t.dispatcher.sends x)).trans ?_
    rw [List.append_assoc, List.append_assoc, List.append_assoc]
    exact (List.perm_append_comm.append_left account.own).append_left _

theorem turn (sound : Sound base t) {d : Dispatcher} {steps : List (Nat × WorkerStep)}
    (move : t.dispatcher.Move steps d) : Sound base (t.turn d steps) := by
  obtain ⟨made, busy⟩ := sound.busy
  obtain ⟨⟨more, busy'⟩, later⟩ := busy.move move
  refine ⟨⟨_, busy'⟩, fun call hcall => ?_, sound.owned⟩
  obtain ⟨reaches, own, known⟩ := sound.stand call hcall
  exact ⟨reaches.mono known later, own, fun r hr => (known r hr).trans later.lastId⟩

/-- Whatever happens at a dispatcher, all that is said of it remains true. -/
theorem perform (sound : Sound base t) {incident : Incident}
    (h : t.perform? incident = some t') : Sound base t' := by
  cases incident with
  | starts envelopes =>
    obtain rfl := Option.some.inj h
    exact sound.starts envelopes
  | goes place =>
    simp only [perform?] at h
    split at h
    · simp at h
    · next account x get =>
      split at h
      · simp at h
      · next a step =>
        obtain rfl := Option.some.inj h
        exact sound.goes get step
  | works id =>
    simp only [perform?] at h
    split at h
    · simp at h
    · next step d work =>
      obtain rfl := Option.some.inj h
      exact sound.turn (.works work)
  | subscribes handler topics =>
    obtain rfl := Option.some.inj h
    exact sound.turn (.subscribes handler topics)
  | unsubscribes id =>
    obtain rfl := Option.some.inj h
    exact sound.turn (.unsubscribes id)
  | closes =>
    obtain rfl := Option.some.inj h
    exact sound.turn .closes
  | bars =>
    obtain rfl := Option.some.inj h
    exact sound.turn .bars
  | shuts =>
    simp only [perform?] at h
    split at h
    · next barred =>
      obtain rfl := Option.some.inj h
      exact sound.turn (.shuts barred)
    · simp at h
  | stops id =>
    simp only [perform?] at h
    split at h
    · simp at h
    · next r hr =>
      split at h
      · next shut =>
        obtain rfl := Option.some.inj h
        exact sound.turn (.stops shut (List.mem_of_find?_eq_some hr))
      · simp at h
  | releases label permits =>
    obtain rfl := Option.some.inj h
    exact sound.turn (.releases label permits)

theorem after (sound : Sound base t) {incidents : List Incident}
    (h : t.after? incidents = some t') : Sound base t' := by
  induction incidents generalizing t with
  | nil =>
    obtain rfl := Option.some.inj h
    exact sound
  | cons incident rest ih =>
    rw [after?] at h
    split at h
    · simp at h
    · next t₁ hperform => exact ih (sound.perform hperform) h

end Sound

end Traffic

/-! ### How deliveries end -/

theorem Handler.Outcome.verdict_eq_ok_iff {outcome : Handler.Outcome} :
    outcome.verdict = .ok () ↔ outcome = .handled := by
  cases outcome <;> simp [verdict]

namespace Dispatcher

variable {base d : Dispatcher} {made : List Registration} {sent : List Errand}
  {log : List (Nat × WorkerStep)} {account : Account} {e : Errand} {x : Delivery}
  {result : Except DispatchError Unit}

/-- A handler that is content has been able to read the envelope and has handled it. -/
theorem opinion_eq_ok_iff {r : Registration} :
    d.opinion r x = .ok () ↔
      ∃ envelope, d.envelope? x = .ok envelope ∧
        (r.handler.react x.ticket envelope).outcome = .handled := by
  rw [opinion, reaction]
  cases d.envelope? x with
  | error cause => simp [Except.map]
  | ok envelope => simp [Except.map, Handler.Outcome.verdict_eq_ok_iff]

namespace Busy

theorem opinion_eq (busy : base.Busy made sent log d) : d.opinion = base.opinion :=
  opinion_congr busy.registry

/-- A delivery with a good verdict was handled. -/
theorem handled (busy : base.Busy made sent log d) (he : e ∈ sent)
    (hverdict : d.transport.verdict? e.ticket = some (.ok ())) : e.Handled d log := by
  rcases busy.flows.fate he with ⟨hjudged, hfate⟩ | ⟨-, ⟨-, hfate⟩ | ⟨-, hfate⟩⟩
  · obtain hok := Option.some.inj (hverdict.symm.trans hfate)
    rw [← hok] at hjudged
    obtain ⟨envelope, hread, houtcome⟩ := opinion_eq_ok_iff.1 (busy.opinion_eq ▸ hok.symm)
    refine ⟨hjudged, envelope, hread, ?_, houtcome⟩
    have htook := busy.flows.mem_tookBy he (by simp [hjudged])
    rwa [← envelope?_congr busy.registry, hread] at htook
  · simp [hfate] at hverdict
  · simp [hfate, abandoned] at hverdict

/-- What a dispatch learns of a delivery is how it has ended. -/
theorem blames?_eq (busy : base.Busy made sent log d) (he : e ∈ sent)
    (hjudged : d.transport.verdict? e.ticket ≠ none) : d.blames? e = e.failureIn log := by
  have hend : d.transport.verdict? e.ticket = some ((e.verdictIn log).getD abandoned) := by
    rcases busy.flows.fate he with ⟨hin, hfate⟩ | ⟨hin, ⟨-, hfate⟩ | ⟨-, hfate⟩⟩
    · rw [hfate, hin, Option.getD_some]
    · exact (hjudged hfate).elim
    · rw [hfate, hin, Option.getD_none]
  rw [blames?, hend, Errand.failureIn]
  cases (e.verdictIn log).getD abandoned <;> rfl

/-- What nobody has judged although there is a verdict was for a registration that is no more. -/
theorem not_mem_registrations (busy : base.Busy made sent log d) (he : e ∈ sent)
    (hjudged : d.transport.verdict? e.ticket ≠ none) (hnone : e.verdictIn log = none) :
    e.registration ∉ d.registrations := by
  rcases busy.flows.fate he with ⟨hin, -⟩ | ⟨-, ⟨-, hfate⟩ | ⟨hgone, -⟩⟩
  · simp [hnone] at hin
  · exact (hjudged hfate).elim
  · exact hgone

/-- The verdicts of a worker on those of its deliveries that belong together. -/
theorem filter_judgedBy (busy : base.Busy made sent log d) {r : Registration} (hr : r ∈ made)
    {mine : List Errand} (sub : mine.Sublist (sent.filter (·.registration.id = r.id)))
    (handled : ∀ e ∈ mine, e.Handled d log) :
    (judgedBy r.id log).filter (·.1 ∈ mine.map Errand.ticket) =
      mine.map fun e => (e.ticket, .ok ()) := by
  obtain ⟨done, held, waiting, progress⟩ := busy.flows.progress r hr
  have hreg : ∀ e ∈ mine, e.registration = r := fun e he => by
    obtain ⟨he, hid⟩ := List.mem_filter.1 (sub.subset he)
    exact busy.flows.eq_of_id (busy.flows.addressees e he) hr (by simpa using hid)
  -- of what was sent to the worker, this is what bears one of these tickets
  have hsent : (Errand.towards r.id sent).filter (·.ticket ∈ mine.map Errand.ticket) =
      mine.map Errand.delivery := by
    have htickets : mine.map Errand.ticket = (mine.map Errand.delivery).map Delivery.ticket := by
      rw [List.map_map]
      rfl
    rw [htickets]
    exact filter_mem_map_of_sublist (sub.map _)
      (Errand.nodup_towards busy.flows.nodup_tickets r.id)
  -- and all of it has been judged
  have hrest : (held.toList ++ waiting).filter (·.ticket ∈ mine.map Errand.ticket) = [] := by
    rw [List.filter_eq_nil_iff]
    intro y hy hmem
    obtain ⟨e, he, hticket⟩ := List.mem_map.1 (of_decide_eq_true hmem)
    obtain rfl := hreg e he
    have hdelivery : e.delivery = y := by
      refine List.inj_on_of_nodup_map (Errand.nodup_towards busy.flows.nodup_tickets _)
        (Errand.mem_towards.2 ⟨e, (List.mem_filter.1 (sub.subset he)).1, rfl, rfl⟩) ?_ hticket
      rw [progress.sent, List.append_assoc]
      exact List.mem_append_right _ hy
    have hnone := busy.flows.verdictIn_of_unjudged progress (hdelivery ▸ hy)
    simp [(handled e he).judged] at hnone
  rw [progress.sent, List.append_assoc, List.filter_append, hrest, List.append_nil] at hsent
  rw [progress.noted, List.filter_map]
  show (done.filter (·.ticket ∈ mine.map Errand.ticket)).map _ = _
  rw [hsent, List.map_map]
  refine List.map_congr_left fun e he => ?_
  obtain rfl := hreg e he
  have hverdict := busy.flows.fate (List.mem_filter.1 (sub.subset he)).1
  simp only [(handled e he).judged, Option.some.injEq, reduceCtorEq, false_and, or_false]
    at hverdict
  exact Prod.ext rfl hverdict.1.symm

end Busy

end Dispatcher

namespace Traffic

variable {base : Dispatcher} {t t' : Traffic} {account : Account}
  {result : Except DispatchError Unit} {made : List Registration}

/-- What a dispatch reports that has ended. -/
theorem truthful_of_busy (busy : base.Busy made t.sent t.log t.dispatcher)
    (own : account.own.Sublist t.sent) (reaches : account.Reaches t.dispatcher (.done result)) :
    t.Truthful account result := by
  cases reaches with
  | broken plain =>
    exact ⟨own, by simp, by simp, fun failures heq => (plain failures (Except.error.inj heq)).elim⟩
  | @told postings posted covers judged =>
    have hblames : account.own.filterMap t.dispatcher.blames? =
        account.own.filterMap (·.failureIn t.log) :=
      List.filterMap_congr fun e he => busy.blames?_eq (own.subset he) (judged e he)
    have hhandled : report (account.own.filterMap t.dispatcher.blames?) = .ok () →
        ∀ e ∈ account.own, e.Handled t.dispatcher t.log := by
      intro hok e he
      have hnone := List.filterMap_eq_nil_iff.1 (Dispatching.report_eq_ok_iff.1 hok) e he
      refine busy.handled (own.subset he) ?_
      obtain ⟨verdict, hverdict⟩ := Option.ne_none_iff_exists'.1 (judged e he)
      rw [Dispatcher.blames?, hverdict] at hnone
      cases verdict with
      | ok _ => exact hverdict
      | error cause => simp at hnone
    constructor
    case own => exact own
    case handled => exact hhandled
    case reached =>
      intro hok r hstart hr
      have hmade := busy.flows.sublist.subset hr
      have hmine := Dispatching.filter_topic_of_post posted r.topic
      rw [← covers.all r hstart hr, List.forall₂_map_left_iff] at hmine
      refine ⟨_, rfl, (List.forall₂_and_left _ _).2 ⟨fun e he => ?_, hmine⟩,
        busy.filter_judgedBy hmade (own.filter _) fun e he =>
          hhandled hok e (List.mem_filter.1 he).1⟩
      obtain ⟨he, hid⟩ := List.mem_filter.1 he
      exact busy.flows.eq_of_id (busy.flows.addressees e (own.subset he)) hmade (by simpa using hid)
    case failed =>
      intro failures heq
      have hne : report (account.own.filterMap t.dispatcher.blames?) ≠ .ok () := by simp [heq]
      rw [Dispatching.report_of_ne_ok hne, hblames] at heq
      obtain rfl := DispatchError.handlerFailures.inj (Except.error.inj heq)
      rw [hblames] at hne
      refine ⟨fun hnil => hne (by rw [hnil]; rfl), rfl, fun e he hnone => ?_⟩
      exact busy.not_mem_registrations (own.subset he) (judged e he) hnone

/-- What dispatches report is true, however dispatches, registrations and workers interleave. -/
theorem report_of_incidents {registry : Registry} {incidents : List Incident}
    (h : Traffic.after? { dispatcher := { registry } } incidents = some t) : t.Report := by
  have sound := (Sound.new registry).after h
  obtain ⟨made, busy⟩ := sound.busy
  have hstranger : ∀ {id}, (¬ ∃ r ∈ made, r.id = id) →
      tookBy id t.log = [] ∧ judgedBy id t.log = [] :=
    fun hnone => busy.flows.strangers _ fun r hr hid => hnone ⟨r, hr, hid⟩
  constructor
  case truthful =>
    intro account result hcall
    obtain ⟨reaches, own, -⟩ := sound.stand _ hcall
    exact truthful_of_busy busy own reaches
  case owned => exact ⟨sound.owned, busy.flows.nodup_tickets⟩
  case took =>
    intro id
    rw [Dispatcher.envelope?_congr busy.registry]
    by_cases hid : ∃ r ∈ made, r.id = id
    · obtain ⟨r, hr, rfl⟩ := hid
      exact busy.flows.tookBy_isPrefix hr
    · rw [(hstranger hid).1]
      exact List.nil_prefix
  case judged =>
    intro id
    by_cases hid : ∃ r ∈ made, r.id = id
    · obtain ⟨r, hr, rfl⟩ := hid
      have hjudged := busy.flows.judgedBy_isPrefix hr
      rw [Errand.towards, List.map_map] at hjudged
      convert hjudged using 1
      refine List.map_congr_left fun e he => ?_
      obtain ⟨he, hid⟩ := List.mem_filter.1 he
      obtain rfl := busy.flows.eq_of_id (busy.flows.addressees e he) hr (by simpa using hid)
      rw [busy.opinion_eq]
      rfl
    · rw [(hstranger hid).2]
      exact List.nil_prefix

/-- The results of the dispatches that have ended. -/
def results (t : Traffic) : List (Except DispatchError Unit) :=
  t.calls.filterMap fun
    | (_, .done result) => some result
    | _ => none

/-- Two dispatches cross each other. An order that is created is refused by one handler, and another
leaves with the event in hand. The order is shipped after that. -/
def crossing : List Incident :=
  let audit : Handler := .scripted "a" "audit" [] { behaviour := .accept }
  let mailer : Handler :=
    .scripted "m" "mailer" [] { behaviour := .refuse, messages := ["bounced"] }
  [.subscribes audit ["order.*", "*.*"], .subscribes mailer ["order.created"],
    .starts (Envelope.ofOrder.take 1), .starts (Envelope.ofOrder.drop 1)] ++
  [.goes 0, .goes 1, .goes 0, .goes 1, .goes 0, .goes 0, .goes 1, .goes 0] ++
  [.works 1, .works 3, .works 1, .works 3, .works 2, .unsubscribes 2, .works 1, .works 1] ++
  [.goes 1, .goes 1, .goes 0, .goes 1, .goes 0, .goes 1, .goes 0, .goes 1, .goes 0, .goes 0,
    .closes]

/-- Each of the two reports its own deliveries. -/
theorem report_of_crossing :
    ∃ t, Traffic.after? { dispatcher := { registry := .empty } } crossing = some t ∧ t.Report ∧
      t.results = [.error (.handlerFailures
        [⟨"mailer", "order.created", "order.created", System.blank.newId 1, "bounced"⟩,
          ⟨"audit", "*.*", "order.created", System.blank.newId 1, "delivery abandoned"⟩]),
        .ok ()] := by
  have hresults : (Traffic.after? { dispatcher := { registry := .empty } } crossing).map results =
      some [.error (.handlerFailures
        [⟨"mailer", "order.created", "order.created", System.blank.newId 1, "bounced"⟩,
          ⟨"audit", "*.*", "order.created", System.blank.newId 1, "delivery abandoned"⟩]),
        .ok ()] := by
    decide +kernel
  obtain ⟨t, ht, hresults⟩ := Option.map_eq_some_iff.1 hresults
  exact ⟨t, ht, report_of_incidents ht, hresults⟩

end Traffic

end EventJournal
