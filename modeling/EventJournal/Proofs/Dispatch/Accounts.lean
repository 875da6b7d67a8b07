import EventJournal.Proofs.Dispatch.Assignments
import EventJournal.Proofs.Dispatch.Bustle

/-!
# Accounts of dispatches

What a dispatch at a busy dispatcher has published is told by an account of its own, whatever others
publish at the same time. What it reports in the end are the verdicts on these deliveries.

* `Account`, what is remembered of a dispatch;
* `Account.Covers`, that it has left out nobody who was there all the time;
* `Account.Reaches`, how far a dispatch has come.

The main statements are `Account.Reaches.advance` and `Account.Reaches.mono`: a dispatch goes on by
its own steps, and whatever else happens leaves it where it stands.
-/

namespace EventJournal

open Transport (receiptOf)
open Dispatching (post report)

/-- What is reported of an errand at a dispatcher, if the verdict on it is a failure. -/
def Dispatcher.blames? (d : Dispatcher) (x : Errand) : Option HandlerFailure :=
  match d.transport.verdict? x.ticket with
  | some (.error cause) => some (x.awaited.failure cause)
  | _ => none

/-- What is remembered of a dispatch: the dispatcher when it started, the envelopes, and what it has
published. -/
structure Account where
  start : Dispatcher
  envelopes : List Envelope
  own : List Errand := []

namespace Account

/-- A dispatch has published further errands. -/
def add (account : Account) (new : List Errand) : Account :=
  { account with own := account.own ++ new }

/-- Those who were registered when the dispatch started, and still are, have been sent every posting
on their topic once and in order. Others have been sent some, in order, and nobody anything else. -/
structure Covers (account : Account) (d : Dispatcher) (published : List Posting) : Prop where
  all : ∀ r ∈ account.start.registrations, r ∈ d.registrations →
    (account.own.filter (·.registration.id = r.id)).map Errand.posting =
      published.filter (·.topic = r.topic)
  some : ∀ id, ((account.own.filter (·.registration.id = id)).map Errand.posting).Sublist published
  only : ∀ x ∈ account.own, x.posting ∈ published ∧ x.posting.topic = x.registration.topic

/-- What a dispatch has sent are the first of its postings. -/
def Within (account : Account) (d : Dispatcher) : Prop :=
  account.own = [] ∨ ∃ published rest, post account.envelopes = .ok (published ++ rest) ∧
    account.Covers d published

/-- How far a dispatch has come, by its account. -/
inductive Reaches (account : Account) (d : Dispatcher) : Dispatching → Prop
  | starting (own : account.own = []) : account.Reaches d (.starting account.envelopes)
  | publishing {published rest : List Posting}
      (posted : post account.envelopes = .ok (published ++ rest))
      (covers : account.Covers d published) :
      account.Reaches d (.publishing rest (account.own.map Errand.awaited))
  | awaiting {postings : List Posting} {noted rest : List Errand}
      {failures : List HandlerFailure} (posted : post account.envelopes = .ok postings)
      (covers : account.Covers d postings) (own : account.own = noted ++ rest)
      (judged : ∀ x ∈ noted, d.transport.verdict? x.ticket ≠ none)
      (failures_eq : failures.reverse = noted.filterMap d.blames?) :
      account.Reaches d (.awaiting (rest.map Errand.awaited) failures)
  | told {postings : List Posting} (posted : post account.envelopes = .ok postings)
      (covers : account.Covers d postings)
      (judged : ∀ x ∈ account.own, d.transport.verdict? x.ticket ≠ none) :
      account.Reaches d (.done (report (account.own.filterMap d.blames?)))
  /-- The dispatcher was closed, or a message could not be written. -/
  | broken {e : DispatchError} (plain : ∀ failures, e ≠ .handlerFailures failures)
      (cause : d.closed = true ∨ post account.envelopes = .error e) (within : account.Within d) :
      account.Reaches d (.done (.error e))

variable {account : Account} {base d d' : Dispatcher} {x : Dispatching} {p : Posting}
  {made : List Registration} {sent : List Errand} {log : List (Nat × WorkerStep)}
  {a : Dispatching.Advance}

theorem blames?_of_later (later : d.Later d') {y : Errand}
    (judged : d.transport.verdict? y.ticket ≠ none) : d'.blames? y = d.blames? y := by
  obtain ⟨verdict, hverdict⟩ := Option.ne_none_iff_exists'.1 judged
  rw [Dispatcher.blames?, Dispatcher.blames?, hverdict, later.verdicts _ _ hverdict]

theorem judged_of_later (later : d.Later d') {noted : List Errand}
    (judged : ∀ y ∈ noted, d.transport.verdict? y.ticket ≠ none) :
    (∀ y ∈ noted, d'.transport.verdict? y.ticket ≠ none) ∧
      noted.filterMap d'.blames? = noted.filterMap d.blames? := by
  constructor
  · intro y hy
    obtain ⟨verdict, hverdict⟩ := Option.ne_none_iff_exists'.1 (judged y hy)
    simp [later.verdicts _ _ hverdict]
  · exact List.filterMap_congr fun y hy => blames?_of_later later (judged y hy)

theorem Covers.mono {published : List Posting} (h : account.Covers d published)
    (known : ∀ r ∈ account.start.registrations, r.id ≤ d.transport.lastId) (later : d.Later d') :
    account.Covers d' published :=
  ⟨fun r hr hr' => h.all r hr (later.mem_of_mem (known r hr) hr'), h.some, h.only⟩

theorem Within.mono (h : account.Within d)
    (known : ∀ r ∈ account.start.registrations, r.id ≤ d.transport.lastId) (later : d.Later d') :
    account.Within d' :=
  h.imp_right fun ⟨published, rest, posted, covers⟩ =>
    ⟨published, rest, posted, covers.mono known later⟩

/-- Whatever else happens leaves a dispatch where it stands. -/
theorem Reaches.mono (h : account.Reaches d x)
    (known : ∀ r ∈ account.start.registrations, r.id ≤ d.transport.lastId) (later : d.Later d') :
    account.Reaches d' x := by
  cases h with
  | starting own => exact .starting own
  | publishing posted covers => exact .publishing posted (covers.mono known later)
  | awaiting posted covers own judged failures_eq =>
    obtain ⟨judged', hfailures⟩ := judged_of_later later judged
    exact .awaiting posted (covers.mono known later) own judged' (failures_eq.trans hfailures.symm)
  | told posted covers judged =>
    obtain ⟨judged', hfailures⟩ := judged_of_later later judged
    rw [← hfailures]
    exact .told posted (covers.mono known later) judged'
  | broken plain cause within =>
    exact .broken plain (cause.imp_left later.closed) (within.mono known later)

/-- Wherever a dispatch stands, it has sent the first of its postings. -/
theorem Reaches.within (h : account.Reaches d x) : account.Within d := by
  cases h with
  | starting own => exact .inl own
  | publishing posted covers => exact .inr ⟨_, _, posted, covers⟩
  | awaiting posted covers | told posted covers =>
    exact .inr ⟨_, [], by rwa [List.append_nil], covers⟩
  | broken plain cause within => exact within

theorem registration_of_mem_plan {y : Errand} (hy : y ∈ d.plan [p]) :
    y.posting = p ∧ y.registration ∈ d.registered p.topic := by
  obtain ⟨⟨⟨posting, r⟩, n⟩, hmem, rfl⟩ := List.mem_map.1 hy
  have hpair : (posting, r) ∈ (d.registered p.topic).map (p, ·) := by
    simpa using List.fst_mem_of_mem_zipIdx hmem
  obtain ⟨r', hr', heq⟩ := List.mem_map.1 hpair
  obtain ⟨rfl, rfl⟩ := Prod.mk.inj heq
  exact ⟨rfl, hr'⟩

theorem map_registration_plan (d : Dispatcher) (p : Posting) :
    (d.plan [p]).map Errand.registration = d.registered p.topic := by
  have hcomp : (Errand.registration ∘ fun (x : (Posting × Registration) × Nat) =>
      (⟨x.2, x.1.1, x.1.2⟩ : Errand)) = Prod.snd ∘ Prod.fst := rfl
  rw [Dispatcher.plan, Dispatcher.errands, List.map_map, hcomp, ← List.map_map,
    List.zipIdx_map_fst, List.flatMap_singleton, List.map_map]
  exact List.map_id _

/-- A posting is sent to a registration once if it is on its topic, and otherwise not. -/
theorem posting_of_plan (distinct : (d.registrations.map Registration.id).Nodup)
    {r : Registration} (hr : r ∈ d.registrations) (p : Posting) :
    ((d.plan [p]).filter (·.registration.id = r.id)).map Errand.posting =
      [p].filter (·.topic = r.topic) := by
  have hall : ∀ y ∈ (d.plan [p]).filter (·.registration.id = r.id), y.posting = p :=
    fun y hy => (registration_of_mem_plan (List.mem_filter.1 hy).1).1
  have hregistered : ((d.plan [p]).filter (·.registration.id = r.id)).map Errand.registration =
      if r.topic = p.topic then [r] else [] := by
    rw [← Dispatcher.filter_registered distinct hr, ← map_registration_plan, List.filter_map]
    rfl
  have hlength := congrArg List.length hregistered
  rw [List.length_map] at hlength
  rw [List.map_congr_left hall, List.map_const', hlength]
  by_cases htopic : r.topic = p.topic
  · simp [htopic]
  · simp [htopic, Ne.symm htopic]

theorem plain_of_post {envelopes : List Envelope} {e : DispatchError}
    (h : post envelopes = .error e) (failures : List HandlerFailure) :
    e ≠ .handlerFailures failures := by
  induction envelopes with
  | nil => simp [post] at h
  | cons envelope rest ih =>
    rw [post] at h
    split at h
    · obtain rfl := Except.error.inj h
      simp
    · split at h
      · next hrest =>
        obtain rfl := Except.error.inj h
        exact ih hrest
      · simp at h

/-- A registration is sent a posting once at most. -/
theorem sublist_posting_of_plan (distinct : (d.registrations.map Registration.id).Nodup) (id : Nat)
    (p : Posting) :
    (((d.plan [p]).filter (·.registration.id = id)).map Errand.posting).Sublist [p] := by
  by_cases h : ∃ r ∈ d.registrations, r.id = id
  · obtain ⟨r, hr, rfl⟩ := h
    rw [posting_of_plan distinct hr]
    exact List.filter_sublist
  · have hnone : (d.plan [p]).filter (·.registration.id = id) = [] := by
      refine List.filter_eq_nil_iff.2 fun y hy => ?_
      have hr := (registration_of_mem_plan hy).2
      simpa using fun heq => h ⟨y.registration, (Dispatcher.mem_registered.1 hr).1, heq⟩
    rw [hnone]
    exact List.nil_sublist _

theorem Covers.nil (own : account.own = []) : account.Covers d [] :=
  ⟨fun _ _ _ => by simp [own], by simp [own], by simp [own]⟩

/-- The dispatch publishes a posting. -/
theorem Covers.publish {published : List Posting} (h : account.Covers d published)
    (busy : base.Busy made sent log d) (t : Transport) (p : Posting) :
    (account.add (d.plan [p])).Covers { d with transport := t } (published ++ [p]) := by
  have distinct := busy.flows.distinct.sublist (busy.flows.sublist.map Registration.id)
  constructor
  · intro r hr hr'
    show ((account.own ++ d.plan [p]).filter _).map _ = _
    rw [List.filter_append, List.map_append, List.filter_append, h.all r hr hr',
      posting_of_plan distinct hr']
  · intro id
    show (((account.own ++ d.plan [p]).filter _).map _).Sublist _
    rw [List.filter_append, List.map_append]
    exact (h.some id).append (sublist_posting_of_plan distinct id p)
  · refine List.forall_mem_append.2 ⟨fun y hy => ?_, fun y hy => ?_⟩
    · exact ⟨List.mem_append_left _ (h.only y hy).1, (h.only y hy).2⟩
    · obtain ⟨rfl, hr⟩ := registration_of_mem_plan hy
      exact ⟨by simp, (Dispatcher.mem_registered.1 hr).2.symm⟩

/-- A dispatch takes note of a verdict. -/
theorem Reaches.note {postings : List Posting} {noted rest : List Errand} {y : Errand}
    {failures : List HandlerFailure} (posted : post account.envelopes = .ok postings)
    (covers : account.Covers d postings) (own : account.own = noted ++ y :: rest)
    (judged : ∀ x ∈ noted, d.transport.verdict? x.ticket ≠ none)
    (failures_eq : failures.reverse = noted.filterMap d.blames?)
    (hstep : Dispatching.step? d (.awaiting ((y :: rest).map Errand.awaited) failures) = some a) :
    a.dispatcher = d ∧ account.Reaches d a.next := by
  have hnoted : ∀ {verdict}, d.transport.verdict? y.ticket = some verdict →
      ∀ x ∈ noted ++ [y], d.transport.verdict? x.ticket ≠ none := fun hverdict =>
    List.forall_mem_append.2 ⟨judged, List.forall_mem_singleton.2 (by simp [hverdict])⟩
  rw [List.append_cons] at own
  simp only [List.map_cons, Dispatching.step?] at hstep
  split at hstep
  · simp at hstep
  · next hverdict =>
    have hnone : d.blames? y = none := by
      rw [Dispatcher.blames?, show d.transport.verdict? y.ticket = _ from hverdict]
    obtain rfl := Option.some.inj hstep
    refine ⟨rfl, .awaiting posted covers own (hnoted hverdict) ?_⟩
    rw [List.filterMap_append, failures_eq]
    simp [hnone]
  · next cause hverdict =>
    have hsome : d.blames? y = some (y.awaited.failure cause) := by
      rw [Dispatcher.blames?, show d.transport.verdict? y.ticket = _ from hverdict]
    obtain rfl := Option.some.inj hstep
    refine ⟨rfl, .awaiting posted covers own (hnoted hverdict) ?_⟩
    rw [List.filterMap_append, List.reverse_cons, failures_eq]
    simp [hsome]

/-- A dispatch takes a step of its own. -/
theorem Reaches.advance (h : account.Reaches d x) (busy : base.Busy made sent log d)
    (hstep : x.step? d = some a) :
    (account.add (d.sends x)).Reaches a.dispatcher a.next := by
  have hsame : d.sends x = [] → a.dispatcher = d → account.Reaches d a.next →
      (account.add (d.sends x)).Reaches a.dispatcher a.next := by
    intro hnone heq reaches
    rw [hnone, heq, add, List.append_nil]
    exact reaches
  cases h with
  | starting own =>
    simp only [Dispatching.step?] at hstep
    split at hstep
    · next hclosed =>
      obtain rfl := Option.some.inj hstep
      exact hsame rfl rfl (.broken (by simp) (.inl hclosed) (.inl own))
    · split at hstep
      · next hpost =>
        obtain rfl := Option.some.inj hstep
        exact hsame rfl rfl (.broken (plain_of_post hpost) (.inr hpost) (.inl own))
      · next postings hpost =>
        obtain rfl := Option.some.inj hstep
        have hreaches : account.Reaches d (.publishing postings (account.own.map Errand.awaited)) :=
          .publishing (show post account.envelopes = .ok ([] ++ postings) from hpost) (.nil own)
        rw [own] at hreaches
        exact hsame rfl rfl hreaches
  | @publishing published rest posted covers =>
    cases rest with
    | nil =>
      obtain rfl := Option.some.inj hstep
      rw [List.append_nil] at posted
      exact hsame rfl rfl (.awaiting posted covers (List.nil_append _).symm (by simp) rfl)
    | cons p rest =>
      cases hclosed : d.transport.closed with
      | true =>
        simp only [Dispatching.step?, Transport.publish_of_closed hclosed] at hstep
        obtain rfl := Option.some.inj hstep
        exact hsame (by simp [Dispatcher.sends, hclosed]) rfl
          (.broken (by simp) (.inl (busy.closed hclosed)) (.inr ⟨_, _, posted, covers⟩))
      | false =>
        obtain ⟨t, hpublish, -, -⟩ :=
          busy.flows.publish hclosed p (busy.mirrors hclosed p.topic)
        simp only [Dispatching.step?, hpublish] at hstep
        obtain rfl := Option.some.inj hstep
        have hsends : d.sends (.publishing (p :: rest) (account.own.map Errand.awaited)) =
            d.plan [p] := by
          simp [Dispatcher.sends, hclosed]
        have hawaited : ((d.plan [p]).map fun y => receiptOf y.sending).map
            (fun receipt => (⟨receipt, p.eventType, p.message.id⟩ : Awaited)) =
              (d.plan [p]).map Errand.awaited := by
          rw [List.map_map]
          refine List.map_congr_left fun y hy => ?_
          obtain ⟨rfl, -⟩ := registration_of_mem_plan hy
          rfl
        rw [hsends, hawaited, ← List.map_append]
        rw [List.append_cons] at posted
        exact .publishing posted (covers.publish busy t p)
  | @awaiting postings noted rest failures posted covers own judged failures_eq =>
    cases rest with
    | nil =>
      obtain rfl := Option.some.inj hstep
      rw [List.append_nil] at own
      refine hsame rfl rfl ?_
      rw [Dispatching.conclude_eq, failures_eq, ← own]
      exact .told posted covers (own ▸ judged)
    | cons y rest =>
      obtain ⟨hsame', reaches⟩ := Reaches.note posted covers own judged failures_eq hstep
      exact hsame rfl hsame' reaches
  | told => simp [Dispatching.step?] at hstep
  | broken => simp [Dispatching.step?] at hstep

end Account

end EventJournal
