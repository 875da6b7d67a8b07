import EventJournal.Proofs.Dispatch.Courses
import Mathlib.Data.List.Forall2

/-!
# Assignments

Which envelope is for which registration, told without the transport: for those on each of the
topics of its event. What a dispatch sends over the transport comes to the same.

* `Dispatcher.assignments`, and `Dispatcher.inbound`, the envelopes for one registration;
* `Dispatcher.verdictOn`, `Dispatcher.failures`: what the handlers make of them;
* `Posting.Carries`, the posting that carries an envelope to a registration.

The main statements are `Dispatcher.filterMap_failure?`, `Dispatcher.map_toInbox_plan` and
`Dispatching.filter_topic_of_post`.
-/

namespace EventJournal

open Transport (toInbox)

/-- The payload of an envelope can be written. -/
def Envelope.IsWritable (envelope : Envelope) : Prop := ∃ data, envelope.event.payload = .ok data

/-- An envelope as it is read from its message. -/
def Envelope.relayed (registry : Registry) (envelope : Envelope) : Except EventError Envelope :=
  (Message.ofEnvelope envelope).bind (Message.toEnvelope registry)

namespace Dispatcher

/-- The registrations that an envelope is for: those on each of the topics of its event. -/
def addressees (d : Dispatcher) (envelope : Envelope) : List Registration :=
  (EventType.topics envelope.event.eventType).flatMap d.registered

/-- Which envelope is for which registration: envelope by envelope, topic by topic, and the
registrations of a topic in the order in which they were made. -/
def assignments (d : Dispatcher) (envelopes : List Envelope) : List (Envelope × Registration) :=
  envelopes.flatMap fun envelope => (d.addressees envelope).map (envelope, ·)

/-- The envelopes that are for a registration, as they are read from their messages. -/
def inbound (d : Dispatcher) (r : Registration) (envelopes : List Envelope) :
    List (Option Envelope) :=
  (envelopes.filter (r.topic ∈ EventType.topics ·.event.eventType)).map
    fun envelope => (envelope.relayed d.registry).toOption

/-- What the handler of a registration makes of an envelope that is delivered with a ticket. -/
def verdictOn (d : Dispatcher) (ticket : Nat) (envelope : Envelope) (r : Registration) : Verdict :=
  match envelope.relayed d.registry with
  | .error e => .error ("failed to reconstruct envelope: " ++ e.message)
  | .ok received => (r.handler.react ticket received).outcome.verdict

/-- What is reported of an assignment with its ticket, if it fails. -/
def failureOn? (d : Dispatcher) : (Envelope × Registration) × Nat → Option HandlerFailure
  | ((envelope, r), ticket) =>
    match d.verdictOn ticket envelope r with
    | .ok () => none
    | .error cause =>
      some ⟨r.handler.name, r.topic, envelope.event.eventType, envelope.id, cause⟩

/-- The assignments of a dispatch, numbered from the next ticket on. -/
def numbered (d : Dispatcher) (envelopes : List Envelope) :
    List ((Envelope × Registration) × Nat) :=
  (d.assignments envelopes).zipIdx (d.transport.lastTicket + 1)

/-- The failures of a dispatch. -/
def failures (d : Dispatcher) (envelopes : List Envelope) : List HandlerFailure :=
  (d.numbered envelopes).filterMap d.failureOn?

end Dispatcher

/-! ### Postings and envelopes -/

/-- A posting is one of an envelope. -/
def Posting.IsOf (p : Posting) (envelope : Envelope) : Prop :=
  Message.ofEnvelope envelope = .ok p.message ∧ p.eventType = envelope.event.eventType

/-- A posting to a registration carries an envelope to it. -/
def Posting.Carries (x : Posting × Registration) (y : Envelope × Registration) : Prop :=
  x.1.IsOf y.1 ∧ x.2 = y.2 ∧ x.1.topic = y.2.topic

namespace Dispatcher

variable {d : Dispatcher} {envelopes : List Envelope} {envelope : Envelope}
  {postings : List Posting} {r : Registration}

theorem carries_of_topics {topics : List String}
    (h : List.Forall₂ (fun p topic => p.IsOf envelope ∧ p.topic = topic) postings topics) :
    List.Forall₂ Posting.Carries (postings.flatMap fun p => (d.registered p.topic).map (p, ·))
      ((topics.flatMap d.registered).map (envelope, ·)) := by
  induction h with
  | nil => exact .nil
  | @cons p topic postings topics hp _ ih =>
    obtain ⟨isOf, rfl⟩ := hp
    rw [List.flatMap_cons, List.flatMap_cons, List.map_append]
    refine List.rel_append ?_ ih
    rw [List.forall₂_map_left_iff, List.forall₂_map_right_iff, List.forall₂_same]
    intro r hr
    exact ⟨isOf, rfl, (mem_registered.1 hr).2.symm⟩

theorem forall₂_postings {message : Message} (h : Message.ofEnvelope envelope = .ok message) :
    List.Forall₂ (fun p topic => p.IsOf envelope ∧ p.topic = topic)
      (Dispatching.postings envelope message) (EventType.topics envelope.event.eventType) := by
  unfold Dispatching.postings
  cases EventType.topics envelope.event.eventType with
  | nil => exact .nil
  | cons topic rest =>
    refine .cons ⟨⟨h, rfl⟩, rfl⟩ ?_
    rw [List.forall₂_map_left_iff, List.forall₂_same]
    exact fun _ _ => ⟨⟨h, rfl⟩, rfl⟩

theorem post_cons_eq_ok_iff {rest : List Envelope} :
    Dispatching.post (envelope :: rest) = .ok postings ↔
      ∃ message later, Message.ofEnvelope envelope = .ok message ∧
        Dispatching.post rest = .ok later ∧
        postings = Dispatching.postings envelope message ++ later := by
  rw [Dispatching.post]
  cases Message.ofEnvelope envelope with
  | error e => simp
  | ok message => cases Dispatching.post rest <;> simp [eq_comm]

/-- The postings of envelopes carry each of them to the registrations that it is for. -/
theorem carries_of_post (h : Dispatching.post envelopes = .ok postings) :
    List.Forall₂ Posting.Carries (postings.flatMap fun p => (d.registered p.topic).map (p, ·))
      (d.assignments envelopes) := by
  induction envelopes generalizing postings with
  | nil =>
    obtain rfl := Except.ok.inj h
    exact .nil
  | cons envelope rest ih =>
    obtain ⟨message, later, hmessage, hlater, rfl⟩ := post_cons_eq_ok_iff.1 h
    rw [List.flatMap_append]
    exact List.rel_append (carries_of_topics (forall₂_postings hmessage)) (ih hlater)

/-- Envelopes that can be written can all be posted. -/
theorem exists_post (writable : ∀ envelope ∈ envelopes, envelope.IsWritable) :
    ∃ postings, Dispatching.post envelopes = .ok postings := by
  induction envelopes with
  | nil => exact ⟨[], rfl⟩
  | cons envelope rest ih =>
    obtain ⟨data, hdata⟩ := writable envelope (List.mem_cons_self ..)
    obtain ⟨later, hlater⟩ := ih fun e he => writable e (List.mem_cons_of_mem _ he)
    obtain ⟨message, hmessage⟩ : ∃ message, Message.ofEnvelope envelope = .ok message := by
      simp [Message.ofEnvelope, hdata]
    exact ⟨_, post_cons_eq_ok_iff.2 ⟨message, later, hmessage, hlater, rfl⟩⟩

/-- The first envelope that cannot be written is the one that is named. -/
theorem post_of_unwritable {before after : List Envelope} {err : EventError}
    (writable : ∀ envelope ∈ before, envelope.IsWritable)
    (herr : envelope.event.payload = .error err) :
    Dispatching.post (before ++ envelope :: after) = .error (.encode envelope.id err) := by
  induction before with
  | nil => simp [Dispatching.post, Message.ofEnvelope, herr]
  | cons first rest ih =>
    obtain ⟨data, hdata⟩ := writable first (List.mem_cons_self ..)
    have hrest := ih fun e he => writable e (List.mem_cons_of_mem _ he)
    simp [Dispatching.post, Message.ofEnvelope, hdata, hrest]

theorem id_of_ofEnvelope {message : Message} (h : Message.ofEnvelope envelope = .ok message) :
    message.id = envelope.id := by
  unfold Message.ofEnvelope at h
  split at h
  · simp at h
  · rw [← Except.ok.inj h]

theorem envelope?_of_isOf {p : Posting} (h : p.IsOf envelope) (n : Nat) :
    d.envelope? ⟨n, p.topic, p.message⟩ = (envelope.relayed d.registry).mapError
      fun e => "failed to reconstruct envelope: " ++ e.message := by
  rw [envelope?, Envelope.relayed, h.1]
  simp only [Except.bind]
  cases p.message.toEnvelope d.registry <;> rfl

theorem failure?_of_isOf {p : Posting} (isOf : p.IsOf envelope) (htopic : p.topic = r.topic)
    (n : Nat) : d.failure? ⟨n, p, r⟩ = d.failureOn? ((envelope, r), n) := by
  have hopinion : d.opinion r ⟨n, p.topic, p.message⟩ = d.verdictOn n envelope r := by
    rw [opinion, reaction, envelope?_of_isOf isOf, verdictOn]
    cases envelope.relayed d.registry <;> rfl
  have hid := id_of_ofEnvelope isOf.1
  simp only [failure?, failureOn?, Errand.delivery, hopinion]
  cases d.verdictOn n envelope r with
  | ok _ => rfl
  | error cause =>
    simp only [Awaited.failure, Errand.awaited, Errand.sending, Errand.delivery,
      Transport.receiptOf, Registration.subscription, hid, isOf.2, htopic]

/-- The failures of a dispatch are those of its errands. -/
theorem filterMap_failure? (h : Dispatching.post envelopes = .ok postings) :
    (d.plan postings).filterMap d.failure? = d.failures envelopes := by
  have hcarries := carries_of_post (d := d) h
  rw [plan, errands, failures, numbered]
  generalize d.transport.lastTicket + 1 = first
  generalize (postings.flatMap fun p => (d.registered p.topic).map (p, ·)) = xs at hcarries ⊢
  generalize d.assignments envelopes = ys at hcarries ⊢
  induction hcarries generalizing first with
  | nil => rfl
  | @cons x y xs ys hxy _ ih =>
    obtain ⟨p, r⟩ := x
    obtain ⟨envelope, r'⟩ := y
    obtain ⟨isOf, rfl, htopic⟩ := hxy
    rw [List.zipIdx_cons, List.zipIdx_cons, List.map_cons, List.filterMap_cons, List.filterMap_cons,
      ih, failure?_of_isOf isOf htopic]

/-- What is sent to an inbox are the envelopes for its registration. -/
theorem map_toInbox (h : Dispatching.post envelopes = .ok postings) (id : Nat) :
    (toInbox id ((d.plan postings).map Errand.sending)).map (fun x => (d.envelope? x).toOption) =
      ((d.assignments envelopes).filter (·.2.id = id)).map
        fun y => (y.1.relayed d.registry).toOption := by
  have hcarries := carries_of_post (d := d) h
  rw [plan, errands]
  generalize d.transport.lastTicket + 1 = first
  generalize (postings.flatMap fun p => (d.registered p.topic).map (p, ·)) = xs at hcarries ⊢
  generalize d.assignments envelopes = ys at hcarries ⊢
  induction hcarries generalizing first with
  | nil => rfl
  | @cons x y xs ys hxy _ ih =>
    obtain ⟨p, r⟩ := x
    obtain ⟨envelope, r'⟩ := y
    obtain ⟨isOf, rfl, htopic⟩ := hxy
    rw [List.zipIdx_cons, List.map_cons, List.map_cons, Transport.toInbox_cons, List.map_append, ih,
      List.filter_cons]
    by_cases hid : r.id = id
    · have hread : (d.envelope? ⟨first, p.topic, p.message⟩).toOption =
          (envelope.relayed d.registry).toOption := by
        rw [envelope?_of_isOf isOf]
        cases envelope.relayed d.registry <;> rfl
      simp [Errand.sending, Errand.delivery, Registration.subscription, hid, hread]
    · simp [Errand.sending, Registration.subscription, hid]

/-! ### Whom envelopes reach -/

theorem filter_id_eq {registrations : List Registration}
    (distinct : (registrations.map Registration.id).Nodup) (hr : r ∈ registrations) :
    registrations.filter (·.id = r.id) = [r] := by
  induction registrations with
  | nil => simp at hr
  | cons r' rest ih =>
    obtain ⟨hnot, hrest⟩ := List.nodup_cons.1 distinct
    rcases List.mem_cons.1 hr with rfl | hr
    · rw [List.filter_cons_of_pos (by simp), List.filter_eq_nil_iff.2]
      intro other hother
      have hne : other.id ≠ r.id := fun heq => hnot (heq ▸ List.mem_map_of_mem hother)
      simpa using hne
    · have hne : r'.id ≠ r.id := fun heq => hnot (heq ▸ List.mem_map_of_mem hr)
      rw [List.filter_cons_of_neg (by simpa using hne), ih hrest hr]

theorem filter_registered (distinct : (d.registrations.map Registration.id).Nodup)
    (hr : r ∈ d.registrations) (topic : String) :
    (d.registered topic).filter (·.id = r.id) = if r.topic = topic then [r] else [] := by
  have hperm := d.handlers.perm_inOrder Registration.id
  rw [registered, Directory.get_eq_filter_items, List.filter_comm,
    filter_id_eq ((hperm.map _).nodup_iff.1 distinct) (hperm.subset hr)]
  by_cases h : r.topic = topic <;> simp [h]

theorem nodup_eraseDups {α : Type} [BEq α] [LawfulBEq α] (l : List α) : l.eraseDups.Nodup := by
  match l with
  | [] => simp
  | a :: rest =>
    rw [List.eraseDups_cons, List.nodup_cons]
    refine ⟨by simp, nodup_eraseDups _⟩
termination_by l.length
decreasing_by
  simp only [List.length_cons]
  exact Nat.lt_succ_of_le (List.length_filter_le ..)

/-- An envelope is for a registration once if the topic is one of its topics, and otherwise not. -/
theorem filter_addressees (distinct : (d.registrations.map Registration.id).Nodup)
    (hr : r ∈ d.registrations) (envelope : Envelope) :
    (d.addressees envelope).filter (·.id = r.id) =
      if r.topic ∈ EventType.topics envelope.event.eventType then [r] else [] := by
  have hnodup : (EventType.topics envelope.event.eventType).Nodup := nodup_eraseDups _
  rw [addressees]
  generalize EventType.topics envelope.event.eventType = topics at hnodup ⊢
  induction topics with
  | nil => rfl
  | cons topic rest ih =>
    obtain ⟨hnot, hrest⟩ := List.nodup_cons.1 hnodup
    -- the topics of a type differ, so the registration is met at most once
    rw [List.flatMap_cons, List.filter_append, filter_registered distinct hr, ih hrest]
    by_cases htopic : r.topic = topic
    · subst htopic
      simp [hnot]
    · simp [htopic]

/-- What is for a registration are the envelopes of its topic. -/
theorem filter_assignments (distinct : (d.registrations.map Registration.id).Nodup)
    (hr : r ∈ d.registrations) (envelopes : List Envelope) :
    ((d.assignments envelopes).filter (·.2.id = r.id)).map
        (fun y => (y.1.relayed d.registry).toOption) = d.inbound r envelopes := by
  rw [assignments, inbound]
  induction envelopes with
  | nil => rfl
  | cons envelope rest ih =>
    rw [List.flatMap_cons, List.filter_append, List.map_append, ih, List.filter_map,
      List.filter_cons]
    have haddressees := filter_addressees distinct hr envelope
    simp only [Function.comp_def, haddressees]
    by_cases htopic : r.topic ∈ EventType.topics envelope.event.eventType <;> simp [htopic]

/-- What is sent to the inbox of a registration are the envelopes of its topic. -/
theorem map_toInbox_plan (distinct : (d.registrations.map Registration.id).Nodup)
    (h : Dispatching.post envelopes = .ok postings) (hr : r ∈ d.registrations) :
    (toInbox r.id ((d.plan postings).map Errand.sending)).map (fun x => (d.envelope? x).toOption) =
      d.inbound r envelopes := by
  rw [map_toInbox h, filter_assignments distinct hr]

end Dispatcher

namespace Dispatching

variable {envelope : Envelope} {envelopes : List Envelope} {published : List Posting}

/-- An envelope is posted once on each of its topics. -/
theorem filter_topic_of_forall₂ {topics : List String} (distinct : topics.Nodup)
    (h : List.Forall₂ (fun p topic => p.IsOf envelope ∧ p.topic = topic) published topics)
    (topic : String) :
    List.Forall₂ Posting.IsOf (published.filter (·.topic = topic))
      (if topic ∈ topics then [envelope] else []) := by
  induction h with
  | nil => exact .nil
  | @cons p t published topics hp _ ih =>
    obtain ⟨isOf, rfl⟩ := hp
    obtain ⟨hnot, hrest⟩ := List.nodup_cons.1 distinct
    by_cases htopic : p.topic = topic
    · subst htopic
      have hnone : published.filter (·.topic = p.topic) = [] := by
        simpa [hnot] using ih hrest
      rw [List.filter_cons_of_pos (by simp), hnone, if_pos (List.mem_cons_self ..)]
      exact .cons isOf .nil
    · have hmem : topic ∈ p.topic :: topics ↔ topic ∈ topics := by simp [Ne.symm htopic]
      rw [List.filter_cons_of_neg (by simpa using htopic)]
      simpa only [hmem] using ih hrest

/-- The postings on one topic are those of the envelopes that have it among their topics. -/
theorem filter_topic_of_post (h : post envelopes = .ok published) (topic : String) :
    List.Forall₂ Posting.IsOf (published.filter (·.topic = topic))
      (envelopes.filter (topic ∈ EventType.topics ·.event.eventType)) := by
  induction envelopes generalizing published with
  | nil =>
    obtain rfl := Except.ok.inj h
    exact .nil
  | cons envelope rest ih =>
    obtain ⟨message, later, hmessage, hlater, rfl⟩ := Dispatcher.post_cons_eq_ok_iff.1 h
    have distinct : (EventType.topics envelope.event.eventType).Nodup :=
      Dispatcher.nodup_eraseDups _
    have hfirst := filter_topic_of_forall₂ distinct (Dispatcher.forall₂_postings hmessage) topic
    rw [List.filter_append]
    by_cases htopic : topic ∈ EventType.topics envelope.event.eventType
    · rw [if_pos htopic] at hfirst
      rw [List.filter_cons_of_pos (by simpa using htopic)]
      exact List.rel_append hfirst (ih hlater)
    · rw [if_neg htopic] at hfirst
      rw [List.filter_cons_of_neg (by simpa using htopic)]
      exact List.rel_append hfirst (ih hlater)

end Dispatching

end EventJournal
