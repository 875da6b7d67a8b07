import EventJournal.Proofs.Dispatch.Courses

/-!
# How a dispatch ends

Whatever has happened so far, a dispatch can be brought to its end: every worker can go on, at worst
after its handler has been given a permit, until all its deliveries are judged.

* `Dispatcher.judge?_of_ready`, when a worker can judge;
* `Dispatching.exists_judge`, `Dispatching.exists_served`: how the workers go on.

The main statement is `Dispatching.exists_done`.
-/

namespace EventJournal

open Transport (toInbox)

namespace Dispatching

variable {s s' s'' : Dispatching × Dispatcher} {log new : List (Nat × WorkerStep)}

theorem Course.trans (h : Course s log s') (h' : Course s' new s'') :
    Course s (log ++ new) s'' := by
  induction h' with
  | start => rwa [List.append_nil]
  | move _ move ih =>
    rw [← List.append_assoc]
    exact ih.move move

theorem Course.single (move : Move s new s') : Course s new s' := by
  simpa using Course.start.move move

end Dispatching

namespace Dispatcher

variable {d₀ d : Dispatcher} {sent : List (Subscription × Delivery)}
  {log : List (Nat × WorkerStep)} {r : Registration} {y : Delivery}

namespace Works

theorem find?_registrations (works : d₀.Works sent log d) (hr : r ∈ d₀.registrations) :
    d.registrations.find? (·.id = r.id) = some r := by
  rw [works.registrations]
  cases hfind : d₀.registrations.find? (·.id = r.id) with
  | none => simpa using List.find?_eq_none.1 hfind r hr
  | some r' =>
    have hid : r'.id = r.id := by simpa using List.find?_some hfind
    rw [List.inj_on_of_nodup_map works.before.distinct (List.mem_of_find?_eq_some hfind) hr hid]

/-- A worker that has a delivery in hand is to judge it. -/
theorem work?_of_holding (works : d₀.Works sent log d) (hr : r ∈ d₀.registrations)
    (hand : d.transport.heldBy? r.id = some y) : d.work? r.id = d.judge? r y := by
  simp only [work?, works.find?_registrations hr, hand]

/-- A worker that has nothing in hand is to take something. -/
theorem work?_of_free (works : d₀.Works sent log d) (hr : r ∈ d₀.registrations)
    (hand : d.transport.heldBy? r.id = none) : d.work? r.id = d.take? r := by
  simp only [work?, works.find?_registrations hr, hand]

end Works

/-- A worker judges the delivery in hand, unless its handler needs a permit that it does not
have. -/
theorem judge?_of_ready (ready : ∀ outcome, d.reaction r y = .ok (.afterPermit outcome) →
      r.id ∈ (d.gate r.handler.label).admitted) :
    ∃ step d', d.judge? r y = some (step, d') ∧
      d'.transport = d.transport.settle y.ticket (d.opinion r y) := by
  unfold judge?
  cases hreaction : d.reaction r y with
  | error cause => exact ⟨_, _, rfl, by simp [opinion, hreaction]⟩
  | ok reaction =>
    cases reaction with
    | now outcome =>
      exact ⟨_, _, rfl, by simp [opinion, hreaction, Handler.Reaction.outcome]⟩
    | afterPermit outcome =>
      simp only [Gate.pass?, if_pos (ready outcome hreaction)]
      exact ⟨_, _, rfl, by simp [opinion, hreaction, Handler.Reaction.outcome]⟩

/-- A worker whose handler needs a permit asks for one, unless it has done so before. -/
theorem judge?_of_asking {outcome : Handler.Outcome}
    (hreaction : d.reaction r y = .ok (.afterPermit outcome))
    (notAdmitted : r.id ∉ (d.gate r.handler.label).admitted)
    (notWaiting : r.id ∉ (d.gate r.handler.label).waiting) :
    d.judge? r y = some (.asked,
      { d with gates := d.gates.set r.handler.label ((d.gate r.handler.label).join r.id) }) := by
  unfold judge?
  simp [hreaction, Gate.pass?, notAdmitted, notWaiting]

end Dispatcher

namespace Gate

variable {α : Type} {g : Gate α} {a : α}

/-- Whoever comes to a gate waits there or is admitted. -/
theorem mem_join (g : Gate α) (a : α) : a ∈ (g.join a).waiting ∨ a ∈ (g.join a).admitted := by
  unfold join
  split <;> simp

/-- Enough permits admit everybody who waits. -/
theorem mem_admitted_release (h : a ∈ g.waiting ∨ a ∈ g.admitted) :
    a ∈ (g.release g.waiting.length).admitted := by
  rcases h with h | h
  · exact List.mem_append_right _ (by rwa [List.take_length])
  · exact List.mem_append_left _ h

end Gate

namespace Dispatching

variable {d₀ d : Dispatcher} {sent : List (Subscription × Delivery)}
  {log : List (Nat × WorkerStep)} {r : Registration} {y : Delivery}

/-- A worker whose handler needs a permit can be given one. -/
theorem exists_admitted (works : d₀.Works sent log d) (hr : r ∈ d₀.registrations)
    (hand : d.transport.heldBy? r.id = some y) {outcome : Handler.Outcome}
    (hreaction : d.reaction r y = .ok (.afterPermit outcome)) (x : Dispatching) :
    ∃ new d', Course (x, d) new (x, d') ∧ d₀.Works sent (log ++ new) d' ∧
      d'.transport = d.transport ∧ r.id ∈ (d'.gate r.handler.label).admitted := by
  -- it asks for a permit, if it has not yet done so, and then there are enough for all who wait
  have hasked : ∃ new d', Course (x, d) new (x, d') ∧ d₀.Works sent (log ++ new) d' ∧
      d'.transport = d.transport ∧ (r.id ∈ (d'.gate r.handler.label).waiting ∨
        r.id ∈ (d'.gate r.handler.label).admitted) := by
    by_cases there : r.id ∈ (d.gate r.handler.label).waiting ∨
        r.id ∈ (d.gate r.handler.label).admitted
    · exact ⟨[], d, .start, by rwa [List.append_nil], rfl, there⟩
    · obtain ⟨notWaiting, notAdmitted⟩ := not_or.1 there
      have hwork := (works.work?_of_holding hr hand).trans
        (Dispatcher.judge?_of_asking hreaction notAdmitted notWaiting)
      refine ⟨_, _, .single (.work hwork), works.work hwork, rfl, ?_⟩
      simpa [Dispatcher.gate] using Gate.mem_join (d.gate r.handler.label) r.id
  obtain ⟨new, d', course, works', htransport, hthere⟩ := hasked
  refine ⟨new ++ [], _, course.trans (.single (.release r.handler.label
    (d'.gate r.handler.label).waiting.length)), ?_, htransport, ?_⟩
  · rw [List.append_nil]
    exact works'.gates _
  · simpa [Dispatcher.release, Dispatcher.gate] using Gate.mem_admitted_release hthere

/-- A worker can judge the delivery that it has in hand, at worst after it has been given a
permit. -/
theorem exists_judge (works : d₀.Works sent log d) (hr : r ∈ d₀.registrations)
    (hand : d.transport.heldBy? r.id = some y) (x : Dispatching) :
    ∃ new d', Course (x, d) new (x, d') ∧ d₀.Works sent (log ++ new) d' ∧
      d'.transport = d.transport.settle y.ticket (d₀.opinion r y) := by
  have hready : ∃ new d', Course (x, d) new (x, d') ∧ d₀.Works sent (log ++ new) d' ∧
      d'.transport = d.transport ∧ ∀ outcome, d'.reaction r y = .ok (.afterPermit outcome) →
        r.id ∈ (d'.gate r.handler.label).admitted := by
    by_cases hneeds : ∃ outcome, d.reaction r y = .ok (.afterPermit outcome)
    · obtain ⟨outcome, hreaction⟩ := hneeds
      obtain ⟨new, d', course, works', htransport, hadmitted⟩ :=
        exists_admitted works hr hand hreaction x
      exact ⟨new, d', course, works', htransport, fun _ _ => hadmitted⟩
    · exact ⟨[], d, .start, by rwa [List.append_nil], rfl,
        fun outcome hreaction => (hneeds ⟨outcome, hreaction⟩).elim⟩
  obtain ⟨new, d', course, works', htransport, ready⟩ := hready
  obtain ⟨step, d'', hjudge, hsettled⟩ := Dispatcher.judge?_of_ready ready
  have hwork := (works'.work?_of_holding hr (htransport ▸ hand)).trans hjudge
  refine ⟨new ++ [(r.id, step)], d'', course.trans (.single (.work hwork)), ?_, ?_⟩
  · rw [← List.append_assoc]
    exact works'.work hwork
  · rw [hsettled, htransport, works'.opinion_eq]

/-- A worker that has nothing in hand can take what waits. -/
theorem exists_take (works : d₀.Works sent log d) (hr : r ∈ d₀.registrations)
    {rest : List Delivery} (hand : d.transport.heldBy? r.id = none)
    (inbox : d.transport.inboxes.get? r.id = some (y :: rest)) (x : Dispatching) :
    ∃ new d', Course (x, d) new (x, d') ∧ d₀.Works sent (log ++ new) d' ∧
      d'.transport.inboxes.get? r.id = some rest := by
  have hwork := works.work?_of_free hr hand
  simp only [Dispatcher.take?, Transport.receive, inbox] at hwork
  exact ⟨_, _, .single (.work hwork), works.work hwork, Table.get?_set_self ..⟩

theorem inboxes_settle (t : Transport) (ticket : Nat) (verdict : Verdict) :
    (t.settle ticket verdict).inboxes = t.inboxes := by
  unfold Transport.settle
  split <;> rfl

/-- A worker can get rid of what it has in hand. -/
theorem exists_emptyHanded (works : d₀.Works sent log d) (hr : r ∈ d₀.registrations)
    {waiting : List Delivery} (inbox : d.transport.inboxes.get? r.id = some waiting)
    (x : Dispatching) :
    ∃ new d', Course (x, d) new (x, d') ∧ d₀.Works sent (log ++ new) d' ∧
      d'.transport.inboxes.get? r.id = some waiting ∧ d'.transport.heldBy? r.id = none := by
  cases hand : d.transport.heldBy? r.id with
  | none => exact ⟨[], d, .start, by rwa [List.append_nil], inbox, hand⟩
  | some y =>
    obtain ⟨new, d', course, works', htransport⟩ := exists_judge works hr hand x
    obtain ⟨judged, held, waiting', serves⟩ := works.serves r hr
    obtain rfl := serves.lane.heldBy?_eq.symm.trans hand
    have hlane := serves.lane.settle (works.ticket_ne_held serves)
    exact ⟨new, d', course, works', by rw [htransport, inboxes_settle, inbox],
      by rw [htransport, hlane.heldBy?_eq]⟩

/-- A worker can judge everything that was sent to it. -/
theorem exists_served (works : d₀.Works sent log d) (hr : r ∈ d₀.registrations) (x : Dispatching) :
    ∃ new d', Course (x, d) new (x, d') ∧ d₀.Works sent (log ++ new) d' ∧
      ∃ all, d₀.Serves sent (log ++ new) d'.transport r all none [] := by
  obtain ⟨_, _, waiting, serves⟩ := works.serves r hr
  have inbox := serves.lane.inbox
  -- on what waits in the inbox: the rest of the lane changes on the way
  clear serves
  induction waiting generalizing d log with
  | nil =>
    obtain ⟨new, d', course, works', inbox', hand⟩ := exists_emptyHanded works hr inbox x
    obtain ⟨all, held, waiting, serves⟩ := works'.serves r hr
    obtain rfl := serves.lane.heldBy?_eq.symm.trans hand
    obtain rfl := Option.some.inj (serves.lane.inbox.symm.trans inbox')
    exact ⟨new, d', course, works', all, serves⟩
  | cons y rest ih =>
    obtain ⟨new, d₁, course, works₁, inbox₁, hand⟩ := exists_emptyHanded works hr inbox x
    obtain ⟨new', d₂, course', works₂, inbox₂⟩ := exists_take works₁ hr hand inbox₁ x
    obtain ⟨new'', d', course'', works', served⟩ := ih works₂ inbox₂
    simp only [List.append_assoc] at works' served
    exact ⟨new ++ (new' ++ new''), d', course.trans (course'.trans course''), works', served⟩

variable {envelopes : List Envelope} {rest : List Awaited} {failures : List HandlerFailure}

/-- What a dispatch awaits is the verdict on something that it has sent. -/
theorem Stands.exists_errand {a : Awaited}
    (h : Stands d₀ envelopes d sent (.awaiting (a :: rest) failures)) :
    ∃ y : Errand, a = y.awaited ∧ y.registration ∈ d₀.registrations ∧ y.sending ∈ sent := by
  generalize hx : Dispatching.awaiting (a :: rest) failures = x at h
  cases h with
  | @awaiting postings noted later _ posted plan judged failures_eq =>
    obtain ⟨hrest, -⟩ := Dispatching.awaiting.inj hx
    obtain ⟨y, later, rfl, ha, -⟩ := List.map_eq_cons_iff.1 hrest.symm
    have hy : y ∈ d₀.plan postings := by simp [plan]
    exact ⟨y, ha.symm, Dispatcher.mem_registrations_of_errand hy, List.mem_map_of_mem hy⟩
  | _ => simp at hx

/-- A dispatch that awaits verdicts can get all of them. -/
theorem exists_done_of_awaiting (works : d₀.Works sent log d)
    (stands : Stands d₀ envelopes d sent (.awaiting rest failures)) :
    ∃ new result d', Course (.awaiting rest failures, d) new (.done result, d') := by
  induction rest generalizing failures sent d log with
  | nil =>
    have hstep : step? d (.awaiting [] failures) = some ⟨.done (conclude failures), d, none, []⟩ :=
      rfl
    exact ⟨[], conclude failures, d, .single (.advance hstep)⟩
  | cons a rest ih =>
    obtain ⟨y, rfl, hr, hsent⟩ := stands.exists_errand
    obtain ⟨new, d₁, course, works₁, all, serves⟩ :=
      exists_served works hr (.awaiting (y.awaited :: rest) failures)
    have hmem : y.delivery ∈ toInbox y.registration.id sent :=
      List.mem_map.2 ⟨_, List.mem_filter.2 ⟨hsent, by simp [Errand.sending,
        Registration.subscription]⟩, rfl⟩
    rw [serves.sent, Option.toList_none, List.append_nil, List.append_nil] at hmem
    have hverdict : d₁.transport.verdict? y.awaited.receipt.ticket = some _ :=
      serves.lane.judged _ hmem
    have hstep : ∃ failures', step? d₁ (.awaiting (y.awaited :: rest) failures) =
        some ⟨.awaiting rest failures', d₁, none, []⟩ := by
      simp only [step?, hverdict]
      rcases d₀.opinion y.registration y.delivery with cause | _
      · exact ⟨_, rfl⟩
      · exact ⟨_, rfl⟩
    obtain ⟨failures', hstep⟩ := hstep
    have course₁ := course.trans (.single (.advance hstep))
    obtain ⟨sent₁, works', stands'⟩ := course₁.keeps works stands
    obtain ⟨new', result, d', course'⟩ := ih works' stands'
    exact ⟨_, result, d', course₁.trans course'⟩

/-- A dispatch that takes a step comes to its end if it does so from there. -/
theorem exists_done_of_step {x : Dispatching} {a : Advance} (works : d₀.Works sent log d)
    (stands : Stands d₀ envelopes d sent x) (hstep : step? d x = some a)
    (later : ∀ {sent'}, d₀.Works sent' log a.dispatcher →
      Stands d₀ envelopes a.dispatcher sent' a.next →
        ∃ new result d', Course (a.next, a.dispatcher) new (.done result, d')) :
    ∃ new result d', Course (x, d) new (.done result, d') := by
  obtain ⟨sent', works', stands'⟩ := stands.advance works hstep
  obtain ⟨new, result, d', course⟩ := later works' stands'
  exact ⟨_, result, d', (Course.single (.advance hstep)).trans course⟩

/-- A dispatch that publishes can publish everything. -/
theorem exists_done_of_publishing {postings : List Posting} {awaited : List Awaited}
    (works : d₀.Works sent log d)
    (stands : Stands d₀ envelopes d sent (.publishing postings awaited)) :
    ∃ new result d', Course (.publishing postings awaited, d) new (.done result, d') := by
  induction postings generalizing awaited sent d log with
  | nil =>
    have hstep : step? d (.publishing [] awaited) = some ⟨.awaiting awaited [], d, none, []⟩ := rfl
    exact exists_done_of_step works stands hstep exists_done_of_awaiting
  | cons p rest ih =>
    obtain ⟨t, hpublish, -⟩ := works.publish p.topic p.message
    have hstep : ∃ awaited' counted reached, step? d (.publishing (p :: rest) awaited) =
        some ⟨.publishing rest awaited', { d with transport := t }, counted, reached⟩ := by
      simp only [step?, hpublish]
      exact ⟨_, _, _, rfl⟩
    obtain ⟨awaited', counted, reached, hstep⟩ := hstep
    exact exists_done_of_step works stands hstep ih

/-- A dispatch can be brought to its end, wherever it stands. -/
theorem exists_done {x : Dispatching} (works : d₀.Works sent log d)
    (stands : Stands d₀ envelopes d sent x) :
    ∃ new result d', Course (x, d) new (.done result, d') := by
  cases x with
  | starting envelopes' =>
    cases hpost : post envelopes' with
    | error e =>
      have hstep : step? d (.starting envelopes') = some ⟨.done (.error e), d, none, []⟩ := by
        simp [step?, works.opened.1, hpost]
      exact ⟨_, _, _, .single (.advance hstep)⟩
    | ok postings =>
      have hstep : step? d (.starting envelopes') =
          some ⟨.publishing postings [], d, none, []⟩ := by
        simp [step?, works.opened.1, hpost]
      exact exists_done_of_step works stands hstep exists_done_of_publishing
  | publishing rest awaited => exact exists_done_of_publishing works stands
  | awaiting rest failures => exact exists_done_of_awaiting works stands
  | done result => exact ⟨[], result, d, .start⟩

end Dispatching

end EventJournal
