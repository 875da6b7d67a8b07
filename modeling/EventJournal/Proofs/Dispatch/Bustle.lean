import EventJournal.Proofs.Dispatch.Flows

/-!
# A busy dispatcher

Several dispatches publish at the same time, while workers take their turns and registrations are
made and removed, until the dispatcher is closed. Closing may take several steps, with others in
between.

* `Dispatcher.sends`, the errands of one step of a dispatch, and `Dispatcher.Move`, all else that
  can happen to a dispatcher;
* `Dispatcher.Busy`, what holds of a dispatcher at any time, and `Dispatcher.Later`, what time
  leaves as it was.

The main statements are `Dispatcher.Busy.dispatch` and `Dispatcher.Busy.move`.
-/

namespace EventJournal

open Transport (receiptOf)

namespace Dispatcher

/-- The errands of the next step of a dispatch, if it publishes something. -/
def sends (d : Dispatcher) : Dispatching → List Errand
  | .publishing (p :: _) _ => if d.transport.closed then [] else d.plan [p]
  | _ => []

/-- Something happens to a dispatcher, other than that a dispatch takes a step. -/
inductive Move (d : Dispatcher) : List (Nat × WorkerStep) → Dispatcher → Prop
  | keeps : d.Move [] d
  | works {id : Nat} {step : WorkerStep} {d' : Dispatcher} (h : d.work? id = some (step, d')) :
      d.Move [(id, step)] d'
  | subscribes (handler : Handler) (topics : List String) :
      d.Move [] (d.subscribeAll handler topics).2
  | unsubscribes (id : Nat) : d.Move [] (d.unsubscribe id).2
  | closes : d.Move [] d.close
  | bars : d.Move [] { d with closed := true }
  | shuts (barred : d.closed = true) : d.Move [] { d with transport := d.transport.close }
  | stops {r : Registration} (shut : d.transport.closed = true) (hr : r ∈ d.registrations) :
      d.Move [] ({ d with handlers := d.handlers.retain (·.id ≠ r.id) }.stop r)
  | releases (label : String) (permits : Nat) : d.Move [] (d.release label permits).2

/-- A dispatcher at any time, given how it was at first, the registrations that were ever made, what
was sent and what the workers have done. -/
structure Busy (base : Dispatcher) (made : List Registration) (sent : List Errand)
    (log : List (Nat × WorkerStep)) (d : Dispatcher) : Prop where
  registry : d.registry = base.registry
  closed : d.transport.closed = true → d.closed = true
  mirrors : d.transport.closed = false → d.transport.directory.Mirrors d.handlers
  flows : base.Flows made d.registrations sent log d.transport

/-- What a dispatcher keeps as time goes by: registrations that are no more do not come back, no
verdict is changed, and it stays closed. -/
structure Later (d d' : Dispatcher) : Prop where
  registry : d'.registry = d.registry
  lastId : d.transport.lastId ≤ d'.transport.lastId
  registrations : ∀ r ∈ d'.registrations, r ∈ d.registrations ∨ d.transport.lastId < r.id
  verdicts : ∀ ticket verdict, d.transport.verdict? ticket = some verdict →
    d'.transport.verdict? ticket = some verdict
  closed : d.closed = true → d'.closed = true

namespace Later

variable {d d' d'' : Dispatcher}

theorem refl (d : Dispatcher) : d.Later d := ⟨rfl, le_rfl, fun _ => .inl, fun _ _ => id, id⟩

theorem trans (h : d.Later d') (h' : d'.Later d'') : d.Later d'' where
  registry := h'.registry.trans h.registry
  lastId := le_trans h.lastId h'.lastId
  registrations r hr := by
    rcases h'.registrations r hr with hr | hlt
    · exact h.registrations r hr
    · exact .inr (Nat.lt_of_le_of_lt h.lastId hlt)
  verdicts ticket verdict hverdict := h'.verdicts _ _ (h.verdicts _ _ hverdict)
  closed hclosed := h'.closed (h.closed hclosed)

/-- A registration that there was and is has been there all the time. -/
theorem mem_of_mem (h : d.Later d') {r : Registration} (known : r.id ≤ d.transport.lastId)
    (hr : r ∈ d'.registrations) : r ∈ d.registrations :=
  (h.registrations r hr).resolve_right (Nat.not_lt.2 known)

end Later

theorem opinion_congr {d d' : Dispatcher} (h : d.registry = d'.registry) :
    d.opinion = d'.opinion := by
  funext r x
  rw [opinion, opinion, reaction, reaction, envelope?, envelope?, h]

theorem envelope?_congr {d d' : Dispatcher} (h : d.registry = d'.registry) :
    d.envelope? = d'.envelope? := by
  funext x
  rw [envelope?, envelope?, h]

namespace Busy

variable {base d d' : Dispatcher} {made : List Registration} {sent : List Errand}
  {log steps : List (Nat × WorkerStep)} {r : Registration}

/-- A dispatcher without registrations. -/
theorem new (registry : Registry) : Busy { registry } [] [] [] { registry } where
  registry := rfl
  closed := id
  mirrors _ _ := rfl
  flows :=
    ⟨List.Sublist.refl _, .nil, by simp, rfl, rfl, by simp, fun _ _ => rfl, by simp, by simp,
      fun _ _ => ⟨rfl, rfl⟩⟩

theorem known (h : base.Busy made sent log d) (hr : r ∈ d.registrations) :
    r.id ≤ d.transport.lastId :=
  h.flows.known r (h.flows.sublist.subset hr)

/-- The gates have no part in this. -/
theorem gates (h : base.Busy made sent log d) (gates : Table String (Gate Nat)) :
    base.Busy made sent log { d with gates } :=
  ⟨h.registry, h.closed, h.mirrors, h.flows⟩

/-- A dispatch takes a step. -/
theorem dispatch (h : base.Busy made sent log d) {x : Dispatching} {a : Dispatching.Advance}
    (hstep : x.step? d = some a) :
    base.Busy made (sent ++ d.sends x) log a.dispatcher ∧ d.Later a.dispatcher := by
  have hsame : d.sends x = [] → a.dispatcher = d →
      base.Busy made (sent ++ d.sends x) log a.dispatcher ∧ d.Later a.dispatcher := by
    intro hnone heq
    rw [hnone, List.append_nil, heq]
    exact ⟨h, .refl d⟩
  cases x with
  | starting envelopes =>
    simp only [Dispatching.step?] at hstep
    split at hstep
    · obtain rfl := Option.some.inj hstep
      exact hsame rfl rfl
    · split at hstep
      · obtain rfl := Option.some.inj hstep
        exact hsame rfl rfl
      · obtain rfl := Option.some.inj hstep
        exact hsame rfl rfl
  | publishing rest awaited =>
    cases rest with
    | nil =>
      obtain rfl := Option.some.inj hstep
      exact hsame rfl rfl
    | cons p rest =>
      cases hclosed : d.transport.closed with
      | true =>
        simp only [Dispatching.step?, Transport.publish_of_closed hclosed] at hstep
        obtain rfl := Option.some.inj hstep
        exact hsame (by simp [sends, hclosed]) rfl
      | false =>
        obtain ⟨t, hpublish, ⟨hclosed', hdirectory, hlastId, hverdicts⟩, flows⟩ :=
          h.flows.publish hclosed p (h.mirrors hclosed p.topic)
        simp only [Dispatching.step?, hpublish] at hstep
        obtain rfl := Option.some.inj hstep
        have hsends : d.sends (.publishing (p :: rest) awaited) = d.plan [p] := by
          simp [sends, hclosed]
        rw [hsends]
        refine ⟨⟨h.registry, fun shut => h.closed (hclosed'.symm.trans shut),
          fun _ => hdirectory ▸ h.mirrors hclosed, flows⟩,
          rfl, hlastId.ge, fun _ => .inl, fun ticket verdict hverdict => ?_, id⟩
        rw [Transport.verdict?, hverdicts]
        exact hverdict
  | awaiting rest failures =>
    cases rest with
    | nil =>
      obtain rfl := Option.some.inj hstep
      exact hsame rfl rfl
    | cons y rest =>
      simp only [Dispatching.step?] at hstep
      split at hstep
      · simp at hstep
      · obtain rfl := Option.some.inj hstep
        exact hsame rfl rfl
      · obtain rfl := Option.some.inj hstep
        exact hsame rfl rfl
  | done result => simp [Dispatching.step?] at hstep

/-- A worker takes a step. -/
theorem work (h : base.Busy made sent log d) {id : Nat} {step : WorkerStep}
    (hwork : d.work? id = some (step, d')) :
    base.Busy made sent (log ++ [(id, step)]) d' ∧ d.Later d' := by
  obtain ⟨r, hr, rfl, does⟩ := work?_cases hwork
  cases does with
  | took hand inbox =>
    rw [envelope?_congr h.registry]
    exact ⟨⟨h.registry, h.closed, h.mirrors, h.flows.take hr hand inbox⟩,
      rfl, le_rfl, fun _ => .inl, fun _ _ => id, id⟩
  | asked hand gates =>
    exact ⟨Busy.gates ⟨h.registry, h.closed, h.mirrors, h.flows.ask r.id⟩ gates,
      rfl, le_rfl, fun _ => .inl, fun _ _ => id, id⟩
  | @judged x hand gates =>
    have hsettle : ∀ verdict, (d.transport.settle x.ticket verdict).closed = d.transport.closed ∧
        (d.transport.settle x.ticket verdict).directory = d.transport.directory ∧
        (d.transport.settle x.ticket verdict).lastId = d.transport.lastId := by
      intro verdict
      unfold Transport.settle
      split <;> exact ⟨rfl, rfl, rfl⟩
    obtain ⟨hclosed, hdirectory, hlastId⟩ := hsettle (d.opinion r x)
    refine ⟨⟨h.registry, fun shut => h.closed (hclosed.symm.trans shut),
      fun opened => hdirectory ▸ h.mirrors (hclosed.symm.trans opened), ?_⟩,
      rfl, hlastId.ge, fun _ => .inl, fun _ _ => h.flows.verdict?_judge hr hand _, id⟩
    rw [opinion_congr h.registry]
    exact h.flows.judge hr hand

/-- A handler is put on a topic. -/
theorem subscribe (h : base.Busy made sent log d) {topic : String} {handler : Handler} {id : Nat}
    (ok : d.subscribe topic handler = .ok (id, d')) :
    (∃ r, base.Busy (made ++ [r]) sent log d') ∧ d.Later d' := by
  cases hclosed : d.closed with
  | true => simp [Dispatcher.subscribe, hclosed] at ok
  | false =>
    have opened : d.transport.closed = false := by
      rw [← Bool.not_eq_true]
      exact fun shut => by simp [h.closed shut] at hclosed
    simp only [Dispatcher.subscribe, Transport.subscribe, hclosed, opened, Bool.false_eq_true,
      if_false] at ok
    obtain ⟨rfl, rfl⟩ := Prod.mk.inj (Except.ok.inj ok)
    let r : Registration := ⟨d.transport.lastId + 1, topic, handler⟩
    have hadd : (d.handlers.add r).inOrder Registration.id = d.registrations ++ [r] :=
      Directory.inOrder_add fun r' hr' => Nat.lt_succ_of_le (h.known (Directory.mem_inOrder.2 hr'))
    constructor
    · refine ⟨r, h.registry, by simp, fun _ => (h.mirrors opened).add r, ?_⟩
      rw [registrations, hadd]
      exact (h.flows.subscribe topic handler).table false _
    · refine ⟨rfl, Nat.le_succ _, fun r hr => ?_, fun _ _ => id, by simp [hclosed]⟩
      rw [registrations, hadd] at hr
      rcases List.mem_append.1 hr with hr | hr
      · exact .inl hr
      · rw [List.mem_singleton.1 hr]
        exact .inr (Nat.lt_succ_self _)

theorem subscribeAll (h : base.Busy made sent log d) (handler : Handler) (topics : List String) :
    (∃ more, base.Busy (made ++ more) sent log (d.subscribeAll handler topics).2) ∧
      d.Later (d.subscribeAll handler topics).2 := by
  induction topics generalizing d made with
  | nil => exact ⟨⟨[], by rwa [List.append_nil]⟩, .refl d⟩
  | cons topic rest ih =>
    rw [Dispatcher.subscribeAll]
    split
    · exact ⟨⟨[], by rwa [List.append_nil]⟩, .refl d⟩
    · next id d' ok =>
      obtain ⟨⟨r, busy⟩, later⟩ := h.subscribe ok
      obtain ⟨⟨more, busy'⟩, later'⟩ := ih busy
      have hall : (∃ more, base.Busy (made ++ more) sent log (d'.subscribeAll handler rest).2) ∧
          d.Later (d'.subscribeAll handler rest).2 := by
        refine ⟨⟨r :: more, ?_⟩, later.trans later'⟩
        rwa [List.append_assoc] at busy'
      split
      · next heq => rwa [heq] at hall
      · next heq => rwa [heq] at hall

/-- A registration is no more, and its worker is stopped. -/
theorem dismiss (h : base.Busy made sent log d) {directory : Directory Subscription.topic}
    (mirrors : d.transport.closed = false →
      directory.Mirrors (d.handlers.retain (·.id ≠ r.id)))
    (hr : r ∈ d.registrations) :
    let d' := stop { d with
      transport := { d.transport with directory }
      handlers := d.handlers.retain (·.id ≠ r.id) } r
    base.Busy made sent log d' ∧ d.Later d' := by
  have hflows := h.flows.table d.transport.closed directory
  have hretain : (d.handlers.retain (·.id ≠ r.id)).inOrder Registration.id =
      d.registrations.filter (·.id ≠ r.id) := d.handlers.inOrder_retain ..
  have hgone : r ∉ d.registrations.filter (·.id ≠ r.id) := by simp
  have hothers : ∀ r' ∈ made, r'.id ≠ r.id →
      (r' ∈ d.registrations.filter (·.id ≠ r.id) ↔ r' ∈ d.registrations) := by
    intro r' _ hid
    simp [hid]
  refine ⟨⟨h.registry, h.closed, mirrors, ?_⟩, rfl, le_rfl, fun r' hr' => .inl ?_,
    fun _ _ => hflows.verdict?_stop hr, id⟩
  · show base.Flows made ((d.handlers.retain _).inOrder _) sent log _
    rw [hretain]
    exact hflows.stop hr hgone List.filter_sublist hothers
  · have hr'' : r' ∈ (d.handlers.retain _).inOrder Registration.id := hr'
    rw [hretain] at hr''
    exact (List.mem_filter.1 hr'').1

/-- A registration is removed. -/
theorem unsubscribe (h : base.Busy made sent log d) (id : Nat) :
    base.Busy made sent log (d.unsubscribe id).2 ∧ d.Later (d.unsubscribe id).2 := by
  have hmirrors := fun opened => (h.mirrors opened).retain id
  unfold Dispatcher.unsubscribe
  simp only
  split
  · next hnone =>
    have hkept : (d.handlers.retain (·.id ≠ id)).inOrder Registration.id = d.registrations := by
      rw [Directory.inOrder_retain]
      refine List.filter_eq_self.2 fun r hr => ?_
      simpa using List.find?_eq_none.1 hnone r hr
    have hflows := h.flows.table d.transport.closed (d.transport.directory.retain (·.id ≠ id))
    refine ⟨⟨h.registry, h.closed, hmirrors, ?_⟩, rfl, le_rfl, fun r hr => .inl (hkept ▸ hr),
      fun _ _ hverdict => hverdict, fun hclosed => hclosed⟩
    rw [registrations, hkept]
    exact hflows
  · next r hsome =>
    obtain rfl : r.id = id := by simpa using List.find?_some hsome
    exact h.dismiss hmirrors (List.mem_of_find?_eq_some hsome)

theorem foldl_stop (registrations : List Registration) (d : Dispatcher) :
    ∃ gates, registrations.foldl stop d =
      { d with
        gates, transport := registrations.foldl (fun t r => t.dropReader r.id) d.transport } := by
  induction registrations generalizing d with
  | nil => exact ⟨d.gates, rfl⟩
  | cons r rest ih =>
    obtain ⟨gates, hrest⟩ := ih (d.stop r)
    exact ⟨gates, hrest⟩

theorem foldl_dropReader (registrations : List Registration) (t : Transport) :
    (registrations.foldl (fun t r => t.dropReader r.id) t).closed = t.closed ∧
      (registrations.foldl (fun t r => t.dropReader r.id) t).directory = t.directory ∧
      (registrations.foldl (fun t r => t.dropReader r.id) t).lastId = t.lastId := by
  induction registrations generalizing t with
  | nil => exact ⟨rfl, rfl, rfl⟩
  | cons r rest ih => exact ih (t.dropReader r.id)

/-- The dispatcher is closed. -/
theorem close (h : base.Busy made sent log d) :
    base.Busy made sent log d.close ∧ d.Later d.close := by
  unfold Dispatcher.close
  split
  · exact ⟨h, .refl d⟩
  · obtain ⟨gates, hstop⟩ := foldl_stop d.registrations
      { d with closed := true, transport := d.transport.close, handlers := .empty }
    obtain ⟨hclosed, hdirectory, hlastId⟩ :=
      foldl_dropReader d.registrations d.transport.close
    obtain ⟨flows, kept⟩ := (h.flows.table true .empty).stopAll
    rw [hstop]
    refine ⟨⟨h.registry, fun _ => rfl, fun _ topic => ?_, flows⟩, rfl, hlastId.ge,
      fun r hr => ?_, kept, fun _ => rfl⟩
    · show Directory.get (Transport.directory _) topic = _
      rw [hdirectory]
      rfl
    · exact absurd hr (by simp [registrations])

/-- Whatever happens to a dispatcher keeps deliveries in their lines. -/
theorem move (h : base.Busy made sent log d) (move : d.Move steps d') :
    (∃ more, base.Busy (made ++ more) sent (log ++ steps) d') ∧ d.Later d' := by
  have hsame : base.Busy made sent (log ++ steps) d' ∧ d.Later d' →
      (∃ more, base.Busy (made ++ more) sent (log ++ steps) d') ∧ d.Later d' := by
    rintro ⟨busy, later⟩
    exact ⟨⟨[], by rwa [List.append_nil]⟩, later⟩
  cases move with
  | works hwork => exact hsame (h.work hwork)
  | keeps =>
    rw [List.append_nil] at hsame ⊢
    exact hsame ⟨h, .refl d⟩
  | subscribes handler topics =>
    rw [List.append_nil]
    exact h.subscribeAll handler topics
  | unsubscribes id =>
    rw [List.append_nil] at hsame ⊢
    exact hsame (h.unsubscribe id)
  | closes =>
    rw [List.append_nil] at hsame ⊢
    exact hsame h.close
  | bars =>
    rw [List.append_nil] at hsame ⊢
    exact hsame ⟨⟨h.registry, fun _ => rfl, h.mirrors, h.flows⟩, rfl, le_rfl,
      fun _ => .inl, fun _ _ => id, fun _ => rfl⟩
  | shuts barred =>
    rw [List.append_nil] at hsame ⊢
    exact hsame ⟨⟨h.registry, fun _ => barred, by simp [Transport.close], h.flows.table true .empty⟩,
      rfl, le_rfl, fun _ => .inl, fun _ _ => id, id⟩
  | stops shut hr =>
    rw [List.append_nil] at hsame ⊢
    exact hsame (h.dismiss (by simp [shut]) hr)
  | releases label permits =>
    rw [List.append_nil] at hsame ⊢
    exact hsame ⟨h.gates _, rfl, le_rfl, fun _ => .inl, fun _ _ => id, id⟩

end Busy

end Dispatcher

end EventJournal
