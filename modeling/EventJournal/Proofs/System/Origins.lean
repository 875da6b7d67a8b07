import EventJournal.Proofs.UnitOfWork.Phases

/-!
# Where events come from

The events that a call saves have come into the system with an action, which asked for the save or
registered them on the unit of work, unless the call carries out a command to an order.

* `History.Brings`, that an event has come with an action;
* `Run.brought`, the events on the units of work that are known;
* `Call.Stage.Given`, the events of a call.

The main statement is `Run.given`.
-/

namespace EventJournal

/-- An event has come into the system with an action. -/
def History.Brings (h : History) (e : Event) : Prop := ∃ m ∈ h, e ∈ m.action.events

/-- What a call is to save has come with actions, or lies on a unit of work that is known. -/
def Call.Stage.Given (h : History) : Call.Stage → Prop
  | .loading .. | .loaded .. | .deciding .. => False
  | .queued unit | .entered unit => h.Knows unit
  | .held _ events => ∀ e ∈ events, h.Brings e
  | .saving _ envelopes _ _ => ∀ e ∈ envelopes.map Envelope.event, h.Brings e
  | _ => True

theorem History.brings_append {h others : History} {e : Event} :
    Brings (h ++ others) e ↔ h.Brings e ∨ others.Brings e := by
  simp [Brings, or_and_right, exists_or]

theorem History.Brings.append {h : History} {e : Event} (brings : h.Brings e) (others : History) :
    Brings (h ++ others) e := by
  obtain ⟨m', hm', he⟩ := brings
  exact ⟨m', List.mem_append_left _ hm', he⟩

theorem History.Asks.append {h : History} {call : Nat} {a : Action} (asks : h.Asks call a)
    (others : History) : Asks (h ++ others) call a := by
  obtain ⟨m', hm', hasked⟩ := asks
  exact ⟨m', List.mem_append_left _ hm', hasked⟩

/-- Actions without events bring none in any course. -/
theorem History.not_brings_course {s : System} {actions : List Action} {e : Event}
    (h : ∀ a ∈ actions, a.events.isEmpty = true) : ¬ (s.course actions).Brings e := by
  rintro ⟨m, hm, he⟩
  have hmem : m.action ∈ (s.course actions).map Moment.action := List.mem_map_of_mem hm
  rw [System.map_action_course] at hmem
  rw [List.isEmpty_iff.1 (h _ hmem)] at he
  simp at he

theorem Call.Stage.Given.concat {h : History} {stage : Call.Stage} (given : stage.Given h)
    (m : Moment) : stage.Given (h ++ [m]) := by
  cases stage with
  | loading => exact given.elim
  | loaded => exact given.elim
  | deciding => exact given.elim
  | queued unit => exact History.knows_concat.2 (.inl given)
  | entered unit => exact History.knows_concat.2 (.inl given)
  | held purpose events => exact fun e he => (given e he).append [m]
  | saving purpose envelopes since save => exact fun e he => (given e he).append [m]
  | _ => trivial

namespace Ledger

variable {l l' : Ledger}

/-- Events get onto a unit of work that there is only with an action. -/
theorem mem_buffered {unit : Nat} {e : Event} {events : List Event} {a : Action}
    (he : e ∈ l.buffered unit events a) (made : unit ≤ l.lastUnit) : e ∈ events ∨ e ∈ a.events := by
  have hne : unit ≠ l.lastUnit + 1 := by omega
  cases a with
  | newUnit mode =>
    rw [buffered, if_neg hne] at he
    exact .inl he
  | register other new =>
    rw [buffered] at he
    split at he
    · exact List.mem_append.1 he
    · exact .inl he
  | rollback other =>
    rw [buffered] at he
    split at he
    · simp at he
    · exact .inl he
  | step agent =>
    cases agent with
    | call call =>
      rw [buffered] at he
      cases hstage : l.calls.get? call with
      | none =>
        rw [hstage] at he
        exact .inl he
      | some stage =>
        rw [hstage, Option.map_some, Option.getD_some] at he
        refine .inl ?_
        unfold decided at he
        split at he
        · split at he
          · rwa [if_neg hne] at he
          · exact he
        · exact he
    | _ => exact .inl he
  | _ => exact .inl he

/-- A step of a call saves only what the call was given. -/
theorem CallStep.given {h : History} {call : Nat} {stage : Call.Stage}
    (callStep : l.CallStep call stage l') (given : stage.Given h)
    (brought : ∀ {unit u}, h.Knows unit → l.units.get? unit = some u → ∀ e ∈ u.events, h.Brings e) :
    ∃ stage', l'.calls = l.calls.set call stage' ∧ stage'.Given h := by
  cases callStep with
  | loaded => exact given.elim
  | timed => exact given.elim
  | decided => exact given.elim
  | entered => exact ⟨_, rfl, given⟩
  | fixed get begin =>
    obtain ⟨-, rfl, -⟩ := UnitOfWork.begin_eq_ok_iff.1 begin
    exact ⟨_, rfl, brought given get⟩
  | unprepared _ _ failed => cases failed <;> exact ⟨_, rfl, trivial⟩
  | prepared nonempty prepare =>
    refine ⟨_, rfl, fun e he => given e ?_⟩
    rwa [map_envelope_of_prepare prepare] at he
  | asked => exact ⟨_, rfl, given⟩
  | stored _ completed => cases completed <;> exact ⟨_, rfl, trivial⟩
  | failed _ failed => cases failed <;> exact ⟨_, rfl, trivial⟩
  | _ => exact ⟨_, rfl, trivial⟩

end Ledger

namespace Run

variable {s₀ s : System} {h : History}

theorem knows_le (run : Run s₀ h s) (fresh : s₀.Fresh) {unit : Nat} (knows : h.Knows unit) :
    unit ≤ s.lastUnit := by
  obtain ⟨tidy, hunits⟩ := run.tidy fresh
  obtain ⟨u, hu⟩ := hunits unit knows
  exact tidy.unit_le hu

/-- What has been registered on a unit of work that is known has come with actions. -/
theorem brings_of_registered (run : Run s₀ h s) (fresh : s₀.Fresh) {unit : Nat}
    (knows : h.Knows unit) {e : Event} (he : e ∈ h.registered unit) : h.Brings e := by
  induction run with
  | nil => simp [History.registered] at he
  | @snoc h s s' a run known perform ih =>
    rw [History.registered_concat] at he
    rcases History.knows_concat.1 knows with hold | hnew
    · rcases Ledger.mem_buffered he (run.knows_le fresh hold) with he | he
      · exact (ih hold he).append _
      · exact ⟨_, List.mem_append_right _ (List.mem_singleton_self _), he⟩
    · -- a unit that is made on request holds nothing
      cases a with
      | newUnit mode =>
        have hnone : s.ledger.buffered (s.lastUnit + 1) (h.registered unit) (.newUnit mode) = [] :=
          if_pos rfl
        have heq : s.lastUnit + 1 = unit := Option.some.inj hnew
        rw [heq] at hnone
        rw [hnone] at he
        simp at he
      | _ => simp [Moment.newUnit?] at hnew

theorem brought (run : Run s₀ h s) (fresh : s₀.Fresh) {unit : Nat} {u : UnitOfWork}
    (knows : h.Knows unit) (hget : s.units.get? unit = some u) : ∀ e ∈ u.events, h.Brings e := by
  intro e he
  rw [← ((Ledger.agrees_of_get? hget).1 (run.agrees fresh unit)).2] at he
  exact run.brings_of_registered fresh knows he

/-- In a run a call saves what it was given, unless it carries out a command to an order. -/
theorem given (run : Run s₀ h s) (fresh : s₀.Fresh) {call : Nat} {stage : Call.Stage}
    (hget : s.calls.get? call = some stage) :
    (∃ orderId command, h.Asks call (.handle orderId command)) ∨ stage.Given h := by
  refine run.stage_induction (P := fun h _ call stage =>
    (∃ orderId command, h.Asks call (.handle orderId command)) ∨ stage.Given h) fresh
    ?_ ?_ ?_ hget
  · intro h s s' a stage _ known _ begins _ _
    have hlast : (⟨s, a, s'⟩ : Moment) ∈ h ++ [⟨s, a, s'⟩] :=
      List.mem_append_right _ (List.mem_singleton_self _)
    rcases begins with starts | ⟨unit, rfl, rfl⟩
    · cases starts with
      | save events => exact .inr fun e he => ⟨_, hlast, he⟩
      | handle orderId command => exact .inl ⟨orderId, command, _, hlast, rfl, rfl⟩
      | _ => exact .inr trivial
    · exact .inr (History.knows_concat.2 (.inl (known unit rfl)))
  · intro h s s' call stage stage' run _ _ callStep hget' ih
    rcases ih with ⟨orderId, command, asks⟩ | given
    · exact .inl ⟨orderId, command, asks.append _⟩
    · obtain ⟨stage₁, hcalls, hgiven⟩ := callStep.given given (run.brought fresh)
      obtain rfl := Ledger.eq_of_set hcalls hget'
      exact .inr (hgiven.concat _)
  · intro h s s' a call stage _ _ _ _ _ _ ih
    rcases ih with ⟨orderId, command, asks⟩ | given
    · exact .inl ⟨orderId, command, asks.append _⟩
    · exact .inr (given.concat _)

end Run

end EventJournal
