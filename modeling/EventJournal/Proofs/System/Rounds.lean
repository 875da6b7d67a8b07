import EventJournal.Proofs.Dispatch.Routing
import EventJournal.Proofs.System.Couriers
import Mathlib.Data.List.Perm.Basic

/-!
# The rounds of couriers

What couriers hand to the dispatcher and what their dispatches report, at any time of a run. Both
are told for each courier alone, since several have dispatches under way at once, and then added up.

* `History.actsOf`, the steps of one agent, and `History.perm_flatMap`, which adds up over agents;
* `Dispatching.unannounced`, what a dispatch has still to announce;
* `System.Round`, how far a courier has come: what was sent in dispatches that are done, and an
  account of the one in its hands;
* `Run.perm_blamed`, that handlers are blamed once for each errand on which they have failed.

The main statements are `Run.perm_announced` and `Run.perm_reported`.
-/

namespace EventJournal

open Dispatching (post postings)

/-! ### The steps of one agent -/

/-- The steps of an agent. -/
def History.actsOf (h : History) (x : Agent) : History := h.filter fun m => m.agent? = some x

namespace History

variable {β : Type} {h : History} {m : Moment} {x : Agent} {f g : Moment → List β}

theorem flatMap_actsOf_concat :
    (actsOf (h ++ [m]) x).flatMap f =
      (h.actsOf x).flatMap f ++ if m.agent? = some x then f m else [] := by
  by_cases hx : m.agent? = some x <;> simp [actsOf, hx]

theorem flatMap_actsOf_step (s s' : System) :
    (actsOf (h ++ [⟨s, .step x, s'⟩]) x).flatMap f =
      (h.actsOf x).flatMap f ++ f ⟨s, .step x, s'⟩ :=
  flatMap_actsOf_concat.trans (congrArg (_ ++ ·) (if_pos rfl))

theorem flatMap_actsOf_of_nil (nothing : m.agent? = some x → f m = []) :
    (actsOf (h ++ [m]) x).flatMap f = (h.actsOf x).flatMap f := by
  rw [flatMap_actsOf_concat]
  split
  · next hx => rw [nothing hx, List.append_nil]
  · exact List.append_nil _

/-- What the steps of each agent have in common with what they are compared to, all steps have,
whatever the order in which the agents took them. -/
theorem perm_flatMap (still : ∀ m ∈ h, m.agent? = none → f m = [] ∧ g m = [])
    (agree : ∀ x, ((h.actsOf x).flatMap f).Perm ((h.actsOf x).flatMap g)) :
    (h.flatMap f).Perm (h.flatMap g) := by
  -- the steps of the first agent are taken out, and then there are fewer
  induction hlength : h.length using Nat.strong_induction_on generalizing h with
  | _ n ih =>
    cases h with
    | nil => exact .refl _
    | cons m rest =>
      cases hagent : m.agent? with
      | none =>
        obtain ⟨hf, hg⟩ := still m (List.mem_cons_self ..) hagent
        have hrest : ∀ x, actsOf (m :: rest) x = actsOf rest x := by
          intro x
          simp [actsOf, hagent]
        rw [List.flatMap_cons, List.flatMap_cons, hf, hg, List.nil_append, List.nil_append]
        refine ih rest.length (by simp [← hlength]) ?_ (fun x => hrest x ▸ agree x) rfl
        exact fun m' hm' => still m' (List.mem_cons_of_mem _ hm')
      | some x =>
        have hsplit : ∀ f : Moment → List β, ((m :: rest).flatMap f).Perm
            ((actsOf (m :: rest) x).flatMap f ++
              ((m :: rest).filter fun m' => !decide (m'.agent? = some x)).flatMap f) := by
          intro f
          rw [← List.flatMap_append]
          exact (List.Perm.flatMap_right f (List.filter_append_perm _ _)).symm
        refine (hsplit f).trans (((agree x).append ?_).trans (hsplit g).symm)
        refine ih _ ?_ (fun m' hm' => still m' (List.mem_of_mem_filter hm')) (fun y => ?_) rfl
        · rw [← hlength]
          simp only [List.filter_cons, hagent, decide_true, Bool.not_true, List.length_cons]
          exact Nat.lt_succ_of_le (List.length_filter_le _ _)
        · by_cases hxy : x = y
          · subst hxy
            have hnone :
                actsOf ((m :: rest).filter fun m' => !decide (m'.agent? = some x)) x = [] := by
              simp [actsOf, List.filter_filter]
            rw [hnone]
            exact .refl _
          · have hsame : actsOf ((m :: rest).filter fun m' => !decide (m'.agent? = some x)) y =
                actsOf (m :: rest) y := by
              rw [actsOf, List.filter_filter]
              refine List.filter_congr fun m' _ => ?_
              by_cases hy : m'.agent? = some y
              · simp [hy, Ne.symm hxy]
              · simp [hy]
            rw [hsame]
            exact agree y

end History

/-! ### What is announced -/

/-- Every event reaches some topic. -/
theorem EventType.topics_ne_nil (type : String) : EventType.topics type ≠ [] :=
  List.ne_nil_of_mem (EventType.mem_topics_iff.2 (.inl rfl))

namespace Dispatching

/-- The types of the events that a dispatch has still to announce. -/
def unannounced : Dispatching → List String
  | .publishing rest _ => (rest.filter Posting.first).map Posting.eventType
  | _ => []

/-- An event is announced once, with the first of its postings. -/
theorem unannounced_postings (envelope : Envelope) (message : Message) :
    ((postings envelope message).filter Posting.first).map Posting.eventType =
      [envelope.event.eventType] := by
  unfold postings
  split
  · next hnone => exact (EventType.topics_ne_nil _ hnone).elim
  · next topic rest _ =>
    have hrest : (rest.map fun topic => (⟨topic, message, envelope.event.eventType, false⟩ :
        Posting)).filter Posting.first = [] := by
      simp [List.filter_eq_nil_iff]
    rw [List.filter_cons_of_pos rfl, hrest]
    rfl

theorem unannounced_of_post {envelopes : List Envelope} {rest : List Posting}
    (h : post envelopes = .ok rest) :
    (rest.filter Posting.first).map Posting.eventType =
      envelopes.map (·.event.eventType) := by
  induction envelopes generalizing rest with
  | nil =>
    obtain rfl := Except.ok.inj h
    rfl
  | cons envelope envelopes ih =>
    rw [post] at h
    split at h
    · simp at h
    · split at h
      · simp at h
      · next message _ later hlater =>
        obtain rfl := Except.ok.inj h
        rw [List.filter_append, List.map_append, unannounced_postings, ih hlater]
        rfl

/-- Every event of a dispatch that gets past encoding is announced once, in the order of the
events. -/
theorem unannounced_step {d : Dispatcher} {x : Dispatching} {advance : Advance}
    (opened : d.transport.closed = false) (step : x.step? d = some advance) :
    advance.counted.toList ++ advance.next.unannounced =
      x.unannounced ++ (x.accepted d).map (·.event.eventType) := by
  cases x with
  | starting envelopes =>
    simp only [step?] at step
    cases hclosed : d.closed with
    | true =>
      rw [hclosed, if_pos rfl] at step
      obtain rfl := Option.some.inj step
      simp [unannounced, accepted, hclosed]
    | false =>
      rw [hclosed, if_neg Bool.false_ne_true] at step
      cases hpost : post envelopes with
      | error e =>
        rw [hpost] at step
        obtain rfl := Option.some.inj step
        simp [unannounced, accepted, hclosed, hpost]
      | ok rest =>
        rw [hpost] at step
        obtain rfl := Option.some.inj step
        simp [unannounced, accepted, hclosed, hpost, unannounced_of_post hpost]
  | publishing rest awaited =>
    cases rest with
    | nil =>
      obtain rfl := Option.some.inj step
      rfl
    | cons p rest =>
      simp only [step?, Transport.publish, opened, Bool.false_eq_true, if_false] at step
      obtain rfl := Option.some.inj step
      cases hfirst : p.first <;> simp [unannounced, accepted, hfirst]
  | awaiting rest failures =>
    cases rest with
    | nil =>
      obtain rfl := Option.some.inj step
      rfl
    | cons a rest =>
      simp only [step?] at step
      split at step
      · simp at step
      · obtain rfl := Option.some.inj step
        rfl
      · obtain rfl := Option.some.inj step
        rfl
  | done result => simp [step?] at step

theorem unannounced_going? (x : Dispatching) :
    (x.going?.map unannounced).getD [] = x.unannounced := by
  cases x <;> rfl

end Dispatching

/-! ### The dispatcher meanwhile -/

theorem Dispatcher.Busy.transport_opened {base d : Dispatcher} {made : List Registration}
    {sent : List Errand} {log : List (Nat × WorkerStep)} (h : base.Busy made sent log d)
    (opened : d.closed = false) : d.transport.closed = false := by
  cases hclosed : d.transport.closed with
  | false => rfl
  | true => exact (Bool.eq_false_iff.1 opened (h.closed hclosed)).elim

namespace System

variable {s s' : System} {a : Action} {x : Agent} {base : Dispatcher} {made : List Registration}
  {sent : List Errand} {log : List (Nat × WorkerStep)}

/-- Plain actions keep deliveries in their lines, also where they dispatch something themselves. -/
theorem busy_of_plain (h : s.perform? a = some s') (plain : a.isPlain = true)
    (busy : base.Busy made sent log s.dispatcher) :
    (∃ more, base.Busy (made ++ more) (sent ++ s.sends a) (log ++ s.works a) s'.dispatcher) ∧
      s.dispatcher.Later s'.dispatcher := by
  cases hbypasses : a.bypassesCommits with
  | false => exact (passage_of_perform h).busy hbypasses busy
  | true =>
    obtain ⟨sends, works, outlets⟩ := outlets_of_bypasses h plain hbypasses
    have hdispatcher : s'.dispatcher = s.dispatcher := congrArg Prod.fst outlets
    rw [sends, works, hdispatcher, List.append_nil]
    exact busy.move .keeps

/-- Plain actions leave the dispatcher open. -/
theorem Stirs.opened {d : Dispatcher} (stirs : s.Stirs a d) (opened : s.dispatcher.closed = false) :
    d.closed = false := by
  cases stirs with
  | calm _ _ closed => exact closed.trans opened
  | dispatches _ _ step dispatcher =>
    rw [dispatcher]
    exact (Dispatching.closed_of_step step).trans opened
  | works _ work =>
    obtain ⟨r, -, -, does⟩ := Dispatcher.work?_cases work
    cases does <;> exact opened

/-- An action blames the handlers of the errands that it judges, if that is a failure. -/
theorem Stirs.perm_failing {d : Dispatcher} (stirs : s.Stirs a d)
    (busy : base.Busy made sent log s.dispatcher) :
    (d.failing (sent ++ s.sends a)).Perm
      (s.dispatcher.failing sent ++ (s.works a).filterMap fun p => p.2.blamed?) := by
  cases stirs with
  | calm sends works _ verdicts =>
    rw [sends, works, List.append_nil, List.filterMap_nil, List.append_nil]
    refine .of_eq (Dispatcher.failing_congr fun y _ => ?_)
    rw [Transport.verdict?, Transport.verdict?, verdicts]
  | @dispatches x dispatch advance action before step dispatcher =>
    subst action dispatcher
    have hsends : s.sends (.step x) = s.dispatcher.sends dispatch := by simp [sends, before]
    have hworks : s.works (.step x) = [] := by
      cases x with
      | worker => simp [dispatching?] at before
      | _ => rfl
    rw [hsends, hworks, List.filterMap_nil, List.append_nil]
    exact .of_eq (busy.failing_dispatch step)
  | @works id step action work =>
    subst action
    have hworks : s.works (.step (.worker id)) = [(id, step)] := by simp [System.works, work]
    have hsends : s.sends (.step (.worker id)) = [] := rfl
    have hblamed : ([(id, step)].filterMap fun p => p.2.blamed?) = step.blamed?.toList := by
      cases heq : step.blamed? <;> simp [heq]
    rw [hworks, hsends, List.append_nil, hblamed]
    exact busy.perm_failing_work work

end System

namespace Run

variable {s₀ s : System} {h : History}

/-- In a run of plain actions the dispatcher is busy with what has been published, and open. -/
theorem busy_of_plain (run : Run s₀ h s) (fresh : s₀.Fresh) (unused : s₀.Unused) (plain : h.Plain) :
    (∃ made, s₀.dispatcher.Busy made h.sent h.worked s.dispatcher) ∧
      s.dispatcher.closed = false := by
  induction run with
  | nil =>
    rw [unused.dispatcher]
    exact ⟨⟨[], .new _⟩, rfl⟩
  | @snoc h s s' a run known perform ih =>
    obtain ⟨hplain, still⟩ := History.plain_concat.1 plain
    obtain ⟨⟨made, busy⟩, opened⟩ := ih hplain
    obtain ⟨⟨more, busy'⟩, -⟩ := System.busy_of_plain perform still busy
    rw [History.sent_concat, History.worked_concat]
    exact ⟨⟨_, busy'⟩,
      (System.stirs_of_perform perform (run.tidy fresh).1 still).opened opened⟩

/-- Handlers are blamed once for each errand on which they have failed. -/
theorem perm_blamed (run : Run s₀ h s) (fresh : s₀.Fresh) (unused : s₀.Unused) (plain : h.Plain) :
    h.blamed.Perm (s.dispatcher.failing h.sent) := by
  induction run with
  | nil => exact .refl _
  | @snoc h s s' a run known perform ih =>
    obtain ⟨hplain, still⟩ := History.plain_concat.1 plain
    obtain ⟨⟨made, busy⟩, -⟩ := run.busy_of_plain fresh unused hplain
    have hperm :=
      (System.stirs_of_perform perform (run.tidy fresh).1 still).perm_failing busy
    rw [History.sent_concat, History.blamed, List.flatMap_append, List.flatMap_singleton]
    exact ((ih hplain).append_right _).trans hperm.symm

/-- What a courier has announced, and what it has still to announce, are the events of its
dispatches that have got past encoding. -/
theorem announced_of_plain (run : Run s₀ h s) (fresh : s₀.Fresh) (unused : s₀.Unused)
    (plain : h.Plain) (x : Agent) :
    (h.actsOf x).flatMap Moment.announced ++
        ((s.dispatching? x).map Dispatching.unannounced).getD [] =
      (h.actsOf x).flatMap fun m => m.accepted.map (·.event.eventType) := by
  induction run with
  | nil => rw [System.dispatching?_of_unused fresh unused]; rfl
  | @snoc h s s' a run known perform ih =>
    obtain ⟨hplain, still⟩ := History.plain_concat.1 plain
    obtain ⟨⟨made, busy⟩, opened⟩ := run.busy_of_plain fresh unused hplain
    have hbefore := ih hplain
    have change := run.change fresh known perform
    have hidle : (a = .step x → s.dispatching? x = none) →
        (History.actsOf (h ++ [⟨s, a, s'⟩]) x).flatMap Moment.announced =
          (h.actsOf x).flatMap Moment.announced ∧
        ((History.actsOf (h ++ [⟨s, a, s'⟩]) x).flatMap fun m =>
          m.accepted.map (·.event.eventType)) =
            (h.actsOf x).flatMap fun m => m.accepted.map (·.event.eventType) := by
      intro free
      constructor <;> refine History.flatMap_actsOf_of_nil fun hagent => ?_ <;>
        obtain rfl := Moment.eq_step_of_agent? hagent <;>
        obtain ⟨hannounced, haccepted, -, -⟩ := Moment.nothing_of_free s' (free rfl)
      · exact hannounced
      · exact (congrArg (List.map _) haccepted)
    cases System.serves_of_perform perform change (run.tidy fresh).1 still x with
    | rests idle same =>
      obtain ⟨hannounced, haccepted⟩ := hidle idle
      rw [hannounced, haccepted, same, hbefore]
    | starts free starts =>
      obtain ⟨hannounced, haccepted⟩ := hidle fun _ => free
      rw [free] at hbefore
      rw [hannounced, haccepted, starts]
      exact hbefore
    | @goes dispatch advance action before step after dispatcher =>
      subst action
      obtain ⟨hannounced, haccepted, -, -⟩ := Moment.telling_of_step s' before step
      have hstep := Dispatching.unannounced_step (busy.transport_opened opened) step
      rw [before] at hbefore
      rw [History.flatMap_actsOf_step, History.flatMap_actsOf_step, hannounced, haccepted, after,
        Dispatching.unannounced_going?, List.append_assoc, hstep, ← List.append_assoc]
      exact congrArg (· ++ _) hbefore

/-- At rest, what has been announced are the events of the dispatches that have got past encoding,
each once. -/
theorem perm_announced (run : Run s₀ h s) (fresh : s₀.Fresh) (unused : s₀.Unused)
    (plain : h.Plain) (rest : s.AtRest) :
    h.announced.Perm (h.accepted.map (·.event.eventType)) := by
  have hperm : h.announced.Perm (h.flatMap fun m => m.accepted.map (·.event.eventType)) := by
    refine History.perm_flatMap (fun m _ hnone => ?_) fun x => .of_eq ?_
    · simp [Moment.announced, Moment.accepted, Moment.advance?, Moment.dispatch?, hnone]
    · have hannounced := run.announced_of_plain fresh unused plain x
      rw [rest.dispatching?] at hannounced
      exact (List.append_nil _).symm.trans hannounced
  rwa [← List.map_flatMap] at hperm

end Run

/-! ### What is reported -/

/-- A dispatch that is done at an open dispatcher reports the verdicts on what it has sent. -/
theorem Account.Reaches.reported {account : Account} {d : Dispatcher}
    {result : Except DispatchError Unit} (h : account.Reaches d (.done result))
    (opened : d.closed = false) :
    (∀ y ∈ account.own, d.transport.verdict? y.ticket ≠ none) ∧
      Dispatching.reported result = account.own.filterMap d.blames? := by
  cases h with
  | told posted covers judged =>
    refine ⟨judged, ?_⟩
    cases account.own.filterMap d.blames? <;> rfl
  | @broken e plain cause within =>
    have hpost := cause.resolve_left (by simp [opened])
    have hown : account.own = [] := by
      rcases within with hown | ⟨published, rest, posted, -⟩
      · exact hown
      · simp [hpost] at posted
    rw [hown]
    refine ⟨by simp, ?_⟩
    cases e with
    | handlerFailures failures => exact (plain failures rfl).elim
    | _ => rfl

/-- How far a courier has come: of its dispatches that are done, what they have sent has been judged
and the failures have been reported, and an account tells of the dispatch in its hands. -/
structure System.Round (h : History) (s : System) (x : Agent) (past : List Errand) (now : Account) :
    Prop where
  sent : ((h.actsOf x).flatMap fun m => m.before.sends m.action) = past ++ now.own
  judged : ∀ y ∈ past, s.dispatcher.transport.verdict? y.ticket ≠ none
  told : ((h.actsOf x).flatMap fun m => m.results.flatMap Dispatching.reported) =
    past.filterMap s.dispatcher.blames?
  known : ∀ r ∈ now.start.registrations, r.id ≤ s.dispatcher.transport.lastId
  reaches : ∀ dispatch, s.dispatching? x = some dispatch → now.Reaches s.dispatcher dispatch
  free : s.dispatching? x = none → now.own = []

namespace System.Round

variable {h : History} {s s' : System} {a : Action} {x : Agent} {past : List Errand}
  {now : Account}

/-- A courier that does nothing is told of nothing. -/
theorem telling_of_idle (h : History) (s' : System) (free : a = .step x → s.dispatching? x = none) :
    ((History.actsOf (h ++ [⟨s, a, s'⟩]) x).flatMap fun m => m.before.sends m.action) =
        ((h.actsOf x).flatMap fun m => m.before.sends m.action) ∧
      ((History.actsOf (h ++ [⟨s, a, s'⟩]) x).flatMap fun m =>
        m.results.flatMap Dispatching.reported) =
          (h.actsOf x).flatMap fun m => m.results.flatMap Dispatching.reported := by
  constructor <;> refine History.flatMap_actsOf_of_nil fun hagent => ?_ <;>
    obtain rfl := Moment.eq_step_of_agent? hagent <;>
    obtain ⟨-, -, hresults, hsends⟩ := Moment.nothing_of_free s' (free rfl)
  · exact hsends
  · exact congrArg (List.flatMap _) hresults

/-- A courier whose dispatch takes a step is told of what that sends, and of the result if it is
done. -/
theorem telling_of_goes (round : s.Round h x past now) (s' : System) {dispatch : Dispatching}
    {advance : Dispatching.Advance} (before : s.dispatching? x = some dispatch)
    (step : dispatch.step? s.dispatcher = some advance) :
    ((History.actsOf (h ++ [⟨s, .step x, s'⟩]) x).flatMap fun m => m.before.sends m.action) =
        past ++ (now.add (s.dispatcher.sends dispatch)).own ∧
      ((History.actsOf (h ++ [⟨s, .step x, s'⟩]) x).flatMap fun m =>
        m.results.flatMap Dispatching.reported) =
          past.filterMap s.dispatcher.blames? ++
            advance.next.result?.toList.flatMap Dispatching.reported := by
  obtain ⟨-, -, hresults, hsends⟩ := Moment.telling_of_step s' before step
  constructor
  · rw [History.flatMap_actsOf_step, round.sent, List.append_assoc]
    exact congrArg (fun sends => past ++ (now.own ++ sends)) hsends
  · rw [History.flatMap_actsOf_step, round.told]
    exact congrArg (past.filterMap s.dispatcher.blames? ++ List.flatMap _ ·) hresults

/-- A courier stays where it is while others go on. -/
theorem rests (round : s.Round h x past now) (later : s.dispatcher.Later s'.dispatcher)
    (idle : a = .step x → s.dispatching? x = none)
    (same : s'.dispatching? x = s.dispatching? x) : s'.Round (h ++ [⟨s, a, s'⟩]) x past now := by
  obtain ⟨hsent, hreported⟩ := telling_of_idle h s' idle
  obtain ⟨judged, hblames⟩ := Account.judged_of_later later round.judged
  constructor
  case sent => exact hsent.trans round.sent
  case judged => exact judged
  case told => exact hreported.trans (round.told.trans hblames.symm)
  case known => exact fun r hr => Nat.le_trans (round.known r hr) later.lastId
  case reaches =>
    exact fun dispatch hget =>
      (round.reaches dispatch (same.symm.trans hget)).mono round.known later
  case free => exact fun hnone => round.free (same.symm.trans hnone)

/-- A courier gets a dispatch, and a new account is opened. -/
theorem starts (round : s.Round h x past now) (later : s.dispatcher.Later s'.dispatcher)
    (free : s.dispatching? x = none) {envelopes : List Envelope}
    (starts : s'.dispatching? x = some (.starting envelopes))
    (known : ∀ r ∈ s'.dispatcher.registrations, r.id ≤ s'.dispatcher.transport.lastId) :
    s'.Round (h ++ [⟨s, a, s'⟩]) x past ⟨s'.dispatcher, envelopes, []⟩ := by
  obtain ⟨hsent, hreported⟩ := telling_of_idle (a := a) h s' fun _ => free
  obtain ⟨judged, hblames⟩ := Account.judged_of_later later round.judged
  constructor
  case sent => rw [hsent, round.sent, round.free free]
  case judged => exact judged
  case told => exact hreported.trans (round.told.trans hblames.symm)
  case known => exact known
  case reaches =>
    intro dispatch hget
    obtain rfl := Option.some.inj (starts.symm.trans hget)
    exact .starting rfl
  case free => simp [starts]

/-- The dispatch of a courier takes a step. When it is done, its account is closed. -/
theorem goes (round : s.Round h x past now) {base : Dispatcher} {made : List Registration}
    {sent : List Errand} {log : List (Nat × WorkerStep)}
    (busy : base.Busy made sent log s.dispatcher) (opened : s.dispatcher.closed = false)
    {dispatch : Dispatching} {advance : Dispatching.Advance}
    (before : s.dispatching? x = some dispatch) (step : dispatch.step? s.dispatcher = some advance)
    (after : s'.dispatching? x = advance.next.going?)
    (dispatcher : s'.dispatcher = advance.dispatcher) :
    ∃ past now, s'.Round (h ++ [⟨s, .step x, s'⟩]) x past now := by
  obtain ⟨hsent, hreported⟩ := round.telling_of_goes s' before step
  have later : s.dispatcher.Later s'.dispatcher := dispatcher ▸ (busy.dispatch step).2
  obtain ⟨judged, hblames⟩ := Account.judged_of_later later round.judged
  have hreaches := (round.reaches dispatch before).advance busy step
  rw [← dispatcher] at hreaches
  rw [← hblames] at hreported
  by_cases hdone : ∃ result, advance.next = .done result
  · obtain ⟨result, hdone⟩ := hdone
    rw [hdone] at hreaches hreported after
    have hopened : s'.dispatcher.closed = false :=
      dispatcher ▸ (Dispatching.closed_of_step step).trans opened
    obtain ⟨hjudged, hresult⟩ := hreaches.reported hopened
    refine ⟨past ++ (now.add (s.dispatcher.sends dispatch)).own, ⟨{}, [], []⟩, ?_⟩
    constructor
    case sent => rw [hsent, List.append_nil]
    case judged => exact List.forall_mem_append.2 ⟨judged, hjudged⟩
    case told =>
      rw [hreported, List.filterMap_append, ← hresult]
      exact congrArg (_ ++ ·) (List.flatMap_singleton ..)
    case known => simp [Dispatcher.registrations]
    case reaches => simp [after, Dispatching.going?]
    case free => exact fun _ => rfl
  · have hgoing : ∀ result, advance.next ≠ .done result := fun result heq => hdone ⟨result, heq⟩
    rw [Dispatching.going?_of_going hgoing] at after
    rw [Dispatching.result?_of_going hgoing] at hreported
    refine ⟨past, now.add (s.dispatcher.sends dispatch), ?_⟩
    constructor
    case sent => exact hsent
    case judged => exact judged
    case told => exact hreported.trans (List.append_nil _)
    case known => exact fun r hr => Nat.le_trans (round.known r hr) later.lastId
    case reaches =>
      intro dispatch' hget
      obtain rfl := Option.some.inj (after.symm.trans hget)
      exact hreaches
    case free => simp [after]

end System.Round

namespace Run

variable {s₀ s : System} {h : History}

/-- In a run of plain actions every courier is on its round. -/
theorem round (run : Run s₀ h s) (fresh : s₀.Fresh) (unused : s₀.Unused) (plain : h.Plain)
    (x : Agent) : ∃ past now, s.Round h x past now := by
  induction run with
  | nil =>
    refine ⟨[], ⟨{}, [], []⟩, rfl, by simp, rfl, by simp [Dispatcher.registrations], ?_,
      fun _ => rfl⟩
    simp [System.dispatching?_of_unused fresh unused]
  | @snoc h s s' a run known perform ih =>
    obtain ⟨hplain, still⟩ := History.plain_concat.1 plain
    obtain ⟨past, now, round⟩ := ih hplain
    obtain ⟨⟨made, busy⟩, opened⟩ := run.busy_of_plain fresh unused hplain
    obtain ⟨⟨more, busy'⟩, later⟩ := System.busy_of_plain perform still busy
    have change := run.change fresh known perform
    cases System.serves_of_perform perform change (run.tidy fresh).1 still x with
    | rests idle same => exact ⟨past, now, round.rests later idle same⟩
    | starts free starts =>
      exact ⟨past, _, round.starts later free starts fun r hr => busy'.known hr⟩
    | goes action before step after dispatcher =>
      subst action
      exact round.goes busy opened before step after dispatcher

/-- At rest, what dispatches have reported are the failures on what they have sent, each once. -/
theorem perm_reported (run : Run s₀ h s) (fresh : s₀.Fresh) (unused : s₀.Unused) (plain : h.Plain)
    (rest : s.AtRest) : h.reported.Perm (h.sent.filterMap s.dispatcher.blames?) := by
  have hperm : (h.flatMap fun m => m.results.flatMap Dispatching.reported).Perm
      (h.flatMap fun m => (m.before.sends m.action).filterMap s.dispatcher.blames?) := by
    refine History.perm_flatMap (fun m _ hnone => ?_) fun x => .of_eq ?_
    · obtain ⟨before, a, after⟩ := m
      cases a with
      | step => simp [Moment.agent?] at hnone
      | _ => exact ⟨rfl, rfl⟩
    · obtain ⟨past, now, round⟩ := run.round fresh unused plain x
      rw [round.told, ← List.filterMap_flatMap, round.sent, round.free (rest.dispatching? x),
        List.append_nil]
  rwa [← List.flatMap_assoc, ← List.filterMap_flatMap] at hperm

/-- At rest, the handlers that have failed are those that dispatches have reported. -/
theorem perm_handlers (run : Run s₀ h s) (fresh : s₀.Fresh) (unused : s₀.Unused) (plain : h.Plain)
    (rest : s.AtRest) : h.blamed.Perm (h.reported.map HandlerFailure.handler) :=
  (run.perm_blamed fresh unused plain).trans
    ((run.perm_reported fresh unused plain rest).map HandlerFailure.handler).symm

end Run

end EventJournal
