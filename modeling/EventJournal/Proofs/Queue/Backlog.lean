import EventJournal.DispatchQueue
import EventJournal.Dispatcher

/-!
# Backlogs

Any number of callers put batches into a queue or shut it down, while its worker has one batch after
another dispatched. A dispatch takes as long as it likes and succeeds, fails or breaks the worker. A
shutdown first stops further batches from coming and then looks for the worker; its caller may give
up waiting for it.

* `Backlog`, a queue with what has become of the batches and where the shutdowns stand;
* `Backlog.Incident`, what can happen next, and `Backlog.perform?`, `Backlog.after?`;
* `Backlog.Step`, the same with what it presupposes, case by case;
* `Backlog.Kept`, what every incident preserves;
* `Backlog.Service`, what is guaranteed of the batches.

The main statement is `Backlog.service_of_after`: the batches that were not refused are dispatched
once, in their order and one at a time.
-/

namespace EventJournal

/-- Where a call to shut a queue down stands. -/
inductive Shutdown
  /-- No further batches come; the worker is still to be looked for. -/
  | refusing
  /-- It waits for the worker to end. -/
  | waiting
  /-- Somebody else has been found to wait for the worker. -/
  | spared
  | returned
  /-- It has been given up while it waited. -/
  | dropped
  deriving DecidableEq, Repr

/-- A queue, and what has happened there. -/
structure Backlog (α β : Type) where
  queue : DispatchQueue α β := {}
  /-- The batches that were not refused, in the order in which they came. -/
  accepted : List α := []
  refused : List α := []
  /-- The batches whose dispatch the worker has started. -/
  started : List α := []
  /-- The batches whose dispatch has returned, with its result. -/
  returned : List (α × Except DispatchError Unit) := []
  /-- Whether a dispatch has broken the worker. -/
  broken : Bool := false
  /-- The calls to shut the queue down, the first to come in front. -/
  shutdowns : List Shutdown := []

namespace Backlog

variable {α β : Type}

/-- The batches whose dispatch has returned. -/
def dispatched (t : Backlog α β) : List α := t.returned.map Prod.fst

/-- What can happen at a queue. -/
inductive Incident (α β : Type)
  /-- Somebody has a batch for the queue. -/
  | enqueues (batch : α)
  /-- The worker takes the oldest batch and starts its dispatch. -/
  | takes
  /-- The dispatch of the batch at work gets to another stage. -/
  | advances (stage : β)
  | returns (result : Except DispatchError Unit)
  /-- The dispatch of the batch at work breaks the worker. -/
  | breaks
  | ends
  /-- A further shutdown is called, and stops batches from coming. -/
  | shuts
  /-- The shutdown at a place looks for the worker. -/
  | claims (call : Nat)
  /-- The shutdown at a place returns to its caller. -/
  | leaves (call : Nat)
  /-- The shutdown at a place is given up. -/
  | drops (call : Nat)

/-- Whether the worker does it, or the dispatch that it waits for. -/
def Incident.IsWork : Incident α β → Prop
  | .takes | .returns _ | .ends => True
  | _ => False

/-- A shutdown gets to another stage. -/
def putShutdown (t : Backlog α β) (call : Nat) (stage : Shutdown) : Backlog α β :=
  { t with shutdowns := t.shutdowns.set call stage }

/-- What has happened after one more incident; none if it cannot happen now. -/
def perform? (start : α → β) (t : Backlog α β) : Incident α β → Option (Backlog α β)
  | .enqueues batch =>
    match t.queue.enqueue? batch with
    | some queue => some { t with queue, accepted := t.accepted ++ [batch] }
    | none => some { t with refused := t.refused ++ [batch] }
  | .takes =>
    match t.queue.waiting.head?, t.queue.take? start with
    | some batch, some queue => some { t with queue, started := t.started ++ [batch] }
    | _, _ => none
  | .advances stage =>
    match t.queue.working with
    | some _ => some { t with queue := t.queue.advance stage }
    | none => none
  | .returns result =>
    match t.queue.working, t.started.getLast? with
    | some _, some batch =>
      some { t with queue := t.queue.finish, returned := t.returned ++ [(batch, result)] }
    | _, _ => none
  | .breaks =>
    match t.queue.working with
    | some _ => some { t with queue := t.queue.crash, broken := true }
    | none => none
  | .ends => t.queue.end?.map fun queue => { t with queue }
  | .shuts => some { t with queue := t.queue.refuse, shutdowns := t.shutdowns ++ [.refusing] }
  | .claims call =>
    match t.shutdowns[call]?, t.queue.claim with
    | some .refusing, (true, queue) => some ({ t with queue }.putShutdown call .waiting)
    | some .refusing, (false, queue) => some ({ t with queue }.putShutdown call .spared)
    | _, _ => none
  | .leaves call =>
    match t.shutdowns[call]?, t.queue.ended with
    | some .waiting, true | some .spared, _ => some (t.putShutdown call .returned)
    | _, _ => none
  | .drops call =>
    match t.shutdowns[call]? with
    | some .waiting => some (t.putShutdown call .dropped)
    | _ => none

/-- What has happened after some incidents; none if one of them could not happen. -/
def after? (start : α → β) (t : Backlog α β) : List (Incident α β) → Option (Backlog α β)
  | [] => some t
  | incident :: rest =>
    match t.perform? start incident with
    | none => none
    | some t => t.after? start rest

/-! ### Steps -/

/-- What an incident presupposes and comes to. -/
inductive Step (start : α → β) (t : Backlog α β) : Incident α β → Backlog α β → Prop
  | accepts {batch : α} (accepting : t.queue.accepting = true) (going : t.queue.ended = false) :
      Step start t (.enqueues batch)
        { t with
          queue := { t.queue with waiting := t.queue.waiting ++ [batch] }
          accepted := t.accepted ++ [batch] }
  | refuses {batch : α} (closed : t.queue.isClosed = true) :
      Step start t (.enqueues batch) { t with refused := t.refused ++ [batch] }
  | takes {batch : α} {rest : List α} (going : t.queue.ended = false)
      (free : t.queue.working = none) (waiting : t.queue.waiting = batch :: rest) :
      Step start t .takes
        { t with
          queue := { t.queue with working := some (start batch), waiting := rest }
          started := t.started ++ [batch] }
  | advances {stage : β} (busy : t.queue.working ≠ none) :
      Step start t (.advances stage) { t with queue := t.queue.advance stage }
  | returns {batch : α} {result : Except DispatchError Unit} (busy : t.queue.working ≠ none)
      (last : t.started.getLast? = some batch) :
      Step start t (.returns result)
        { t with queue := t.queue.finish, returned := t.returned ++ [(batch, result)] }
  | breaks (busy : t.queue.working ≠ none) :
      Step start t .breaks { t with queue := t.queue.crash, broken := true }
  | ends (going : t.queue.ended = false) (refusing : t.queue.accepting = false)
      (free : t.queue.working = none) (waiting : t.queue.waiting = []) :
      Step start t .ends { t with queue := { t.queue with ended := true } }
  | shuts :
      Step start t .shuts
        { t with queue := t.queue.refuse, shutdowns := t.shutdowns ++ [.refusing] }
  | waits {call : Nat} (stage : t.shutdowns[call]? = some .refusing)
      (unclaimed : t.queue.claimed = false) :
      Step start t (.claims call) ({ t with queue := t.queue.claim.2 }.putShutdown call .waiting)
  | spared {call : Nat} (stage : t.shutdowns[call]? = some .refusing)
      (claimed : t.queue.claimed = true) : Step start t (.claims call) (t.putShutdown call .spared)
  | leaves {call : Nat} (stage : t.shutdowns[call]? = some .waiting ∧ t.queue.ended = true ∨
        t.shutdowns[call]? = some .spared) :
      Step start t (.leaves call) (t.putShutdown call .returned)
  | drops {call : Nat} (stage : t.shutdowns[call]? = some .waiting) :
      Step start t (.drops call) (t.putShutdown call .dropped)

variable {start : α → β} {t t' : Backlog α β} {incident : Incident α β}

theorem step_of_perform (h : t.perform? start incident = some t') : t.Step start incident t' := by
  cases incident with
  | enqueues batch =>
    simp only [perform?, DispatchQueue.enqueue?] at h
    split at h
    · next queue henqueue =>
      split at henqueue
      · simp at henqueue
      · next hopen =>
        obtain rfl := Option.some.inj henqueue
        obtain rfl := Option.some.inj h
        simp only [DispatchQueue.isClosed, Bool.or_eq_true, Bool.not_eq_true', not_or,
          Bool.not_eq_false, Bool.not_eq_true] at hopen
        exact .accepts hopen.1 hopen.2
    · next hclosed =>
      obtain rfl := Option.some.inj h
      exact .refuses (DispatchQueue.enqueue?_eq_none_iff.1 hclosed)
  | takes =>
    simp only [perform?, DispatchQueue.take?] at h
    split at h
    · next batch queue hhead htake =>
      split at htake
      · next first rest hgoing hfree hwaiting =>
        obtain rfl := Option.some.inj htake
        obtain rfl := Option.some.inj h
        obtain rfl : first = batch := by simpa [hwaiting] using hhead
        exact .takes hgoing hfree hwaiting
      · simp at htake
    · simp at h
  | advances stage =>
    simp only [perform?] at h
    split at h
    · next hbusy =>
      obtain rfl := Option.some.inj h
      exact .advances (by simp [hbusy])
    · simp at h
  | returns result =>
    simp only [perform?] at h
    split at h
    · next hbusy hlast =>
      obtain rfl := Option.some.inj h
      exact .returns (by simp [hbusy]) hlast
    · simp at h
  | breaks =>
    simp only [perform?] at h
    split at h
    · next hbusy =>
      obtain rfl := Option.some.inj h
      exact .breaks (by simp [hbusy])
    · simp at h
  | ends =>
    obtain ⟨queue, hend, rfl⟩ := Option.map_eq_some_iff.1 h
    unfold DispatchQueue.end? at hend
    split at hend
    · next hgoing hrefusing hfree hwaiting =>
      obtain rfl := Option.some.inj hend
      exact .ends hgoing hrefusing hfree hwaiting
    · simp at hend
  | shuts =>
    obtain rfl := Option.some.inj h
    exact .shuts
  | claims call =>
    simp only [perform?] at h
    split at h
    · next queue hstage hclaim =>
      obtain ⟨hunclaimed, rfl⟩ := Prod.mk.inj hclaim
      obtain rfl := Option.some.inj h
      exact .waits hstage (by simpa using hunclaimed)
    · next queue hstage hclaim =>
      obtain ⟨hclaimed, rfl⟩ := Prod.mk.inj hclaim
      obtain rfl := Option.some.inj h
      have hclaimed : t.queue.claimed = true := by simpa using hclaimed
      have hsame : { t.queue with claimed := true } = t.queue := by rw [← hclaimed]
      rw [hsame]
      exact .spared hstage hclaimed
    · simp at h
  | leaves call =>
    simp only [perform?] at h
    split at h
    · next hstage hended =>
      obtain rfl := Option.some.inj h
      exact .leaves (.inl ⟨hstage, hended⟩)
    · next hstage =>
      obtain rfl := Option.some.inj h
      exact .leaves (.inr hstage)
    · simp at h
  | drops call =>
    simp only [perform?] at h
    split at h
    · next hstage =>
      obtain rfl := Option.some.inj h
      exact .drops hstage
    · simp at h

/-- What holds at first and is kept by every incident holds at any time. -/
theorem induction_of_after {P : Backlog α β → Prop} (first : P t)
    (keep : ∀ {t incident t'}, P t → t.Step start incident t' → P t')
    {incidents : List (Incident α β)} (h : t.after? start incidents = some t') : P t' := by
  induction incidents generalizing t with
  | nil => exact Option.some.inj h ▸ first
  | cons incident rest ih =>
    rw [after?] at h
    split at h
    · simp at h
    · next t₁ hperform => exact ih (keep first (step_of_perform hperform)) h

theorem after?_singleton (h : t.perform? start incident = some t') :
    t.after? start [incident] = some t' := by
  rw [after?, h]
  rfl

theorem after?_append (start : α → β) (t : Backlog α β) (first second : List (Incident α β)) :
    t.after? start (first ++ second) = (t.after? start first).bind (·.after? start second) := by
  induction first generalizing t with
  | nil => rfl
  | cons incident rest ih =>
    rw [List.cons_append, after?, after?]
    cases t.perform? start incident with
    | none => rfl
    | some t₁ => exact ih t₁

/-! ### What every incident preserves -/

/-- What is kept of the batches: those that were started come first, and of these all but the one at
work have been dispatched. -/
structure Kept (t : Backlog α β) : Prop where
  started : t.started <+: t.accepted
  line : t.broken = false → t.accepted = t.started ++ t.queue.waiting
  returned : t.dispatched <+: t.started
  free : t.broken = false → t.queue.working = none → t.dispatched = t.started
  busy : t.queue.working ≠ none → ∃ batch, t.started = t.dispatched ++ [batch]
  broken : t.broken = true → t.queue.ended = true
  ended : t.queue.ended = true → t.queue.working = none ∧ t.queue.waiting = []
  refusing : t.shutdowns ≠ [] → t.queue.accepting = false

theorem kept_new : Kept ({} : Backlog α β) where
  started := List.prefix_rfl
  line _ := rfl
  returned := List.prefix_rfl
  free _ _ := rfl
  busy := by simp
  broken := by simp
  ended := by simp
  refusing := by simp

namespace Kept

theorem going (kept : t.Kept) (h : t.queue.ended = false) : t.broken = false := by
  cases hbroken : t.broken with
  | false => rfl
  | true => simp [kept.broken hbroken] at h

theorem not_ended (kept : t.Kept) (h : t.queue.working ≠ none) : t.queue.ended = false := by
  cases hended : t.queue.ended with
  | false => rfl
  | true => exact (h (kept.ended hended).1).elim

/-- The stages of the shutdowns have no part in this, and who waits for the worker neither. -/
theorem shutdown (kept : t.Kept) (queue : DispatchQueue α β) (shutdowns : List Shutdown)
    (same : queue.working = t.queue.working ∧ queue.waiting = t.queue.waiting ∧
      queue.ended = t.queue.ended)
    (refusing : shutdowns ≠ [] → queue.accepting = false) :
    Kept { t with queue, shutdowns } := by
  obtain ⟨hworking, hwaiting, hended⟩ := same
  constructor
  case started => exact kept.started
  case line => exact hwaiting ▸ kept.line
  case returned => exact kept.returned
  case free => exact hworking ▸ kept.free
  case busy => exact hworking ▸ kept.busy
  case broken => exact hended ▸ kept.broken
  case ended =>
    show queue.ended = true → queue.working = none ∧ queue.waiting = []
    rw [hworking, hwaiting, hended]
    exact kept.ended
  case refusing => exact refusing

theorem putShutdown (kept : t.Kept) (call : Nat) (stage : Shutdown) :
    Kept (t.putShutdown call stage) :=
  kept.shutdown _ _ ⟨rfl, rfl, rfl⟩ fun h => kept.refusing fun hnil => h (by simp [hnil])

theorem accept (kept : t.Kept) {batch : α} (accepting : t.queue.accepting = true)
    (going : t.queue.ended = false) :
    Kept { t with
      queue := { t.queue with waiting := t.queue.waiting ++ [batch] }
      accepted := t.accepted ++ [batch] } where
  started := kept.started.trans (List.prefix_append ..)
  line h := by
    show t.accepted ++ [batch] = t.started ++ (t.queue.waiting ++ [batch])
    rw [kept.line h, List.append_assoc]
  returned := kept.returned
  free := kept.free
  busy := kept.busy
  broken := kept.broken
  ended h := by simp [going] at h
  refusing h := by simp [kept.refusing h] at accepting

theorem take (kept : t.Kept) (start : α → β) {batch : α} {rest : List α} (going : t.queue.ended = false)
    (free : t.queue.working = none) (waiting : t.queue.waiting = batch :: rest) :
    Kept { t with
      queue := { t.queue with working := some (start batch), waiting := rest }
      started := t.started ++ [batch] } := by
  have hwhole := kept.going going
  have hline : t.accepted = (t.started ++ [batch]) ++ rest := by
    rw [kept.line hwhole, waiting, List.append_assoc, List.singleton_append]
  constructor
  case started => exact ⟨rest, hline.symm⟩
  case line => exact fun _ => hline
  case returned => exact kept.returned.trans (List.prefix_append ..)
  case free => simp
  case busy => exact fun _ => ⟨batch, congrArg (· ++ [batch]) (kept.free hwhole free).symm⟩
  case broken => exact kept.broken
  case ended => exact fun h => by simp [going] at h
  case refusing => exact kept.refusing

theorem return_ (kept : t.Kept) {batch : α} {result : Except DispatchError Unit}
    (busy : t.queue.working ≠ none) (last : t.started.getLast? = some batch) :
    Kept { t with queue := t.queue.finish, returned := t.returned ++ [(batch, result)] } := by
  obtain ⟨other, hstarted⟩ := kept.busy busy
  obtain rfl : other = batch := by simpa [hstarted] using last
  have hdispatched : (t.returned ++ [(other, result)]).map Prod.fst = t.started := by
    rw [List.map_append, hstarted]
    rfl
  constructor
  case started => exact kept.started
  case line => exact kept.line
  case returned => exact ⟨[], (List.append_nil _).trans hdispatched⟩
  case free => exact fun _ _ => hdispatched
  case busy => exact fun h => (h rfl).elim
  case broken => exact kept.broken
  case ended => exact fun h => ⟨rfl, (kept.ended h).2⟩
  case refusing => exact kept.refusing

/-- Every incident preserves what is kept. -/
theorem step (kept : t.Kept) (h : t.Step start incident t') : t'.Kept := by
  cases h with
  | accepts accepting going => exact kept.accept accepting going
  | refuses =>
    exact ⟨kept.started, kept.line, kept.returned, kept.free, kept.busy, kept.broken, kept.ended,
      kept.refusing⟩
  | takes going free waiting => exact kept.take start going free waiting
  | advances busy =>
    have going := kept.not_ended busy
    exact ⟨kept.started, kept.line, kept.returned, by simp [DispatchQueue.advance],
      fun _ => kept.busy busy, kept.broken, fun h => by simp [DispatchQueue.advance, going] at h,
      kept.refusing⟩
  | returns busy last => exact kept.return_ busy last
  | breaks busy =>
    exact ⟨kept.started, by simp, kept.returned, by simp, by simp [DispatchQueue.crash],
      fun _ => rfl, fun _ => ⟨rfl, rfl⟩, kept.refusing⟩
  | ends going refusing free waiting =>
    exact ⟨kept.started, kept.line, kept.returned, kept.free, kept.busy, fun _ => rfl,
      fun _ => ⟨free, waiting⟩, kept.refusing⟩
  | shuts => exact kept.shutdown _ _ ⟨rfl, rfl, rfl⟩ fun _ => rfl
  | @waits call =>
    have hclaim : Kept { t with queue := t.queue.claim.2 } :=
      kept.shutdown _ _ ⟨rfl, rfl, rfl⟩ kept.refusing
    exact hclaim.putShutdown call .waiting
  | spared | leaves | drops => exact kept.putShutdown _ _

/-- What is kept holds of every queue that was new once. -/
theorem of_after {incidents : List (Incident α β)}
    (h : after? start {} incidents = some t) : t.Kept :=
  induction_of_after kept_new step h

end Kept

/-! ### Going on with the work -/

/-- Work goes on, and nobody else does anything. -/
structure Onward (start : α → β) (t t' : Backlog α β) : Prop where
  path : ∃ incidents : List (Incident α β), (∀ i ∈ incidents, i.IsWork) ∧
    t.after? start incidents = some t'
  accepted : t'.accepted = t.accepted
  accepting : t'.queue.accepting = t.queue.accepting
  shutdowns : t'.shutdowns = t.shutdowns

theorem Onward.refl (start : α → β) (t : Backlog α β) : t.Onward start t :=
  ⟨⟨[], by simp, rfl⟩, rfl, rfl, rfl⟩

theorem Onward.trans {t₁ : Backlog α β} (h : t.Onward start t₁) (h' : t₁.Onward start t') :
    t.Onward start t' := by
  obtain ⟨first, hfirst, hafter⟩ := h.path
  obtain ⟨second, hsecond, hafter'⟩ := h'.path
  refine ⟨⟨first ++ second, List.forall_mem_append.2 ⟨hfirst, hsecond⟩, ?_⟩,
    h'.accepted.trans h.accepted, h'.accepting.trans h.accepting,
    h'.shutdowns.trans h.shutdowns⟩
  rw [after?_append, hafter, Option.bind_some, hafter']

theorem Onward.single (h : t.perform? start incident = some t') (work : incident.IsWork)
    (accepted : t'.accepted = t.accepted) (accepting : t'.queue.accepting = t.queue.accepting)
    (shutdowns : t'.shutdowns = t.shutdowns) : t.Onward start t' :=
  ⟨⟨[incident], List.forall_mem_singleton.2 work, after?_singleton h⟩, accepted, accepting,
    shutdowns⟩

namespace Kept

/-- The dispatch of the batch at work may return. -/
theorem exists_free (kept : t.Kept) (start : α → β) :
    ∃ t', t.Onward start t' ∧ t'.Kept ∧ t'.queue.working = none ∧
      t'.queue.waiting = t.queue.waiting ∧ t'.queue.ended = t.queue.ended := by
  cases hworking : t.queue.working with
  | none => exact ⟨t, .refl start t, kept, hworking, rfl, rfl⟩
  | some stage =>
    have hbusy : t.queue.working ≠ none := by simp [hworking]
    obtain ⟨batch, hstarted⟩ := kept.busy hbusy
    have hlast : t.started.getLast? = some batch := by simp [hstarted]
    have hperform : t.perform? start (.returns (.ok ())) = some
        { t with queue := t.queue.finish, returned := t.returned ++ [(batch, .ok ())] } := by
      simp only [perform?, hworking, hlast]
    exact ⟨_, .single hperform trivial rfl rfl rfl, kept.return_ hbusy hlast, rfl, rfl, rfl⟩

/-- A free worker may go through all that waits. -/
theorem exists_idle (kept : t.Kept) (start : α → β) (going : t.queue.ended = false)
    (free : t.queue.working = none) :
    ∃ t', t.Onward start t' ∧ t'.Kept ∧ t'.queue.working = none ∧ t'.queue.waiting = [] ∧
      t'.queue.ended = false := by
  generalize hwaiting : t.queue.waiting = waiting
  induction waiting generalizing t with
  | nil => exact ⟨t, .refl start t, kept, free, hwaiting, going⟩
  | cons batch rest ih =>
    have htake : t.perform? start .takes = some
        { t with
          queue := { t.queue with working := some (start batch), waiting := rest }
          started := t.started ++ [batch] } := by
      simp only [perform?, DispatchQueue.take?, going, free, hwaiting, List.head?_cons]
    obtain ⟨t₁, onward₁, kept₁, hfree₁, hwaiting₁, hended₁⟩ :=
      (kept.take start going free hwaiting).exists_free start
    obtain ⟨t₂, onward₂, hidle⟩ := ih kept₁ (hended₁.trans going) hfree₁ hwaiting₁
    exact ⟨t₂, (Onward.single htake trivial rfl rfl rfl).trans (onward₁.trans onward₂), hidle⟩

/-- As long as the worker is not broken, it may dispatch everything; it ends if no more can come. -/
theorem drains (kept : t.Kept) (start : α → β) (whole : t.broken = false) :
    ∃ t', t.Onward start t' ∧ t'.dispatched = t.accepted ∧
      (t.queue.accepting = false → t'.queue.ended = true) := by
  have hdone : ∀ {t' : Backlog α β}, t.Onward start t' → t'.Kept → t'.broken = false →
      t'.queue.working = none → t'.queue.waiting = [] → t'.dispatched = t.accepted := by
    intro t' onward kept' whole' free waiting
    rw [kept'.free whole' free, ← onward.accepted, kept'.line whole', waiting, List.append_nil]
  cases hended : t.queue.ended with
  | true =>
    obtain ⟨hfree, hwaiting⟩ := kept.ended hended
    exact ⟨t, .refl start t, hdone (.refl start t) kept whole hfree hwaiting, fun _ => hended⟩
  | false =>
    obtain ⟨t₁, onward₁, kept₁, hfree₁, -, hended₁⟩ := kept.exists_free start
    obtain ⟨t₂, onward₂, kept₂, hfree₂, hwaiting₂, hended₂⟩ :=
      kept₁.exists_idle start (hended₁.trans hended) hfree₁
    have onward := onward₁.trans onward₂
    have hdispatched := hdone onward kept₂ (kept₂.going hended₂) hfree₂ hwaiting₂
    cases haccepting : t₂.queue.accepting with
    | true => exact ⟨t₂, onward, hdispatched, by simp [← onward.accepting, haccepting]⟩
    | false =>
      have hend : t₂.perform? start .ends =
          some { t₂ with queue := { t₂.queue with ended := true } } := by
        simp only [perform?, DispatchQueue.end?, hended₂, haccepting, hfree₂, hwaiting₂,
          Option.map_some]
      exact ⟨_, onward.trans (.single hend trivial rfl rfl rfl), hdispatched, fun _ => rfl⟩

end Kept

/-! ### What is guaranteed -/

/-- What is guaranteed of the batches for a queue. -/
structure Service (start : α → β) (t : Backlog α β) : Prop where
  /-- Those whose dispatch has been started are the first that were not refused, unchanged and in
  the order in which they came. -/
  started : t.started <+: t.accepted
  /-- A dispatch is started only when all those before it have returned. -/
  oneByOne : ∀ t', t.perform? start .takes = some t' →
    t.dispatched = t.started ∧ ∃ batch, t'.started = t.started ++ [batch] ∧
      t'.queue.working = some (start batch)
  /-- A dispatch returns at most once, in that order. -/
  returned : t.dispatched <+: t.started
  /-- A batch that was refused, each time that it came, is not dispatched. -/
  refused : ∀ batch ∈ t.refused, batch ∉ t.accepted → batch ∉ t.started
  /-- Once a shutdown has been called, all that comes is refused. -/
  shut : t.shutdowns ≠ [] → ∀ batch, t.perform? start (.enqueues batch) =
    some { t with refused := t.refused ++ [batch] }
  /-- Unless a dispatch has broken the worker, all have been dispatched when it has ended. -/
  ended : t.broken = false → t.queue.ended = true → t.dispatched = t.accepted
  /-- And the worker can get so far at any time. -/
  drains : t.broken = false → ∃ t', t.Onward start t' ∧ t'.dispatched = t.accepted ∧
    (t.queue.accepting = false → t'.queue.ended = true)

/-- The batches that are not refused are dispatched once, in their order and one at a time, however
callers, shutdowns and the worker interleave and however the dispatches end. -/
theorem service_of_after {incidents : List (Incident α β)}
    (h : after? start {} incidents = some t) : t.Service start := by
  have kept := Kept.of_after h
  constructor
  case started => exact kept.started
  case oneByOne =>
    intro t' htake
    cases step_of_perform htake with
    | takes going free waiting => exact ⟨kept.free (kept.going going) free, _, rfl, rfl⟩
  case returned => exact kept.returned
  case refused => exact fun batch _ hnot hmem => hnot (kept.started.subset hmem)
  case shut =>
    intro hshut batch
    have hclosed : t.queue.isClosed = true := by
      simp [DispatchQueue.isClosed, kept.refusing hshut]
    simp only [perform?, DispatchQueue.enqueue?_eq_none_iff.2 hclosed]
  case ended =>
    intro hwhole hended
    obtain ⟨hfree, hwaiting⟩ := kept.ended hended
    rw [kept.free hwhole hfree, kept.line hwhole, hwaiting, List.append_nil]
  case drains => exact kept.drains start

/-- Batches 1 and 2 come in time, and the dispatch of the second fails. Batch 4 comes too late twice:
while the worker is still at work, and after it has ended. -/
def lateFourth : List (Incident Nat Nat) :=
  [.enqueues 1, .enqueues 2, .takes, .advances 7, .shuts, .enqueues 4, .returns (.ok ()), .claims 0,
    .takes, .returns (.error .closed), .ends, .leaves 0, .enqueues 4]

/-- The two that came in time are dispatched. -/
theorem service_of_lateFourth :
    ∃ t, after? id {} lateFourth = some t ∧ t.Service id ∧ t.accepted = [1, 2] ∧
      t.refused = [4, 4] ∧ t.dispatched = [1, 2] ∧ t.queue.ended = true := by
  have hends : (after? id {} lateFourth).map (fun t =>
      (t.accepted, t.refused, t.dispatched, t.queue.ended)) =
      some ([1, 2], [4, 4], [1, 2], true) := by
    decide
  obtain ⟨t, ht, hends⟩ := Option.map_eq_some_iff.1 hends
  obtain ⟨haccepted, hends⟩ := Prod.mk.inj hends
  obtain ⟨hrefused, hends⟩ := Prod.mk.inj hends
  obtain ⟨hdispatched, hended⟩ := Prod.mk.inj hends
  exact ⟨t, ht, service_of_after ht, haccepted, hrefused, hdispatched, hended⟩

end Backlog

end EventJournal
