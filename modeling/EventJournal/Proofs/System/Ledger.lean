import EventJournal.Proofs.Store.Prepared
import EventJournal.Proofs.System.Run
import EventJournal.Proofs.UnitOfWork.Desk

/-!
# The ledger of a system

What a system holds of records, units of work and calls, without its dispatcher, its queue, its
counts and the order in which it serves its agents.

* `Ledger`, `System.ledger`;
* `Call.Stage.role?`, where a call stands with a unit of work;
* `Ledger.CallStep`, what a step of a call does to the ledger, and `Ledger.Change`, what any action
  does;
* `Ledger.Tidy`, that calls and units are numbered and calls name units that there are.

The main statements are `ledger_stepCall?` and `ledger_perform?`: every action changes the ledger in
one of these ways.
-/

namespace EventJournal

/-- Where a call stands with the unit of work that it commits. -/
def Call.Stage.role? : Call.Stage → Option (Nat × Role)
  | .queued unit => some (unit, .waiting)
  | .entered unit => some (unit, .entered)
  | .held (.commit unit) events => some (unit, .saving events)
  | .saving (.commit unit) envelopes _ _ => some (unit, .saving (envelopes.map Envelope.event))
  | .saved unit envelopes => some (unit, .telling envelopes)
  | .dispatching (some (unit, envelopes)) _ => some (unit, .telling envelopes)
  | _ => none

/-- Where a call stands with one unit of work. -/
def Call.Stage.roleAt (unit : Nat) (stage : Call.Stage) : Option Role :=
  stage.role?.bind fun (other, role) => if other = unit then some role else none

/-- What a system holds of records, units of work and calls. -/
structure Ledger where
  registry : Registry
  options : StoreOptions
  newId : Nat → Uuid
  clock : Time
  storage : Watched
  units : Table Nat UnitOfWork
  lastUnit : Nat
  calls : Table Nat Call.Stage
  lastCall : Nat
  ids : Nat

/-- The ledger of a system. -/
def System.ledger (s : System) : Ledger where
  registry := s.registry
  options := s.options
  newId := s.newId
  clock := s.clock
  storage := s.storage
  units := s.units
  lastUnit := s.lastUnit
  calls := s.calls
  lastCall := s.lastCall
  ids := s.ids

namespace Ledger

/-- The store of a system. -/
def store (l : Ledger) : Store Watched Transaction where
  backend := Watched.backend
  options := l.options
  registry := l.registry

/-- A call gets to another stage. -/
def putCall (l : Ledger) (call : Nat) (stage : Call.Stage) : Ledger :=
  { l with calls := l.calls.set call stage }

/-- A unit of work changes. -/
def putUnit (l : Ledger) (unit : Nat) (u : UnitOfWork) : Ledger :=
  { l with units := l.units.set unit u }

/-- A call is forgotten. -/
def forget (l : Ledger) (call : Nat) : Ledger := { l with calls := l.calls.erase call }

/-- A call starts at a stage. -/
def start (l : Ledger) (stage : Call.Stage) : Ledger :=
  { l with lastCall := l.lastCall + 1 }.putCall (l.lastCall + 1) stage

/-- Where the calls of a ledger stand with a unit of work. -/
def roles (l : Ledger) (unit call : Nat) : Option Role :=
  (l.calls.get? call).bind (Call.Stage.roleAt unit)

/-- A unit of work with the calls that have come to it. -/
def desk (l : Ledger) (unit : Nat) (u : UnitOfWork) : Desk := ⟨u, l.roles unit⟩

/-- Units of work and calls are numbered, calls name units that there are, and the commits of each
unit are in order. -/
structure Tidy (l : Ledger) : Prop where
  unit_of_role : ∀ {unit call role}, l.roles unit call = some role →
    ∃ u, l.units.get? unit = some u
  sound : ∀ {unit u}, l.units.get? unit = some u → (l.desk unit u).Sound
  call_le : ∀ {call stage}, l.calls.get? call = some stage → call ≤ l.lastCall
  unit_le : ∀ {unit u}, l.units.get? unit = some u → unit ≤ l.lastUnit

/-- The save of a call has failed, by its purpose. -/
inductive SaveFailed (l : Ledger) (call : Nat) (e : StoreError) : Call.Purpose → Ledger → Prop
  | itself : SaveFailed l call e .itself (l.putCall call (.finished (.error (.store e))))
  | commit {unit : Nat} {u : UnitOfWork} (get : l.units.get? unit = some u) :
      SaveFailed l call e (.commit unit)
        ((l.putUnit unit u.reopen.leave).putCall call (.finished (.error (.commit (.store e)))))

/-- The save of a call has succeeded, by its purpose. -/
inductive SaveCompleted (l : Ledger) (call : Nat) (envelopes : List Envelope) :
    Call.Purpose → Ledger → Prop
  | itself : SaveCompleted l call envelopes .itself
      (l.putCall call (.finished (.ok (.saved envelopes))))
  | commit {unit : Nat} {u : UnitOfWork} (get : l.units.get? unit = some u) :
      SaveCompleted l call envelopes (.commit unit)
        ((l.putUnit unit u.complete).putCall call (.saved unit envelopes))

/-- What a step of a call does, by its stage. -/
inductive CallStep (l : Ledger) (call : Nat) : Call.Stage → Ledger → Prop
  | loaded {orderId : String} {command : Order.Command} {storage : Watched}
      {envelopes : List Envelope} {order : Option Order}
      (load : l.store.load orderId l.storage = (.ok envelopes, storage))
      (replay : Order.replay? envelopes = .ok order) :
      CallStep l call (.loading orderId command)
        ({ l with storage }.putCall call (.loaded orderId command order))
  | unloaded {orderId : String} {command : Order.Command} {e : StoreError} {storage : Watched}
      (load : l.store.load orderId l.storage = (.error e, storage)) :
      CallStep l call (.loading orderId command)
        ({ l with storage }.putCall call (.finished (.error (.loadOrder orderId e))))
  | unreplayed {orderId : String} {command : Order.Command} {storage : Watched}
      {envelopes : List Envelope} {e : Order.ReplayError}
      (load : l.store.load orderId l.storage = (.ok envelopes, storage))
      (replay : Order.replay? envelopes = .error e) :
      CallStep l call (.loading orderId command)
        ({ l with storage }.putCall call (.finished (.error (.replay e))))
  | timed {orderId : String} {command : Order.Command} {order : Option Order} :
      CallStep l call (.loaded orderId command order)
        (l.putCall call (.deciding orderId command order l.clock))
  | ruledOut {orderId : String} {command : Order.Command} {order : Option Order} {now : Time}
      {e : Order.Error} (decide : Order.decideOn order now command = .error e) :
      CallStep l call (.deciding orderId command order now)
        (l.putCall call (.finished (.error (.rule e))))
  | decided {orderId : String} {command : Order.Command} {order : Option Order} {now : Time}
      {payloads : List Order.Event} (mode : DispatchMode)
      (decide : Order.decideOn order now command = .ok payloads) :
      CallStep l call (.deciding orderId command order now)
        (({ l with lastUnit := l.lastUnit + 1 }.putUnit (l.lastUnit + 1)
            { id := .random (l.lastUnit + 1)
              mode
              events := (DomainEvent.sequence orderId l.clock (Order.versionOf order)
                payloads).map DomainEvent.toEvent
              gate := Gate.single.join call }).putCall call (.queued (l.lastUnit + 1)))
  | entered {unit : Nat} {u : UnitOfWork} {gate : Gate Nat} (get : l.units.get? unit = some u)
      (pass : u.gate.pass? call = some gate) :
      CallStep l call (.queued unit)
        ((l.putUnit unit { u with gate }).putCall call (.entered unit))
  | refused {unit : Nat} {u : UnitOfWork} {e : CommitError} (get : l.units.get? unit = some u)
      (begin : u.begin = .error e) :
      CallStep l call (.entered unit)
        ((l.putUnit unit u.leave).putCall call (.finished (.error (.commit e))))
  | emptied {unit : Nat} {u u' : UnitOfWork} (get : l.units.get? unit = some u)
      (begin : u.begin = .ok ([], u')) :
      CallStep l call (.entered unit)
        ((l.putUnit unit u'.leave).putCall call (.finished (.ok (.saved []))))
  | fixed {unit : Nat} {u u' : UnitOfWork} {events : List Event}
      (get : l.units.get? unit = some u) (begin : u.begin = .ok (events, u'))
      (nonempty : events ≠ []) :
      CallStep l call (.entered unit)
        ((l.putUnit unit u').putCall call (.held (.commit unit) events))
  | savedNothing :
      CallStep l call (.held .itself []) (l.putCall call (.finished (.ok (.saved []))))
  | unprepared {purpose : Call.Purpose} {events : List Event} {e : EventError} {l' : Ledger}
      (nonempty : events ≠ []) (prepare : prepare l.newId l.clock l.ids events = .error e)
      (failed : SaveFailed { l with ids := l.ids + events.length } call (.event e) purpose l') :
      CallStep l call (.held purpose events) l'
  | prepared {purpose : Call.Purpose} {events : List Event} {entries : List (Record × Envelope)}
      (nonempty : events ≠ []) (prepare : prepare l.newId l.clock l.ids events = .ok entries) :
      CallStep l call (.held purpose events)
        ({ l with ids := l.ids + events.length }.putCall call
          (.saving purpose (entries.map Prod.snd) l.clock (.opening (entries.map Prod.fst))))
  | asked {purpose : Call.Purpose} {envelopes : List Envelope} {since : Time}
      {save save' : Saving Transaction} {storage : Watched}
      (step : save.step Watched.backend l.options l.storage = (save', storage))
      (going : save'.isDone = false) :
      CallStep l call (.saving purpose envelopes since save)
        ({ l with storage }.putCall call (.saving purpose envelopes since save'))
  | stored {purpose : Call.Purpose} {envelopes : List Envelope} {since : Time}
      {save : Saving Transaction} {storage : Watched} {l' : Ledger}
      (step : save.step Watched.backend l.options l.storage = (.done (.ok ()), storage))
      (completed : SaveCompleted { l with storage } call envelopes purpose l') :
      CallStep l call (.saving purpose envelopes since save) l'
  | failed {purpose : Call.Purpose} {envelopes : List Envelope} {since : Time}
      {save : Saving Transaction} {e : StoreError} {storage : Watched} {l' : Ledger}
      (step : save.step Watched.backend l.options l.storage = (.done (.error e), storage))
      (failed : SaveFailed { l with storage } call e purpose l') :
      CallStep l call (.saving purpose envelopes since save) l'
  | dispatches {unit : Nat} {u : UnitOfWork} {envelopes : List Envelope}
      (get : l.units.get? unit = some u) (mode : u.mode = .synchronous) :
      CallStep l call (.saved unit envelopes)
        (l.putCall call (.dispatching (some (unit, envelopes)) (.starting envelopes)))
  | enqueues {unit : Nat} {u : UnitOfWork} {envelopes : List Envelope}
      (result : Except DispatchError Unit) (get : l.units.get? unit = some u)
      (mode : u.mode = .detached) :
      CallStep l call (.saved unit envelopes)
        ((l.putUnit unit u.leave).putCall call (.finished (System.commitOutcome envelopes result)))
  | tells {commit : Option (Nat × List Envelope)} {dispatch : Dispatching} (next : Dispatching) :
      CallStep l call (.dispatching commit dispatch)
        (l.putCall call (.dispatching commit next))
  | told {dispatch : Dispatching} (outcome : Call.Outcome)
      (plain : outcome = .ok .nothing ∨ ∃ e, outcome = .error (.dispatch e)) :
      CallStep l call (.dispatching none dispatch) (l.putCall call (.finished outcome))
  | toldCommit {unit : Nat} {u : UnitOfWork} {envelopes : List Envelope} {dispatch : Dispatching}
      (result : Except DispatchError Unit) (get : l.units.get? unit = some u) :
      CallStep l call (.dispatching (some (unit, envelopes)) dispatch)
        ((l.putUnit unit u.leave).putCall call (.finished (System.commitOutcome envelopes result)))
  | reloaded {aggregateId : String} {storage : Watched} {envelopes : List Envelope}
      (load : l.store.load aggregateId l.storage = (.ok envelopes, storage)) :
      CallStep l call (.reloading aggregateId)
        ({ l with storage }.putCall call (.dispatching none (.starting envelopes)))
  | unreloaded {aggregateId : String} {storage : Watched} {e : StoreError}
      (load : l.store.load aggregateId l.storage = (.error e, storage)) :
      CallStep l call (.reloading aggregateId)
        ({ l with storage }.putCall call (.finished (.error (.store e))))
  | drained : CallStep l call .draining (l.putCall call (.finished (.ok .nothing)))

/-- What giving a call up does, by its stage. -/
inductive Dropped (l : Ledger) (call : Nat) (stage : Call.Stage) : Ledger → Prop
  | alone (role : stage.role? = none) (going : stage.outcome? = none) :
      Dropped l call stage (l.forget call)
  | waiting {unit : Nat} {u : UnitOfWork} (role : stage.role? = some (unit, .waiting))
      (get : l.units.get? unit = some u) :
      Dropped l call stage ((l.putUnit unit { u with gate := u.gate.leave call }).forget call)
  | saving {unit : Nat} {u : UnitOfWork} {events : List Event}
      (role : stage.role? = some (unit, .saving events)) (get : l.units.get? unit = some u) :
      Dropped l call stage ((l.putUnit unit u.reopen.leave).forget call)
  | telling {unit : Nat} {u : UnitOfWork} {envelopes : List Envelope}
      (role : stage.role? = some (unit, .telling envelopes))
      (get : l.units.get? unit = some u) :
      Dropped l call stage ((l.putUnit unit u.leave).forget call)

end Ledger

namespace Action

/-- The stage at which a call starts that is asked for. -/
inductive Starts : Action → Call.Stage → Prop
  | save (events : List Event) : Starts (.save events) (.held .itself events)
  | handle (orderId : String) (command : Order.Command) :
      Starts (.handle orderId command) (.loading orderId command)
  | dispatch (envelopes : List Envelope) :
      Starts (.dispatch envelopes) (.dispatching none (.starting envelopes))
  | redispatch (aggregateId : String) : Starts (.redispatch aggregateId) (.reloading aggregateId)
  | drain : Starts .shutdown .draining
  | shutdown : Starts .shutdown (.finished (.ok .nothing))

/-- Whether an action leaves records, units of work and calls alone. -/
def sparesLedger : Action → Bool
  | .step .queue | .step (.worker _) | .subscribe .. | .unsubscribe _ | .close | .enqueue ..
  | .release _ | .releaseHandler .. | .schedule _ | .replaceDispatch .. => true
  | _ => false

end Action

/-- What an action does to the ledger. -/
inductive Ledger.Change (l : Ledger) : Action → Ledger → Prop
  | steps {call : Nat} {stage : Call.Stage} {l' : Ledger} (get : l.calls.get? call = some stage)
      (step : CallStep l call stage l') : Change l (.step (.call call)) l'
  | spares {a : Action} (spares : a.sparesLedger = true) : Change l a l
  | starts {a : Action} {stage : Call.Stage} (starts : a.Starts stage) : Change l a (l.start stage)
  | arrives {unit : Nat} {u : UnitOfWork} (get : l.units.get? unit = some u) :
      Change l (.commit unit)
        ((l.putUnit unit { u with gate := u.gate.join (l.lastCall + 1) }).start (.queued unit))
  | drops {call : Nat} {stage : Call.Stage} {l' : Ledger} (get : l.calls.get? call = some stage)
      (dropped : Dropped l call stage l') : Change l (.abort call) l'
  | makes (mode : DispatchMode) :
      Change l (.newUnit mode)
        ({ l with lastUnit := l.lastUnit + 1 }.putUnit (l.lastUnit + 1)
          { id := .random (l.lastUnit + 1), mode })
  | registers {unit : Nat} {u u' : UnitOfWork} {events : List Event}
      (get : l.units.get? unit = some u) (ok : u.register events = .ok u') :
      Change l (.register unit events) (l.putUnit unit u')
  | registersNot {unit : Nat} {u : UnitOfWork} {events : List Event} {message : String}
      (get : l.units.get? unit = some u) (refused : u.register events = .error message) :
      Change l (.register unit events) l
  | rollsBack {unit : Nat} {u u' : UnitOfWork} (get : l.units.get? unit = some u)
      (ok : u.rollback = .ok u') : Change l (.rollback unit) (l.putUnit unit u')
  | rollsBackNot {unit : Nat} {u : UnitOfWork} {e : CommitError}
      (get : l.units.get? unit = some u) (refused : u.rollback = .error e) :
      Change l (.rollback unit) l
  | ticks (now : Time) : Change l (.tick now) { l with clock := now }
  | fetches (aggregateId : String) (fromSequence : Int) :
      Change l (.fetch aggregateId fromSequence)
        { l with storage := (l.store.loadFrom aggregateId fromSequence l.storage).2 }
  | disturbs {a : Action} (storage : Watched) (disturbs : a.disturbsStorage = true) :
      Change l a { l with storage }

namespace Table

variable {κ α : Type} [DecidableEq κ]

theorem put_put (k : κ) (a b : α) (entries : List (κ × α)) :
    put k b (put k a entries) = put k b entries := by
  induction entries with
  | nil => simp [put]
  | cons head rest ih =>
    obtain ⟨other, c⟩ := head
    by_cases h : other = k
    · simp [put, h]
    · simp [put, h, ih]

/-- Of two values put under one key the second counts. -/
@[simp] theorem set_set (t : Table κ α) (k : κ) (a b : α) : (t.set k a).set k b = t.set k b :=
  congrArg Table.mk (put_put k a b t.entries)

theorem modify_of_get? {t : Table κ α} {k : κ} {a : α} (h : t.get? k = some a) (f : α → α) :
    t.modify k f = t.set k (f a) := by
  simp [modify, h]

/-- What a table has for a key is one of its entries. -/
theorem mem_entries_of_get? {t : Table κ α} {k : κ} {a : α} (h : t.get? k = some a) :
    (k, a) ∈ t.entries := by
  unfold get? at h
  generalize t.entries = entries at h ⊢
  induction entries with
  | nil => simp [find?] at h
  | cons head rest ih =>
    obtain ⟨other, b⟩ := head
    rw [find?] at h
    split at h
    · next heq =>
      obtain rfl := Option.some.inj h
      exact heq ▸ List.mem_cons_self ..
    · exact List.mem_cons_of_mem _ (ih h)

end Table

theorem Ledger.roles_of_role? {l : Ledger} {unit call : Nat} {stage : Call.Stage} {role : Role}
    (hget : l.calls.get? call = some stage) (hrole : stage.role? = some (unit, role)) :
    l.roles unit call = some role := by
  simp [Ledger.roles, Call.Stage.roleAt, hget, hrole]

namespace System

variable (s : System)

/-! ### What leaves the ledger alone -/

@[simp] theorem ledger_wake (agent : Agent) : (s.wake agent).ledger = s.ledger := by
  unfold wake
  split <;> rfl

@[simp] theorem ledger_wakeAll (agents : List Agent) : (s.wakeAll agents).ledger = s.ledger := by
  induction agents generalizing s with
  | nil => rfl
  | cons agent rest ih => exact (ih (s.wake agent)).trans (ledger_wake s agent)

@[simp] theorem ledger_wakeAwaiting (tickets : List Nat) :
    (s.wakeAwaiting tickets).ledger = s.ledger := by
  induction tickets generalizing s with
  | nil => rfl
  | cons ticket rest ih =>
    exact (ih (s.wakeAll (s.awaiting ticket))).trans (ledger_wakeAll s (s.awaiting ticket))

@[simp] theorem ledger_count (record : Metrics → Metrics) : (s.count record).ledger = s.ledger :=
  rfl

@[simp] theorem ledger_noteDispatch (advance : Dispatching.Advance) :
    (s.noteDispatch advance).ledger = s.ledger := by
  unfold noteDispatch
  rw [ledger_wakeAll]
  split <;> rfl

@[simp] theorem ledger_noteWorker (done : WorkerStep) : (s.noteWorker done).ledger = s.ledger := by
  unfold noteWorker
  split
  · rfl
  · rfl
  · rfl
  · exact ledger_wakeAwaiting s _
  · exact (ledger_wakeAwaiting _ _).trans (ledger_count s _)

theorem ledger_finish (call : Nat) (outcome : Call.Outcome) :
    (s.finish call outcome).ledger = s.ledger.putCall call (.finished outcome) :=
  rfl

variable {s}

theorem ledger_leaveUnit {unit : Nat} {u : UnitOfWork} (h : s.units.get? unit = some u) :
    (s.leaveUnit unit).ledger = s.ledger.putUnit unit u.leave := by
  simp only [leaveUnit, h, ledger_wakeAll]
  rfl

theorem ledger_endCommit {unit : Nat} {u : UnitOfWork} (h : s.units.get? unit = some u)
    (call : Nat) (ending : Option UnitOfWork.Ending) (outcome : Call.Outcome) :
    (s.endCommit call unit ending outcome).ledger =
      (s.ledger.putUnit unit u.leave).putCall call (.finished outcome) := by
  cases ending with
  | none =>
    show ((s.leaveUnit unit).finish call outcome).ledger = _
    rw [ledger_finish, ledger_leaveUnit h]
  | some ending =>
    have h' : (s.count (·.recordCommit ending.label)).units.get? unit = some u := h
    show (((s.count _).leaveUnit unit).finish call outcome).ledger = _
    rw [ledger_finish, ledger_leaveUnit h', ledger_count]

theorem ledger_failSave {call : Nat} {purpose : Call.Purpose} {e : StoreError}
    (h : ∀ unit, purpose = .commit unit → ∃ u, s.units.get? unit = some u) :
    s.ledger.SaveFailed call e purpose (s.failSave call purpose e).ledger := by
  cases purpose with
  | itself => exact .itself
  | commit unit =>
    obtain ⟨u, hu⟩ := h unit rfl
    have hget : { s with units := s.units.modify unit UnitOfWork.reopen }.units.get? unit =
        some u.reopen := by
      simp [Table.modify_of_get? hu]
    have hledger := ledger_endCommit hget call (some .storeFailed) (.error (.commit (.store e)))
    have hput : ({ s with units := s.units.modify unit UnitOfWork.reopen } : System).ledger.putUnit
        unit u.reopen.leave = s.ledger.putUnit unit u.reopen.leave := by
      simp [ledger, Ledger.putUnit, Table.modify_of_get? hu]
    rw [hput] at hledger
    exact hledger ▸ .commit hu

theorem ledger_completeSave {call : Nat} {purpose : Call.Purpose} {envelopes : List Envelope}
    (h : ∀ unit, purpose = .commit unit → ∃ u, s.units.get? unit = some u) :
    s.ledger.SaveCompleted call envelopes purpose
      (s.completeSave call purpose envelopes).ledger := by
  cases purpose with
  | itself => exact .itself
  | commit unit =>
    obtain ⟨u, hu⟩ := h unit rfl
    have hledger : (s.completeSave call (.commit unit) envelopes).ledger =
        (s.ledger.putUnit unit u.complete).putCall call (.saved unit envelopes) := by
      simp [completeSave, ledger, putCall, Ledger.putUnit, Ledger.putCall,
        Table.modify_of_get? hu]
    exact hledger ▸ .commit hu

/-! ### Steps of calls -/

theorem ledger_startSave {call : Nat} {purpose : Call.Purpose} {events : List Event}
    (hunit : ∀ unit, purpose = .commit unit → events ≠ [] ∧ ∃ u, s.units.get? unit = some u) :
    s.ledger.CallStep call (.held purpose events) (s.startSave call purpose events).ledger := by
  cases events with
  | nil =>
    cases purpose with
    | itself => exact .savedNothing
    | commit unit => exact ((hunit unit rfl).1 rfl).elim
  | cons e rest =>
    have hne : e :: rest ≠ [] := by simp
    cases hprepare : prepare s.newId s.clock s.ids (e :: rest) with
    | error err =>
      simp only [startSave, hprepare]
      exact .unprepared hne hprepare
        (ledger_failSave (s := { s with ids := s.ids + (e :: rest).length })
          fun unit h => (hunit unit h).2)
    | ok entries =>
      simp only [startSave, hprepare]
      exact .prepared hne hprepare

theorem ledger_advanceSave {call : Nat} {purpose : Call.Purpose} {envelopes : List Envelope}
    {since : Time} {save : Saving Transaction}
    (hunit : ∀ unit, purpose = .commit unit → ∃ u, s.units.get? unit = some u) :
    s.ledger.CallStep call (.saving purpose envelopes since save)
      (s.advanceSave call purpose envelopes since save).ledger := by
  cases hstep : save.step Watched.backend s.options s.storage with
  | mk save' storage =>
    cases save' with
    | done result =>
      cases result with
      | ok _ =>
        simp only [advanceSave, hstep]
        exact .stored hstep (ledger_completeSave (s := { s with storage, metrics := _, saves := _ })
          hunit)
      | error e =>
        simp only [advanceSave, hstep]
        exact .failed hstep (ledger_failSave (s := { s with storage, metrics := _ }) hunit)
    | _ =>
      simp only [advanceSave, hstep]
      exact .asked hstep rfl

theorem ledger_handOver {call unit : Nat} {u : UnitOfWork} {envelopes : List Envelope}
    (h : s.units.get? unit = some u) :
    s.ledger.CallStep call (.saved unit envelopes) (s.handOver call unit envelopes).ledger := by
  cases hmode : u.mode with
  | synchronous =>
    simp only [handOver, h, hmode]
    exact .dispatches h hmode
  | detached =>
    simp only [handOver, h, hmode]
    split
    · next queue _ =>
      have hget : ({ s with queue := some queue }.wake .queue).units.get? unit = some u :=
        (congrArg (·.units.get? unit) (ledger_wake { s with queue := some queue } .queue)).trans h
      rw [ledger_endCommit hget, ledger_wake]
      exact .enqueues (.ok ()) h hmode
    · rw [ledger_endCommit h]
      exact .enqueues (.error .closed) h hmode

theorem ledger_advanceDispatch? {s' : System} {call : Nat} {commit : Option (Nat × List Envelope)}
    {dispatch : Dispatching} (h : s.advanceDispatch? call commit dispatch = some s')
    (hunit : ∀ unit envelopes, commit = some (unit, envelopes) →
      ∃ u, s.units.get? unit = some u) :
    s.ledger.CallStep call (.dispatching commit dispatch) s'.ledger := by
  unfold advanceDispatch? at h
  split at h
  · simp at h
  · next advance _ =>
    have hnote := ledger_noteDispatch s advance
    dsimp only at h
    split at h
    · next result _ =>
      obtain rfl := Option.some.inj h
      cases commit with
      | none =>
        cases result with
        | ok _ =>
          show s.ledger.CallStep call _ ((s.noteDispatch advance).ledger.putCall call _)
          rw [hnote]
          exact .told _ (.inl rfl)
        | error e =>
          show s.ledger.CallStep call _ ((s.noteDispatch advance).ledger.putCall call _)
          rw [hnote]
          exact .told _ (.inr ⟨e, rfl⟩)
      | some pair =>
        obtain ⟨unit, envelopes⟩ := pair
        obtain ⟨u, hu⟩ := hunit unit envelopes rfl
        have hget : (s.noteDispatch advance).units.get? unit = some u :=
          (congrArg (·.units.get? unit) hnote).trans hu
        show s.ledger.CallStep call _ ((s.noteDispatch advance).endCommit ..).ledger
        rw [ledger_endCommit hget, hnote]
        exact .toldCommit result hu
    · obtain rfl := Option.some.inj h
      show s.ledger.CallStep call _ ((s.noteDispatch advance).ledger.putCall call _)
      rw [hnote]
      exact .tells _

theorem ledger_loadForCommand {call : Nat} {orderId : String} {command : Order.Command} :
    s.ledger.CallStep call (.loading orderId command)
      (s.loadForCommand call orderId command).ledger := by
  cases hload : s.store.load orderId s.storage with
  | mk answer storage =>
    cases answer with
    | error e =>
      simp only [loadForCommand, loadOrder, hload]
      exact .unloaded hload
    | ok envelopes =>
      cases hreplay : Order.replay? envelopes with
      | error e =>
        simp only [loadForCommand, loadOrder, hload, hreplay]
        exact .unreplayed hload hreplay
      | ok order =>
        simp only [loadForCommand, loadOrder, hload, hreplay]
        exact .loaded hload hreplay

theorem ledger_reload {call : Nat} {aggregateId : String} :
    s.ledger.CallStep call (.reloading aggregateId) (s.reload call aggregateId).ledger := by
  cases hload : s.store.load aggregateId s.storage with
  | mk answer storage =>
    have hfetch : s.fetch aggregateId Numeral.minInt64 = (answer, { s with storage }) := by
      simp only [Store.load] at hload
      simp only [fetch, hload]
    cases answer with
    | error e =>
      simp only [reload, hfetch]
      exact .unreloaded hload
    | ok envelopes =>
      simp only [reload, hfetch]
      exact .reloaded hload

theorem ledger_beginCommit {call unit : Nat} {u : UnitOfWork} (h : s.units.get? unit = some u) :
    s.ledger.CallStep call (.entered unit) (s.beginCommit call unit).ledger := by
  cases hbegin : u.begin with
  | error e =>
    simp only [beginCommit, h, hbegin]
    rw [ledger_endCommit h]
    exact .refused h hbegin
  | ok answer =>
    obtain ⟨events, u'⟩ := answer
    cases events with
    | nil =>
      simp only [beginCommit, h, hbegin]
      have hget : (s.putUnit unit u').units.get? unit = some u' := Table.get?_set_self ..
      have hput : (s.putUnit unit u').ledger.putUnit unit u'.leave =
          s.ledger.putUnit unit u'.leave := by
        simp [ledger, Ledger.putUnit, putUnit]
      rw [ledger_endCommit hget, hput]
      exact .emptied h hbegin
    | cons e rest =>
      simp only [beginCommit, h, hbegin]
      exact .fixed h hbegin (by simp)

/-- What a step of a call does to the ledger. -/
theorem ledger_stepCall? {s' : System} {call : Nat} (tidy : s.ledger.Tidy)
    (h : s.stepCall? call = some s') :
    ∃ stage, s.ledger.calls.get? call = some stage ∧ s.ledger.CallStep call stage s'.ledger := by
  unfold stepCall? at h
  split at h
  · simp at h
  · next stage hstage =>
    refine ⟨stage, hstage, ?_⟩
    have hunit : ∀ unit role, stage.role? = some (unit, role) →
        ∃ u, s.units.get? unit = some u :=
      fun unit role hrole => tidy.unit_of_role (Ledger.roles_of_role? hstage hrole)
    cases stage with
    | loading orderId command =>
      obtain rfl := Option.some.inj h
      exact ledger_loadForCommand
    | loaded orderId command order =>
      obtain rfl := Option.some.inj h
      exact .timed
    | deciding orderId command order now =>
      obtain rfl := Option.some.inj h
      unfold decideCommand
      cases hdecide : Order.decideOn order now command with
      | error e => exact .ruledOut hdecide
      | ok payloads => exact .decided s.mode hdecide
    | queued unit =>
      obtain ⟨u, hu⟩ := hunit unit _ rfl
      simp only [enter?, hu] at h
      split at h
      · simp at h
      · next gate hgate =>
        obtain rfl := Option.some.inj h
        exact .entered hu hgate
    | entered unit =>
      obtain ⟨u, hu⟩ := hunit unit _ rfl
      obtain rfl := Option.some.inj h
      exact ledger_beginCommit hu
    | held purpose events =>
      have hpurpose : ∀ unit, purpose = .commit unit →
          events ≠ [] ∧ ∃ u, s.units.get? unit = some u := by
        rintro unit rfl
        obtain ⟨u, hu⟩ := hunit unit _ rfl
        obtain ⟨-, -, -, -, -, hne⟩ :=
          (tidy.sound hu).locked (Ledger.roles_of_role? hstage rfl) rfl
        exact ⟨hne, u, hu⟩
      change s.admit? call purpose events = some s' at h
      unfold admit? at h
      split at h
      · obtain rfl := Option.some.inj h
        exact ledger_startSave hpurpose
      · split at h
        · simp at h
        · next gate _ =>
          obtain rfl := Option.some.inj h
          exact ledger_startSave (s := { s with saveGate := some gate }) hpurpose
    | saving purpose envelopes since save =>
      obtain rfl := Option.some.inj h
      refine ledger_advanceSave fun unit hpurpose => ?_
      subst hpurpose
      exact hunit unit _ rfl
    | saved unit envelopes =>
      obtain ⟨u, hu⟩ := hunit unit _ rfl
      obtain rfl := Option.some.inj h
      exact ledger_handOver hu
    | dispatching commit dispatch =>
      refine ledger_advanceDispatch? h fun unit envelopes hcommit => ?_
      subst hcommit
      exact hunit unit _ rfl
    | reloading aggregateId =>
      obtain rfl := Option.some.inj h
      exact ledger_reload
    | draining =>
      change s.drain? call = some s' at h
      unfold drain? at h
      split at h
      · split at h
        · obtain rfl := Option.some.inj h
          exact .drained
        · simp at h
      · obtain rfl := Option.some.inj h
        exact .drained
    | finished outcome => simp at h

/-! ### Actions -/

theorem ledger_start (stage : Call.Stage) : (s.start stage).2.ledger = s.ledger.start stage :=
  ledger_wake ..

theorem ledger_save (events : List Event) :
    (s.save events).2.ledger = s.ledger.start (.held .itself events) :=
  ledger_wake ..

theorem ledger_commit {unit : Nat} {u : UnitOfWork} (h : s.units.get? unit = some u) :
    (s.commit unit).2.ledger =
      (s.ledger.putUnit unit { u with gate := u.gate.join (s.ledger.lastCall + 1) }).start
        (.queued unit) := by
  simp only [commit, h, ledger_wake]
  rfl

/-- A save that is given up gives its permit, or its place before the gate, to others. -/
def yieldSave (s : System) (call : Nat) : System :=
  let saveGate := s.saveGate.map fun gate => gate.leave call
  { s with saveGate }.wakeAll (((saveGate.map Gate.admitted).getD []).map .call)

theorem ledger_yieldSave (call : Nat) : (s.yieldSave call).ledger = s.ledger := ledger_wakeAll ..

theorem ledger_dropSave_itself (call : Nat) :
    (s.dropSave call .itself).ledger = s.ledger.forget call := by
  show (s.yieldSave call).ledger.forget call = _
  rw [ledger_yieldSave]

theorem ledger_dropSave_commit (call : Nat) {unit : Nat} {u : UnitOfWork}
    (h : s.units.get? unit = some u) :
    (s.dropSave call (.commit unit)).ledger =
      (s.ledger.putUnit unit u.reopen.leave).forget call := by
  have hunits : (s.yieldSave call).units = s.units :=
    congrArg Ledger.units (ledger_yieldSave call)
  let t : System :=
    { s.yieldSave call with units := (s.yieldSave call).units.modify unit UnitOfWork.reopen }
  have hget : t.units.get? unit = some u.reopen := by
    simp [t, hunits, Table.modify_of_get? h]
  have hput : t.ledger.putUnit unit u.reopen.leave =
      (s.yieldSave call).ledger.putUnit unit u.reopen.leave := by
    simp [t, ledger, Ledger.putUnit, hunits, Table.modify_of_get? h]
  show (t.leaveUnit unit).ledger.forget call = _
  rw [ledger_leaveUnit hget, hput, ledger_yieldSave]

/-- What giving a call up does to the ledger. -/
theorem ledger_abort? {s' : System} {call : Nat} (tidy : s.ledger.Tidy)
    (h : s.abort? call = some s') :
    ∃ stage, s.ledger.calls.get? call = some stage ∧ s.ledger.Dropped call stage s'.ledger := by
  unfold abort? at h
  split at h
  · simp at h
  · next stage hstage =>
    refine ⟨stage, hstage, ?_⟩
    have hunit : ∀ unit role, stage.role? = some (unit, role) →
        ∃ u, s.units.get? unit = some u :=
      fun unit role hrole => tidy.unit_of_role (Ledger.roles_of_role? hstage hrole)
    cases stage with
    | loading orderId command =>
      obtain rfl := Option.some.inj h
      exact .alone rfl rfl
    | loaded orderId command order => simp at h
    | deciding orderId command order now => simp at h
    | queued unit =>
      obtain ⟨u, hu⟩ := hunit unit _ rfl
      obtain rfl := Option.some.inj h
      simp only [leaveQueue, hu]
      show s.ledger.Dropped call _ (((s.putUnit unit _).wakeAll _).ledger.forget call)
      rw [ledger_wakeAll]
      exact .waiting rfl hu
    | entered unit => simp at h
    | held purpose events =>
      obtain rfl := Option.some.inj h
      cases purpose with
      | itself => exact ledger_dropSave_itself call ▸ .alone rfl rfl
      | commit unit =>
        obtain ⟨u, hu⟩ := hunit unit _ rfl
        exact ledger_dropSave_commit call hu ▸ .saving rfl hu
    | saving purpose envelopes since save =>
      obtain rfl := Option.some.inj h
      cases purpose with
      | itself => exact ledger_dropSave_itself call ▸ .alone rfl rfl
      | commit unit =>
        obtain ⟨u, hu⟩ := hunit unit _ rfl
        exact ledger_dropSave_commit call hu ▸ .saving rfl hu
    | saved unit envelopes => simp at h
    | dispatching commit dispatch =>
      cases commit with
      | none =>
        obtain rfl := Option.some.inj h
        exact .alone rfl rfl
      | some pair =>
        obtain ⟨u, hu⟩ := hunit pair.1 _ rfl
        obtain rfl := Option.some.inj h
        show s.ledger.Dropped call _ ((s.leaveUnit pair.1).ledger.forget call)
        rw [ledger_leaveUnit hu]
        exact .telling rfl hu
    | reloading aggregateId =>
      obtain rfl := Option.some.inj h
      exact .alone rfl rfl
    | draining =>
      obtain rfl := Option.some.inj h
      exact .alone rfl rfl
    | finished outcome => simp at h

theorem ledger_stepQueue? {s' : System} (h : s.stepQueue? = some s') : s'.ledger = s.ledger := by
  unfold stepQueue? at h
  split at h
  · simp at h
  · next queue _ =>
    split at h
    · split at h
      · obtain rfl := Option.some.inj h
        rfl
      · split at h
        · next queue' _ =>
          obtain rfl := Option.some.inj h
          exact ledger_wakeAll { s with queue := some queue' } s.drainers
        · simp at h
    · split at h
      · simp at h
      · next advance _ =>
        dsimp only at h
        split at h
        · obtain rfl := Option.some.inj h
          exact ledger_noteDispatch s advance
        · obtain rfl := Option.some.inj h
          exact ledger_noteDispatch s advance

theorem ledger_stepWorker? {s' : System} {subscription : Nat}
    (h : s.stepWorker? subscription = some s') : s'.ledger = s.ledger := by
  unfold stepWorker? at h
  split at h
  · simp at h
  · next done dispatcher _ =>
    obtain rfl := Option.some.inj h
    exact ledger_noteWorker { s with dispatcher } done

theorem ledger_shutdown :
    ∃ stage, Action.Starts .shutdown stage ∧ s.shutdown.2.ledger = s.ledger.start stage := by
  cases hqueue : s.queue with
  | none =>
    refine ⟨_, .shutdown, ?_⟩
    simp only [shutdown, hqueue]
    exact ledger_start _
  | some queue =>
    have hwake : ({ s with queue := some queue.shutdown.2 }.wake .queue).ledger = s.ledger :=
      ledger_wake ..
    cases hclaimed : queue.claimed with
    | false =>
      refine ⟨_, .drain, ?_⟩
      simp only [shutdown, hqueue, DispatchQueue.shutdown, hclaimed] at hwake ⊢
      exact (ledger_start _).trans (congrArg (Ledger.start · _) hwake)
    | true =>
      refine ⟨_, .shutdown, ?_⟩
      simp only [shutdown, hqueue, DispatchQueue.shutdown, hclaimed] at hwake ⊢
      exact (ledger_start _).trans (congrArg (Ledger.start · _) hwake)

/-- An action that spares the ledger. -/
theorem ledger_of_spares {s' : System} {a : Action} (h : s.perform? a = some s')
    (spares : a.sparesLedger = true) : s'.ledger = s.ledger := by
  cases a with
  | step agent =>
    cases agent with
    | call call => simp [Action.sparesLedger] at spares
    | queue => exact ledger_stepQueue? h
    | worker subscription => exact ledger_stepWorker? h
  | subscribe handler topics =>
    obtain rfl := Option.some.inj h
    rfl
  | unsubscribe id =>
    obtain rfl := Option.some.inj h
    exact (ledger_wakeAll ..).trans (ledger_wakeAwaiting ..)
  | close =>
    obtain rfl := Option.some.inj h
    exact ledger_wakeAwaiting ..
  | enqueue unit envelopes =>
    obtain rfl := Option.some.inj h
    unfold enqueue
    split
    · exact ledger_wake ..
    · rfl
  | release n =>
    obtain rfl := Option.some.inj h
    unfold release
    split
    · rfl
    · exact ledger_wakeAll ..
  | releaseHandler label n =>
    obtain rfl := Option.some.inj h
    exact ledger_wakeAll ..
  | schedule ready =>
    obtain rfl := Option.some.inj h
    rfl
  | replaceDispatch dispatcher queue =>
    obtain rfl := Option.some.inj h
    rfl
  | _ => simp [Action.sparesLedger] at spares

/-- Every action changes the ledger in one of the ways listed. -/
theorem ledger_perform? {s' : System} {a : Action} (tidy : s.ledger.Tidy)
    (hunit : ∀ unit, a.unit? = some unit → ∃ u, s.units.get? unit = some u)
    (h : s.perform? a = some s') : s.ledger.Change a s'.ledger := by
  by_cases spares : a.sparesLedger = true
  · exact ledger_of_spares h spares ▸ .spares spares
  cases a with
  | step agent =>
    cases agent with
    | call call =>
      obtain ⟨stage, hstage, hstep⟩ := ledger_stepCall? tidy h
      exact .steps hstage hstep
    | _ => exact (spares rfl).elim
  | save events =>
    obtain rfl := Option.some.inj h
    exact ledger_save events ▸ .starts (.save events)
  | commit unit =>
    obtain rfl := Option.some.inj h
    obtain ⟨u, hu⟩ := hunit unit rfl
    exact ledger_commit hu ▸ .arrives hu
  | handle orderId command =>
    obtain rfl := Option.some.inj h
    exact ledger_start (s := s) _ ▸ .starts (.handle orderId command)
  | dispatch envelopes =>
    obtain rfl := Option.some.inj h
    exact ledger_start (s := s) _ ▸ .starts (.dispatch envelopes)
  | redispatch aggregateId =>
    obtain rfl := Option.some.inj h
    exact ledger_start (s := s) _ ▸ .starts (.redispatch aggregateId)
  | shutdown =>
    obtain rfl := Option.some.inj h
    obtain ⟨stage, starts, heq⟩ := ledger_shutdown (s := s)
    exact heq ▸ .starts starts
  | abort call =>
    obtain ⟨stage, hstage, hdropped⟩ := ledger_abort? tidy h
    exact .drops hstage hdropped
  | newUnit mode =>
    obtain rfl := Option.some.inj h
    exact .makes mode
  | register unit events =>
    obtain rfl := Option.some.inj h
    obtain ⟨u, hu⟩ := hunit unit rfl
    simp only [register, hu]
    cases hregister : u.register events with
    | error message => exact .registersNot hu hregister
    | ok u' => exact .registers hu hregister
  | rollback unit =>
    obtain rfl := Option.some.inj h
    obtain ⟨u, hu⟩ := hunit unit rfl
    simp only [rollback, hu]
    cases hrollback : u.rollback with
    | error e => exact .rollsBackNot hu hrollback
    | ok u' => exact .rollsBack hu hrollback
  | tick now =>
    obtain rfl := Option.some.inj h
    exact .ticks now
  | fetch aggregateId fromSequence =>
    obtain rfl := Option.some.inj h
    exact .fetches aggregateId fromSequence
  | inject records =>
    obtain rfl := Option.some.inj h
    simp only [inject]
    split
    · exact .disturbs s.storage rfl
    · exact .disturbs _ rfl
  | fault fault =>
    obtain rfl := Option.some.inj h
    exact .disturbs _ rfl
  | replaceStorage storage =>
    obtain rfl := Option.some.inj h
    exact .disturbs storage rfl
  | _ => exact (spares rfl).elim

end System

end EventJournal
