import EventJournal.Proofs.System.Ledger

/-!
# Units of work in a system

What an action does to the units of work and to the calls that commit them: it is a deed at the desk
of one unit, it makes a unit, or it leaves all of them as they are.

* `Ledger.saved?`, `Ledger.buffered`: the events that an action saves for a unit, and what it does
  to those that are gathered;
* `Ledger.Move`, what an action does to units of work, and `Ledger.Turn`, what it does to calls;
* `Run.stage_induction`, how to prove something of the calls in a run.

The main statements are `Ledger.Change.move`, `Ledger.Change.turn` and `Run.tidy`, that the ledger
is tidy in every run.
-/

namespace EventJournal

open Function (update)

/-- The events of a unit of work that a call saves by going from one stage to another. -/
def Call.Stage.saved? (unit : Nat) : Call.Stage → Call.Stage → Option (List Event)
  | .saving (.commit other) envelopes _ _, .saved _ _ =>
    if other = unit then some (envelopes.map Envelope.event) else none
  | _, _ => none

/-- The stage at which a call starts. -/
def Action.Begins (a : Action) (stage : Call.Stage) : Prop :=
  a.Starts stage ∨ ∃ unit, a = .commit unit ∧ stage = .queued unit

namespace Ledger

/-- Whether a unit of work gathers events. -/
def gathers (l : Ledger) (unit : Nat) : Bool :=
  match l.units.get? unit with
  | some u => u.phase = .gathering
  | none => false

/-- The events of a unit of work that an action saves: those of a commit whose save has succeeded.
-/
def saved? (l : Ledger) (unit : Nat) (a : Action) (l' : Ledger) : Option (List Event) :=
  match a with
  | .step (.call call) =>
    match l.calls.get? call, l'.calls.get? call with
    | some stage, some stage' => stage.saved? unit stage'
    | _, _ => none
  | _ => none

/-- The events that a command to an order registers on a unit of work, if it is the unit that is
made for them. -/
def decided (l : Ledger) (unit : Nat) (events : List Event) : Call.Stage → List Event
  | .deciding orderId command order now =>
    match Order.decideOn order now command with
    | .ok payloads =>
      if unit = l.lastUnit + 1 then
        (DomainEvent.sequence orderId l.clock (Order.versionOf order) payloads).map
          DomainEvent.toEvent
      else events
    | .error _ => events
  | _ => events

/-- The events that are gathered on a unit of work after an action: it registers some, or drops all,
if the unit gathers. A unit that is made on request has none. -/
def buffered (l : Ledger) (unit : Nat) (events : List Event) : Action → List Event
  | .newUnit _ => if unit = l.lastUnit + 1 then [] else events
  | .register other new => if other = unit ∧ l.gathers unit then events ++ new else events
  | .rollback other => if other = unit ∧ l.gathers unit then [] else events
  | .step (.call call) => ((l.calls.get? call).map (l.decided unit events)).getD events
  | _ => events

/-- Whether an action is done at a unit of work: it names the unit, or a call that stands with the
unit takes a step or is given up. -/
def Reaches (l : Ledger) (unit : Nat) (a : Action) : Prop :=
  a.unit? = some unit ∨
    ∃ call role, (a = .step (.call call) ∨ a = .abort call) ∧ l.roles unit call = some role

/-- What an action does to units of work and their commits. -/
inductive Move (l : Ledger) (a : Action) (l' : Ledger) : Prop
  | keeps (units : l'.units = l.units) (lastUnit : l'.lastUnit = l.lastUnit)
      (roles : l'.roles = l.roles) (saved : ∀ other, l.saved? other a l' = none)
      (buffered : ∀ other events, l.buffered other events a = events)
  | does {unit : Nat} {u u' : UnitOfWork} {deed : Deed} (get : l.units.get? unit = some u)
      (units : l'.units = l.units.set unit u') (lastUnit : l'.lastUnit = l.lastUnit)
      (others : ∀ other, other ≠ unit → l'.roles other = l.roles other)
      (step : (l.desk unit u).Step deed (l'.desk unit u'))
      (saved : ∀ other, l.saved? other a l' = if unit = other then deed.saved? else none)
      (buffered : ∀ other events,
        l.buffered other events a = if unit = other then deed.buffered events else events)
      (doer : l.Reaches unit a)
  | makes {u : UnitOfWork} (units : l'.units = l.units.set (l.lastUnit + 1) u)
      (lastUnit : l'.lastUnit = l.lastUnit + 1)
      (others : ∀ other, other ≠ l.lastUnit + 1 → l'.roles other = l.roles other)
      (sound : (l'.desk (l.lastUnit + 1) u).Sound) (phase : u.phase = .gathering)
      (saved : ∀ other, l.saved? other a l' = none)
      (buffered : ∀ other events,
        l.buffered other events a = if other = l.lastUnit + 1 then u.events else events)

/-- What an action does to calls: it starts one, takes one further, gives one up, or none of these.
-/
inductive Turn (l : Ledger) (a : Action) (l' : Ledger) : Prop
  | rests (other : ∀ call, a ≠ .step (.call call)) (calls : l'.calls = l.calls)
      (last : l'.lastCall = l.lastCall)
  | begins {stage : Call.Stage} (other : ∀ call, a ≠ .step (.call call)) (begins : a.Begins stage)
      (calls : l'.calls = l.calls.set (l.lastCall + 1) stage)
      (last : l'.lastCall = l.lastCall + 1)
  | goes {call : Nat} {stage stage' : Call.Stage} (action : a = .step (.call call))
      (get : l.calls.get? call = some stage) (step : l.CallStep call stage l')
      (calls : l'.calls = l.calls.set call stage') (last : l'.lastCall = l.lastCall)
  | ends {call : Nat} (other : ∀ call, a ≠ .step (.call call))
      (calls : l'.calls = l.calls.erase call) (last : l'.lastCall = l.lastCall)

variable {l l' : Ledger}

theorem get?_of_set {call : Nat} {stage : Call.Stage} (h : l'.calls = l.calls.set call stage) :
    l'.calls.get? call = some stage := by
  rw [h, Table.get?_set_self]

/-- A call stands where it has been put. -/
theorem eq_of_set {call : Nat} {stage stage' : Call.Stage} (h : l'.calls = l.calls.set call stage)
    (hget : l'.calls.get? call = some stage') : stage = stage' :=
  Option.some.inj ((get?_of_set h).symm.trans hget)

theorem roles_of_set {call : Nat} {stage : Call.Stage} (h : l'.calls = l.calls.set call stage)
    (unit : Nat) : l'.roles unit = update (l.roles unit) call (stage.roleAt unit) := by
  funext other
  unfold roles
  rw [h, Table.get?_set]
  by_cases hother : other = call
  · subst hother
    simp
  · simp [hother]

theorem roles_of_erase {call : Nat} (h : l'.calls = l.calls.erase call) (unit : Nat) :
    l'.roles unit = update (l.roles unit) call none := by
  funext other
  unfold roles
  rw [h, Table.get?_erase]
  by_cases hother : other = call
  · subst hother
    simp
  · simp [hother]

theorem roleAt_of_role? (role : Option Role) {stage : Call.Stage} {unit : Nat}
    (h : stage.role? = role.map (unit, ·)) (other : Nat) :
    stage.roleAt other = if unit = other then role else none := by
  cases role <;> simp [Call.Stage.roleAt, h]

theorem roleAt_of_none {stage : Call.Stage} (h : stage.role? = none) (other : Nat) :
    stage.roleAt other = none := by
  simp [Call.Stage.roleAt, h]

theorem roles_of_get? {call : Nat} {stage : Call.Stage} (h : l.calls.get? call = some stage)
    (unit : Nat) : l.roles unit call = stage.roleAt unit := by
  simp [roles, h]

theorem saved?_of_get? {call : Nat} {stage stage' : Call.Stage}
    (h : l.calls.get? call = some stage) (h' : l'.calls.get? call = some stage') (unit : Nat) :
    l.saved? unit (.step (.call call)) l' = stage.saved? unit stage' := by
  simp [saved?, h, h']

/-- What a step of a call registers, unless it decides a command. -/
theorem buffered_of_get? {call : Nat} {stage : Call.Stage} (h : l.calls.get? call = some stage)
    (unit : Nat) (events : List Event) :
    l.buffered unit events (.step (.call call)) = l.decided unit events stage := by
  simp [buffered, h]

theorem decided_of_role? {stage : Call.Stage} {unit : Nat} {role : Role}
    (h : stage.role? = some (unit, role)) (other : Nat) (events : List Event) :
    l.decided other events stage = events := by
  cases stage with
  | deciding => simp [Call.Stage.role?] at h
  | _ => rfl

namespace Move

/-- A call goes to a stage that says the same of units of work. -/
theorem of_same {call : Nat} {stage stage' : Call.Stage} (hget : l.calls.get? call = some stage)
    (hcalls : l'.calls = l.calls.set call stage') (hrole : stage'.role? = stage.role?)
    (hunits : l'.units = l.units) (hlast : l'.lastUnit = l.lastUnit)
    (hsaved : ∀ other, stage.saved? other stage' = none)
    (hdecided : ∀ other events, l.decided other events stage = events) :
    l.Move (.step (.call call)) l' := by
  refine .keeps hunits hlast ?_ (fun other => ?_) (fun other events => ?_)
  · funext unit
    rw [roles_of_set hcalls, Function.update_eq_self_iff, roles_of_get? hget]
    simp [Call.Stage.roleAt, hrole]
  · rw [saved?_of_get? hget (get?_of_set hcalls)]
    exact hsaved other
  · rw [buffered_of_get? hget]
    exact hdecided other events

/-- A call does something at one unit of work and stands with no other. -/
theorem of_roles {a : Action} (call : Nat) (role : Option Role) {unit : Nat} {u u' : UnitOfWork}
    {deed : Deed} (hold : ∀ other, unit ≠ other → l.roles other call = none)
    (hnew : ∀ other,
      l'.roles other = update (l.roles other) call (if unit = other then role else none))
    (hu : l.units.get? unit = some u) (hunits : l'.units = l.units.set unit u')
    (hlast : l'.lastUnit = l.lastUnit)
    (hstep : (l.desk unit u).Step deed ⟨u', update (l.roles unit) call role⟩)
    (hsaved : ∀ other, l.saved? other a l' = if unit = other then deed.saved? else none)
    (hbuffered : ∀ other events,
      l.buffered other events a = if unit = other then deed.buffered events else events)
    (hdoer : l.Reaches unit a) : l.Move a l' := by
  refine .does hu hunits hlast (fun other hne => ?_) ?_ hsaved hbuffered hdoer
  · rw [hnew, if_neg (Ne.symm hne), Function.update_eq_self_iff, hold other (Ne.symm hne)]
  · have hroles : l'.roles unit = update (l.roles unit) call role := by rw [hnew, if_pos rfl]
    show (l.desk unit u).Step deed ⟨u', l'.roles unit⟩
    rw [hroles]
    exact hstep

/-- A call that stands with a unit of work takes a step there. -/
theorem of_step {call unit : Nat} {stage stage' : Call.Stage} {role : Role}
    (role' : Option Role) {u u' : UnitOfWork} {deed : Deed}
    (hget : l.calls.get? call = some stage) (hrole : stage.role? = some (unit, role))
    (hrole' : stage'.role? = role'.map (unit, ·)) (hu : l.units.get? unit = some u)
    (hunits : l'.units = l.units.set unit u') (hlast : l'.lastUnit = l.lastUnit)
    (hcalls : l'.calls = l.calls.set call stage')
    (hstep : (l.desk unit u).Step deed ⟨u', update (l.roles unit) call role'⟩)
    (hsaved : ∀ other, stage.saved? other stage' = if unit = other then deed.saved? else none)
    (hkept : ∀ events, deed.buffered events = events) : l.Move (.step (.call call)) l' := by
  refine of_roles call role' (fun other hne => ?_) (fun other => ?_) hu hunits
    hlast hstep (fun other => ?_) (fun other events => ?_)
    (.inr ⟨call, role, .inl rfl, roles_of_role? hget hrole⟩)
  · rw [roles_of_get? hget, roleAt_of_role? (some role) hrole, if_neg hne]
  · rw [roles_of_set hcalls, roleAt_of_role? role' hrole']
  · rw [saved?_of_get? hget (get?_of_set hcalls)]
    exact hsaved other
  · rw [buffered_of_get? hget, decided_of_role? hrole, hkept, ite_self]

/-- A call that stands with a unit of work is given up. -/
theorem of_drop {call unit : Nat} {stage : Call.Stage} {role : Role} {u u' : UnitOfWork}
    {deed : Deed} (hget : l.calls.get? call = some stage) (hrole : stage.role? = some (unit, role))
    (hu : l.units.get? unit = some u) (hunits : l'.units = l.units.set unit u')
    (hlast : l'.lastUnit = l.lastUnit) (hcalls : l'.calls = l.calls.erase call)
    (hstep : (l.desk unit u).Step deed ⟨u', update (l.roles unit) call none⟩)
    (hsaved : deed.saved? = none) (hkept : ∀ events, deed.buffered events = events) :
    l.Move (.abort call) l' := by
  refine of_roles call none (fun other hne => ?_) (fun other => ?_) hu hunits
    hlast hstep (fun other => ?_) (fun other events => ?_)
    (.inr ⟨call, role, .inr rfl, roles_of_role? hget hrole⟩)
  · rw [roles_of_get? hget, roleAt_of_role? (some role) hrole, if_neg hne]
  · rw [roles_of_erase hcalls, ite_self]
  · rw [hsaved, ite_self]
    rfl
  · rw [hkept, ite_self]
    rfl

/-- Somebody registers or drops events on a unit of work. -/
theorem of_unit {a : Action} {unit : Nat} {u u' : UnitOfWork} {deed : Deed}
    (hnamed : a.unit? = some unit) (hu : l.units.get? unit = some u)
    (hunits : l'.units = l.units.set unit u') (hlast : l'.lastUnit = l.lastUnit)
    (hcalls : l'.calls = l.calls) (hstep : (l.desk unit u).Step deed (l.desk unit u'))
    (hsaved : ∀ other, l.saved? other a l' = if unit = other then deed.saved? else none)
    (hbuffered : ∀ other events,
      l.buffered other events a = if unit = other then deed.buffered events else events) :
    l.Move a l' := by
  have hroles : l'.roles = l.roles := by
    funext other call
    simp [roles, hcalls]
  refine .does hu hunits hlast (fun other _ => congrFun hroles other) ?_ hsaved hbuffered
    (.inl hnamed)
  show (l.desk unit u).Step deed ⟨u', l'.roles unit⟩
  rw [hroles]
  exact hstep

end Move

namespace Tidy

/-- Nobody stands with a unit of work that is still to be made. -/
theorem roles_next (h : l.Tidy) : l.roles (l.lastUnit + 1) = fun _ => none := by
  funext call
  cases hrole : l.roles (l.lastUnit + 1) call with
  | none => rfl
  | some role =>
    obtain ⟨u, hu⟩ := h.unit_of_role hrole
    have hle := h.unit_le hu
    omega

/-- A call that is still to start is nowhere. -/
theorem get?_calls_next (h : l.Tidy) : l.calls.get? (l.lastCall + 1) = none := by
  cases hget : l.calls.get? (l.lastCall + 1) with
  | none => rfl
  | some stage =>
    have hle := h.call_le hget
    omega

end Tidy

/-- A unit of work that is new, with at most one call at its gate, is in order. -/
theorem sound_of_new {u : UnitOfWork} {roles : Nat → Option Role} (total : u.gate.total ≤ 1)
    (phase : u.phase = .gathering) (waiting : ∀ call role, roles call = some role →
      role = .waiting) : Desk.Sound ⟨u, roles⟩ := by
  refine .free ?_ total (by simp [phase])
  rintro call ⟨role, hrole, hinside⟩
  obtain rfl := waiting call role hrole
  simp [Role.isInside] at hinside

/-- A step of a call is a move. -/
theorem CallStep.move {call : Nat} {stage : Call.Stage} (hstep : l.CallStep call stage l')
    (tidy : l.Tidy) (hget : l.calls.get? call = some stage) : l.Move (.step (.call call)) l' := by
  have hrole : ∀ {unit role}, stage.role? = some (unit, role) → l.roles unit call = some role :=
    fun h => roles_of_role? hget h
  cases hstep with
  | loaded => exact .of_same hget rfl rfl rfl rfl (fun _ => rfl) fun _ _ => rfl
  | unloaded => exact .of_same hget rfl rfl rfl rfl (fun _ => rfl) fun _ _ => rfl
  | unreplayed => exact .of_same hget rfl rfl rfl rfl (fun _ => rfl) fun _ _ => rfl
  | timed => exact .of_same hget rfl rfl rfl rfl (fun _ => rfl) fun _ _ => rfl
  | ruledOut decide =>
    refine .of_same hget rfl rfl rfl rfl (fun _ => rfl) fun _ _ => ?_
    simp only [Ledger.decided, decide]
  | @decided orderId command order now payloads mode decide =>
    have hroles := fun (l' : Ledger) (h : l'.calls = l.calls.set call (.queued (l.lastUnit + 1))) =>
      roles_of_set h
    have hat : ∀ other, Call.Stage.roleAt other (.queued (l.lastUnit + 1)) =
        if l.lastUnit + 1 = other then some .waiting else none :=
      roleAt_of_role? (some .waiting) rfl
    refine .makes rfl rfl (fun other hne => ?_) ?_ rfl (fun other => ?_) (fun other events => ?_)
    · rw [hroles _ rfl, hat, if_neg (Ne.symm hne), Function.update_eq_self_iff, roles_of_get? hget]
      rfl
    · refine sound_of_new (Nat.le_of_eq (Gate.total_join ..)) rfl fun call' role h => ?_
      rw [hroles _ rfl, hat, if_pos rfl, tidy.roles_next] at h
      by_cases hcall : call' = call
      · subst hcall
        rw [Function.update_self] at h
        exact (Option.some.inj h).symm
      · rw [Function.update_of_ne hcall] at h
        simp at h
    · rw [saved?_of_get? hget (Table.get?_set_self ..)]
      rfl
    · rw [buffered_of_get? hget]
      simp only [Ledger.decided, decide]
  | entered get pass =>
    exact .of_step (some .entered) hget rfl rfl get rfl rfl rfl (.enter (hrole rfl) pass)
      (fun _ => by simp [Call.Stage.saved?, Deed.saved?]) fun _ => rfl
  | refused get begin =>
    exact .of_step none hget rfl rfl get rfl rfl rfl (.refuse (hrole rfl) begin)
      (fun _ => by simp [Call.Stage.saved?, Deed.saved?]) fun _ => rfl
  | emptied get begin =>
    exact .of_step none hget rfl rfl get rfl rfl rfl (.pass (hrole rfl) begin)
      (fun _ => by simp [Call.Stage.saved?, Deed.saved?]) fun _ => rfl
  | @fixed unit u u' events get begin nonempty =>
    exact .of_step (some (.saving events)) hget rfl rfl get rfl rfl rfl
      (.fix (hrole rfl) begin nonempty) (fun _ => by simp [Call.Stage.saved?, Deed.saved?])
      fun _ => rfl
  | savedNothing => exact .of_same hget rfl rfl rfl rfl (fun _ => rfl) fun _ _ => rfl
  | unprepared nonempty prepare failed =>
    cases failed with
    | itself => exact .of_same hget rfl rfl rfl rfl (fun _ => rfl) fun _ _ => rfl
    | commit get =>
      exact .of_step none hget rfl rfl get rfl rfl rfl (.fail (hrole rfl))
        (fun _ => by simp [Call.Stage.saved?, Deed.saved?]) fun _ => rfl
  | @prepared purpose events entries nonempty prepare =>
    refine .of_same hget rfl ?_ rfl rfl (fun _ => by cases purpose <;> rfl) fun _ _ => rfl
    cases purpose with
    | itself => rfl
    | commit unit => simp [Call.Stage.role?, map_envelope_of_prepare prepare]
  | @asked purpose =>
    refine .of_same hget rfl ?_ rfl rfl (fun _ => by cases purpose <;> rfl) fun _ _ => rfl
    cases purpose <;> rfl
  | @stored purpose envelopes since save storage _ step completed =>
    cases completed with
    | itself => exact .of_same hget rfl rfl rfl rfl (fun _ => rfl) fun _ _ => rfl
    | commit get =>
      exact .of_step (some (.telling envelopes)) hget rfl rfl get rfl rfl rfl
        (.succeed (hrole rfl)) (fun _ => rfl) fun _ => rfl
  | failed step failed =>
    cases failed with
    | itself => exact .of_same hget rfl rfl rfl rfl (fun _ => rfl) fun _ _ => rfl
    | commit get =>
      exact .of_step none hget rfl rfl get rfl rfl rfl (.fail (hrole rfl))
        (fun _ => by simp [Call.Stage.saved?, Deed.saved?]) fun _ => rfl
  | dispatches get mode => exact .of_same hget rfl rfl rfl rfl (fun _ => rfl) fun _ _ => rfl
  | enqueues result get mode =>
    exact .of_step none hget rfl rfl get rfl rfl rfl (.part (hrole rfl))
      (fun _ => by simp [Call.Stage.saved?, Deed.saved?]) fun _ => rfl
  | @tells commit dispatch next =>
    refine .of_same hget rfl ?_ rfl rfl (fun _ => rfl) fun _ _ => rfl
    cases commit <;> rfl
  | told outcome plain => exact .of_same hget rfl rfl rfl rfl (fun _ => rfl) fun _ _ => rfl
  | toldCommit result get =>
    exact .of_step none hget rfl rfl get rfl rfl rfl (.part (hrole rfl))
      (fun _ => by simp [Call.Stage.saved?, Deed.saved?]) fun _ => rfl
  | reloaded load => exact .of_same hget rfl rfl rfl rfl (fun _ => rfl) fun _ _ => rfl
  | unreloaded load => exact .of_same hget rfl rfl rfl rfl (fun _ => rfl) fun _ _ => rfl
  | drained => exact .of_same hget rfl rfl rfl rfl (fun _ => rfl) fun _ _ => rfl

theorem saved?_of_starts {a : Action} {stage : Call.Stage} (h : a.Starts stage) (unit : Nat)
    (l' : Ledger) : l.saved? unit a l' = none := by
  cases h <;> rfl

theorem buffered_of_starts {a : Action} {stage : Call.Stage} (h : a.Starts stage) (unit : Nat)
    (events : List Event) : l.buffered unit events a = events := by
  cases h <;> rfl

theorem role?_of_starts {a : Action} {stage : Call.Stage} (h : a.Starts stage) :
    stage.role? = none := by
  cases h <;> rfl

/-- An action at rest. -/
theorem Move.of_rest {a : Action} (hunits : l'.units = l.units) (hlast : l'.lastUnit = l.lastUnit)
    (hcalls : l'.calls = l.calls) (hsaved : ∀ other, l.saved? other a l' = none)
    (hbuffered : ∀ other events, l.buffered other events a = events) : l.Move a l' := by
  refine .keeps hunits hlast ?_ hsaved hbuffered
  funext unit call
  simp [roles, hcalls]

/-- A call is given up. -/
theorem Dropped.move {call : Nat} {stage : Call.Stage} (h : l.Dropped call stage l')
    (hget : l.calls.get? call = some stage) : l.Move (.abort call) l' := by
  cases h with
  | alone role going =>
    refine .keeps rfl rfl ?_ (fun _ => rfl) fun _ _ => rfl
    funext unit
    have hcalls : (l.forget call).calls = l.calls.erase call := rfl
    rw [roles_of_erase hcalls, Function.update_eq_self_iff, roles_of_get? hget,
      roleAt_of_none role]
  | waiting role get =>
    exact .of_drop hget role get rfl rfl rfl (.quit (roles_of_role? hget role)) rfl fun _ => rfl
  | saving role get =>
    exact .of_drop hget role get rfl rfl rfl (.fail (roles_of_role? hget role)) rfl fun _ => rfl
  | telling role get =>
    exact .of_drop hget role get rfl rfl rfl (.part (roles_of_role? hget role)) rfl fun _ => rfl

theorem gathers_of_get? {unit : Nat} {u : UnitOfWork} (h : l.units.get? unit = some u) :
    l.gathers unit = decide (u.phase = .gathering) := by
  simp [gathers, h]

/-- Every change is a move. -/
theorem Change.move {a : Action} (h : l.Change a l') (tidy : l.Tidy) : l.Move a l' := by
  cases h with
  | steps get step => exact step.move tidy get
  | spares spares =>
    refine .keeps rfl rfl rfl (fun other => ?_) fun other events => ?_
    · unfold saved?
      split
      · simp [Action.sparesLedger] at spares
      · rfl
    · unfold buffered
      split
      · simp [Action.sparesLedger] at spares
      · simp [Action.sparesLedger] at spares
      · simp [Action.sparesLedger] at spares
      · simp [Action.sparesLedger] at spares
      · rfl
  | @starts _ stage starts =>
    refine .keeps rfl rfl ?_ (fun _ => saved?_of_starts starts ..) fun _ _ =>
      buffered_of_starts starts ..
    funext unit
    have hcalls : (l.start stage).calls = l.calls.set (l.lastCall + 1) stage := rfl
    rw [roles_of_set hcalls,
      Function.update_eq_self_iff, roleAt_of_none (role?_of_starts starts)]
    simp [roles, tidy.get?_calls_next]
  | @arrives unit u get =>
    have hrole : ∀ other, l.roles other (l.lastCall + 1) = none := by
      intro other
      simp [roles, tidy.get?_calls_next]
    refine .of_roles (l.lastCall + 1) (some .waiting) (fun other _ => hrole other)
      (fun other => ?_) get rfl rfl (.arrive (hrole unit)) (fun other => (ite_self _).symm)
      (fun other events => (ite_self _).symm) (.inl rfl)
    have hcalls : ((l.putUnit unit { u with gate := u.gate.join (l.lastCall + 1) }).start
        (.queued unit)).calls = l.calls.set (l.lastCall + 1) (.queued unit) := rfl
    rw [roles_of_set hcalls,
      roleAt_of_role? (some .waiting) rfl]
  | drops get dropped => exact dropped.move get
  | makes mode =>
    refine .makes rfl rfl (fun other _ => rfl) ?_ rfl (fun _ => rfl) fun other events => ?_
    · refine sound_of_new (Nat.le_refl _) rfl fun call role h => ?_
      have hnobody : l.roles (l.lastUnit + 1) call = some role := h
      rw [tidy.roles_next] at hnobody
      simp at hnobody
    · rfl
  | @registers unit u u' events get ok =>
    refine .of_unit rfl get rfl rfl rfl (.register ok) (fun _ => (ite_self _).symm)
      fun other events => ?_
    have hphase := (UnitOfWork.register_eq_ok_iff.1 ok).1
    by_cases hother : unit = other
    · subst hother
      simp [buffered, gathers_of_get? get, hphase, Deed.buffered]
    · simp [buffered, hother]
  | @registersNot unit u events message get refused =>
    refine .of_rest rfl rfl rfl (fun _ => rfl) fun other held => ?_
    have hphase : u.phase ≠ .gathering := by
      intro hphase
      rw [UnitOfWork.register_eq_ok_iff.2 ⟨hphase, rfl⟩] at refused
      simp at refused
    refine if_neg ?_
    rintro ⟨rfl, hgathers⟩
    simp [gathers_of_get? get, hphase] at hgathers
  | @rollsBack unit u u' get ok =>
    refine .of_unit rfl get rfl rfl rfl (.rollback ok) (fun _ => (ite_self _).symm)
      fun other events => ?_
    have hphase := (UnitOfWork.rollback_eq_ok_iff.1 ok).1
    by_cases hother : unit = other
    · subst hother
      simp [buffered, gathers_of_get? get, hphase, Deed.buffered]
    · simp [buffered, hother]
  | @rollsBackNot unit u e get refused =>
    refine .of_rest rfl rfl rfl (fun _ => rfl) fun other held => ?_
    have hphase : u.phase ≠ .gathering := by
      intro hphase
      rw [UnitOfWork.rollback_eq_ok_iff.2 ⟨hphase, rfl⟩] at refused
      simp at refused
    refine if_neg ?_
    rintro ⟨rfl, hgathers⟩
    simp [gathers_of_get? get, hphase] at hgathers
  | ticks now => exact .of_rest rfl rfl rfl (fun _ => rfl) fun _ _ => rfl
  | fetches aggregateId fromSequence => exact .of_rest rfl rfl rfl (fun _ => rfl) fun _ _ => rfl
  | @disturbs a storage disturbs =>
    cases a with
    | inject records => exact .of_rest rfl rfl rfl (fun _ => rfl) fun _ _ => rfl
    | fault fault => exact .of_rest rfl rfl rfl (fun _ => rfl) fun _ _ => rfl
    | replaceStorage storage => exact .of_rest rfl rfl rfl (fun _ => rfl) fun _ _ => rfl
    | _ => simp [Action.disturbsStorage] at disturbs

/-- A step takes its call to another stage. -/
theorem CallStep.calls {call : Nat} {stage : Call.Stage} (h : l.CallStep call stage l') :
    ∃ stage', l'.calls = l.calls.set call stage' ∧ l'.lastCall = l.lastCall := by
  cases h with
  | unprepared _ _ failed => cases failed <;> exact ⟨_, rfl, rfl⟩
  | stored _ completed => cases completed <;> exact ⟨_, rfl, rfl⟩
  | failed _ failed => cases failed <;> exact ⟨_, rfl, rfl⟩
  | _ => exact ⟨_, rfl, rfl⟩

/-- Every change is a turn. -/
theorem Change.turn {a : Action} (h : l.Change a l') : l.Turn a l' := by
  cases h with
  | steps get step =>
    obtain ⟨stage', hcalls, hlast⟩ := step.calls
    exact .goes rfl get step hcalls hlast
  | spares spares =>
    refine .rests (fun call heq => ?_) rfl rfl
    subst heq
    simp [Action.sparesLedger] at spares
  | starts starts =>
    refine .begins (fun call heq => ?_) (.inl starts) rfl rfl
    subst heq
    cases starts
  | arrives => exact .begins (by simp) (.inr ⟨_, rfl, rfl⟩) rfl rfl
  | drops get dropped => cases dropped <;> exact .ends (by simp) rfl rfl
  | disturbs storage disturbs =>
    refine .rests (fun call heq => ?_) rfl rfl
    subst heq
    simp [Action.disturbsStorage] at disturbs
  | _ => exact .rests (by simp) rfl rfl

/-- Numbers of calls are given in ascending order. -/
theorem Turn.lastCall_le {a : Action} (h : l.Turn a l') : l.lastCall ≤ l'.lastCall := by
  cases h with
  | rests _ _ last => exact Nat.le_of_eq last.symm
  | begins _ _ _ last => exact Nat.le_trans (Nat.le_succ _) (Nat.le_of_eq last.symm)
  | goes _ _ _ _ last => exact Nat.le_of_eq last.symm
  | ends _ _ last => exact Nat.le_of_eq last.symm

/-- An action that is not done at a unit of work leaves it as it is. -/
theorem Change.apart {a : Action} (h : l.Change a l') (tidy : l.Tidy) {unit : Nat}
    (made : unit ≤ l.lastUnit) (apart : ¬ l.Reaches unit a) :
    l'.units.get? unit = l.units.get? unit ∧ l'.roles unit = l.roles unit := by
  cases h.move tidy with
  | keeps units last roles => exact ⟨by rw [units], by rw [roles]⟩
  | @does other u u' deed get units last others step saved buffered doer =>
    have hne : unit ≠ other := by
      rintro rfl
      exact apart doer
    rw [units, Table.get?_set, if_neg hne]
    exact ⟨rfl, others unit hne⟩
  | makes units last others =>
    have hne : unit ≠ l.lastUnit + 1 := by omega
    rw [units, Table.get?_set, if_neg hne]
    exact ⟨rfl, others unit hne⟩

/-- A call that is given up is nowhere. -/
theorem Change.get?_of_abort {call : Nat} (h : l.Change (.abort call) l') :
    l'.calls.get? call = none := by
  cases h with
  | drops get dropped => cases dropped <;> simp [forget, Table.get?_erase]
  | spares spares => simp [Action.sparesLedger] at spares
  | starts starts => cases starts
  | disturbs storage disturbs => simp [Action.disturbsStorage] at disturbs

/-- A call stands where it is unless it takes a step or is given up. -/
theorem Change.get?_of_other {a : Action} (h : l.Change a l') (tidy : l.Tidy) {call : Nat}
    {stage : Call.Stage} (hget : l.calls.get? call = some stage) (hstep : a ≠ .step (.call call))
    (habort : a ≠ .abort call) : l'.calls.get? call = some stage := by
  have hne : call ≠ l.lastCall + 1 := by
    have hle := tidy.call_le hget
    omega
  cases h with
  | @steps acting old l' get step =>
    have hother : call ≠ acting := by
      rintro rfl
      exact hstep rfl
    obtain ⟨stage', hcalls, -⟩ := step.calls
    rw [hcalls, Table.get?_set, if_neg hother]
    exact hget
  | starts => exact (Table.get?_set ..).trans ((if_neg hne).trans hget)
  | arrives => exact (Table.get?_set ..).trans ((if_neg hne).trans hget)
  | @drops dropped other l' get hdropped =>
    have hother : call ≠ dropped := by
      rintro rfl
      exact habort rfl
    cases hdropped <;> exact (Table.get?_erase ..).trans ((if_neg hother).trans hget)
  | _ => exact hget

/-- The call of a command starts with the load of its order. -/
theorem Change.get?_of_handle {orderId : String} {command : Order.Command}
    (h : l.Change (.handle orderId command) l') :
    l'.calls.get? (l.lastCall + 1) = some (.loading orderId command) := by
  cases h with
  | starts starts =>
    cases starts
    exact Table.get?_set_self ..
  | spares spares => simp [Action.sparesLedger] at spares
  | disturbs storage disturbs => simp [Action.disturbsStorage] at disturbs

theorem Change.lastCall_of_starts {a : Action} {stage : Call.Stage} (h : l.Change a l')
    (starts : a.Starts stage) : l'.lastCall = l.lastCall + 1 := by
  cases h with
  | starts => rfl
  | spares spares => cases starts <;> simp [Action.sparesLedger] at spares
  | disturbs storage disturbs => cases starts <;> simp [Action.disturbsStorage] at disturbs
  | _ => cases starts

/-- Calls stay numbered. -/
theorem Turn.call_le {a : Action} (h : l.Turn a l')
    (numbered : ∀ {call stage}, l.calls.get? call = some stage → call ≤ l.lastCall) {call : Nat}
    {stage : Call.Stage} (hget : l'.calls.get? call = some stage) : call ≤ l'.lastCall := by
  cases h with
  | rests other calls last =>
    rw [calls] at hget
    exact last ▸ numbered hget
  | begins other begins calls last =>
    rw [calls, Table.get?_set] at hget
    split at hget
    · omega
    · have hle := numbered hget
      omega
  | goes action get step calls last =>
    rw [calls, Table.get?_set] at hget
    split at hget
    · next heq => exact heq ▸ last ▸ numbered get
    · exact last ▸ numbered hget
  | ends other calls last =>
    rw [calls, Table.get?_erase] at hget
    split at hget
    · simp at hget
    · exact last ▸ numbered hget

/-- A ledger is tidy after one unit of work has changed or has been made, and is in order. -/
theorem Tidy.of_set (tidy : l.Tidy) {unit : Nat} {u : UnitOfWork}
    (units : l'.units = l.units.set unit u) (made : unit ≤ l'.lastUnit)
    (last : l.lastUnit ≤ l'.lastUnit)
    (others : ∀ other, other ≠ unit → l'.roles other = l.roles other)
    (sound : (l'.desk unit u).Sound)
    (call_le : ∀ {call stage}, l'.calls.get? call = some stage → call ≤ l'.lastCall) : l'.Tidy := by
  constructor
  case unit_of_role =>
    intro other call role hrole
    by_cases hother : other = unit
    · exact ⟨u, by rw [units, hother, Table.get?_set_self]⟩
    · rw [others other hother] at hrole
      rw [units, Table.get?_set, if_neg hother]
      exact tidy.unit_of_role hrole
  case sound =>
    intro other v hget
    by_cases hother : other = unit
    · subst hother
      rw [units, Table.get?_set_self] at hget
      exact Option.some.inj hget ▸ sound
    · rw [units, Table.get?_set, if_neg hother] at hget
      show Desk.Sound ⟨v, l'.roles other⟩
      rw [others other hother]
      exact tidy.sound hget
  case call_le => exact call_le
  case unit_le =>
    intro other v hget
    by_cases hother : other = unit
    · exact hother ▸ made
    · rw [units, Table.get?_set, if_neg hother] at hget
      exact Nat.le_trans (tidy.unit_le hget) last

/-- A ledger stays tidy. -/
theorem Tidy.change {a : Action} (tidy : l.Tidy) (h : l.Change a l') : l'.Tidy := by
  have call_le : ∀ {call stage}, l'.calls.get? call = some stage → call ≤ l'.lastCall :=
    h.turn.call_le tidy.call_le
  cases h.move tidy with
  | keeps units last roles =>
    constructor
    case unit_of_role =>
      intro unit call role hrole
      rw [roles] at hrole
      rw [units]
      exact tidy.unit_of_role hrole
    case sound =>
      intro unit u hget
      rw [units] at hget
      show Desk.Sound ⟨u, l'.roles unit⟩
      rw [roles]
      exact tidy.sound hget
    case call_le => exact call_le
    case unit_le =>
      intro unit u hget
      rw [units] at hget
      exact last ▸ tidy.unit_le hget
  | does get units last others step =>
    exact tidy.of_set units (last ▸ tidy.unit_le get) (Nat.le_of_eq last.symm) others
      ((tidy.sound get).step step) call_le
  | makes units last others sound =>
    exact tidy.of_set units (Nat.le_of_eq last.symm) (by omega) others sound call_le

/-- A unit of work that there is stays. What every deed at it keeps, every action keeps. -/
theorem Change.exists_unit {a : Action} (h : l.Change a l') (tidy : l.Tidy) {unit : Nat}
    {u : UnitOfWork} (hget : l.units.get? unit = some u) {P : UnitOfWork → Prop} (same : P u)
    (step : ∀ {deed : Deed} {d : Desk}, (l.desk unit u).Step deed d → P d.unit) :
    ∃ u', l'.units.get? unit = some u' ∧ P u' := by
  cases h.move tidy with
  | keeps units => exact ⟨u, units ▸ hget, same⟩
  | @does other v v' deed get units last others hstep =>
    by_cases hother : unit = other
    · subst hother
      obtain rfl := Option.some.inj (get.symm.trans hget)
      exact ⟨v', by rw [units, Table.get?_set_self], step hstep⟩
    · exact ⟨u, by rw [units, Table.get?_set, if_neg hother, hget], same⟩
  | makes units =>
    have hne : unit ≠ l.lastUnit + 1 := by
      have hle := tidy.unit_le hget
      omega
    exact ⟨u, by rw [units, Table.get?_set, if_neg hne, hget], same⟩

/-- A ledger without units of work and calls is tidy. -/
theorem tidy_of_fresh {s : System} (fresh : s.Fresh) : s.ledger.Tidy := by
  have hcalls : ∀ call, s.ledger.calls.get? call = none := by
    intro call
    show s.calls.get? call = none
    rw [fresh.calls, Table.get?_empty]
  have hunits : ∀ unit, s.ledger.units.get? unit = none := by
    intro unit
    show s.units.get? unit = none
    rw [fresh.units, Table.get?_empty]
  constructor
  · intro unit call role h
    simp [roles, hcalls] at h
  · intro unit u h
    simp [hunits] at h
  · intro call stage h
    simp [hcalls] at h
  · intro unit u h
    simp [hunits] at h

end Ledger

theorem System.outcome?_eq_some_iff {s : System} {call : Nat} {outcome : Call.Outcome} :
    s.outcome? call = some outcome ↔ s.calls.get? call = some (.finished outcome) := by
  unfold outcome?
  cases hget : s.calls.get? call with
  | none => simp
  | some stage => cases stage <;> simp [Call.Stage.outcome?]

namespace Run

variable {s₀ s : System} {h : History}

/-- In a run the ledger is tidy, and the units of work that are known exist. -/
theorem tidy (run : Run s₀ h s) (fresh : s₀.Fresh) :
    s.ledger.Tidy ∧ ∀ unit, h.Knows unit → ∃ u, s.units.get? unit = some u := by
  induction run with
  | nil => exact ⟨Ledger.tidy_of_fresh fresh, by simp [History.Knows]⟩
  | @snoc h s s' a run known perform ih =>
    obtain ⟨tidy, hunits⟩ := ih
    have change := System.ledger_perform? tidy (fun unit hunit => hunits unit (known unit hunit))
      perform
    refine ⟨tidy.change change, ?_⟩
    rintro unit ⟨m, hm, hnew⟩
    rcases List.mem_append.1 hm with hm | hm
    · obtain ⟨u, hu⟩ := hunits unit ⟨m, hm, hnew⟩
      obtain ⟨u', hu', -⟩ :=
        change.exists_unit tidy hu (P := fun _ => True) trivial fun _ => trivial
      exact ⟨u', hu'⟩
    · -- the unit is made by the last action
      obtain rfl := List.mem_singleton.1 hm
      cases a with
      | newUnit mode =>
        obtain rfl := Option.some.inj hnew
        obtain rfl := Option.some.inj perform
        exact ⟨_, Table.get?_set_self ..⟩
      | _ => simp [Moment.newUnit?] at hnew

/-- The next action of a run changes the ledger in one of the ways listed. -/
theorem change {a : Action} {s' : System} (run : Run s₀ h s) (fresh : s₀.Fresh)
    (known : ∀ unit, a.unit? = some unit → h.Knows unit) (perform : s.perform? a = some s') :
    s.ledger.Change a s'.ledger :=
  System.ledger_perform? (run.tidy fresh).1
    (fun unit hunit => (run.tidy fresh).2 unit (known unit hunit)) perform

/-- A call that is still to start has taken no steps. -/
theorem stepsOf_next (run : Run s₀ h s) (fresh : s₀.Fresh) {call : Nat} (hlt : s.lastCall < call) :
    h.stepsOf call = [] := by
  induction run with
  | nil => rfl
  | @snoc h s s' a run known perform ih =>
    have hlater : s.lastCall < call ∧ ∀ stage, s.calls.get? call ≠ some stage := by
      have hlast : s.lastCall ≤ s'.lastCall := (run.change fresh known perform).turn.lastCall_le
      refine ⟨by omega, fun stage hget => ?_⟩
      have hle := (run.tidy fresh).1.call_le hget
      have heq : s.ledger.lastCall = s.lastCall := rfl
      omega
    rw [History.stepsOf_concat, ih hlater.1, List.nil_append, if_neg]
    rw [Bool.not_eq_true]
    cases (run.change fresh known perform).turn with
    | rests other => exact Moment.isStepOf_of_other other call
    | begins other => exact Moment.isStepOf_of_other other call
    | ends other => exact Moment.isStepOf_of_other other call
    | @goes acting stage stage' action get =>
      subst action
      refine decide_eq_false fun heq => ?_
      subst heq
      exact hlater.2 _ get

theorem asks_concat {m : Moment} {call : Nat} {a : Action} (asks : History.Asks (h ++ [m]) call a) :
    h.Asks call a ∨ m.action = a ∧ call = m.before.lastCall + 1 := by
  obtain ⟨m', hm', haction, hcall⟩ := asks
  rcases List.mem_append.1 hm' with hm' | hm'
  · exact .inl ⟨m', hm', haction, hcall⟩
  · obtain rfl := List.mem_singleton.1 hm'
    exact .inr ⟨haction, hcall.symm⟩

/-- A call that has been asked for has its number. -/
theorem asks_le (run : Run s₀ h s) (fresh : s₀.Fresh) {call : Nat} {a : Action} {stage : Call.Stage}
    (starts : a.Starts stage) (asks : h.Asks call a) : call ≤ s.lastCall := by
  induction run with
  | nil =>
    obtain ⟨m, hm, -⟩ := asks
    simp at hm
  | @snoc h s s' b run known perform ih =>
    have change := run.change fresh known perform
    rcases asks_concat asks with asks | ⟨rfl, rfl⟩
    · exact Nat.le_trans (ih asks) change.turn.lastCall_le
    · exact Nat.le_of_eq (change.lastCall_of_starts starts).symm

/-- A call has been asked for by one action. -/
theorem asks_unique (run : Run s₀ h s) (fresh : s₀.Fresh) {call : Nat} {a a' : Action}
    {stage stage' : Call.Stage} (starts : a.Starts stage) (starts' : a'.Starts stage')
    (asks : h.Asks call a) (asks' : h.Asks call a') : a = a' := by
  induction run with
  | nil =>
    obtain ⟨m, hm, -⟩ := asks
    simp at hm
  | @snoc h s s' b run known perform ih =>
    rcases asks_concat asks with hold | ⟨rfl, hcall⟩
    · rcases asks_concat asks' with hold' | ⟨rfl, hcall'⟩
      · exact ih hold hold'
      · have hle : call ≤ s.lastCall := run.asks_le fresh starts hold
        have heq : call = s.lastCall + 1 := hcall'
        omega
    · rcases asks_concat asks' with hold' | ⟨rfl, hcall'⟩
      · have hle : call ≤ s.lastCall := run.asks_le fresh starts' hold'
        have heq : call = s.lastCall + 1 := hcall
        omega
      · rfl

/-- What holds of calls when they start, and is kept by their own steps and by everything else,
holds of all calls in a run. -/
theorem stage_induction {P : History → System → Nat → Call.Stage → Prop} (fresh : s₀.Fresh)
    (start : ∀ {h : History} {s s' : System} {a : Action} {stage : Call.Stage}, Run s₀ h s →
      (∀ unit, a.unit? = some unit → h.Knows unit) → s.ledger.Change a s'.ledger →
      a.Begins stage → s'.calls.get? (s.lastCall + 1) = some stage →
      (h ++ [⟨s, a, s'⟩] : History).stepsOf (s.lastCall + 1) = [] →
      P (h ++ [⟨s, a, s'⟩]) s' (s.lastCall + 1) stage)
    (step : ∀ {h : History} {s s' : System} {call : Nat} {stage stage' : Call.Stage}, Run s₀ h s →
      s.stepCall? call = some s' → s.calls.get? call = some stage →
      s.ledger.CallStep call stage s'.ledger → s'.calls.get? call = some stage' →
      P h s call stage → P (h ++ [⟨s, .step (.call call), s'⟩]) s' call stage')
    (keep : ∀ {h : History} {s s' : System} {a : Action} {call : Nat} {stage : Call.Stage},
      Run s₀ h s → (∀ unit, a.unit? = some unit → h.Knows unit) → s.ledger.Change a s'.ledger →
      Moment.isStepOf ⟨s, a, s'⟩ call = false → s.calls.get? call = some stage →
      s'.calls.get? call = some stage → P h s call stage →
      P (h ++ [⟨s, a, s'⟩]) s' call stage)
    (run : Run s₀ h s) {call : Nat} {stage : Call.Stage} (hget : s.calls.get? call = some stage) :
    P h s call stage := by
  induction run generalizing call stage with
  | nil =>
    rw [fresh.calls, Table.get?_empty] at hget
    simp at hget
  | @snoc h s s' a run known perform ih =>
    have change := run.change fresh known perform
    cases change.turn with
    | rests other calls last =>
      have hbefore : s.calls.get? call = some stage :=
        (congrArg (·.get? call) calls).symm.trans hget
      exact keep run known change (Moment.isStepOf_of_other other call) hbefore hget (ih hbefore)
    | @begins first other begins calls last =>
      have hget' : (s.calls.set (s.lastCall + 1) first).get? call = some stage :=
        (congrArg (·.get? call) calls).symm.trans hget
      rw [Table.get?_set] at hget'
      split at hget'
      · next heq =>
        subst heq
        obtain rfl := Option.some.inj hget'
        refine start run known change begins hget ?_
        rw [History.stepsOf_concat, run.stepsOf_next fresh (Nat.lt_succ_self _),
          Moment.isStepOf_of_other other]
        rfl
      · exact keep run known change (Moment.isStepOf_of_other other call) hget' hget (ih hget')
    | @goes acting old new action get callStep calls last =>
      subst action
      have hget' : (s.calls.set acting new).get? call = some stage :=
        (congrArg (·.get? call) calls).symm.trans hget
      rw [Table.get?_set] at hget'
      split at hget'
      · next heq =>
        subst heq
        exact step run perform get callStep hget (ih get)
      · next hne =>
        exact keep run known change (decide_eq_false (Ne.symm hne)) hget' hget (ih hget')
    | @ends dropped other calls last =>
      have hget' : (s.calls.erase dropped).get? call = some stage :=
        (congrArg (·.get? call) calls).symm.trans hget
      rw [Table.get?_erase] at hget'
      split at hget'
      · simp at hget'
      · exact keep run known change (Moment.isStepOf_of_other other call) hget' hget (ih hget')

/-- Every moment of a run changes a tidy ledger in one of the ways listed. -/
theorem change_of_mem {m : Moment} (run : Run s₀ h s) (fresh : s₀.Fresh) (hm : m ∈ h) :
    m.before.ledger.Tidy ∧ m.before.ledger.Change m.action m.after.ledger := by
  obtain ⟨h₁, h₂, -, hbefore, known, perform⟩ := run.split hm
  exact ⟨(hbefore.tidy fresh).1, hbefore.change fresh known perform⟩

end Run

end EventJournal
