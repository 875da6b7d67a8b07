import EventJournal.Proofs.Order.Serial

/-!
# Books of orders

All orders as one pure machine: a book has the state of every order, and a command changes it by the
rules of orders alone. What a system does with commands that come one by one can be compared with
it.

* `Order.Book`, with `Order.Book.verdict`, what becomes of a command, and `Order.Book.of`, the book
  after some commands;
* `History.demands`, the commands that have been asked for, and `History.decisions`, those that have
  been decided;
* `History.OneByOne`, that commands come one by one;
* `System.Shows`, that the records of a system replay to the orders of a book.

The main statements are `Order.Book.verdict_cases` and `System.Shows.next`.
-/

namespace EventJournal

namespace Order

/-- A command to an order that a call is asked to carry out. -/
structure Demand where
  call : Nat
  orderId : String
  command : Command

/-- A command that is decided for a time, and the time at which an event that it leads to is
created. -/
structure Decision extends Demand where
  now : Time
  createdAt : Time

/-- The state of every order, none where there is none. -/
abbrev Book := String → Option Order

namespace Book

/-- No orders. -/
def empty : Book := fun _ => none

/-- The events that a decision comes to and the state of its order after them, or why the command is
refused. -/
def verdict (book : Book) (d : Decision) : Except Error (List Event × Option Order) :=
  carryOut d.orderId d.createdAt d.now (book d.orderId) d.command

/-- The orders after a decision. A command that is refused changes none of them. -/
def next (book : Book) (d : Decision) : Book :=
  match book.verdict d with
  | .error _ => book
  | .ok (_, state) => Function.update book d.orderId state

/-- The orders after some decisions, one after another. -/
def of (decisions : List Decision) : Book := decisions.foldl next empty

theorem of_concat (decisions : List Decision) (d : Decision) :
    of (decisions ++ [d]) = (of decisions).next d :=
  List.foldl_concat ..

variable {book : Book} {d : Decision}

theorem verdict_of_refused {e : Error}
    (decide : decideOn (book d.orderId) d.now d.command = .error e) :
    book.verdict d = .error e := by
  simp only [verdict, carryOut, decide]

/-- A command is refused, or it leads to one event, which fits its order. -/
theorem verdict_cases (book : Book) (d : Decision) :
    (∃ e, decideOn (book d.orderId) d.now d.command = .error e ∧ book.verdict d = .error e) ∨
      ∃ payload order, decideOn (book d.orderId) d.now d.command = .ok [payload] ∧
        applyOn (book d.orderId)
          ⟨d.orderId, versionOf (book d.orderId) + 1, d.createdAt, payload⟩ = .ok order ∧
        book.verdict d = .ok ([payload], some order) := by
  cases decide : decideOn (book d.orderId) d.now d.command with
  | error e => exact .inl ⟨e, rfl, verdict_of_refused decide⟩
  | ok payloads =>
    obtain ⟨payload, rfl, fits⟩ := decideOn_eq_ok decide
    obtain ⟨order, happly, -⟩ := fits d.orderId (versionOf (book d.orderId) + 1) d.createdAt
    exact .inr ⟨payload, order, rfl, happly, carryOut_eq_ok decide happly⟩

theorem next_of_refused {e : Error} (h : book.verdict d = .error e) : book.next d = book := by
  simp only [next, h]

theorem next_of_accepted {payloads : List Event} {state : Option Order}
    (h : book.verdict d = .ok (payloads, state)) :
    book.next d = Function.update book d.orderId state := by
  simp only [next, h]

end Book

end Order

/-! ### Commands in a history -/

namespace Moment

/-- The command that is asked for at a moment, with the number that its call is given. -/
def demand? (m : Moment) : Option Order.Demand :=
  match m.action with
  | .handle orderId command => some ⟨m.before.lastCall + 1, orderId, command⟩
  | _ => none

/-- The command that is decided at a moment, with the time that was read for it before, and with
what the clock shows. -/
def decision? (m : Moment) : Option Order.Decision :=
  match m.action with
  | .step (.call call) =>
    match m.before.calls.get? call with
    | some (.deciding orderId command _ now) =>
      some ⟨⟨call, orderId, command⟩, now, m.before.clock⟩
    | _ => none
  | _ => none

variable {s s' : System} {call : Nat}

theorem decision?_step {stage : Call.Stage} (hget : s.calls.get? call = some stage)
    (hstage : ∀ orderId command order now, stage ≠ .deciding orderId command order now) :
    decision? ⟨s, .step (.call call), s'⟩ = none := by
  simp only [decision?, hget]
  split
  · next heq => exact (hstage _ _ _ _ (Option.some.inj heq)).elim
  · rfl

theorem decision?_deciding {orderId : String} {command : Order.Command} {order : Option Order}
    {now : Time} (hget : s.calls.get? call = some (.deciding orderId command order now)) :
    decision? ⟨s, .step (.call call), s'⟩ = some ⟨⟨call, orderId, command⟩, now, s.clock⟩ := by
  simp only [decision?, hget]

/-- What is decided is what a call has come to decide. -/
theorem decision?_eq_some {m : Moment} {d : Order.Decision} (h : m.decision? = some d) :
    ∃ order, m.action = .step (.call d.call) ∧
      m.before.calls.get? d.call = some (.deciding d.orderId d.command order d.now) ∧
      m.before.clock = d.createdAt := by
  unfold decision? at h
  split at h
  · next call haction =>
    split at h
    · next orderId command order now hget =>
      obtain rfl := Option.some.inj h
      exact ⟨order, haction, hget, rfl⟩
    · simp at h
  · simp at h

end Moment

namespace System

/-- Whether no call is under way. -/
def isIdle (s : System) : Bool := s.calls.entries.all (·.2.outcome?.isSome)

/-- The records of each order replay to its state in a book. -/
def Shows (s : System) (book : Order.Book) : Prop :=
  ∀ orderId, Order.Replays s.registry (Record.of orderId s.storage.journal.records) (book orderId)

variable {s s' : System} {book : Order.Book}

theorem finished_of_isIdle (idle : s.isIdle = true) {call : Nat} {stage : Call.Stage}
    (hget : s.calls.get? call = some stage) : ∃ outcome, stage = .finished outcome := by
  have hmem := Table.mem_entries_of_get? hget
  have hsome := List.all_eq_true.1 idle _ hmem
  cases stage with
  | finished outcome => exact ⟨outcome, rfl⟩
  | _ => simp [Call.Stage.outcome?] at hsome

theorem Shows.of_eq (shows : s.Shows book) (registry : s'.registry = s.registry)
    (records : s'.storage.journal.records = s.storage.journal.records) : s'.Shows book := by
  unfold Shows
  rw [registry, records]
  exact shows

/-- The record of an event that a command has led to is added. -/
theorem Shows.next {d : Order.Decision} {payloads : List Order.Event} {order : Order} {r : Record}
    (shows : s.Shows book) (verdict : book.verdict d = .ok (payloads, some order))
    (registry : s'.registry = s.registry) (aggregateId : r.aggregateId = d.orderId)
    (records : s'.storage.journal.records = s.storage.journal.records ++ [r])
    (replays : Order.Replays s.registry (Record.of d.orderId s.storage.journal.records ++ [r])
      (some order)) : s'.Shows (book.next d) := by
  intro orderId
  rw [Order.Book.next_of_accepted verdict, registry, records, Record.of_append]
  by_cases horder : orderId = d.orderId
  · subst horder
    rw [Function.update_self, ← aggregateId, Record.of_singleton, aggregateId]
    exact replays
  · have hnone : Record.of orderId [r] = [] :=
      Record.of_eq_nil fun r' hr' => by
        rw [List.mem_singleton.1 hr', aggregateId]
        exact Ne.symm horder
    rw [Function.update_of_ne horder, hnone, List.append_nil]
    exact shows orderId

end System

namespace History

/-- The commands that have been asked for, the first in front. -/
def demands (h : History) : List Order.Demand := h.filterMap Moment.demand?

/-- The commands that have been decided, the first in front. -/
def decisions (h : History) : List Order.Decision := h.filterMap Moment.decision?

/-- Commands come one by one: each is asked for when no call is under way. Nothing else brings
events into the system or interferes with the storage, and no call is given up. -/
structure OneByOne (h : History) : Prop where
  undisturbed : h.Undisturbed
  nothing : ∀ e, ¬ h.Brings e
  patient : ∀ m ∈ h, ∀ call, m.action ≠ .abort call
  inTurn : ∀ m ∈ h, m.demand?.isSome → m.before.isIdle

variable {h : History} {m : Moment}

@[simp] theorem demands_concat (h : History) (m : Moment) :
    demands (h ++ [m]) = h.demands ++ m.demand?.toList := by
  rw [demands, List.filterMap_append]
  cases hm : m.demand? <;> simp [demands, hm]

@[simp] theorem decisions_concat (h : History) (m : Moment) :
    decisions (h ++ [m]) = h.decisions ++ m.decision?.toList := by
  rw [decisions, List.filterMap_append]
  cases hm : m.decision? <;> simp [decisions, hm]

theorem asks_of_mem_demands {d : Order.Demand} (hd : d ∈ h.demands) :
    h.Asks d.call (.handle d.orderId d.command) := by
  obtain ⟨m, hm, hdemand⟩ := List.mem_filterMap.1 hd
  unfold Moment.demand? at hdemand
  split at hdemand
  · next orderId command heq =>
    obtain rfl := Option.some.inj hdemand
    exact ⟨m, hm, heq, rfl⟩
  · simp at hdemand

theorem exists_mem_demands {call : Nat} {orderId : String} {command : Order.Command}
    (asks : h.Asks call (.handle orderId command)) : ⟨call, orderId, command⟩ ∈ h.demands := by
  obtain ⟨m, hm, haction, rfl⟩ := asks
  exact List.mem_filterMap.2 ⟨m, hm, by simp only [Moment.demand?, haction]⟩

theorem OneByOne.of_append {others : History} (oneByOne : OneByOne (h ++ others)) :
    h.OneByOne where
  undisturbed := (undisturbed_append.1 oneByOne.undisturbed).1
  nothing e brings := oneByOne.nothing e (brings.append others)
  patient m hm := oneByOne.patient m (List.mem_append_left _ hm)
  inTurn m hm := oneByOne.inTurn m (List.mem_append_left _ hm)

end History

end EventJournal
