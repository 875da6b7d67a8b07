/-!
# The dispatch queue

Batches wait in a queue for one worker, which takes them in their order and finishes one before it
takes the next. A shutdown stops further batches from coming and waits until the worker has ended.

* `DispatchQueue`, `DispatchQueue.enqueue?`, `DispatchQueue.isClosed`;
* `DispatchQueue.take?`, `DispatchQueue.finish`, `DispatchQueue.end?`, `DispatchQueue.crash`: the
  worker;
* `DispatchQueue.shutdown`, which tells whether its caller has to wait for the worker, with its two
  parts `DispatchQueue.refuse` and `DispatchQueue.claim`.
-/

namespace EventJournal

/-- Batches that wait, and the worker. A batch at work is at some stage of `β`. -/
structure DispatchQueue (α β : Type) where
  /-- Whether further batches may come. -/
  accepting : Bool := true
  /-- The batches that wait, the oldest first. -/
  waiting : List α := []
  /-- The batch at work. -/
  working : Option β := none
  /-- Whether the worker has ended. -/
  ended : Bool := false
  /-- Whether a shutdown has taken it upon itself to wait for the worker. -/
  claimed : Bool := false

namespace DispatchQueue

variable {α β : Type}

/-- Whether batches are refused. -/
def isClosed (q : DispatchQueue α β) : Bool := !q.accepting || q.ended

/-- A further batch, if it is not refused. -/
def enqueue? (q : DispatchQueue α β) (batch : α) : Option (DispatchQueue α β) :=
  if q.isClosed then none else some { q with waiting := q.waiting ++ [batch] }

/-- The worker takes the oldest batch, if it is free and there is one. -/
def take? (q : DispatchQueue α β) (start : α → β) : Option (DispatchQueue α β) :=
  match q.ended, q.working, q.waiting with
  | false, none, batch :: rest => some { q with working := some (start batch), waiting := rest }
  | _, _, _ => none

/-- The batch at work gets to another stage. -/
def advance (q : DispatchQueue α β) (stage : β) : DispatchQueue α β :=
  { q with working := some stage }

/-- The batch at work is done. -/
def finish (q : DispatchQueue α β) : DispatchQueue α β := { q with working := none }

/-- The worker ends, if there is nothing to do and nothing will come. -/
def end? (q : DispatchQueue α β) : Option (DispatchQueue α β) :=
  match q.ended, q.accepting, q.working, q.waiting with
  | false, false, none, [] => some { q with ended := true }
  | _, _, _, _ => none

/-- The worker breaks down; what waits is lost. -/
def crash (q : DispatchQueue α β) : DispatchQueue α β :=
  { q with ended := true, working := none, waiting := [] }

/-- Stops further batches from coming. The first caller has to wait for the worker to end; later
ones find nobody to wait for. -/
def shutdown (q : DispatchQueue α β) : Bool × DispatchQueue α β :=
  (!q.claimed, { q with accepting := false, claimed := true })

/-- The first part of a shutdown: no further batches come. -/
def refuse (q : DispatchQueue α β) : DispatchQueue α β := { q with accepting := false }

/-- The second part of a shutdown: whether its caller has to wait for the worker. -/
def claim (q : DispatchQueue α β) : Bool × DispatchQueue α β :=
  (!q.claimed, { q with claimed := true })

/-- A batch is refused exactly when the queue is closed. -/
theorem enqueue?_eq_none_iff {q : DispatchQueue α β} {batch : α} :
    q.enqueue? batch = none ↔ q.isClosed = true := by
  unfold enqueue?
  split <;> simp_all

/-- A shutdown closes the queue. -/
@[simp] theorem isClosed_shutdown (q : DispatchQueue α β) : q.shutdown.2.isClosed = true := by
  simp [shutdown, isClosed]

end DispatchQueue

end EventJournal
