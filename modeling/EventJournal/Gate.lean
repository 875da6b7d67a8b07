/-!
# Gates

A gate lets those who come through, one for each of its permits. Whoever comes while there is a
permit is admitted at once; others wait, and are admitted in the order in which they came as permits
are released. A gate that starts with one permit, which everybody gives back when leaving, lets one
in at a time.

* `Gate`, `Gate.join`, `Gate.leave`: permits, who waits for one and who has been given one;
* `Gate.pass?`, the passage of somebody admitted;
* `Gate.release`, further permits.

The main statements are `pass?_eq_some_iff`, who may pass, and `total_release`, that no permit is
lost.
-/

namespace EventJournal

/-- Permits, who waits for one, the first to come in front, and who has one and has not passed yet.
Nobody waits while a permit is free. -/
structure Gate (α : Type) where
  permits : Nat := 0
  waiting : List α := []
  admitted : List α := []
  free_or_waiting : permits = 0 ∨ waiting = [] := by simp
  deriving DecidableEq, Repr

namespace Gate

variable {α : Type}

/-- A gate that lets one in at a time. -/
def single : Gate α := { permits := 1 }

/-- Somebody comes, and takes a free permit or waits for one. -/
def join (g : Gate α) (a : α) : Gate α :=
  if h : g.permits = 0 then { g with waiting := g.waiting ++ [a], free_or_waiting := .inl h }
  else
    { g with
      permits := g.permits - 1
      admitted := g.admitted ++ [a]
      free_or_waiting := .inr (g.free_or_waiting.resolve_left h) }

/-- The gate after `a` has passed, who must have been admitted. -/
def pass? [DecidableEq α] (g : Gate α) (a : α) : Option (Gate α) :=
  if a ∈ g.admitted then some { g with admitted := g.admitted.erase a } else none

/-- Further permits: for those who have waited longest, and what is left for those to come. -/
def release (g : Gate α) (n : Nat) : Gate α where
  permits := g.permits + (n - g.waiting.length)
  waiting := g.waiting.drop n
  admitted := g.admitted ++ g.waiting.take n
  free_or_waiting := by
    rcases Nat.le_total g.waiting.length n with h | h
    · exact .inr (List.drop_eq_nil_of_le h)
    · rcases g.free_or_waiting with hfree | hwaiting
      · exact .inl (by omega)
      · exact .inr (by simp [hwaiting])

/-- Somebody gives up. Who has been admitted leaves the permit to others. -/
def leave [DecidableEq α] (g : Gate α) (a : α) : Gate α :=
  if a ∈ g.admitted then { g with admitted := g.admitted.erase a }.release 1
  else
    { g with
      waiting := g.waiting.filter (· ≠ a)
      free_or_waiting := g.free_or_waiting.imp_right fun h => by simp [h] }

/-- The permits that are free or have been given to somebody who has not passed yet. -/
def total (g : Gate α) : Nat := g.permits + g.admitted.length

theorem pass?_eq_some_iff [DecidableEq α] {g g' : Gate α} {a : α} :
    g.pass? a = some g' ↔ a ∈ g.admitted ∧ { g with admitted := g.admitted.erase a } = g' := by
  unfold pass?
  split
  · next h => simp [h]
  · next h => simp [h]

@[simp] theorem total_join (g : Gate α) (a : α) : (g.join a).total = g.total := by
  unfold join total
  split
  · rfl
  · next h =>
    simp only [List.length_append, List.length_singleton]
    omega

@[simp] theorem total_release (g : Gate α) (n : Nat) : (g.release n).total = g.total + n := by
  simp only [release, total, List.length_append, List.length_take]
  omega

end Gate

end EventJournal
