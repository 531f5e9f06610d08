import RunLoop.Event
import RunLoop.Reference

/-!
# Result cells

A result cell is assigned once. Until then it keeps the wakers of those who wait for it, each of
them once and in the order in which they first asked; after that everybody reads the same outcome.

* `Cell.poll` reads the cell, or puts the reader down as waiting.
* `Cell.settle?` assigns the cell and gives the wakers to be woken.
* `Cell.settle?_eq_none_iff`: exactly the assigned cells refuse to be assigned.
-/

namespace RunLoop

/-- How a completion source was settled. -/
inductive Outcome where
  | completed (value : Value)
  | cancelled
  | faulted (fault : Fault)
  deriving Inhabited

namespace Outcome

/-- The transition that leads to an outcome. -/
def transition : Outcome → Transition
  | completed _ => .completed
  | cancelled => .cancelled
  | faulted _ => .faulted

/-- What an observer of the outcome receives. -/
def toResult : Outcome → Result
  | completed v => .ok v
  | cancelled => .error .cancelled
  | faulted f => .error (.faulted f)

end Outcome

/-- A cell that is assigned once. -/
inductive Cell where
  | pending (waiters : List WakerId)
  | settled (outcome : Outcome)
  deriving Inhabited

namespace Cell

/-- A cell that nobody has assigned or asked for. -/
def new : Cell :=
  pending []

/-- Whether the cell has its outcome. -/
def isSettled : Cell → Bool
  | pending _ => false
  | settled _ => true

/-- The wakers put down as waiting with `w` among them: a waker is put down once. -/
def enlist (waiters : List WakerId) (w : WakerId) : List WakerId :=
  if w ∈ waiters then waiters else waiters ++ [w]

/-- The outcome, or the cell with the reader's waker put down. -/
def poll (c : Cell) (w : WakerId) : Cell × Option Outcome :=
  match c with
  | pending waiters => (pending (enlist waiters w), none)
  | settled o => (settled o, some o)

/-- The cell with its outcome and the wakers to be woken, in order; an assigned cell refuses. -/
def settle? (c : Cell) (o : Outcome) : Option (Cell × List WakerId) :=
  match c with
  | pending waiters => some (settled o, waiters)
  | settled _ => none

/-- The text of the state of a cell. -/
def state : Cell → String
  | pending waiters => "pending (" ++ toString waiters.length ++ " waiting)"
  | settled o => o.transition.name

/-! ## Laws -/

theorem mem_enlist {waiters : List WakerId} {w k : WakerId} :
    k ∈ enlist waiters w ↔ k ∈ waiters ∨ k = w := by
  unfold enlist
  split <;> grind

/-- Whoever asks again is still put down once. -/
theorem nodup_enlist {waiters : List WakerId} (w : WakerId) (h : waiters.Nodup) :
    (enlist waiters w).Nodup := by
  unfold enlist
  split
  · exact h
  · next hw => simpa [List.nodup_append, h] using fun a ha (e : a = w) => hw (e ▸ ha)

@[simp] theorem isSettled_poll (c : Cell) (w : WakerId) : (c.poll w).1.isSettled = c.isSettled := by
  cases c <;> rfl

theorem settle?_eq_none_iff {c : Cell} {o : Outcome} :
    c.settle? o = none ↔ c.isSettled = true := by
  cases c <;> simp [settle?, isSettled]

/-- After an assignment every reader gets what was assigned. -/
theorem poll_of_settle? {c c' : Cell} {o : Outcome} {woken : List WakerId} (w : WakerId)
    (h : c.settle? o = some (c', woken)) : c'.poll w = (c', some o) := by
  cases c with
  | pending waiters =>
    obtain ⟨rfl, rfl⟩ : settled o = c' ∧ waiters = woken := by simpa [settle?] using h
    rfl
  | settled _ => simp [settle?] at h

end Cell

end RunLoop
