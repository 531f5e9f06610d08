import RunLoop.Error
import RunLoop.Reference

/-!
# Join slots

A spawned task hands its outcome over through a slot that is filled once. The first reader that
finds it filled takes the outcome away; a reader that comes earlier leaves its waker, in place of
one left before.

* `JoinSlot.fill` puts the outcome in and gives the waker to be woken.
* `JoinSlot.poll` takes the outcome out.
* `JoinSlot.poll_fill`: the first reader of a filled slot gets what was put in.
-/

namespace RunLoop

/-- What joining a task gives: the result that its future came to, or why there is none. -/
abbrev Joined := Except Error Result

/-- The joined result as a single one. -/
def Joined.flatten : Joined → Result
  | .ok r => r
  | .error e => .error e

/-- The slot between a spawned task and its handle. -/
structure JoinSlot where
  outcome : Option Joined
  waiter : Option WakerId

namespace JoinSlot

/-- A slot that was neither filled nor asked for. -/
def new : JoinSlot :=
  ⟨none, none⟩

instance : Inhabited JoinSlot := ⟨new⟩

/-- Whether an outcome waits to be taken. -/
def isFinished (s : JoinSlot) : Bool :=
  s.outcome.isSome

/-- Puts the outcome in; the waker left last, if any, is taken out to be woken. -/
def fill (s : JoinSlot) (o : Joined) : JoinSlot × Option WakerId :=
  (⟨some o, none⟩, s.waiter)

/-- Takes the outcome out, or leaves the reader's waker. -/
def poll (s : JoinSlot) (w : WakerId) : JoinSlot × Option Joined :=
  match s.outcome with
  | some o => ({ s with outcome := none }, some o)
  | none => ({ s with waiter := some w }, none)

/-! ## Laws -/

@[simp] theorem isFinished_fill (s : JoinSlot) (o : Joined) : (s.fill o).1.isFinished = true :=
  rfl

theorem poll_fill (s : JoinSlot) (o : Joined) (w : WakerId) :
    ((s.fill o).1.poll w).2 = some o :=
  rfl

/-- Whatever a slot held, a reader leaves no outcome in it. -/
@[simp] theorem isFinished_poll (s : JoinSlot) (w : WakerId) :
    (s.poll w).1.isFinished = false := by
  cases h : s.outcome <;> simp [poll, isFinished, h]

/-- A reader gets an outcome exactly from a finished slot. -/
theorem isSome_poll (s : JoinSlot) (w : WakerId) : (s.poll w).2.isSome = s.isFinished := by
  cases h : s.outcome <;> simp [poll, isFinished, h]

end JoinSlot

end RunLoop
