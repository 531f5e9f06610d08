import RunLoop.Cell
import RunLoop.Join

/-!
# Guests: the code that a loop runs

A loop runs code that it knows nothing about. A `Guest` names the sorts of things that such code
consists of; how it behaves is said by a `Guest.Code`, over the requests of a machine.

* `Future` is what a loop polls: a coroutine of the guest, or an awaitable that runs as a task of
  its own.
* `Poll` is what a poll comes to.
-/

namespace RunLoop

/-- The sorts of things that user code consists of. -/
structure Guest where
  /-- Suspended code that can be polled. -/
  Coroutine : Type
  /-- Code to be run once, on the thread of a loop. -/
  Callback : Type
  /-- Code that is told of failures nobody awaits. -/
  Handler : Type
  /-- Code in the middle of running. -/
  Run : Type
  Shared : Type
  /-- What the guest writes into the journal. -/
  Note : Type

/-- Something that can be polled until it is ready. -/
inductive Future (Coroutine : Type) where
  | own (c : Coroutine)
  /-- An awaitable that is to run as a task of its own and was not polled yet. -/
  | nested (inner : Future Coroutine)
  /-- An awaitable that runs as the task behind `slot`. -/
  | forwarding (slot : JoinId)
  /-- An awaitable whose outcome was given away. -/
  | spent

/-- What polling a future comes to, and what is left of the future. -/
inductive Poll (Coroutine : Type) where
  | pending (rest : Future Coroutine)
  | ready (result : Result) (rest : Future Coroutine)

namespace Future

variable {C : Type}

/-- The future with its coroutine changed, if it is one. -/
def map (f : C → C) : Future C → Future C
  | own c => own (f c)
  | other => other

/-- The coroutine that a future owns, inside of all the layers that were not polled yet. -/
def coroutine? : Future C → Option C
  | own c => some c
  | nested inner => inner.coroutine?
  | forwarding _ => none
  | spent => none

/-- `n` layers of tasks around a future. -/
def nestedIn (f : Future C) : Nat → Future C
  | 0 => f
  | n + 1 => nested (f.nestedIn n)

end Future

end RunLoop
