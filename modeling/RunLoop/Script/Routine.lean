import RunLoop.Request
import RunLoop.Script.Registry
import RunLoop.Script.Statement

/-!
# Scripts as guests

The sorts of code that a script brings to a loop, and the points at which such code can stand
between two of its steps.

* `Routine` is a suspended coroutine: a program or an awaitable.
* `Run` is code in the middle of running.
* `guest` collects the sorts.
-/

namespace RunLoop.Script

/-! ## Suspended code -/

mutual

/-- A suspended coroutine. -/
inductive Routine where
  /-- A program that no loop accepted yet. -/
  | offered (program : Program)
  /-- A program: its name, the statements to come, what it waits for, what it owns. -/
  | program (who : String) (rest : List Statement) (pause : Pause) (guard : Option Guard)
  /-- A future whose owner panics when it drops it. -/
  | armed (bomb : String) (inner : Future Routine)
  | cell (cell : CellId)
  | join (slot : JoinId)
  | ready (result : Result)
  /-- Lets other tasks run `left` times; `asked` if it is waiting for its turn. -/
  | yields (left : Nat) (asked : Bool)
  /-- Pending for `count` polls, of which `done` are over. -/
  | polls (who : String) (name : Value) (count done : Nat)
  | all (parts : List Part)
  | any (parts : List (Future Routine))
  /-- Ready at once, with a value of its own; `inner` is dropped unpolled. -/
  | declined (inner : Future Routine)

/-- What a program waits for. -/
inductive Pause where
  | start
  /-- Its turn, and `left` more of them. -/
  | yielding (heading : Heading) (left : Nat)
  /-- A future. -/
  | awaiting (heading : Heading) (use : Use) (future : Future Routine)
  /-- The first of two futures whose faults are compared. -/
  | first (a b : Future Routine)
  /-- The second, after the first came to `result`. -/
  | second (result : Result) (b : Future Routine)

/-- A part of an awaitable that waits for several. -/
inductive Part where
  | running (future : Future Routine)
  | done (result : Result)

end

/-- A callback. -/
structure Callback where
  who : String
  body : List Statement
  guard : Option Guard

/-- A handler of failures nobody awaits. -/
structure Handler where
  who : String
  body : List Statement

/-! ## Running code -/

/-- What a body of statements belongs to. -/
inductive Owner where
  | plain
  /-- A callback, which may own a guard. -/
  | callback (guard : Option Guard)
  /-- A poll of a program with a waker. -/
  | program (waker : WakerId) (guard : Option Guard)

/-- A body of statements that is being run. -/
structure Body where
  who : String
  rest : List Statement
  owner : Owner

/-- Where a body stands: what to do with the answer that it waits for. -/
inductive Point where
  | next
  /-- Carry an instruction out; the answer numbers its faults. -/
  | numbered (h : Heading) (action : Action)
  | note (h : Heading) (result : Value)
  /-- Log whether it succeeded. -/
  | unit (h : Heading)
  | built (h : Heading) (id : String)
  /-- Run the future of an entry function on its new loop. -/
  | entering (h : Heading) (future : Future Routine)
  | blocked (h : Heading) (loop : LoopId)
  /-- Log that there was no main future for a loop. -/
  | unblocked (h : Heading) (loop : LoopId)
  /-- Log how the main future of an entry function ended. -/
  | entered (h : Heading) (loop : LoopId)
  | got (h : Heading) (discard : Bool)
  | sourced (h : Heading) (id : String)
  | spawned (h : Heading) (id : String)
  /-- Log the panic of guarded statements. -/
  | stopped (h : Heading)
  | joined (h : Heading)
  | launched (h : Heading) (id : String)
  /-- Wait on, or log the result of the awaited future. -/
  | polled (h : Heading) (use : Use)
  /-- Log the result, now that the future is dropped. -/
  | settled (h : Heading) (use : Use) (result : Result)
  /-- Log the outcome of a single poll and drop the future. -/
  | sampled (h : Heading)
  /-- Wait for the turn that was asked for, and `left` more. -/
  | yielded (h : Heading) (left : Nat)
  /-- Build the second of two awaitables, its faults numbered from `first` on; what was left of the
  other one, which could not be built, is dropped. -/
  | comparand (first : Nat) (b : Awaitable)
  /-- Wait on for the first of two futures, or go on with the second. -/
  | comparing (b : Future Routine)
  /-- Wait for the second, now that the first is dropped. -/
  | compareNext (result : Result) (b : Future Routine)
  /-- Wait on for the second, or compare. -/
  | compared (result : Result)

/-- What code that winds up ends with. -/
inductive Ending where
  | done
  | ready (result : Result)
  /-- The clean-up after a panic, with what is left of the panicked future. -/
  | remains (routine : Option Routine)
  | stopped (panic : Option Payload)

/-- Code in the middle of running. -/
inductive Run where
  | body (b : Body) (point : Point)
  | handling (h : Handler) (e : Error)
  | poll (r : Routine) (waker : WakerId)
  /-- A routine that reads a cell waits for the answer. -/
  | reading (cell : CellId)
  /-- A routine that reads a join slot waits for the answer. -/
  | joining (slot : JoinId)
  /-- A routine that asked for its turn is put off. -/
  | putOff (left : Nat)
  /-- The parts before `rest` are polled, one is being polled. -/
  | pollingAll (waker : WakerId) (polled : List Part) (rest : List Part)
  /-- A part came to its end and is being dropped. -/
  | droppingPart (waker : WakerId) (polled : List Part) (result : Result) (rest : List Part)
  /-- The parts before `rest` are pending, one is being polled. -/
  | pollingAny (waker : WakerId) (pending : List (Future Routine)) (rest : List (Future Routine))
  /-- The future under a bomb is polled. -/
  | pollingArmed (bomb : String)
  /-- Sets a bomb off, which is silent during a panic, and drops the future under it. -/
  | setOff (bomb : String) (inner : Future Routine)
  /-- Winds up: drops futures, then a guard. -/
  | windUp (futures : List (Future Routine)) (guard : Option Guard) (ending : Ending)
  /-- Is done with a loop, which is dropped if nobody else needs it, and goes on. -/
  | closing (loop : LoopId) (next : Run)
  | thread (who : String) (body : List Statement)
  | threadBody
  /-- The loops that a thread had named are dropped. -/
  | threadLoops (loops : List LoopId) (ending : Ending)
  | script (rest : List (String × Statement))
  | scriptStep (op : String) (rest : List (String × Statement))

/-- What scripts write into the journal. -/
inductive Note where
  | entry (who op : String) (subject result : Value)
  /-- The outcome of a statement that waited for a thread. -/
  | thread (who op : String) (subject : Value) (thread : ThreadId) (panic : Option Payload)
  /-- Events are written out as lines from here on. -/
  | listen
  /-- The thread does not write any more; what is left is cleaned up. -/
  | over

/-- Scripts as guests of a loop. -/
abbrev guest : Guest where
  Coroutine := Routine
  Callback := Callback
  Handler := Handler
  Run := Run
  Shared := Registry
  Note := Note

/-- The answer that code ends with. -/
def Ending.answer : Ending → Answer guest
  | .done => .nothing
  | .ready r => .polled (.ready r .spent)
  | .remains r => .remains (r.map (fun (r : Routine) => .own r))
  | .stopped panic => .stopped panic

end RunLoop.Script
