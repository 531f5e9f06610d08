import RunLoop.Guest
import RunLoop.Queue
import RunLoop.Slab

/-!
# Loops, tasks and wakers

The parts of a loop: its table of tasks, the entries of its queue, and the wakers that put entries
into it.

* `EventLoop` is a loop with its queue and its task table.
* `Config` says how a loop is to be built.
-/

namespace RunLoop

/-- Who learns of the outcome of a task: a join slot, or nobody. -/
inductive Kind where
  | joined (slot : JoinId)
  | detached
  deriving DecidableEq

/-- The future of a task with what is to be done about its outcome. -/
structure Work (C : Type) where
  kind : Kind
  /-- Whether the future was polled before. -/
  started : Bool
  future : Future C

/-- A task in the table of a loop. -/
structure Task (C : Type) where
  waker : WakerId
  /-- The work, which is out of the table while it is polled. -/
  work : Option (Work C)

/-- A callback handed to a loop. -/
inductive HandOff (G : Guest) where
  | own (callback : G.Callback)
  | settle (cell : CellId) (outcome : Outcome)
  | start (future : Future G.Coroutine)

/-- A unit of work of a loop. -/
inductive Entry (G : Guest) where
  /-- Poll the task in a slot of the table. -/
  | wake (slot : Nat)
  | main
  | call (callback : HandOff G)

/-- The entry that a waker of a target queues. -/
def Target.entry {G : Guest} : Target → Entry G
  | .task slot => .wake slot
  | .main => .main

/-- The state behind all copies of a waker. -/
structure Waker where
  loop : LoopId
  target : Target
  /-- Whether the target is queued already. -/
  notified : Bool
  deriving DecidableEq

/-- A completion source: the loop that owns its cell, and whether a transition was accepted. -/
structure Source where
  loop : LoopId
  cell : CellId
  settled : Bool
  deriving DecidableEq

/-- A loop. -/
structure EventLoop (G : Guest) where
  name : String
  park : Text.Duration
  /-- Told of failures nobody awaits. -/
  handler : Option G.Handler
  queue : Queue (Entry G)
  tasks : Slab (Task G.Coroutine)

/-! ## Building -/

/-- How a loop is to be built. -/
structure Config (G : Guest) where
  name : String
  park : Text.Duration
  handler : Option G.Handler

namespace Config

variable {G : Guest}

/-- The configuration of a loop about which nothing was said. -/
def default : Config G :=
  ⟨"taskbridge", .ofMillis 10, none⟩

/-- The configuration with a bound on idle waiting, which has to be positive. -/
def withPark (c : Config G) (park : Text.Duration) : Except Payload (Config G) :=
  if park.micros = 0 then .error (.text "park_timeout must be > 0") else .ok { c with park := park }

/-- The text of a configuration that shows how it is built. -/
def debug (c : Config G) : String :=
  "EventLoopBuilder \x7b name: " ++ Text.Quoted.quote c.name ++ ", park_timeout: " ++
    c.park.render ++ ", on_unhandled: " ++ toString c.handler.isSome ++ " \x7d"

/-- The number of free slots in the task table of a new loop. -/
def initialSlots : Nat :=
  64

/-- The loop that a configuration asks for. -/
def build (c : Config G) : EventLoop G :=
  ⟨c.name, c.park, c.handler, .empty, .new initialSlots⟩

end Config

end RunLoop
