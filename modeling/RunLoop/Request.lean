import RunLoop.World

/-!
# What guests ask for

User code runs in small steps. In each of them it looks at the world and at the answer to what it
asked for last, and then asks for something, finishes, or panics. A `Guest.Code` says how.

* `Request` lists what can be asked for, `Answer` what comes back.
* `Act` is what a running piece of code does next.
* `Guest.Code` is the behaviour of a guest.
-/

namespace RunLoop

/-- What user code asks for. -/
inductive Request (G : Guest) where
  | build (config : Config G)
  | close (loop : LoopId)
  | blockOn (loop : LoopId) (future : Future G.Coroutine)
  /-- Run a future to its end on a loop of its own. -/
  | getResult (future : Future G.Coroutine)
  /-- Spawn a task on the current loop and learn of its outcome. -/
  | spawn (future : Future G.Coroutine)
  /-- Spawn a task on the current loop that nobody awaits. -/
  | start (future : Future G.Coroutine)
  /-- Have a loop spawn a task that nobody awaits. -/
  | startOn (loop : LoopId) (future : Future G.Coroutine)
  | callSoon (loop : LoopId) (callback : G.Callback)
  /-- A new completion source, bound to the given loop or to the current one. -/
  | source (loop : Option LoopId)
  | settle (source : SourceId) (outcome : Outcome)
  | wake (waker : WakerId)
  | poll (future : Future G.Coroutine) (waker : WakerId)
  | drop (future : Future G.Coroutine)
  | pollCell (cell : CellId) (waker : WakerId)
  | pollJoin (slot : JoinId) (waker : WakerId)
  | identities (count : Nat)
  | run (run : G.Run)
  /-- Run other code of the guest and stop its panics. -/
  | guarded (run : G.Run)
  /-- Run code on a thread of its own and wait for the end of it. -/
  | thread (run : G.Run)
  /-- Run code on a thread of its own, some time later. -/
  | background (run : G.Run) (delay : Nat)
  | joinThread (thread : ThreadId)

/-- What a request comes to. -/
inductive Answer (G : Guest) where
  | nothing
  | unit (result : Except Error Unit)
  | loop (loop : LoopId)
  | source (result : Except Error SourceId)
  | join (result : Except Error JoinId)
  | polled (poll : Poll G.Coroutine)
  | cell (outcome : Option Outcome)
  | joined (outcome : Option Joined)
  | blocked (result : Except Error Result)
  | result (result : Result)
  | identities (first : Nat)
  /-- Guarded code came to its end, by the given panic if there is one. -/
  | stopped (panic : Option Payload)
  /-- A thread, and the panic that ended it, if any. -/
  | thread (thread : ThreadId) (panic : Option Payload)
  /-- The clean-up after a panic is done; what is left is dropped by the owner. -/
  | remains (future : Option (Future G.Coroutine))

namespace Answer

variable {G : Guest}

/-- What a poll came to; code that ends with anything else counts as ready without a value. -/
def toPoll : Answer G → Poll G.Coroutine
  | polled p => p
  | _ => .ready (.ok .null) .spent

/-- The result that was left; anything else counts as one without a value. -/
def toResult : Answer G → Result
  | result r => r
  | blocked (.ok r) => r
  | blocked (.error e) => .error e
  | _ => .ok .null

/-- The panic by which guarded code ended. -/
def toPanic : Answer G → Option Payload
  | stopped panic => panic
  | _ => none

/-- What is left of a future after a clean-up. -/
def toRemains : Answer G → Option (Future G.Coroutine)
  | remains f => f
  | _ => none

end Answer

/-- What running code does next. -/
inductive Act (G : Guest) where
  /-- Ask for something and go on with `run` when the answer comes. -/
  | request (q : Request G) (run : G.Run)
  /-- Go on with `run` at once. -/
  | proceed (run : G.Run)
  | finish (answer : Answer G)
  /-- Panic; the clean-up starts from `run`. -/
  | raise (panic : Payload) (run : G.Run)

/-- One step of running code: what it leaves to share, what it writes down and what it does. -/
structure Step (G : Guest) where
  shared : G.Shared
  notes : List G.Note
  act : Act G

/-- What a step of running code may look at. -/
structure Scene (G : Guest) where
  world : World G
  /-- Whether the clean-up after a panic is going on. -/
  panicking : Bool

/-- The behaviour of a guest. -/
structure Guest.Code (G : Guest) where
  /-- What becomes of a coroutine when a loop accepts it. -/
  accept : G.Coroutine → G.Coroutine
  poll : G.Coroutine → WakerId → G.Run
  drop : G.Coroutine → G.Run
  call : G.Callback → G.Run
  discard : G.Callback → G.Run
  handle : G.Handler → Error → G.Run
  /-- Clean up after a panic in what the code asked for; a future that it had polled comes back. -/
  unwind : G.Run → Option (Future G.Coroutine) → G.Run
  /-- The panic of copying a value, for a value that cannot be copied. -/
  copyPanic : Value → Option Payload
  /-- Take one step, given what there is to see and the answer to what was asked for last. -/
  step : Scene G → G.Shared → G.Run → Answer G → Step G

end RunLoop
