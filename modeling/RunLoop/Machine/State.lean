import RunLoop.Request

/-!
# The state of the machine

Every thread has a stack of jobs. The job on top is performed; it may change the world, put further
jobs on top, and leave an answer for the job below it. A panic takes jobs off the stack, and those
that own something clean it up on the way. One thread runs at a time; when it can do nothing but
wait, another one that can go on takes its turn.

* `Job` is a unit of work on a stack.
* `Mode` says whether the stack of the running thread is worked on in order or by a panic.
* `Threads` holds the threads that do not run.
* `Machine` is the state of everything.
* `Machine.switch` lets another thread run, `Machine.isHalted` tells when nothing runs any more.
-/

namespace RunLoop

/-- A thread that was not started yet. -/
structure Waiting (G : Guest) where
  thread : ThreadId
  run : G.Run
  due : Nat

/-- A unit of work on a stack. -/
inductive Job (G : Guest) where
  /-- User code waits for an answer. -/
  | resume (run : G.Run)
  /-- User code asked for something. -/
  | serve (q : Request G)
  | answer (a : Answer G)
  | emit (e : Event)
  | drop (future : Future G.Coroutine)
  | discard (entry : Entry G)
  | abandon (work : Work G.Coroutine)
  /-- Mark a waker, and queue its target unless it was marked before. -/
  | wake (waker : WakerId)
  /-- Queue the target of a waker that was just marked. -/
  | notify (waker : WakerId)
  | fill (slot : JoinId) (outcome : Joined)
  | handOff (loop : LoopId) (callback : HandOff G)
  /-- The main future is being polled; `batch` is still to be processed. -/
  | mainPolled (loop : LoopId) (waker : WakerId) (batch : List (Entry G))
  /-- Process a batch, and the next one, until the main future is ready. -/
  | turn (loop : LoopId) (waker : WakerId) (future : Future G.Coroutine) (batch : List (Entry G))
  /-- Make `previous` the current loop again. -/
  | restore (previous : Option LoopId)
  /-- The main future of a loop came to its end. -/
  | leave (loop : LoopId)
  /-- The future of a task is being polled. -/
  | taskPolled (loop : LoopId) (slot : Nat) (kind : Kind)
  /-- The future of a task is being dropped; this is what it came to. -/
  | taskEnded (loop : LoopId) (slot : Nat) (kind : Kind) (outcome : Joined)
  | taskFinished (loop : LoopId) (slot : Nat)
  /-- A task panicked out of its poll. -/
  | taskPanicked (loop : LoopId) (slot : Nat) (panic : Payload)
  | called (loop : LoopId)
  | report (loop : LoopId) (error : Error)
  /-- The handler of a loop is being told of a failure. -/
  | reported (loop : LoopId) (error : Error)
  /-- The entries of a closed loop are dropped; its tasks come next. -/
  | drain (loop : LoopId) (discarded : Nat)
  /-- A loop that lives as long as one request. -/
  | owned (loop : LoopId)
  /-- Panics stop here. -/
  | barrier
  | await (thread : ThreadId)
  | threadEnd (thread : ThreadId)
  /-- The end of what a panic cleans up at this place. -/
  | propagate (panic : Payload)

namespace Job

variable {G : Guest}

/-- Whether a job is the end of what a panic cleans up. -/
def isPropagate : Job G → Bool
  | propagate _ => true
  | _ => false

/-- Whether a job is the end of a run of loop `l`. -/
def isLeave (l : LoopId) : Job G → Bool
  | leave l' => l' = l
  | _ => false

end Job

/-- How the stack of the running thread is being worked on. -/
inductive Mode (G : Guest) where
  /-- In order, with the answer left last. -/
  | going (answer : Answer G)
  /-- By a panic; `remains` is left of the future whose poll panicked. -/
  | unwinding (panic : Payload) (remains : Option (Future G.Coroutine))
  /-- Not any more: a clean-up panicked while a panic was going on. -/
  | aborted

/-- A thread that was started and does not run, with its stack and how it was being worked on. -/
structure Parked (G : Guest) where
  thread : Thread
  mode : Mode G
  jobs : List (Job G)

/-- The threads that do not run: those that are to start, those that wait and those that ended, and
what time it is for them. -/
structure Threads (G : Guest) where
  count : Nat
  waiting : List (Waiting G)
  parked : List (Parked G)
  ended : List (ThreadId × Option Payload)
  clock : Nat

/-- The state of everything; `mode` and `jobs` are those of the running thread. -/
structure Machine (G : Guest) where
  world : World G
  shared : G.Shared
  threads : Threads G
  mode : Mode G
  jobs : List (Job G)

namespace Machine

variable {G : Guest}

/-- A machine about to run `run` in an empty world. -/
def start (shared : G.Shared) (run : G.Run) : Machine G :=
  ⟨.empty, shared, ⟨1, [], [], [], 0⟩, .going .nothing, [.resume run]⟩

/-! ## Small changes -/

/-- Leaves an answer. -/
def go (m : Machine G) (a : Answer G) : Machine G :=
  { m with mode := .going a }

/-- Puts jobs on top of the stack, to be performed from the first; the answer left last stays. -/
def insert (m : Machine G) (jobs : List (Job G)) : Machine G :=
  { m with jobs := jobs ++ m.jobs }

/-- Puts jobs on top of the stack and takes the answer away. -/
def push (m : Machine G) (jobs : List (Job G)) : Machine G :=
  (m.insert jobs).go .nothing

/-- Gives the world a new state. -/
def set (m : Machine G) (w : World G) : Machine G :=
  { m with world := w }

/-- Reports an event. -/
def emit (m : Machine G) (e : Event) : Machine G :=
  m.set (m.world.emit e)

/-- Starts a panic. -/
def raise (m : Machine G) (panic : Payload) : Machine G :=
  { m with mode := .unwinding panic none }

/-- Performs jobs in the middle of a panic, which then goes on. -/
def cleanUp (m : Machine G) (panic : Payload) (jobs : List (Job G)) : Machine G :=
  m.push (jobs ++ [.propagate panic])

/-- The loop that is current on the running thread. -/
def current (m : Machine G) : Option LoopId :=
  m.world.thread.current

/-- Whether a loop is running, on any thread. -/
def isRunning (m : Machine G) (l : LoopId) : Bool :=
  m.jobs.any (Job.isLeave l) || m.threads.parked.any (·.jobs.any (Job.isLeave l))

/-- What user code gets to see. -/
def scene (m : Machine G) : Scene G :=
  ⟨m.world.view, m.jobs.any Job.isPropagate⟩

/-! ## Threads -/

/-- The threads that wait once the running one does; a thread that has nothing left to do is not
among them. -/
def parked (m : Machine G) : List (Parked G) :=
  m.threads.parked ++ if m.jobs.isEmpty then [] else [⟨m.world.thread, m.mode, m.jobs⟩]

/-- Lets a thread run; those in `parked` wait. -/
def turnTo (m : Machine G) (p : Parked G) (parked : List (Parked G)) : Machine G :=
  { m with
    world := { m.world with thread := p.thread }
    threads := { m.threads with parked }
    mode := p.mode
    jobs := p.jobs }

/-- Lets a new thread run, with nothing current on it. -/
def startThread (m : Machine G) (t : ThreadId) (run : G.Run) : Machine G :=
  m.turnTo ⟨⟨t, none⟩, .going .nothing, [.resume run, .threadEnd t]⟩ m.parked

/-- Notes the end of a thread. -/
def endThread (m : Machine G) (t : ThreadId) (panic : Option Payload) : Machine G :=
  { m with threads := { m.threads with ended := (t, panic) :: m.threads.ended } }.go .nothing

/-- How a thread ended; none if it did not end yet. -/
def ended? (m : Machine G) (t : ThreadId) : Option (Option Payload) :=
  m.threads.ended.lookup t

/-- Whether there is nothing to do about a job but wait: for something to be queued on a loop, or
for the end of a thread. -/
def mustWait (m : Machine G) : Job G → Bool
  | .turn l _ _ [] => !m.world.hasWork l
  | .await t => (m.ended? t).isNone
  | _ => false

/-- The waiting thread that is due first; of several, the one that waits longest. -/
def earliest : List (Waiting G) → Option (Waiting G)
  | [] => none
  | x :: xs =>
      match earliest xs with
      | some y => if y.due < x.due then some y else some x
      | none => some x

/-- Starts a thread that was waiting: it is not later than it is due. -/
def launch (m : Machine G) (x : Waiting G) : Machine G :=
  let threads := { m.threads with
    waiting := m.threads.waiting.filter (fun y => y.thread ≠ x.thread)
    clock := max m.threads.clock x.due }
  { m with threads }.startThread x.thread x.run

/-- The first thread that need not wait any more, and the others. -/
def pick? (m : Machine G) : List (Parked G) → Option (Parked G × List (Parked G))
  | [] => none
  | p :: rest =>
      if p.jobs.head?.any m.mustWait then
        (m.pick? rest).map (fun (q, others) => (q, p :: others))
      else some (p, rest)

/-- Lets another thread run while the running one waits: the first that need not wait any more, or
else one that is still to be started. -/
def switch (m : Machine G) : Machine G :=
  match m.pick? m.parked, earliest m.threads.waiting with
  | some (p, others), _ => m.turnTo p others
  | none, some x => m.launch x
  | none, none => m

/-! ## The end -/

/-- Whether the running thread has nothing to do, or nothing but to wait. -/
def isIdle (m : Machine G) : Bool :=
  match m.jobs, m.mode with
  | [], _ => true
  | job :: _, .going _ => m.mustWait job
  | _, _ => false

/-- Whether the first thread of all came to its end; the others end with it. -/
def isOver (m : Machine G) : Bool :=
  m.jobs.isEmpty && m.world.thread.id = ⟨0⟩

/-- Whether nothing happens any more: after an abort, when the first thread came to its end, and
when every thread waits. -/
def isHalted (m : Machine G) : Bool :=
  match m.mode with
  | .aborted => true
  | _ =>
      m.isOver ||
        (m.isIdle && (m.pick? m.parked).isNone && m.threads.waiting.isEmpty)

end Machine

end RunLoop
