import RunLoop.Machine.Serve

/-!
# Performing jobs in order

* `Machine.process` processes one entry of a loop's queue.
* `Machine.turn` goes on with a batch.
* `Machine.taskPolled` and `Machine.taskEnded` follow a task to its end.
* `Machine.perform` performs any job.
-/

namespace RunLoop.Machine

variable {G : Guest}

/-! ## User code -/

/-- Lets user code take its next step. -/
def advance (code : G.Code) (m : Machine G) (run : G.Run) (a : Answer G) : Machine G :=
  let step := code.step m.scene m.shared run a
  let m := { m with world := m.world.note step.notes, shared := step.shared }
  match step.act with
  | .request q run => m.push [.serve q, .resume run]
  | .proceed run => m.push [.resume run]
  | .finish a => m.go a
  | .raise panic run => m.cleanUp panic [.resume (code.unwind run none)]

/-! ## Waking -/

/-- Marks a waker; unless it was marked before, its target is queued next. -/
def wake (m : Machine G) (k : WakerId) : Machine G :=
  match m.world.mark k with
  | (w, true) => m.set w
  | (w, false) => (m.set w).insert [.notify k]

/-- Hands an outcome over to a join slot; the one who waits for it is woken next. -/
def fill (m : Machine G) (j : JoinId) (o : Joined) : Machine G :=
  let (w, waiter) := m.world.fill j o
  (m.set w).insert (waiter.toList.map .wake)

/-! ## The turns of a loop -/

/-- Runs a callback that was handed to a loop. -/
def call (code : G.Code) (m : Machine G) (l : LoopId) : HandOff G → Machine G
  | .own c => m.push [.resume (code.call c), .called l]
  | .settle c o =>
      match m.world.settle? c o with
      | some (w, waiters) => (m.set w).push (waiters.map .wake ++ [.emit (.settled o.transition)])
      | none => m.go .nothing
  | .start f =>
      match m.current with
      | some l =>
          let (w, k) := m.world.addTask l .detached (f.map code.accept)
          (m.set w).push [.wake k]
      | none => (m.emit (.strayStart .noActiveLoop)).push [.drop f]

/-- Polls the task in a slot. If the slot is free, or its task is being polled, nothing happens. -/
def pollTask (m : Machine G) (l : LoopId) (slot : Nat) : Machine G :=
  match m.world.takeWork l slot with
  | none => m.go .nothing
  | some (w, k, work) =>
      (m.set w).push [.serve (.poll work.future k), .taskPolled l slot work.kind]

/-- Processes one entry; the main future and the rest of the batch wait. -/
def process (code : G.Code) (m : Machine G) (l : LoopId) (k : WakerId) (f : Future G.Coroutine)
    (rest : List (Entry G)) : Entry G → Machine G
  | .main => (m.set (m.world.rearm k)).push [.serve (.poll f k), .mainPolled l k rest]
  | .wake slot => (m.push [.turn l k f rest]).pollTask l slot
  | .call c => (m.push [.turn l k f rest]).call code l c

/-- Goes on with a batch; after the last entry of one, everything queued meanwhile is the next. -/
def turn (code : G.Code) (m : Machine G) (l : LoopId) (k : WakerId) (f : Future G.Coroutine) :
    List (Entry G) → Machine G
  | e :: rest => m.process code l k f rest e
  | [] =>
      let (w, batch) := m.world.takeBatch l
      (m.set w).push [.turn l k f batch]

/-- What a poll of the main future came to: when it is ready, the rest of the batch is left for the
next time, and the future is dropped while its loop is still current. -/
def mainPolled (m : Machine G) (l : LoopId) (k : WakerId) (batch : List (Entry G)) :
    Poll G.Coroutine → Machine G
  | .pending f => m.push [.turn l k f batch]
  | .ready r f => (m.set (m.world.putBackBatch l batch)).push [.drop f, .answer (.result r)]

/-! ## Tasks -/

/-- What a poll of a task came to: a future that is ready is dropped before its outcome is handed
over. -/
def taskPolled (m : Machine G) (l : LoopId) (slot : Nat) (kind : Kind) :
    Poll G.Coroutine → Machine G
  | .pending f => (m.set (m.world.putBackWork l slot ⟨kind, true, f⟩)).go .nothing
  | .ready r f => m.push [.drop f, .taskEnded l slot kind (.ok r)]

/-- Hands the outcome of a task over: to its join slot, or, if it is a failure that nobody awaits,
to the handler of the loop. -/
def taskEnded (m : Machine G) (l : LoopId) (slot : Nat) (o : Joined) : Kind → Machine G
  | .joined j => m.push [.fill j o, .taskFinished l slot]
  | .detached =>
      match o.flatten with
      | .ok _ => m.push [.taskFinished l slot]
      | .error e => m.push [.report l e, .taskFinished l slot]

/-- Removes a task that came to its end. -/
def taskFinished (m : Machine G) (l : LoopId) (slot : Nat) : Machine G :=
  (m.set (m.world.finishTask l slot)).go .nothing

/-- Removes a task that panicked out of its poll; the panic is a failure that nobody awaits. -/
def taskPanicked (m : Machine G) (l : LoopId) (slot : Nat) (panic : Payload) : Machine G :=
  (m.set (m.world.removeTask l slot)).push [.report l panic.toError]

/-- Tells the handler of a loop of a failure; without a handler the failure is an event. -/
def report (code : G.Code) (m : Machine G) (l : LoopId) (e : Error) : Machine G :=
  match (m.world.loop? l).bind (·.handler) with
  | some h => m.push [.resume (code.handle h e), .reported l e]
  | none => (m.emit (.unhandled (m.world.loopName l) e)).go .nothing

/-! ## Dropping -/

/-- Drops an entry that will not be processed. -/
def discard (code : G.Code) (m : Machine G) : Entry G → Machine G
  | .call (.own c) => m.push [.resume (code.discard c)]
  | .call (.start f) => m.push [.drop f]
  | .call (.settle _ _) => m.go .nothing
  | .wake _ => m.go .nothing
  | .main => m.go .nothing

/-- Drops the work of an unfinished task. Its join slot is told that the task was cancelled: after
the future is dropped, but before it if the future was never polled. -/
def abandon (m : Machine G) (work : Work G.Coroutine) : Machine G :=
  match work.kind, work.started with
  | .detached, _ => m.push [.drop work.future]
  | .joined j, true => m.push [.drop work.future, .fill j (.error .cancelled)]
  | .joined j, false => m.push [.fill j (.error .cancelled), .drop work.future]

/-- Drops all tasks of a loop whose entries are dropped, and reports the end of the loop. -/
def drain (m : Machine G) (l : LoopId) (discarded : Nat) : Machine G :=
  let (w, tasks) := m.world.drainTasks l
  (m.set w).push
    ((tasks.filterMap (·.work)).map .abandon ++
      [.emit (.closed (m.world.loopName l) tasks.length discarded)])

/-! ## All jobs -/

/-- Performs a job that need not wait, given the answer left last. -/
def perform (code : G.Code) (m : Machine G) (a : Answer G) : Job G → Machine G
  | .resume run => m.advance code run a
  | .serve q => m.serve code q
  | .answer b => m.go b
  | .emit e => m.emit e
  | .drop f => m.dropFuture code f
  | .discard e => m.discard code e
  | .abandon work => m.abandon work
  | .wake k => m.wake k
  | .notify k => m.set (m.world.notify k)
  | .fill j o => m.fill j o
  | .handOff l c => m.handOff l c
  | .mainPolled l k batch => m.mainPolled l k batch a.toPoll
  | .turn l k f batch => m.turn code l k f batch
  | .restore previous => m.set (m.world.enter previous)
  | .leave l =>
      (m.emit (.leaving (m.world.loopName l))).go (.blocked (.ok a.toResult))
  | .taskPolled l slot kind => m.taskPolled l slot kind a.toPoll
  | .taskEnded l slot kind o => m.taskEnded l slot o kind
  | .taskFinished l slot => m.taskFinished l slot
  | .taskPanicked l slot panic => m.taskPanicked l slot panic
  | .called _ => m.go .nothing
  | .report l e => m.report code l e
  | .reported _ _ => m.go .nothing
  | .drain l n => m.drain l n
  | .owned l => m.push [.serve (.close l), .answer (.result a.toResult)]
  | .barrier => m.go (.stopped none)
  | .await t => m.go (.thread t ((m.ended? t).getD none))
  | .threadEnd t => m.endThread t a.toPanic
  | .propagate panic => { m with mode := .unwinding panic a.toRemains }

end RunLoop.Machine
