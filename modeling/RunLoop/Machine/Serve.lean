import RunLoop.Machine.State

/-!
# What requests do

Most requests are answered at once. Those that wake somebody, run user code, or drop what user code
brought, put jobs on the stack, the last of which leaves the answer.

* `Machine.blockOn` enters a loop and drives the main future.
* `Machine.close` drops a loop.
* `Machine.poll` polls a future.
* `Machine.settle` settles a completion source.
* `Machine.serve` serves any request.
-/

namespace RunLoop.Machine

variable {G : Guest}

/-! ## Futures -/

/-- Drops a future. -/
def dropFuture (code : G.Code) (m : Machine G) : Future G.Coroutine → Machine G
  | .own c => m.push [.resume (code.drop c)]
  | .nested inner => m.push [.drop inner]
  | .forwarding _ => m.go .nothing
  | .spent => m.go .nothing

/-- To drop a coroutine is to run its destructor. -/
@[simp] theorem dropFuture_own (code : G.Code) (m : Machine G) (c : G.Coroutine) :
    m.dropFuture code (.own c) = m.push [.resume (code.drop c)] :=
  rfl

/-- Of a layer that was not polled yet, the future inside of it is dropped. -/
@[simp] theorem dropFuture_nested (code : G.Code) (m : Machine G) (inner : Future G.Coroutine) :
    m.dropFuture code (.nested inner) = m.push [.drop inner] :=
  rfl

/-- Polls the task behind a slot on behalf of an awaitable that runs as that task. -/
def forward (m : Machine G) (j : JoinId) (k : WakerId) : Machine G :=
  match m.world.pollJoin j k with
  | (w, some o) => (m.set w).go (.polled (.ready o.flatten .spent))
  | (w, none) => (m.set w).go (.polled (.pending (.forwarding j)))

/-- Polls a future. One that is to run as a task of its own is spawned by its first poll. -/
def poll (code : G.Code) (m : Machine G) (k : WakerId) : Future G.Coroutine → Machine G
  | .own c => m.push [.resume (code.poll c k)]
  | .nested inner =>
      match m.current with
      | none => m.push [.drop inner, .answer (.polled (.ready (.error .noActiveLoop) .spent))]
      | some l =>
          let (w, j) := m.world.newJoin
          let (w, k') := w.addTask l (.joined j) (inner.map code.accept)
          (m.set w).push [.wake k', .serve (.poll (.forwarding j) k)]
  | .forwarding j => m.forward j k
  | .spent => m.go (.polled (.pending .spent))

/-! ## Loops -/

/-- Drops a loop: closes its queue, drops what is queued, then the unfinished tasks. A loop that is
running, or was dropped before, is left alone. -/
def close (m : Machine G) (l : LoopId) : Machine G :=
  if m.isRunning l || m.world.isClosed l then m.go .nothing
  else
    let (w, rest) := m.world.closeQueue l
    (m.set w).push (rest.map .discard ++ [.drain l rest.length])

/-- Runs a future to its end on a loop, unless a loop is current already. The main future is polled
once to begin with. -/
def blockOn (code : G.Code) (m : Machine G) (l : LoopId) (f : Future G.Coroutine) : Machine G :=
  if m.current.isSome || m.isRunning l then
    (m.emit (.nestedRejected (m.world.loopName l))).push
      [.drop f, .answer (.blocked (.error .nestedLoop))]
  else if m.world.isClosed l then m.push [.drop f, .answer (.blocked (.error .loopClosed))]
  else
    let m := m.emit (.entering (m.world.loopName l))
    let (w, k) := m.world.newWaker l .main
    (m.set (w.enter (some l))).push
      [.serve (.poll (f.map code.accept) k), .mainPolled l k [], .restore none, .leave l]

/-- Runs a future to its end on a loop of its own, unless a loop is current already. -/
def getResult (m : Machine G) (f : Future G.Coroutine) : Machine G :=
  if m.current.isSome then
    (m.emit .nestedResult).push [.drop f, .answer (.result (.error .nestedLoop))]
  else
    let (w, l) := m.world.build .default
    (m.set w).push [.serve (.blockOn l f), .owned l]

/-- Brings a callback to a loop; one that is refused is dropped before the refusal is reported. -/
def handOff (m : Machine G) (l : LoopId) (c : HandOff G) : Machine G :=
  match m.world.push? l (.call c) with
  | some w => (m.set w).go (.unit (.ok ()))
  | none =>
      m.push [.discard (.call c), .emit (.handOffRejected (m.world.loopName l) .loopClosed),
        .answer (.unit (.error .loopClosed))]

/-- Spawns a task on the current loop and answers with its join slot. -/
def spawn (code : G.Code) (m : Machine G) (f : Future G.Coroutine) : Machine G :=
  match m.current with
  | none => m.push [.drop f, .answer (.join (.error .noActiveLoop))]
  | some l =>
      let (w, j) := m.world.newJoin
      let (w, k) := w.addTask l (.joined j) (f.map code.accept)
      (m.set w).push [.wake k, .answer (.join (.ok j))]

/-- Spawns a task on the current loop that nobody awaits. -/
def startTask (code : G.Code) (m : Machine G) (f : Future G.Coroutine) : Machine G :=
  match m.current with
  | none => m.push [.drop f, .answer (.unit (.error .noActiveLoop))]
  | some l =>
      let (w, k) := m.world.addTask l .detached (f.map code.accept)
      (m.set w).push [.wake k, .answer (.unit (.ok ()))]

/-! ## Completion sources -/

/-- Settles a completion source: the first to claim it hands the change to the owning loop. -/
def settle (m : Machine G) (s : SourceId) (o : Outcome) : Machine G :=
  match m.world.source? s, m.world.claim s with
  | none, _ => m.go .nothing
  | some _, (_, true) =>
      (m.emit (.alreadySettled o.transition)).go (.unit (.error .alreadyCompleted))
  | some source, (w, false) => (m.set w).push [.handOff source.loop (.settle source.cell o)]

/-- A new completion source, bound to the given loop or to the current one. -/
def newSource (m : Machine G) (l : Option LoopId) : Machine G :=
  match l <|> m.current with
  | none => m.go (.source (.error .noActiveLoop))
  | some l =>
      let (w, s) := m.world.newSource l
      (m.set w).go (.source (.ok s))

/-- Reads a result cell; every reader gets a copy of the outcome. -/
def pollCell (code : G.Code) (m : Machine G) (c : CellId) (k : WakerId) : Machine G :=
  match m.world.pollCell c k with
  | (w, some (.completed v)) =>
      match code.copyPanic v with
      | some panic => (m.set w).raise panic
      | none => (m.set w).go (.cell (some (.completed v)))
  | (w, o) => (m.set w).go (.cell o)

/-! ## Threads -/

/-- A thread that is still to be started. -/
def background (m : Machine G) (run : G.Run) (delay : Nat) : Machine G :=
  let t : ThreadId := ⟨m.threads.count⟩
  let threads := { m.threads with
    count := m.threads.count + 1
    waiting := m.threads.waiting ++ [⟨t, run, m.threads.clock + delay⟩] }
  { m with threads }.go (.thread t none)

/-- A thread that is started at once; the running one waits for its end. -/
def thread (m : Machine G) (run : G.Run) : Machine G :=
  let t : ThreadId := ⟨m.threads.count⟩
  let threads := { m.threads with count := m.threads.count + 1 }
  ({ m with threads }.push [.await t]).startThread t run

/-! ## All requests -/

/-- Serves a request. -/
def serve (code : G.Code) (m : Machine G) : Request G → Machine G
  | .build config =>
      let (w, l) := m.world.build config
      (m.set w).go (.loop l)
  | .close l => m.close l
  | .blockOn l f => m.blockOn code l f
  | .getResult f => m.getResult f
  | .spawn f => m.spawn code f
  | .start f => m.startTask code f
  | .startOn l f => m.handOff l (.start f)
  | .callSoon l c => m.handOff l (.own c)
  | .source l => m.newSource l
  | .settle s o => m.settle s o
  | .wake k => m.push [.wake k]
  | .poll f k => m.poll code k f
  | .drop f => m.dropFuture code f
  | .pollCell c k => m.pollCell code c k
  | .pollJoin j k =>
      let (w, o) := m.world.pollJoin j k
      (m.set w).go (.joined o)
  | .identities n =>
      let (w, first) := m.world.reserve n
      (m.set w).go (.identities first)
  | .run run => m.push [.resume run]
  | .guarded run => m.push [.resume run, .barrier]
  | .thread run => m.thread run
  | .background run delay => m.background run delay
  | .joinThread t => m.push [.await t]

end RunLoop.Machine
