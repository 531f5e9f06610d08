import RunLoop.Machine.Perform

/-!
# Panics, and running to the end

* `Machine.unwind` takes one job off the stack in a panic.
* `Machine.step` is one step of the machine, in order or in a panic.
* `Machine.run` steps until nothing happens any more.
-/

namespace RunLoop.Machine

variable {G : Guest}

/-- Takes a job off the stack in a panic. What the job owns is dropped; tasks, callbacks, handlers
and barriers stop the panic; what was only to follow is left out. `remains` is left of a future
whose poll panicked. -/
def unwind (code : G.Code) (m : Machine G) (panic : Payload)
    (remains : Option (Future G.Coroutine)) : Job G → Machine G
  | .resume run => m.cleanUp panic [.resume (code.unwind run remains)]
  | .drop f => m.cleanUp panic [.drop f]
  | .discard e => m.cleanUp panic [.discard e]
  | .abandon work => m.cleanUp panic [.abandon work]
  | .fill j o => m.cleanUp panic [.fill j o]
  | .mainPolled _ _ batch => m.cleanUp panic (batch.map .discard ++ remains.toList.map .drop)
  | .turn _ _ f batch => m.cleanUp panic (batch.map .discard ++ [.drop f])
  | .restore previous => m.set (m.world.enter previous)
  | .taskPolled l slot kind =>
      m.push (remains.toList.map .drop ++ [.taskEnded l slot kind (.error panic.toError)])
  | .taskEnded l slot (.joined j) _ =>
      m.push [.fill j (.error .cancelled), .taskPanicked l slot panic]
  | .taskEnded l slot .detached _ => m.push [.taskPanicked l slot panic]
  | .called l => m.push [.report l panic.toError]
  | .reported l e =>
      (m.emit (.handlerPanicked (m.world.loopName l) e panic.message)).go .nothing
  | .drain l _ =>
      let (w, tasks) := m.world.drainTasks l
      (m.set w).cleanUp panic ((tasks.filterMap (·.work)).map .abandon)
  | .owned l => m.cleanUp panic [.serve (.close l)]
  | .barrier => m.go (.stopped (some panic))
  | .threadEnd t => m.endThread t (some panic)
  | .propagate _ => { m with mode := .aborted }
  | _ => m

/-- One step: the job on top is performed, or taken off by a panic; if there is none, or it has to
wait, another thread takes its turn. -/
def step (code : G.Code) (m : Machine G) : Machine G :=
  match m.jobs, m.mode with
  | _, .aborted => m
  | [], _ => m.switch
  | job :: jobs, .going a =>
      if m.mustWait job then m.switch else { m with jobs }.perform code a job
  | job :: jobs, .unwinding panic remains => { m with jobs }.unwind code panic remains job

/-- Steps until nothing happens any more, `fuel` times at most. -/
def run (code : G.Code) : Nat → Machine G → Machine G
  | 0, m => m
  | fuel + 1, m => if m.isHalted then m else run code fuel (m.step code)

end RunLoop.Machine
