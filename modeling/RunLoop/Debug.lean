import RunLoop.World

/-!
# How shared objects show themselves

Every shared object has a text that shows its kind and its present state.
-/

namespace RunLoop.World

variable {G : Guest}

/-- The text of a loop. -/
def loopDebug (w : World G) (l : LoopId) : String :=
  "EventLoop \x7b name: " ++ Text.Quoted.quote (w.loopName l) ++ ", pending_tasks: " ++
    toString (w.pendingTasks l) ++ " \x7d"

/-- The text of a handle to a loop. -/
def handleDebug (w : World G) (l : LoopId) : String :=
  "LoopHandle \x7b name: " ++ Text.Quoted.quote (w.loopName l) ++ ", closed: " ++
    toString (w.isClosed l) ++ " \x7d"

/-- The text of a result cell. -/
def cellDebug (w : World G) (c : CellId) : String :=
  "Promise \x7b state: " ++ Text.Quoted.quote (((w.cell? c).map Cell.state).getD "") ++ " \x7d"

/-- The text of a task that observes a cell. -/
def taskDebug (w : World G) (c : CellId) : String :=
  "Task \x7b promise: " ++ w.cellDebug c ++ " \x7d"

/-- The text of a completion source. -/
def sourceDebug (w : World G) (s : Source) : String :=
  "TaskCompletionSource \x7b event_loop: " ++ Text.Quoted.quote (w.loopName s.loop) ++
    ", settled: " ++ toString s.settled ++ ", promise: " ++ w.cellDebug s.cell ++ " \x7d"

/-- Whether the outcome of a cell is there. -/
def isSettled (w : World G) (c : CellId) : Bool :=
  ((w.cell? c).map Cell.isSettled).getD false

/-- Whether the outcome of a spawned task waits to be taken. -/
def isFinished (w : World G) (j : JoinId) : Bool :=
  ((w.join? j).map JoinSlot.isFinished).getD false

/-- The text of a join handle. -/
def joinDebug (w : World G) (j : JoinId) : String :=
  "JoinHandle \x7b finished: " ++ toString (w.isFinished j) ++ " \x7d"

end RunLoop.World
