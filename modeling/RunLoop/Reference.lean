/-!
# References to shared objects

Loops, wakers, result cells, completion sources and join slots are shared, so that programs hold
references to them. Two references are equal when they refer to the same object.
-/

namespace RunLoop

/-- A loop; handles to a loop are references to it. -/
structure LoopId where
  index : Nat
  deriving DecidableEq, Inhabited

/-- The state behind all copies of a waker. -/
structure WakerId where
  index : Nat
  deriving DecidableEq, Inhabited

/-- The result cell behind a completion source and the tasks taken from it. -/
structure CellId where
  index : Nat
  deriving DecidableEq, Inhabited

/-- A completion source; its copies are references to it. -/
structure SourceId where
  index : Nat
  deriving DecidableEq, Inhabited

/-- The slot through which a spawned task hands its outcome over. -/
structure JoinId where
  index : Nat
  deriving DecidableEq, Inhabited

/-- A thread. -/
structure ThreadId where
  index : Nat
  deriving DecidableEq, Inhabited

end RunLoop
