import RunLoop.Reference

/-!
# Names of shared objects

Statements know shared objects by name. Sources, tasks, handles and wakers have names that all
threads share; loops, join handles and background threads belong to the thread that named them.

* `Names` is a list of named objects in the order of the names.
* `Registry` holds the names of every kind.
-/

namespace RunLoop.Script

/-- Named objects, in the order of their names. -/
abbrev Names (α : Type) := List (String × α)

namespace Names

variable {α : Type}

/-- The object of a name. -/
def find? (names : Names α) (name : String) : Option α :=
  names.lookup name

/-- Gives an object a name, which another one may have had before. -/
def bind (names : Names α) (name : String) (a : α) : Names α :=
  match names with
  | [] => [(name, a)]
  | (n, b) :: rest =>
      if name = n then (name, a) :: rest
      else if name < n then (name, a) :: (n, b) :: rest
      else (n, b) :: bind rest name a

/-- Forgets a name. -/
def erase (names : Names α) (name : String) : Names α :=
  names.filter (fun p => p.1 ≠ name)

end Names

/-- What belongs to one thread. -/
structure LocalNames where
  loops : Names LoopId
  joins : Names JoinId
  threads : Names ThreadId
  /-- The loops that statements are at work on, once for each statement. -/
  held : List LoopId

/-- A thread that has not named anything. -/
def LocalNames.empty : LocalNames :=
  ⟨[], [], [], []⟩

/-- The names of all objects, as one thread sees them. -/
structure Registry where
  sources : Names SourceId
  tasks : Names CellId
  handles : Names LoopId
  wakers : Names WakerId
  /-- The thread that sees them. -/
  thread : ThreadId
  /-- The names of that thread. -/
  here : LocalNames
  /-- The names of the other threads. -/
  elsewhere : List (ThreadId × LocalNames)

namespace Registry

/-- A registry without names. -/
def empty : Registry :=
  ⟨[], [], [], [], ⟨0⟩, .empty, []⟩

/-- The registry as another thread sees it. -/
def turnTo (r : Registry) (t : ThreadId) : Registry :=
  if t = r.thread then r
  else
    { r with
      thread := t
      here := (r.elsewhere.lookup t).getD .empty
      elsewhere := (r.thread, r.here) :: r.elsewhere.filter (fun p => p.1 ≠ t) }

/-- The loops that the thread has named, in the order of their names. -/
def namedLoops (r : Registry) : List LoopId :=
  r.here.loops.map (·.2)

/-- The registry without the names of the thread that sees it. -/
def leave (r : Registry) : Registry :=
  { r with here := .empty }

/-- Notes that a statement is at work on a loop. -/
def hold (r : Registry) (l : LoopId) : Registry :=
  { r with here := { r.here with held := l :: r.here.held } }

/-- Notes that a statement is done with a loop. -/
def release (r : Registry) (l : LoopId) : Registry :=
  { r with here := { r.here with held := r.here.held.erase l } }

/-- Whether a statement is at work on a loop. -/
def holds (r : Registry) (l : LoopId) : Bool :=
  l ∈ r.here.held

/-- Names a loop. -/
def nameLoop (r : Registry) (name : String) (l : LoopId) : Registry :=
  { r with here := { r.here with loops := r.here.loops.bind name l } }

/-- Forgets the name of a loop. -/
def eraseLoop (r : Registry) (name : String) : Registry :=
  { r with here := { r.here with loops := r.here.loops.erase name } }

/-- Names a join slot. -/
def nameJoin (r : Registry) (name : String) (j : JoinId) : Registry :=
  { r with here := { r.here with joins := r.here.joins.bind name j } }

/-- Names a background thread. -/
def nameThread (r : Registry) (name : String) (t : ThreadId) : Registry :=
  { r with here := { r.here with threads := r.here.threads.bind name t } }

/-- Forgets a background thread. -/
def eraseThread (r : Registry) (name : String) : Registry :=
  { r with here := { r.here with threads := r.here.threads.erase name } }

/-- Names a source. -/
def nameSource (r : Registry) (name : String) (s : SourceId) : Registry :=
  { r with sources := r.sources.bind name s }

/-- Names a task. -/
def nameTask (r : Registry) (name : String) (c : CellId) : Registry :=
  { r with tasks := r.tasks.bind name c }

/-- Names a handle. -/
def nameHandle (r : Registry) (name : String) (l : LoopId) : Registry :=
  { r with handles := r.handles.bind name l }

/-- Names a waker. -/
def nameWaker (r : Registry) (name : String) (k : WakerId) : Registry :=
  { r with wakers := r.wakers.bind name k }

/-- Whether a loop is needed: it has a name, or a statement is at work on it. -/
def needs (r : Registry) (l : LoopId) : Bool :=
  r.here.loops.any (fun p => p.2 = l) || r.holds l

/-- Whether a join slot, source, task or waker has this name. -/
def knows (r : Registry) (name : String) : Bool :=
  (r.here.joins.find? name).isSome || (r.sources.find? name).isSome ||
    (r.tasks.find? name).isSome || (r.wakers.find? name).isSome

/-- Forgets the join slot, source, task and waker of a name. -/
def forget (r : Registry) (name : String) : Registry :=
  { r with
    sources := r.sources.erase name
    tasks := r.tasks.erase name
    wakers := r.wakers.erase name
    here := { r.here with joins := r.here.joins.erase name } }

end Registry

end RunLoop.Script
