import RunLoop.Loop

/-!
# The world: all shared objects

A `World` holds every loop, waker, cell, source and join slot, the thread that is running and the
journal of what was reported. The operations here run no user code, and each of them touches one
object that threads share: between two of them another thread may do the same.

* `World.mark` and `World.notify` are the two halves of waking: mark the waker, then queue its
  target.
* `World.addTask` puts a task into the table of a loop, `World.takeWork` takes its work out again.
* `World.settle?` assigns a result cell, `World.fill` a join slot; both give the wakers to be woken.
* `World.claim` and `World.push?` are the two halves of settling a completion source.
* `World.view` is what user code gets to see: everything but the journal.
-/

namespace RunLoop

/-- A thread: what it is called, and the loop that it is running, if any. -/
structure Thread where
  id : ThreadId
  current : Option LoopId

/-- One report of the loop, or one note of the guest. -/
inductive Item (G : Guest) where
  | event (e : Event)
  | note (n : G.Note)

/-- An item of the journal with the thread that wrote it. -/
structure Line (G : Guest) where
  thread : ThreadId
  item : Item G

/-- All shared objects, the running thread and the journal. -/
structure World (G : Guest) where
  loops : Array (EventLoop G)
  wakers : Array Waker
  cells : Array Cell
  sources : Array Source
  joins : Array JoinSlot
  /-- The number of fault identities given out. -/
  identities : Nat
  thread : Thread
  journal : Array (Line G)

namespace World

variable {G : Guest}

/-- A world without objects, on its first thread. -/
def empty : World G :=
  ⟨#[], #[], #[], #[], #[], 0, ⟨⟨0⟩, none⟩, #[]⟩

/-- What user code gets to see. -/
def view (w : World G) : World G :=
  { w with journal := #[] }

/-! ## Journal -/

/-- Writes an item on behalf of the running thread. -/
def write (w : World G) (item : Item G) : World G :=
  { w with journal := w.journal.push ⟨w.thread.id, item⟩ }

/-- Reports an event. -/
def emit (w : World G) (e : Event) : World G :=
  w.write (.event e)

/-- Writes the notes of the guest. -/
def note (w : World G) (notes : List G.Note) : World G :=
  notes.foldl (fun w n => w.write (.note n)) w

/-! ## Looking up -/

/-- The loop behind a reference. -/
def loop? (w : World G) (l : LoopId) : Option (EventLoop G) :=
  w.loops[l.index]?

/-- The name of a loop. -/
def loopName (w : World G) (l : LoopId) : String :=
  ((w.loop? l).map (·.name)).getD ""

/-- The number of unfinished tasks of a loop. -/
def pendingTasks (w : World G) (l : LoopId) : Nat :=
  ((w.loop? l).map (·.tasks.size)).getD 0

/-- Whether a loop was dropped. -/
def isClosed (w : World G) (l : LoopId) : Bool :=
  ((w.loop? l).map (·.queue.closed)).getD true

/-- The waker behind a reference. -/
def waker? (w : World G) (k : WakerId) : Option Waker :=
  w.wakers[k.index]?

/-- The cell behind a reference. -/
def cell? (w : World G) (c : CellId) : Option Cell :=
  w.cells[c.index]?

/-- The source behind a reference. -/
def source? (w : World G) (s : SourceId) : Option Source :=
  w.sources[s.index]?

/-- The join slot behind a reference. -/
def join? (w : World G) (j : JoinId) : Option JoinSlot :=
  w.joins[j.index]?

/-! ## Changing one object -/

/-- Changes a loop. -/
def modifyLoop (w : World G) (l : LoopId) (f : EventLoop G → EventLoop G) : World G :=
  { w with loops := w.loops.modify l.index f }

/-- Changes the task table of a loop. -/
def modifyTasks (w : World G) (l : LoopId)
    (f : Slab (Task G.Coroutine) → Slab (Task G.Coroutine)) : World G :=
  w.modifyLoop l (fun e => { e with tasks := f e.tasks })

/-- Gives a cell a new state. -/
def setCell (w : World G) (c : CellId) (cell : Cell) : World G :=
  { w with cells := w.cells.setIfInBounds c.index cell }

/-- Gives a join slot a new state. -/
def setJoin (w : World G) (j : JoinId) (slot : JoinSlot) : World G :=
  { w with joins := w.joins.setIfInBounds j.index slot }

/-- Makes a loop the current one of the running thread, or none. -/
def enter (w : World G) (l : Option LoopId) : World G :=
  { w with thread := { w.thread with current := l } }

/-! ## New objects -/

/-- Builds a loop. -/
def build (w : World G) (c : Config G) : World G × LoopId :=
  let w := w.emit (.built c.name c.park)
  ({ w with loops := w.loops.push c.build }, ⟨w.loops.size⟩)

/-- A new waker for a target of a loop, not marked as queued. -/
def newWaker (w : World G) (l : LoopId) (target : Target) : World G × WakerId :=
  ({ w with wakers := w.wakers.push ⟨l, target, false⟩ }, ⟨w.wakers.size⟩)

/-- A new join slot. -/
def newJoin (w : World G) : World G × JoinId :=
  ({ w with joins := w.joins.push .new }, ⟨w.joins.size⟩)

/-- A new completion source with a cell of its own, bound to a loop. -/
def newSource (w : World G) (l : LoopId) : World G × SourceId :=
  ({ w with
      cells := w.cells.push .new
      sources := w.sources.push ⟨l, ⟨w.cells.size⟩, false⟩ }, ⟨w.sources.size⟩)

/-- Gives out `n` fault identities, numbered from the answer on. -/
def reserve (w : World G) (n : Nat) : World G × Nat :=
  ({ w with identities := w.identities + n }, w.identities)

/-! ## Queueing and waking -/

/-- Hands an entry to a loop; a closed loop refuses it. -/
def push? (w : World G) (l : LoopId) (e : Entry G) : Option (World G) :=
  match (w.loop? l).bind (·.queue.push? e) with
  | some q => some (w.modifyLoop l (fun x => { x with queue := q }))
  | none => none

/-- Marks a waker as queued, and tells whether it was marked already. -/
def mark (w : World G) (k : WakerId) : World G × Bool :=
  ({ w with wakers := w.wakers.modify k.index (fun x => { x with notified := true }) },
    ((w.waker? k).map (·.notified)).getD true)

/-- Clears the mark of a waker, right before its target is polled. -/
def rearm (w : World G) (k : WakerId) : World G :=
  { w with wakers := w.wakers.modify k.index (fun x => { x with notified := false }) }

/-- Queues the target of a waker that was just marked; a closed loop drops the wake-up. -/
def notify (w : World G) (k : WakerId) : World G :=
  match w.waker? k with
  | none => w
  | some x => (w.push? x.loop x.target.entry).getD (w.emit (.wakeDropped x.target))

/-- Whether something is queued on a loop. -/
def hasWork (w : World G) (l : LoopId) : Bool :=
  ((w.loop? l).map (!·.queue.entries.isEmpty)).getD false

/-- Takes everything that is queued on a loop. -/
def takeBatch (w : World G) (l : LoopId) : World G × List (Entry G) :=
  match w.loop? l with
  | none => (w, [])
  | some e =>
      let (q, batch) := e.queue.takeBatch
      (w.modifyLoop l (fun x => { x with queue := q }), batch)

/-- Returns the rest of a batch to the front of the queue. -/
def putBackBatch (w : World G) (l : LoopId) (rest : List (Entry G)) : World G :=
  w.modifyLoop l (fun x => { x with queue := x.queue.putBack rest })

/-- Closes the queue of a loop and takes out what it still holds. -/
def closeQueue (w : World G) (l : LoopId) : World G × List (Entry G) :=
  match w.loop? l with
  | none => (w, [])
  | some e =>
      let (q, rest) := e.queue.close
      (w.modifyLoop l (fun x => { x with queue := q }), rest)

/-! ## Cells, sources and join slots -/

/-- Reads a cell, or puts the reader's waker down. -/
def pollCell (w : World G) (c : CellId) (k : WakerId) : World G × Option Outcome :=
  match w.cell? c with
  | none => (w, none)
  | some cell =>
      let (cell, o) := cell.poll k
      (w.setCell c cell, o)

/-- Assigns a cell and gives the wakers of those who wait for it; an assigned cell refuses. -/
def settle? (w : World G) (c : CellId) (o : Outcome) : Option (World G × List WakerId) :=
  ((w.cell? c).bind (·.settle? o)).map (fun (cell, waiters) => (w.setCell c cell, waiters))

/-- Marks a source as settled, and tells whether it was marked already. -/
def claim (w : World G) (s : SourceId) : World G × Bool :=
  ({ w with sources := w.sources.modify s.index (fun x => { x with settled := true }) },
    ((w.source? s).map (·.settled)).getD true)

/-- Takes the outcome out of a join slot, or leaves the reader's waker. -/
def pollJoin (w : World G) (j : JoinId) (k : WakerId) : World G × Option Joined :=
  match w.join? j with
  | none => (w, none)
  | some slot =>
      let (slot, o) := slot.poll k
      (w.setJoin j slot, o)

/-- Hands the outcome of a task over and gives the waker of the one who waits for it. -/
def fill (w : World G) (j : JoinId) (o : Joined) : World G × Option WakerId :=
  match w.join? j with
  | none => (w, none)
  | some slot =>
      let (slot, waiter) := slot.fill o
      (w.setJoin j slot, waiter)

/-! ## Tasks -/

/-- Puts a task into the table of a loop, under the index that its new waker will queue. -/
def addTask (w : World G) (l : LoopId) (kind : Kind) (f : Future G.Coroutine) :
    World G × WakerId :=
  let slot := ((w.loop? l).map (·.tasks.vacant)).getD 0
  let (w, k) := w.newWaker l (.task slot)
  let w := w.modifyTasks l (fun t => (t.insert ⟨k, some ⟨kind, false, f⟩⟩).1)
  (w.emit (.spawned (w.loopName l) slot), k)

/-- The task in a slot of a loop. -/
def task? (w : World G) (l : LoopId) (slot : Nat) : Option (Task G.Coroutine) :=
  (w.loop? l).bind (·.tasks.get? slot)

/-- Takes the work of a task out of the table and clears the mark of its waker; nothing is there to
take if the slot is free or its task is being polled. -/
def takeWork (w : World G) (l : LoopId) (slot : Nat) :
    Option (World G × WakerId × Work G.Coroutine) :=
  match w.task? l slot with
  | some ⟨k, some work⟩ =>
      some ((w.modifyTasks l (·.modify slot (fun t => { t with work := none }))).rearm k, k, work)
  | _ => none

/-- Puts work that is not finished back into its slot. -/
def putBackWork (w : World G) (l : LoopId) (slot : Nat) (work : Work G.Coroutine) : World G :=
  w.modifyTasks l (·.modify slot (fun t => { t with work := some work }))

/-- Removes a task from the table. -/
def removeTask (w : World G) (l : LoopId) (slot : Nat) : World G :=
  w.modifyTasks l (fun t => (t.remove slot).1)

/-- Removes a task that came to its end and reports it. -/
def finishTask (w : World G) (l : LoopId) (slot : Nat) : World G :=
  (w.removeTask l slot).emit (.finished (w.loopName l) slot)

/-- Takes all tasks out of the table of a loop, by slot. -/
def drainTasks (w : World G) (l : LoopId) : World G × List (Task G.Coroutine) :=
  match w.loop? l with
  | none => (w, [])
  | some e =>
      let (t, tasks) := e.tasks.drain
      (w.modifyTasks l (fun _ => t), tasks)

end World

end RunLoop
