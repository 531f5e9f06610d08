import RunLoop.Machine.Run

/-!
# What happens in a step

A run is told by what happens in it: which entries a loop accepts and processes, when main futures
come and go, who is woken and polled, what is put down, filled and settled. `Machine.happenings`
reads this off the job that the running thread is about to perform. A step of which nothing is told
touches no queue, wakes nobody and settles nothing.

* `Happening` lists what is told.
* `Machine.happenings` says what happens in the next step of the running thread.
* `acceptedBy`, `processedBy` pick the entries of one loop out of a history.
-/

namespace RunLoop

/-- Something that happens to a loop, or to an object that threads share. -/
inductive Happening (G : Guest) where
  /-- A loop was built. -/
  | built (loop : LoopId)
  /-- A main future began to run on a loop, with a waker of its own. -/
  | entered (loop : LoopId) (waker : WakerId)
  /-- The main future of a loop was ready. -/
  | ready (loop : LoopId)
  /-- A poll of the main future of a loop panicked; `rest` was left of the batch. -/
  | panicked (loop : LoopId) (rest : List (Entry G))
  /-- A loop was dropped. -/
  | closed (loop : LoopId)
  /-- A loop accepted an entry. -/
  | accepted (loop : LoopId) (entry : Entry G)
  /-- A loop processed an entry. -/
  | processed (loop : LoopId) (entry : Entry G)
  /-- A poll of the target of a waker began. -/
  | polled (waker : WakerId)
  /-- A waker was woken. -/
  | woken (waker : WakerId)
  /-- A waker was put down at a cell that is not settled. -/
  | awaited (cell : CellId) (waker : WakerId)
  /-- A waker was left at a join slot that holds no outcome. -/
  | joining (slot : JoinId) (waker : WakerId)
  /-- A join slot was filled. -/
  | filled (slot : JoinId) (outcome : Joined)
  /-- A cell was settled. -/
  | settled (cell : CellId) (outcome : Outcome)
  /-- A transition was the first to mark its source. -/
  | claimed (source : SourceId) (outcome : Outcome)
  /-- A transition found its source marked. -/
  | refused (source : SourceId) (outcome : Outcome)

namespace Happening

variable {G : Guest}

/-- The entry that loop `l` accepted. -/
def accepted? (l : LoopId) : Happening G → Option (Entry G)
  | accepted l' e => if l' = l then some e else none
  | _ => none

/-- The entry that loop `l` processed. -/
def processed? (l : LoopId) : Happening G → Option (Entry G)
  | processed l' e => if l' = l then some e else none
  | _ => none

end Happening

/-- The entries that loop `l` accepted, in order. -/
def acceptedBy {G : Guest} (l : LoopId) (τ : List (Happening G)) : List (Entry G) :=
  τ.filterMap (Happening.accepted? l)

/-- The entries that loop `l` processed, in order. -/
def processedBy {G : Guest} (l : LoopId) (τ : List (Happening G)) : List (Entry G) :=
  τ.filterMap (Happening.processed? l)

/-- What is picked out of a list is what is picked out of its head and of its tail. -/
theorem filterMap_cons_eq {α β : Type} (f : α → Option β) (a : α) (as : List α) :
    (a :: as).filterMap f = (f a).toList ++ as.filterMap f := by
  cases h : f a <;> simp [h]

section

variable {G : Guest} {l : LoopId}

@[simp] theorem acceptedBy_nil : acceptedBy l ([] : List (Happening G)) = [] :=
  rfl

@[simp] theorem processedBy_nil : processedBy l ([] : List (Happening G)) = [] :=
  rfl

@[simp] theorem acceptedBy_cons (h : Happening G) (τ : List (Happening G)) :
    acceptedBy l (h :: τ) = (h.accepted? l).toList ++ acceptedBy l τ :=
  filterMap_cons_eq _ h τ

@[simp] theorem processedBy_cons (h : Happening G) (τ : List (Happening G)) :
    processedBy l (h :: τ) = (h.processed? l).toList ++ processedBy l τ :=
  filterMap_cons_eq _ h τ

theorem mem_acceptedBy {e : Entry G} {τ : List (Happening G)} :
    e ∈ acceptedBy l τ ↔ .accepted l e ∈ τ := by
  induction τ with
  | nil => simp
  | cons h τ ih =>
    rw [acceptedBy_cons, List.mem_append, ih, List.mem_cons]
    cases h <;> simp [Happening.accepted?, eq_comm]

theorem mem_processedBy {e : Entry G} {τ : List (Happening G)} :
    e ∈ processedBy l τ ↔ .processed l e ∈ τ := by
  induction τ with
  | nil => simp
  | cons h τ ih =>
    rw [processedBy_cons, List.mem_append, ih, List.mem_cons]
    cases h <;> simp [Happening.processed?, eq_comm]

end

namespace Machine

variable {G : Guest}

/-- A loop is handed an entry: it accepts the entry unless it is closed. -/
def handed (m : Machine G) (l : LoopId) (e : Entry G) : List (Happening G) :=
  if m.world.isClosed l then [] else [.accepted l e]

/-- A cell is read. -/
def cellRead (m : Machine G) (c : CellId) (k : WakerId) : List (Happening G) :=
  match m.world.cell? c with
  | some (.pending _) => [.awaited c k]
  | _ => []

/-- A join slot is read. -/
def joinRead (m : Machine G) (j : JoinId) (k : WakerId) : List (Happening G) :=
  match m.world.join? j with
  | some ⟨none, _⟩ => [.joining j k]
  | _ => []

/-- A request is served. -/
def served (m : Machine G) : Request G → List (Happening G)
  | .build _ => [.built ⟨m.world.loops.size⟩]
  | .getResult _ => if m.current.isSome then [] else [.built ⟨m.world.loops.size⟩]
  | .close l => if m.isRunning l || m.world.isClosed l then [] else [.closed l]
  | .blockOn l _ =>
      if m.current.isSome || m.isRunning l || m.world.isClosed l then []
      else [.entered l ⟨m.world.wakers.size⟩, .polled ⟨m.world.wakers.size⟩]
  | .startOn l f => m.handed l (.call (.start f))
  | .callSoon l c => m.handed l (.call (.own c))
  | .settle s o =>
      match m.world.source? s with
      | some source => if source.settled then [.refused s o] else [.claimed s o]
      | none => []
  | .poll (.forwarding j) k => m.joinRead j k
  | .pollCell c k => m.cellRead c k
  | .pollJoin j k => m.joinRead j k
  | _ => []

/-- An entry is processed on a loop whose main future has waker `k`. -/
def entryProcessed (m : Machine G) (l : LoopId) (k : WakerId) : Entry G → List (Happening G)
  | .main => [.polled k]
  | .wake slot =>
      match m.world.task? l slot with
      | some ⟨k, some _⟩ => [.polled k]
      | _ => []
  | .call (.settle c o) => if (m.world.settle? c o).isSome then [.settled c o] else []
  | .call _ => []

/-- A job is performed in order, given the answer left last. -/
def performed (m : Machine G) (a : Answer G) : Job G → List (Happening G)
  | .serve q => m.served q
  | .wake k => if (m.world.waker? k).isSome then [.woken k] else []
  | .notify k =>
      match m.world.waker? k with
      | some x => m.handed x.loop x.target.entry
      | none => []
  | .handOff l c => m.handed l (.call c)
  | .fill j o => if (m.world.join? j).isSome then [.filled j o] else []
  | .turn l k _ (e :: _) => .processed l e :: m.entryProcessed l k e
  | .mainPolled l _ _ =>
      match a.toPoll with
      | .ready _ _ => [.ready l]
      | .pending _ => []
  | _ => []

/-- What happens in the next step of the running thread, unless it has to wait. -/
def happenings (m : Machine G) : List (Happening G) :=
  match m.jobs, m.mode with
  | job :: _, .going a => m.performed a job
  | .mainPolled l _ rest :: _, .unwinding _ _ => [.panicked l rest]
  | _, _ => []

end Machine

end RunLoop
