import RunLoop.Proofs.Interleaving

/-!
# The rules of the loop

What the running thread does in a step is written down here as rules: the job on top of its stack is
replaced by other jobs, the world changes, and something happens. The rules know nothing of the code
that the loop runs, which may ask for anything at any time. Every step of the machine follows one of
them (`Machine.act_cases`), so that an invariant of all runs is checked rule by rule.

* `Job.isPlain`, `Job.isCalm`, `Job.catches` and `Job.isFragile` sort the jobs.
* `Mode.outcome?` is what the poll of a task came to.
* `World.Agrees` says that two worlds hold the same objects.
* `Rule` lists the rules.
-/

namespace RunLoop

variable {G : Guest}

/-! ## Kinds of jobs -/

namespace Job

/-- Jobs that stand for nothing of the loop itself: user code and what it is given back. -/
def isPlain : Job G → Bool
  | resume _ | serve _ | answer _ | emit _ | drop _ | discard _ | owned _ | barrier | await _
  | threadEnd _ | propagate _ => true
  | _ => false

/-- Jobs that no panic gets out of, neither their own nor one of the jobs they make. -/
def isCalm : Job G → Bool
  | answer _ | emit _ | wake _ | notify _ | fill _ _ | taskPolled _ _ _ | taskEnded _ _ _ _
  | taskFinished _ _ | taskPanicked _ _ _ | called _ | report _ _ | reported _ _ | barrier
  | threadEnd _ => true
  | _ => false

/-- Jobs at which a panic comes to its end. -/
def catches : Job G → Bool
  | taskPolled _ _ _ | taskEnded _ _ _ _ | called _ | reported _ _ | barrier | threadEnd _
  | propagate _ => true
  | _ => false

/-- Jobs that a panic must not take away. -/
def isFragile : Job G → Bool
  | wake _ | notify _ | handOff _ _ | turn _ _ _ _ | taskFinished _ _ | taskPanicked _ _ _
  | report _ _ => true
  | _ => false

end Job

/-- Requests that put a task into a table, read a join slot or drop the tasks of a loop. -/
def Request.touchesTasks : Request G → Bool
  | close _ | spawn _ | start _ | poll (.nested _) _ | poll (.forwarding _) _ | pollJoin _ _ => true
  | _ => false

/-- What a poll came to, if it was the last. -/
def Mode.outcome? : Mode G → Option Joined
  | going a =>
      match a.toPoll with
      | .ready r _ => some (.ok r)
      | .pending _ => none
  | unwinding p _ => some (.error p.toError)
  | aborted => none

/-! ## Worlds with the same objects -/

/-- Two worlds hold the same loops, wakers, cells, sources and join slots. -/
structure World.Agrees (w w' : World G) : Prop where
  loops : w'.loops = w.loops
  wakers : w'.wakers = w.wakers
  cells : w'.cells = w.cells
  sources : w'.sources = w.sources
  joins : w'.joins = w.joins

namespace World

theorem Agrees.refl (w : World G) : w.Agrees w :=
  ⟨rfl, rfl, rfl, rfl, rfl⟩

theorem Agrees.trans {w w₁ w₂ : World G} (h : w.Agrees w₁) (h' : w₁.Agrees w₂) : w.Agrees w₂ :=
  ⟨h'.loops.trans h.loops, h'.wakers.trans h.wakers, h'.cells.trans h.cells,
    h'.sources.trans h.sources, h'.joins.trans h.joins⟩

theorem agrees_emit (w : World G) (e : Event) : w.Agrees (w.emit e) :=
  ⟨rfl, rfl, rfl, rfl, rfl⟩

@[simp] theorem thread_emit (w : World G) (e : Event) : (w.emit e).thread = w.thread :=
  rfl

/-- Notes of the guest change the journal only. -/
theorem note_eq (w : World G) (notes : List G.Note) :
    w.Agrees (w.note notes) ∧ (w.note notes).thread = w.thread := by
  unfold note
  induction notes generalizing w with
  | nil => exact ⟨.refl w, rfl⟩
  | cons n notes ih =>
    obtain ⟨⟨h₁, h₂, h₃, h₄, h₅⟩, ht⟩ := ih (w.write (.note n))
    exact ⟨⟨h₁, h₂, h₃, h₄, h₅⟩, ht⟩

end World

/-! ## The rules -/

/-- `Rule busy w mode job η w' mode' jobs`: with the stack worked on in `mode`, the job on top is
replaced by `jobs`, the world `w` becomes `w'`, and `η` happens. The loops in `busy` are running. -/
inductive Rule (busy : LoopId → Prop) (w : World G) :
    Mode G → Job G → List (Happening G) → World G → Mode G → List (Job G) → Prop where
  /-- Something goes on that concerns no loop. -/
  | plain {w' mode job mode' jobs} (hj : job.isPlain = true) (hc : job.isCalm = false)
      (hs : ∀ i ∈ jobs, i.isPlain = true) (hw : w.Agrees w') (ht : w'.thread = w.thread) :
      Rule busy w mode job [] w' mode' jobs
  | ended {w' job a b} (hj : job.isPlain = true) (hw : w.Agrees w') (ht : w'.thread = w.thread) :
      Rule busy w (.going a) job [] w' (.going b) []
  /-- A panic goes past a job. -/
  | past {job p r} (hj : job.isPlain = true) (hc : job.catches = false) :
      Rule busy w (.unwinding p r) job [] w (.unwinding p r) []
  | caught {w' job p r b} (hj : job.isPlain = true) (hw : w.Agrees w') (ht : w'.thread = w.thread) :
      Rule busy w (.unwinding p r) job [] w' (.going b) []
  /-- A callback has returned. -/
  | called {l a} : Rule busy w (.going a) (.called l) [] w (.going .nothing) []
  | calledPanicked {l p r} :
      Rule busy w (.unwinding p r) (.called l) [] w (.going .nothing) [.report l p.toError]
  /-- A handler is told of a failure. -/
  | report {l e a run} :
      Rule busy w (.going a) (.report l e) [] w (.going .nothing) [.resume run, .reported l e]
  /-- A handler has returned. -/
  | reported {l e a} : Rule busy w (.going a) (.reported l e) [] w (.going .nothing) []
  | reportedPanicked {l e p r v} :
      Rule busy w (.unwinding p r) (.reported l e) [] (w.emit v) (.going .nothing) []
  /-- A failure that no handler is told of is an event. -/
  | unheard {l e a v} : Rule busy w (.going a) (.report l e) [] (w.emit v) (.going .nothing) []
  | build {q a b jobs} (c : Config G) (hs : ∀ i ∈ jobs, i.isPlain = true) :
      Rule busy w (.going a) (.serve q) [.built ⟨w.loops.size⟩] (w.build c).1 (.going b) jobs
  | close {l a} (hb : ¬busy l) (hc : w.isClosed l = false) :
      Rule busy w (.going a) (.serve (.close l)) [.closed l] (w.closeQueue l).1 (.going .nothing)
        ((w.closeQueue l).2.map .discard ++ [.drain l (w.closeQueue l).2.length])
  | enter {l f f' a v} (hb : ¬busy l) (hc : w.isClosed l = false)
      (ht : w.thread.current = none) :
      Rule busy w (.going a) (.serve (.blockOn l f))
        [.entered l ⟨w.wakers.size⟩, .polled ⟨w.wakers.size⟩]
        (((w.emit v).newWaker l .main).1.enter (some l)) (.going .nothing)
        [.serve (.poll f' ⟨w.wakers.size⟩), .mainPolled l ⟨w.wakers.size⟩ [], .restore none,
          .leave l]
  | spawn {q a l f jobs} (hl : w.thread.current = some l) (hs : ∀ i ∈ jobs, i.isPlain = true)
      (hq : q.touchesTasks = true) :
      Rule busy w (.going a) (.serve q) []
        (w.newJoin.1.addTask l (.joined w.newJoin.2) f).1 (.going .nothing)
        (.wake ⟨w.wakers.size⟩ :: jobs)
  /-- A task that nobody awaits is started on the current loop. -/
  | start {q a l f jobs} (hl : w.thread.current = some l) (hs : ∀ i ∈ jobs, i.isPlain = true)
      (hq : q.touchesTasks = true) :
      Rule busy w (.going a) (.serve q) [] (w.addTask l .detached f).1 (.going .nothing)
        (.wake ⟨w.wakers.size⟩ :: jobs)
  | newSource {q a b} (l : LoopId) :
      Rule busy w (.going a) (.serve q) [] (w.newSource l).1 (.going b) []
  | claim {s o a x} (hx : w.source? s = some x) (h : x.settled = false) :
      Rule busy w (.going a) (.serve (.settle s o)) [.claimed s o] (w.claim s).1 (.going .nothing)
        [.handOff x.loop (.settle x.cell o)]
  | refuse {s o a x v} (hx : w.source? s = some x) (h : x.settled = true) :
      Rule busy w (.going a) (.serve (.settle s o)) [.refused s o] (w.emit v)
        (.going (.unit (.error .alreadyCompleted))) []
  | askWake {k a} : Rule busy w (.going a) (.serve (.wake k)) [] w (.going .nothing) [.wake k]
  | awaitCell {c k a b ws} (hx : w.cell? c = some (.pending ws)) :
      Rule busy w (.going a) (.serve (.pollCell c k)) [.awaited c k]
        (w.setCell c (.pending (Cell.enlist ws k))) (.going b) []
  | awaitJoin {q j k a b x} (hx : w.join? j = some ⟨none, x⟩) (hq : q.touchesTasks = true) :
      Rule busy w (.going a) (.serve q) [.joining j k] (w.setJoin j ⟨none, some k⟩) (.going b) []
  | takeJoin {q j a b o x} (hx : w.join? j = some ⟨some o, x⟩) (hq : q.touchesTasks = true) :
      Rule busy w (.going a) (.serve q) [] (w.setJoin j ⟨none, x⟩) (.going b) []
  /-- A loop accepts a callback of the guest, or a future to start. -/
  | submit {q a l c w'} (hc : ∀ cell o, c ≠ .settle cell o) (hp : w.push? l (.call c) = some w') :
      Rule busy w (.going a) (.serve q) [.accepted l (.call c)] w' (.going (.unit (.ok ()))) []
  /-- A loop accepts the hand-off of a transition. -/
  | handOver {a l c w'} (hp : w.push? l (.call c) = some w') :
      Rule busy w (.going a) (.handOff l c) [.accepted l (.call c)] w' (.going (.unit (.ok ()))) []
  | handBack {a l c v} (hp : w.push? l (.call c) = none) :
      Rule busy w (.going a) (.handOff l c) [] w (.going .nothing)
        [.discard (.call c), .emit v, .answer (.unit (.error .loopClosed))]
  | mark {k a x} (hx : w.waker? k = some x) (h : x.notified = false) :
      Rule busy w (.going a) (.wake k) [.woken k] (w.mark k).1 (.going a) [.notify k]
  | marked {k a x} (hx : w.waker? k = some x) (h : x.notified = true) :
      Rule busy w (.going a) (.wake k) [.woken k] (w.mark k).1 (.going a) []
  | wakeNobody {k a} (hx : w.waker? k = none) : Rule busy w (.going a) (.wake k) [] w (.going a) []
  | notify {k a x w'} (hx : w.waker? k = some x)
      (hp : w.push? x.loop x.target.entry = some w') :
      Rule busy w (.going a) (.notify k) [.accepted x.loop x.target.entry] w' (.going a) []
  /-- The loop of a waker is closed. -/
  | dropWake {k a w'} (hc : ∀ x, w.waker? k = some x → w.isClosed x.loop = true)
      (hw : w.Agrees w') (ht : w'.thread = w.thread) :
      Rule busy w (.going a) (.notify k) [] w' (.going a) []
  /-- A join slot is filled; the one who waits for it is woken next. -/
  | fill {j o a x} (hx : w.join? j = some x) :
      Rule busy w (.going a) (.fill j o) [.filled j o] (w.setJoin j ⟨some o, none⟩) (.going a)
        (x.waiter.toList.map .wake)
  | fillNothing {j o a} (hx : w.join? j = none) :
      Rule busy w (.going a) (.fill j o) [] w (.going a) []
  /-- What a panic must do before it goes on. -/
  | again {job p r} (hj : (∃ work, job = .abandon work) ∨ ∃ j o, job = .fill j o) :
      Rule busy w (.unwinding p r) job [] w (.going .nothing) [job, .propagate p]
  /-- The work of an unfinished task is dropped, and its join slot told so. -/
  | abandon {work a jobs}
      (hs : ∀ i ∈ jobs, i.isPlain = true ∨ ∃ j, i = .fill j (.error .cancelled)) :
      Rule busy w (.going a) (.abandon work) [] w (.going .nothing) jobs
  /-- The tasks of a loop are taken out of its table. -/
  | drain {l n mode jobs} (hs : ∀ i ∈ jobs, i.isPlain = true) :
      Rule busy w mode (.drain l n) [] (w.drainTasks l).1 (.going .nothing)
        (((w.drainTasks l).2.filterMap (·.work)).map .abandon ++ jobs)
  /-- Everything that is queued becomes the next batch. -/
  | take {l k f a} :
      Rule busy w (.going a) (.turn l k f []) [] (w.takeBatch l).1 (.going .nothing)
        [.turn l k f (w.takeBatch l).2]
  | processMain {l k f rest a} :
      Rule busy w (.going a) (.turn l k f (.main :: rest)) [.processed l .main, .polled k]
        (w.rearm k) (.going .nothing) [.serve (.poll f k), .mainPolled l k rest]
  | processNobody {l k f slot rest a} (h : w.takeWork l slot = none) :
      Rule busy w (.going a) (.turn l k f (.wake slot :: rest)) [.processed l (.wake slot)] w
        (.going .nothing) [.turn l k f rest]
  | processTask {l k f slot rest a w' k' work} (h : w.takeWork l slot = some (w', k', work)) :
      Rule busy w (.going a) (.turn l k f (.wake slot :: rest))
        [.processed l (.wake slot), .polled k'] w' (.going .nothing)
        [.serve (.poll work.future k'), .taskPolled l slot work.kind, .turn l k f rest]
  | processCall {l k f c rest a run} :
      Rule busy w (.going a) (.turn l k f (.call (.own c) :: rest))
        [.processed l (.call (.own c))] w (.going .nothing)
        [.resume run, .called l, .turn l k f rest]
  /-- A cell is settled; those who wait for it are woken next. -/
  | processSettle {l k f c o rest a ws v} (hx : w.cell? c = some (.pending ws)) :
      Rule busy w (.going a) (.turn l k f (.call (.settle c o) :: rest))
        [.processed l (.call (.settle c o)), .settled c o] (w.setCell c (.settled o))
        (.going .nothing) (ws.map .wake ++ [.emit v, .turn l k f rest])
  | processSettled {l k f c o rest a} (h : w.settle? c o = none) :
      Rule busy w (.going a) (.turn l k f (.call (.settle c o) :: rest))
        [.processed l (.call (.settle c o))] w (.going .nothing) [.turn l k f rest]
  | processStart {l k f g g' rest a l'} (hl : w.thread.current = some l') :
      Rule busy w (.going a) (.turn l k f (.call (.start g) :: rest))
        [.processed l (.call (.start g))] (w.addTask l' .detached g').1 (.going .nothing)
        [.wake ⟨w.wakers.size⟩, .turn l k f rest]
  | mainPending {l k batch f a} :
      Rule busy w (.going a) (.mainPolled l k batch) [] w (.going .nothing) [.turn l k f batch]
  /-- The main future is ready; the rest of the batch goes back to the queue. -/
  | mainReady {l k batch f r a} :
      Rule busy w (.going a) (.mainPolled l k batch) [.ready l] (w.putBackBatch l batch)
        (.going .nothing) [.drop f, .answer r]
  /-- The main future panicked; the rest of the batch is dropped. -/
  | mainPanicked {l k batch p r} :
      Rule busy w (.unwinding p r) (.mainPolled l k batch) [.panicked l batch] w (.going .nothing)
        (batch.map .discard ++ r.toList.map .drop ++ [.propagate p])
  | taskPending {l slot kind work a} (ho : (Mode.going a).outcome? = none) :
      Rule busy w (.going a) (.taskPolled l slot kind) [] (w.putBackWork l slot work)
        (.going .nothing) []
  /-- The future of a task comes to its end and is dropped. -/
  | taskEnding {l slot kind o mode} (jobs : List (Job G)) (hs : ∀ i ∈ jobs, i.isPlain = true)
      (ho : mode.outcome? = some o) :
      Rule busy w mode (.taskPolled l slot kind) [] w (.going .nothing)
        (jobs ++ [.taskEnded l slot kind o])
  /-- The future of a task was dropped, and its outcome is handed over. -/
  | taskEnded {l slot kind o a} (jobs : List (Job G))
      (hs : (∃ j o', jobs = [.fill j o'] ∧ kind = .joined j) ∨
        kind = .detached ∧ ((∃ v, o.flatten = .ok v ∧ jobs = []) ∨
          ∃ e, o.flatten = .error e ∧ jobs = [.report l e])) :
      Rule busy w (.going a) (.taskEnded l slot kind o) [] w (.going .nothing)
        (jobs ++ [.taskFinished l slot])
  /-- The future of a task panicked when it was dropped. -/
  | taskEndPanicked {l slot kind o p r} (jobs : List (Job G))
      (hs : jobs = [] ∨ ∃ j o', jobs = [.fill j o']) :
      Rule busy w (.unwinding p r) (.taskEnded l slot kind o) [] w (.going .nothing)
        (jobs ++ [.taskPanicked l slot p])
  | taskFinished {l slot a} :
      Rule busy w (.going a) (.taskFinished l slot) [] (w.finishTask l slot) (.going .nothing) []
  | taskPanicked {l slot p a} :
      Rule busy w (.going a) (.taskPanicked l slot p) [] (w.removeTask l slot) (.going .nothing)
        [.report l p.toError]
  | restore {previous mode} :
      Rule busy w mode (.restore previous) [] (w.enter previous) mode []
  | leave {l w' mode mode'} (hw : w.Agrees w') (ht : w'.thread = w.thread)
      (hm : ∀ p r, mode' = .unwinding p r → mode = .unwinding p r) :
      Rule busy w mode (.leave l) [] w' mode' []
  /-- A panic takes away what it must not, or a future is to be started on no loop. Neither
  happens in a run. -/
  | astray {mode job η w' mode' jobs}
      (h : job.isFragile = true ∧ (∃ p r, mode = .unwinding p r) ∨
        w.thread.current = none ∧ ∃ l k f g rest, job = .turn l k f (.call (.start g) :: rest)) :
      Rule busy w mode job η w' mode' jobs

namespace Machine

/-- With `job` taken off the stack, on which work goes on in `mode`, the machine `m` becomes `m'` by
a rule. -/
def Follows (m : Machine G) (mode : Mode G) (job : Job G) (η : List (Happening G))
    (m' : Machine G) : Prop :=
  ∃ jobs, m'.jobs = jobs ++ m.jobs ∧ m'.threads.parked = m.threads.parked ∧
    Rule (fun l => m.isRunning l = true) m.world mode job η m'.world m'.mode jobs

/-- The running thread does what a rule says. -/
def Acts (m : Machine G) (η : List (Happening G)) (m' : Machine G) : Prop :=
  ∃ job rest, m.jobs = job :: rest ∧ Follows { m with jobs := rest } m.mode job η m'

end Machine

end RunLoop
