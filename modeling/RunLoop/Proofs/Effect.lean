import RunLoop.Proofs.Stack

/-!
# What a step does to the work of the loops

Of all jobs only some are work of the loops: duties. User code, and what is dropped, told or
reported, comes and goes without a trace. `Effect` is what is left of the rules when nothing but the
duties is looked at; their order, and who carries them out, does not matter any more.

* `Job.isDuty` picks the duties.
* `Effect` lists what a step does to them and to the world.
* `Rule.effect` finds the effect of a rule.
-/

namespace RunLoop

variable {G : Guest}

/-! ## Duties -/

namespace Job

/-- Work of the loops. -/
def isDuty : Job G → Bool
  | wake _ | notify _ | handOff _ _ | mainPolled _ _ _ | turn _ _ _ _ | leave _ | taskPolled _ _ _
  | taskEnded _ _ _ _ | taskFinished _ _ | taskPanicked _ _ _ => true
  | _ => false

/-- The main future of loop `l` is being driven. -/
def isDrive (l : LoopId) : Job G → Bool
  | mainPolled l' _ _ | turn l' _ _ _ => l' = l
  | _ => false

/-- A task of loop `l` is being polled, or ends. -/
def isTask (l : LoopId) : Job G → Bool
  | taskPolled l' _ _ | taskEnded l' _ _ _ | taskFinished l' _ | taskPanicked l' _ _ => l' = l
  | _ => false

end Job

/-- None of the duties is about a run of loop `l`. -/
def Free (l : LoopId) (duties : List (Job G)) : Prop :=
  ∀ job ∈ duties, job.isLeave l = false ∧ job.isDrive l = false ∧ job.isTask l = false

/-- Loop `l` is running, and no further duty is about its main future or a task of it. -/
def Alone (l : LoopId) (duties : List (Job G)) : Prop :=
  .leave l ∈ duties ∧ ∀ job ∈ duties, job.isDrive l = false ∧ job.isTask l = false

/-- Loop `l` is running, and no further duty is about a task of it. -/
def Polling (l : LoopId) (duties : List (Job G)) : Prop :=
  .leave l ∈ duties ∧ ∀ job ∈ duties, job.isTask l = false

/-- A loop with an entry at the back of its queue. -/
def World.enqueue (w : World G) (l : LoopId) (e : Entry G) : World G :=
  w.modifyQueue l (fun q => ⟨q.entries ++ [e], q.closed⟩)

/-- `Effect w others before η w' after`: next to `others`, the duties `before` give way to the
duties `after`, the world `w` becomes `w'`, and `η` happens. Effects are named like the
rules that they come from. -/
inductive Effect (w : World G) (others : List (Job G)) :
    List (Job G) → List (Happening G) → World G → List (Job G) → Prop where
  | nothing : Effect w others [] [] w []
  | build (c : Config G) : Effect w others [] [.built ⟨w.loops.size⟩] (w.build c).1 []
  | close {l} (hf : Free l others) (hc : w.isClosed l = false) :
      Effect w others [] [.closed l] (w.modifyQueue l (·.close.1)) []
  | drain {l} : Effect w others [] [] (w.modifyTasks l (·.drain.1)) []
  | enter {l} (hf : Free l others) (hc : w.isClosed l = false) :
      Effect w others [] [.entered l ⟨w.wakers.size⟩, .polled ⟨w.wakers.size⟩]
        (w.newWaker l .main).1 [.mainPolled l ⟨w.wakers.size⟩ [], .leave l]
  | leave {l} : Effect w others [.leave l] [] w []
  | spawn {l kind f joins} (hj : joins = w.joins ∨ joins = w.joins.push .new) :
      Effect w others [] [] ({ w with joins }.addTask l kind f).1 [.wake ⟨w.wakers.size⟩]
  | newSource (l : LoopId) : Effect w others [] [] (w.newSource l).1 []
  | claim {s o x} (hx : w.source? s = some x) (h : x.settled = false) :
      Effect w others [] [.claimed s o] (w.claim s).1 [.handOff x.loop (.settle x.cell o)]
  | refuse {s o x} (hx : w.source? s = some x) (h : x.settled = true) :
      Effect w others [] [.refused s o] w []
  | askWake {k} : Effect w others [] [] w [.wake k]
  | awaitCell {c k ws} (hx : w.cell? c = some (.pending ws)) :
      Effect w others [] [.awaited c k] (w.setCell c (.pending (Cell.enlist ws k))) []
  | awaitJoin {j k x} (hx : w.join? j = some ⟨none, x⟩) :
      Effect w others [] [.joining j k] (w.setJoin j ⟨none, some k⟩) []
  | takeJoin {j o x} (hx : w.join? j = some ⟨some o, x⟩) :
      Effect w others [] [] (w.setJoin j ⟨none, x⟩) []
  /-- A loop accepts a callback that is not the hand-off of a transition. -/
  | submit {l c} (hc : ∀ cell o, c ≠ .settle cell o) (ho : w.isClosed l = false) :
      Effect w others [] [.accepted l (.call c)] (w.enqueue l (.call c)) []
  /-- A loop accepts the hand-off of a transition. -/
  | handOver {l c} (ho : w.isClosed l = false) :
      Effect w others [.handOff l c] [.accepted l (.call c)] (w.enqueue l (.call c)) []
  | handBack {l c} (ho : w.isClosed l = true) : Effect w others [.handOff l c] [] w []
  | mark {k x} (hx : w.waker? k = some x) (h : x.notified = false) :
      Effect w others [.wake k] [.woken k] (w.mark k).1 [.notify k]
  | marked {k x} (hx : w.waker? k = some x) (h : x.notified = true) :
      Effect w others [.wake k] [.woken k] (w.mark k).1 []
  | wakeNobody {k} (hx : w.waker? k = none) : Effect w others [.wake k] [] w []
  | notify {k x} (hx : w.waker? k = some x) (ho : w.isClosed x.loop = false) :
      Effect w others [.notify k] [.accepted x.loop x.target.entry]
        (w.enqueue x.loop x.target.entry) []
  | dropWake {k} (hc : ∀ x, w.waker? k = some x → w.isClosed x.loop = true) :
      Effect w others [.notify k] [] w []
  | fill {j o x} (hx : w.join? j = some x) :
      Effect w others [] [.filled j o] (w.setJoin j ⟨some o, none⟩) (x.waiter.toList.map .wake)
  | take {l k f} (ha : Alone l others) :
      Effect w others [.turn l k f []] [] (w.modifyQueue l (·.takeBatch.1))
        [.turn l k f (w.queued l)]
  | processMain {l k f rest} (ha : Alone l others) :
      Effect w others [.turn l k f (.main :: rest)] [.processed l .main, .polled k] (w.rearm k)
        [.mainPolled l k rest]
  | processNobody {l k f slot rest} (ha : Alone l others) (h : w.takeWork l slot = none) :
      Effect w others [.turn l k f (.wake slot :: rest)] [.processed l (.wake slot)] w
        [.turn l k f rest]
  | processTask {l k f slot rest k' work} (ha : Alone l others)
      (h : w.task? l slot = some ⟨k', some work⟩) :
      Effect w others [.turn l k f (.wake slot :: rest)] [.processed l (.wake slot), .polled k']
        ((w.modifyTasks l (·.modify slot (fun t => { t with work := none }))).rearm k')
        [.taskPolled l slot work.kind, .turn l k f rest]
  | processCall {l k f c rest} (ha : Alone l others) :
      Effect w others [.turn l k f (.call (.own c) :: rest)] [.processed l (.call (.own c))] w
        [.turn l k f rest]
  | processSettle {l k f c o rest ws} (ha : Alone l others) (hx : w.cell? c = some (.pending ws)) :
      Effect w others [.turn l k f (.call (.settle c o) :: rest)]
        [.processed l (.call (.settle c o)), .settled c o] (w.setCell c (.settled o))
        (ws.map .wake ++ [.turn l k f rest])
  | processSettled {l k f c o rest} (ha : Alone l others) (h : w.settle? c o = none) :
      Effect w others [.turn l k f (.call (.settle c o) :: rest)]
        [.processed l (.call (.settle c o))] w [.turn l k f rest]
  | processStart {l k f g g' rest} (ha : Alone l others) :
      Effect w others [.turn l k f (.call (.start g) :: rest)] [.processed l (.call (.start g))]
        (w.addTask l .detached g').1 [.wake ⟨w.wakers.size⟩, .turn l k f rest]
  | mainPending {l k batch f} (ha : Alone l others) :
      Effect w others [.mainPolled l k batch] [] w [.turn l k f batch]
  | mainReady {l k batch} (ha : Alone l others) :
      Effect w others [.mainPolled l k batch] [.ready l] (w.modifyQueue l (·.putBack batch)) []
  /-- The main future panicked; the rest of the batch is dropped. -/
  | mainPanicked {l k batch} (ha : Alone l others) :
      Effect w others [.mainPolled l k batch] [.panicked l batch] w []
  | taskPending {l slot kind work} (hp : Polling l others) :
      Effect w others [.taskPolled l slot kind] []
        (w.modifyTasks l (·.modify slot (fun t => { t with work := some work }))) []
  | taskEnding {l slot kind o} (hp : Polling l others) :
      Effect w others [.taskPolled l slot kind] [] w [.taskEnded l slot kind o]
  | taskEnded {l slot kind o} (hp : Polling l others) :
      Effect w others [.taskEnded l slot kind o] [] w [.taskFinished l slot]
  | taskEndPanicked {l slot kind o p} (hp : Polling l others) :
      Effect w others [.taskEnded l slot kind o] [] w [.taskPanicked l slot p]
  | taskFinished {l slot} (hp : Polling l others) :
      Effect w others [.taskFinished l slot] [] (w.removeTask l slot) []
  | taskPanicked {l slot p} (hp : Polling l others) :
      Effect w others [.taskPanicked l slot p] [] (w.removeTask l slot) []

/-! ## The effect of a rule -/

section

variable {busy : LoopId → Prop} {w w' : World G} {mode mode' : Mode G} {job : Job G}
  {η : List (Happening G)} {jobs rest others : List (Job G)}

theorem Job.isDuty_of_isPlain (h : job.isPlain = true) : job.isDuty = false := by
  cases job <;> first | rfl | cases h

theorem filter_isDuty_of_isPlain (h : ∀ i ∈ jobs, i.isPlain = true) :
    jobs.filter Job.isDuty = [] := by
  rw [List.filter_eq_nil_iff]
  intro i hi
  simp [Job.isDuty_of_isPlain (h i hi)]

@[simp] theorem filter_isDuty_map_wake (ws : List WakerId) :
    (ws.map (Job.wake (G := G))).filter Job.isDuty = ws.map .wake := by
  rw [List.filter_eq_self]
  simp [Job.isDuty]

/-- Every rule has an effect, up to the journal and the thread that runs. -/
theorem Rule.effect (rule : Rule busy w mode job η w' mode' jobs)
    (h : Orderly w.thread.current mode (job :: rest)) (hfree : ∀ l, ¬busy l → Free l others)
    (halone : ∀ l, job.isDrive l = true → Alone l others)
    (hpoll : ∀ l, job.isTask l = true → Polling l others) :
    ∃ w'', Effect w others ([job].filter Job.isDuty) η w'' (jobs.filter Job.isDuty) ∧
      w''.Agrees w' := by
  cases rule with
  | astray ha => exact absurd ha h.astray
  | plain hp _ hj hw =>
    simp only [List.filter, Job.isDuty_of_isPlain hp, filter_isDuty_of_isPlain hj]
    exact ⟨_, .nothing, hw⟩
  | ended hp hw | caught hp hw =>
    simp only [List.filter, Job.isDuty_of_isPlain hp]
    exact ⟨_, .nothing, hw⟩
  | past hp =>
    simp only [List.filter, Job.isDuty_of_isPlain hp]
    exact ⟨_, .nothing, .refl _⟩
  | called | calledPanicked | report | reported | restore =>
    exact ⟨_, .nothing, ⟨rfl, rfl, rfl, rfl, rfl⟩⟩
  | reportedPanicked | unheard => exact ⟨_, .nothing, World.agrees_emit _ _⟩
  | again hj => obtain ⟨work, rfl⟩ | ⟨j, o, rfl⟩ := hj <;> exact ⟨_, .nothing, .refl _⟩
  | fillNothing => exact ⟨_, .nothing, .refl _⟩
  | abandon hj =>
    have hd : jobs.filter Job.isDuty = [] := by
      rw [List.filter_eq_nil_iff]
      intro i hi
      rcases hj i hi with hi | ⟨j, rfl⟩
      · simp [Job.isDuty_of_isPlain hi]
      · simp [Job.isDuty]
    rw [hd]
    exact ⟨_, .nothing, .refl _⟩
  | build c hj =>
    rw [filter_isDuty_of_isPlain hj]
    exact ⟨_, .build c, .refl _⟩
  | @close l _ hb hc =>
    refine ⟨_, ?_, .refl _⟩
    rw [World.closeQueue_eq]
    have hd : ((w.queued l).map Job.discard ++
        [Job.drain l (w.queued l).length]).filter Job.isDuty = [] := by
      simp [List.filter_eq_nil_iff, Job.isDuty]
    simp only [hd]
    exact .close (hfree _ hb) hc
  | drain hj =>
    refine ⟨_, ?_, .refl _⟩
    have hd : ∀ works : List (Work G.Coroutine),
        (works.map Job.abandon).filter Job.isDuty = [] := by
      simp [List.filter_eq_nil_iff, Job.isDuty]
    rw [List.filter_append, filter_isDuty_of_isPlain hj, hd, World.drainTasks_eq]
    exact .drain
  | enter hb hc _ => exact ⟨_, .enter (hfree _ hb) hc, ⟨rfl, rfl, rfl, rfl, rfl⟩⟩
  | leave hw => exact ⟨_, .leave, hw⟩
  | @spawn _ _ _ _ jobs _ hj =>
    have hd : (Job.wake ⟨w.wakers.size⟩ :: jobs).filter Job.isDuty = [.wake ⟨w.wakers.size⟩] := by
      rw [List.filter_cons_of_pos rfl, filter_isDuty_of_isPlain hj]
    rw [hd]
    exact ⟨_, .spawn (.inr rfl), .refl _⟩
  | @start _ _ _ _ jobs _ hj =>
    have hd : (Job.wake ⟨w.wakers.size⟩ :: jobs).filter Job.isDuty = [.wake ⟨w.wakers.size⟩] := by
      rw [List.filter_cons_of_pos rfl, filter_isDuty_of_isPlain hj]
    rw [hd]
    exact ⟨_, .spawn (.inl rfl), .refl _⟩
  | newSource l => exact ⟨_, .newSource l, .refl _⟩
  | claim hx hs => exact ⟨_, .claim hx hs, .refl _⟩
  | refuse hx hs => exact ⟨_, .refuse hx hs, World.agrees_emit _ _⟩
  | askWake => exact ⟨_, .askWake, .refl _⟩
  | awaitCell hx => exact ⟨_, .awaitCell hx, .refl _⟩
  | awaitJoin hx => exact ⟨_, .awaitJoin hx, .refl _⟩
  | takeJoin hx => exact ⟨_, .takeJoin hx, .refl _⟩
  | submit hc hp =>
    obtain ⟨ho, rfl⟩ := World.push?_eq_some_iff.mp hp
    exact ⟨_, .submit hc ho, .refl _⟩
  | handOver hp =>
    obtain ⟨ho, rfl⟩ := World.push?_eq_some_iff.mp hp
    exact ⟨_, .handOver ho, .refl _⟩
  | handBack hp =>
    refine ⟨_, .handBack ?_, .refl _⟩
    rw [World.isClosed_eq_isNone_push?, hp]
    rfl
  | mark hx hn => exact ⟨_, .mark hx hn, .refl _⟩
  | marked hx hn => exact ⟨_, .marked hx hn, .refl _⟩
  | wakeNobody hx => exact ⟨_, .wakeNobody hx, .refl _⟩
  | notify hx hp =>
    obtain ⟨ho, rfl⟩ := World.push?_eq_some_iff.mp hp
    exact ⟨_, .notify hx ho, .refl _⟩
  | dropWake hc hw => exact ⟨_, .dropWake hc, hw⟩
  | fill hx =>
    rw [filter_isDuty_map_wake]
    exact ⟨_, .fill hx, .refl _⟩
  | take =>
    rw [World.takeBatch_eq]
    exact ⟨_, .take (halone _ (by simp [Job.isDrive])), .refl _⟩
  | processMain => exact ⟨_, .processMain (halone _ (by simp [Job.isDrive])), .refl _⟩
  | processNobody ht => exact ⟨_, .processNobody (halone _ (by simp [Job.isDrive])) ht, .refl _⟩
  | processTask ht =>
    obtain ⟨htask, rfl⟩ := World.takeWork_eq_some_iff.mp ht
    exact ⟨_, .processTask (halone _ (by simp [Job.isDrive])) htask, .refl _⟩
  | processCall => exact ⟨_, .processCall (halone _ (by simp [Job.isDrive])), .refl _⟩
  | processSettle hx =>
    rw [List.filter_append, filter_isDuty_map_wake]
    exact ⟨_, .processSettle (halone _ (by simp [Job.isDrive])) hx, .refl _⟩
  | processSettled hx =>
    exact ⟨_, .processSettled (halone _ (by simp [Job.isDrive])) hx, .refl _⟩
  | processStart hl =>
    obtain ⟨rest, rfl⟩ := h.stacked.1
    have hcur := h.current
    rw [hl] at hcur
    cases hcur
    exact ⟨_, .processStart (halone _ (by simp [Job.isDrive])), .refl _⟩
  | mainPending => exact ⟨_, .mainPending (halone _ (by simp [Job.isDrive])), .refl _⟩
  | mainReady => exact ⟨_, .mainReady (halone _ (by simp [Job.isDrive])), .refl _⟩
  | @mainPanicked _ _ batch p r =>
    have hd : (batch.map Job.discard ++ r.toList.map Job.drop ++ [Job.propagate p]).filter
        Job.isDuty = [] := by
      simp [List.filter_eq_nil_iff, Job.isDuty]
    rw [hd]
    exact ⟨_, .mainPanicked (halone _ (by simp [Job.isDrive])), .refl _⟩
  | taskPending => exact ⟨_, .taskPending (hpoll _ (by simp [Job.isTask])), .refl _⟩
  | taskEnding _ hj =>
    rw [List.filter_append, filter_isDuty_of_isPlain hj]
    exact ⟨_, .taskEnding (hpoll _ (by simp [Job.isTask])), .refl _⟩
  | taskEnded _ hj =>
    obtain ⟨j, o', rfl, -⟩ | ⟨-, ⟨v, -, rfl⟩ | ⟨e, -, rfl⟩⟩ := hj <;>
      exact ⟨_, .taskEnded (hpoll _ (by simp [Job.isTask])), .refl _⟩
  | taskEndPanicked _ hj =>
    obtain rfl | ⟨j, o', rfl⟩ := hj <;>
      exact ⟨_, .taskEndPanicked (hpoll _ (by simp [Job.isTask])), .refl _⟩
  | taskFinished =>
    exact ⟨_, .taskFinished (hpoll _ (by simp [Job.isTask])), ⟨rfl, rfl, rfl, rfl, rfl⟩⟩
  | taskPanicked => exact ⟨_, .taskPanicked (hpoll _ (by simp [Job.isTask])), .refl _⟩

end

end RunLoop
