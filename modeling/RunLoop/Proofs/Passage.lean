import RunLoop.Proofs.Milestones

/-!
# What a step does to tasks

Of all that a step does, only little concerns the task tables and the join slots: a `Passage`. What
is done about a task is under way on some stack, as an errand; everything else that stands there
does not matter here. Every run leaves a `Chronicle`, along which the invariants of tasks and join
slots are proved.

* `Job.isErrand` picks the jobs that carry a task or its outcome.
* `Passage` lists what a step does to them, to the tables and to the join slots.
* `Machine.Walked.chronicle` finds the chronicle of a run.
-/

namespace RunLoop

variable {G : Guest}

namespace Job

/-- Something is under way that a task is waiting for, or that waits for its outcome. -/
def isErrand : Job G → Bool
  | taskPolled _ _ _ | taskEnded _ _ _ _ | taskFinished _ _ | taskPanicked _ _ _ | fill _ _
  | abandon _ | drain _ _ => true
  | _ => false

/-- Jobs that, performed in order, may do something to a task or to a join slot. -/
def tells : Job G → Bool
  | serve q => q.touchesTasks
  | turn _ _ _ (.wake _ :: _) | turn _ _ _ (.call (.start _) :: _) => true
  | job => job.isErrand

theorem isErrand_of_isPlain {job : Job G} (h : job.isPlain = true) : job.isErrand = false := by
  cases job <;> first | rfl | cases h

theorem isErrand_of_isTask {job : Job G} {l : LoopId} (h : job.isTask l = true) :
    job.isErrand = true := by
  cases job <;> first | rfl | cases h

theorem isErrand_of_tells {job : Job G} (h : job.tells = false) : job.isErrand = false := by
  cases job with
  | serve | turn => rfl
  | _ => exact h

end Job

theorem filter_isErrand_of_isPlain {jobs : List (Job G)} (h : ∀ i ∈ jobs, i.isPlain = true) :
    jobs.filter Job.isErrand = [] := by
  rw [List.filter_eq_nil_iff]
  intro i hi
  simp [Job.isErrand_of_isPlain (h i hi)]

@[simp] theorem filter_isErrand_map_wake (ws : List WakerId) :
    (ws.map (Job.wake (G := G))).filter Job.isErrand = [] := by
  simp [List.filter_eq_nil_iff, Job.isErrand]

@[simp] theorem filter_isErrand_map_discard (es : List (Entry G)) :
    (es.map Job.discard).filter Job.isErrand = [] := by
  simp [List.filter_eq_nil_iff, Job.isErrand]

@[simp] theorem filter_isErrand_map_drop (fs : List (Future G.Coroutine)) :
    (fs.map Job.drop).filter Job.isErrand = [] := by
  simp [List.filter_eq_nil_iff, Job.isErrand]

@[simp] theorem filter_isErrand_map_abandon (works : List (Work G.Coroutine)) :
    (works.map Job.abandon).filter Job.isErrand = works.map .abandon := by
  simp [List.filter_eq_self, Job.isErrand]

/-- Two worlds have the same tasks and join slots; there may be more wakers. -/
structure World.Keeps (w w' : World G) : Prop where
  tasks : ∀ l, w'.tasks? l = w.tasks? l
  joins : w'.joins = w.joins
  wakers : w.wakers.size ≤ w'.wakers.size

namespace World

variable {w w' : World G}

theorem Keeps.refl (w : World G) : w.Keeps w :=
  ⟨fun _ => rfl, rfl, Nat.le_refl _⟩

theorem Agrees.keeps (h : w.Agrees w') : w.Keeps w' :=
  ⟨fun l => by rw [tasks?, loop?, h.loops]; rfl, h.joins, by rw [h.wakers]⟩

theorem keeps_modifyQueue (w : World G) (l : LoopId)
    (f : Queue (Entry G) → Queue (Entry G)) : w.Keeps (w.modifyQueue l f) :=
  ⟨fun _ => tasks?_modifyQueue f, rfl, Nat.le_refl _⟩

theorem keeps_mark (w : World G) (k : WakerId) : w.Keeps (w.mark k).1 :=
  ⟨fun _ => rfl, rfl, by simp [mark]⟩

theorem keeps_rearm (w : World G) (k : WakerId) : w.Keeps (w.rearm k) :=
  ⟨fun _ => rfl, rfl, by simp [rearm]⟩

theorem task?_of_keeps (h : w.Keeps w') (l : LoopId) (slot : Nat) :
    w'.task? l slot = w.task? l slot := by
  rw [task?_eq, task?_eq, h.tasks]

theorem join?_of_keeps (h : w.Keeps w') (j : JoinId) : w'.join? j = w.join? j := by
  rw [join?, join?, h.joins]

end World

/-- `Passage w others before σ w' after`: next to `others`, the errands `before` give way to the
errands `after`, the world `w` becomes `w'`, and the milestones `σ` are reached. -/
inductive Passage (w : World G) (others : List (Job G)) :
    List (Job G) → List Milestone → World G → List (Job G) → Prop where
  | nothing : Passage w others [] [] w []
  | build (c : Config G) : Passage w others [] [] (w.build c).1 []
  | spawn {l kind f joins} (hl : ∃ s, w.tasks? l = some s)
      (hj : kind = .detached ∧ joins = w.joins ∨
        kind = .joined ⟨w.joins.size⟩ ∧ joins = w.joins.push .new) :
      Passage w others [] [.spawned l (w.nextSlot l) ⟨w.wakers.size⟩ kind]
        ({ w with joins }.addTask l kind f).1 []
  /-- A poll of a task begins: its work is taken out of the table. -/
  | begin {l slot k work} (hn : ∀ i ∈ others, i.isTask l = false)
      (ht : w.task? l slot = some ⟨k, some work⟩) :
      Passage w others [] [.begun l slot k]
        (w.modifyTasks l (·.modify slot (fun t => { t with work := none })))
        [.taskPolled l slot work.kind]
  /-- The task is pending: its work goes back into the table. -/
  | pending {l slot kind f} (hn : ∀ i ∈ others, i.isTask l = false) :
      Passage w others [.taskPolled l slot kind] []
        (w.modifyTasks l (·.modify slot (fun t => { t with work := some ⟨kind, true, f⟩ }))) []
  /-- The future is ready, or panicked: it is dropped next. -/
  | ending {l slot kind o} (hn : ∀ i ∈ others, i.isTask l = false) :
      Passage w others [.taskPolled l slot kind] [.ended l slot kind o] w [.taskEnded l slot kind o]
  | handing {l slot kind o} (hn : ∀ i ∈ others, i.isTask l = false) :
      Passage w others [.taskEnded l slot kind o] [] w
        (kind.slots.map (.fill · o) ++ [.taskFinished l slot])
  /-- The future panicked when it was dropped. -/
  | spoiling {l slot kind o p} (hn : ∀ i ∈ others, i.isTask l = false) :
      Passage w others [.taskEnded l slot kind o] [.spoilt l slot kind] w
        (kind.slots.map (.fill · (.error .cancelled)) ++ [.taskPanicked l slot p])
  | leaving {job l slot} (hn : ∀ i ∈ others, i.isTask l = false)
      (hj : job = .taskFinished l slot ∨ ∃ p, job = .taskPanicked l slot p) :
      Passage w others [job] (w.toldOfEnd l slot) (w.removeTask l slot) []
  | closing {l n} : Passage w others [] [] w [.drain l n]
  /-- The tasks of a loop that was dropped are taken out of its table. -/
  | draining {l n} (hn : ∀ i ∈ others, i.isTask l = false) :
      Passage w others [.drain l n] (w.toldOfDrop l) (w.modifyTasks l (·.drain.1))
        (((w.tenants l).filterMap (·.2.work)).map .abandon)
  | abandoning {work} :
      Passage w others [.abandon work] [] w (work.kind.slots.map (.fill · (.error .cancelled)))
  /-- What a panic must do before it goes on. -/
  | again {job} : Passage w others [job] [] w [job]
  | fill {j o x} (hx : w.join? j = some x) :
      Passage w others [.fill j o] [.filled j o] (w.setJoin j ⟨some o, none⟩) []
  | fillNothing {j o} (hx : w.join? j = none) : Passage w others [.fill j o] [] w []
  | awaitJoin {j k x} (hx : w.join? j = some ⟨none, x⟩) :
      Passage w others [] [.awaited j k] (w.setJoin j ⟨none, some k⟩) []
  | takeJoin {j o x} (hx : w.join? j = some ⟨some o, x⟩) :
      Passage w others [] [.taken j o] (w.setJoin j ⟨none, x⟩) []

/-! ## Rules that concern no task -/

/-- What is neither an errand nor asks for one does nothing to tasks, apart from a new loop. -/
theorem Rule.passage {busy : LoopId → Prop} {w w' : World G} {mode mode' : Mode G} {job : Job G}
    {η : List (Happening G)} {jobs rest others : List (Job G)}
    (rule : Rule busy w mode job η w' mode' jobs)
    (ho : Orderly w.thread.current mode (job :: rest)) (he : job.isErrand = false)
    (ht : ∀ a, mode = .going a → job.tells = false) :
    ∃ w'', Passage w others ([job].filter Job.isErrand) [] w'' (jobs.filter Job.isErrand) ∧
      w''.Keeps w' := by
  have hbefore : [job].filter Job.isErrand = [] := by simp [he]
  rw [hbefore]
  have quiet : jobs.filter Job.isErrand = [] → w.Keeps w' →
      ∃ w'', Passage w others [] [] w'' (jobs.filter Job.isErrand) ∧ w''.Keeps w' := by
    intro hjobs hw
    rw [hjobs]
    exact ⟨w, .nothing, hw⟩
  cases rule with
  | astray ha => exact absurd ha ho.astray
  | plain _ _ hj hw => exact quiet (filter_isErrand_of_isPlain hj) hw.keeps
  | ended _ hw | caught _ hw | leave hw | dropWake _ hw => exact quiet rfl hw.keeps
  | build c hj =>
    rw [filter_isErrand_of_isPlain hj]
    exact ⟨_, .build c, .refl _⟩
  | spawn _ _ hq | start _ _ hq | awaitJoin _ hq | takeJoin _ hq =>
    have := ht _ rfl
    simp [Job.tells, hq] at this
  | close | processNobody | processTask | processStart =>
    have := ht _ rfl
    simp [Job.tells, Request.touchesTasks] at this
  | submit _ hp | handOver hp | notify _ hp =>
    obtain ⟨_, rfl⟩ := World.push?_eq_some_iff.mp hp
    exact quiet rfl (World.keeps_modifyQueue _ _ _)
  | take =>
    refine quiet rfl ?_
    rw [World.takeBatch_eq]
    exact World.keeps_modifyQueue w _ (·.takeBatch.1)
  | @mainReady l _ batch => exact quiet rfl (World.keeps_modifyQueue w l (·.putBack batch))
  | mark | marked => exact quiet rfl (World.keeps_mark _ _)
  | processMain => exact quiet rfl (World.keeps_rearm _ _)
  | enter => exact quiet rfl ⟨fun _ => rfl, rfl, by simp [World.newWaker, World.enter, World.emit,
      World.write]⟩
  | reportedPanicked | unheard | refuse => exact quiet rfl (World.agrees_emit _ _).keeps
  | processSettle | mainPanicked =>
    refine quiet ?_ ⟨fun _ => rfl, rfl, Nat.le_refl _⟩
    simp [List.filter_append, Job.isErrand]
  | again hj => obtain ⟨work, rfl⟩ | ⟨j, o, rfl⟩ := hj <;> cases he
  | fill | fillNothing | abandon | drain | taskPending | taskEnding | taskEnded | taskEndPanicked
  | taskFinished | taskPanicked => cases he
  | _ => exact quiet rfl ⟨fun _ => rfl, rfl, Nat.le_refl _⟩

namespace Machine

variable {code : G.Code} {m m' : Machine G} {others : List (Job G)} {a : Answer G} {l : LoopId}

/-! ## Jobs that concern a task -/

/-- With `job` taken off the stack, the machine `m` becomes `m'` by a passage that reaches `σ`. -/
def Passes (m : Machine G) (others : List (Job G)) (job : Job G) (σ : List Milestone)
    (m' : Machine G) : Prop :=
  ∃ jobs w, m'.jobs = jobs ++ m.jobs ∧ m'.threads.parked = m.threads.parked ∧
    Passage m.world others ([job].filter Job.isErrand) σ w (jobs.filter Job.isErrand) ∧
    w.Keeps m'.world

theorem read_passes (q : Request G) (j : JoinId) (k : WakerId) (b : Answer G) :
    m.Passes others (.serve q) (m.world.toldOfRead j k)
      ((m.set (m.world.pollJoin j k).1).go b) := by
  cases hj : m.world.join? j with
  | none =>
    simp only [World.toldOfRead, World.pollJoin, hj]
    exact ⟨[], _, rfl, rfl, .nothing, .refl _⟩
  | some x =>
    obtain ⟨o, waiter⟩ := x
    cases o with
    | none =>
      simp only [World.toldOfRead, World.pollJoin, hj]
      exact ⟨[], _, rfl, rfl, .awaitJoin hj, .refl _⟩
    | some o =>
      simp only [World.toldOfRead, World.pollJoin, hj]
      exact ⟨[], _, rfl, rfl, .takeJoin hj, .refl _⟩

theorem forward_passes (j : JoinId) (k : WakerId) :
    m.Passes others (.serve (.poll (.forwarding j) k)) (m.world.toldOfRead j k)
      (m.forward j k) := by
  unfold forward
  split
  · rename_i w o h
    have hread : m.Passes others _ _ _ := read_passes (.poll (.forwarding j) k) j k
      (.polled (.ready o.flatten .spent))
    rwa [h] at hread
  · rename_i w h
    have hread : m.Passes others _ _ _ := read_passes (.poll (.forwarding j) k) j k
      (.polled (.pending (.forwarding j)))
    rwa [h] at hread

/-- A request that has to do with tasks. -/
theorem serve_passes (hcur : ∀ l, m.world.thread.current = some l → ∃ s, m.world.tasks? l = some s)
    (q : Request G) (hq : q.touchesTasks = true) :
    m.Passes others (.serve q) (m.world.told a (.serve q)) (m.serve code q) := by
  cases q with
  | spawn f =>
    simp only [World.told, World.toldOfSpawn, serve, spawn, current]
    cases hl : m.world.thread.current with
    | none => exact ⟨_, _, rfl, rfl, .nothing, .refl _⟩
    | some l =>
      have hpass : Passage m.world others [] _ _ [] :=
        .spawn (f := f.map code.accept) (hcur l hl) (.inr ⟨rfl, rfl⟩)
      exact ⟨_, _, rfl, rfl, hpass, .refl _⟩
  | start f =>
    simp only [World.told, World.toldOfSpawn, serve, startTask, current]
    cases hl : m.world.thread.current with
    | none => exact ⟨_, _, rfl, rfl, .nothing, .refl _⟩
    | some l =>
      have hpass : Passage m.world others [] _ _ [] :=
        .spawn (f := f.map code.accept) (hcur l hl) (.inl ⟨rfl, rfl⟩)
      exact ⟨_, _, rfl, rfl, hpass, .refl _⟩
  | poll f k =>
    cases f with
    | nested inner =>
      simp only [World.told, World.toldOfSpawn, serve, poll, current]
      cases hl : m.world.thread.current with
      | none => exact ⟨_, _, rfl, rfl, .nothing, .refl _⟩
      | some l =>
        have hpass : Passage m.world others [] _ _ [] :=
          .spawn (f := inner.map code.accept) (hcur l hl) (.inr ⟨rfl, rfl⟩)
        exact ⟨_, _, rfl, rfl, hpass, .refl _⟩
    | forwarding j => exact forward_passes j k
    | own | spent => cases hq
  | pollJoin j k => exact read_passes _ j k _
  | close l =>
    simp only [World.told, serve, close]
    split
    · exact ⟨[], _, rfl, rfl, .nothing, .refl _⟩
    · refine ⟨_, m.world, rfl, rfl, ?_, ?_⟩
      · rw [List.filter_append, filter_isErrand_map_discard]
        exact .closing
      · rw [World.closeQueue_eq]
        exact World.keeps_modifyQueue m.world l (·.close.1)
  | _ => cases hq

/-- The turn of a task, or a future that is started by a turn. -/
theorem turn_passes (hcur : ∀ l, m.world.thread.current = some l → ∃ s, m.world.tasks? l = some s)
    {k : WakerId} {f : Future G.Coroutine} {batch : List (Entry G)}
    (hn : ∀ i ∈ others, i.isTask l = false)
    (hb : (Job.turn (G := G) l k f batch).tells = true) :
    m.Passes others (.turn l k f batch) (m.world.told a (.turn l k f batch))
      (m.turn code l k f batch) := by
  match batch, hb with
  | .wake slot :: rest, _ =>
    simp only [World.told, turn, process, pollTask]
    cases hw : m.world.takeWork l slot with
    | none =>
      have htold : m.world.toldOfPoll l slot = [] := by
        rcases ht : m.world.task? l slot with _ | ⟨k', _ | work⟩
        · simp only [World.toldOfPoll, ht]
        · simp only [World.toldOfPoll, ht]
        · exact absurd ht (World.takeWork_eq_none_iff.mp hw k' work)
      rw [htold]
      simp only [push, insert, go, hw]
      exact ⟨[.turn l k f rest], _, rfl, rfl, .nothing, .refl _⟩
    | some x =>
      obtain ⟨w', k', work⟩ := x
      obtain ⟨ht, rfl⟩ := World.takeWork_eq_some_iff.mp hw
      have htold : m.world.toldOfPoll l slot = [.begun l slot k'] := by
        simp only [World.toldOfPoll, ht]
      rw [htold]
      simp only [push, insert, go, hw]
      exact ⟨[.serve (.poll work.future k'), .taskPolled l slot work.kind, .turn l k f rest], _,
        rfl, rfl, .begin hn ht, World.keeps_rearm _ _⟩
  | .call (.start g) :: rest, _ =>
    simp only [World.told, World.toldOfSpawn, turn, process, call, current]
    cases hl : m.world.thread.current with
    | none =>
      have hl' : (m.push [.turn l k f rest]).world.thread.current = none := hl
      rw [hl']
      exact ⟨[.drop g, .turn l k f rest], _, rfl, rfl, .nothing, (World.agrees_emit _ _).keeps⟩
    | some l' =>
      have hl' : (m.push [.turn l k f rest]).world.thread.current = some l' := hl
      rw [hl']
      have hpass : Passage m.world others [] _ _ [] :=
        .spawn (f := g.map code.accept) (hcur l' hl) (.inl ⟨rfl, rfl⟩)
      exact ⟨[.wake ⟨m.world.wakers.size⟩, .turn l k f rest], _, rfl, rfl, hpass, .refl _⟩

theorem drain_passes (m : Machine G) (n : Nat) (hn : ∀ i ∈ others, i.isTask l = false)
    (rest : List (Job G)) (hrest : ∀ i ∈ rest, i.isPlain = true) (mode : Mode G) :
    m.Passes others (.drain l n) (m.world.toldOfDrop l)
      { m.set (m.world.drainTasks l).1 with
        mode
        jobs := ((m.world.drainTasks l).2.filterMap (·.work)).map .abandon ++ rest ++ m.jobs } := by
  refine ⟨((m.world.drainTasks l).2.filterMap (·.work)).map .abandon ++ rest, _, rfl, rfl, ?_,
    .refl _⟩
  rw [List.filter_append, filter_isErrand_of_isPlain hrest, filter_isErrand_map_abandon,
    List.append_nil, World.drainTasks_eq_tenants, List.filterMap_map]
  exact .draining hn

/-- An errand that is done in order. -/
theorem perform_passes (job : Job G) (he : job.isErrand = true) (hmode : m.mode = .going a)
    (hn : ∀ l, job.isTask l = true ∨ (∃ n, job = .drain l n) → ∀ i ∈ others, i.isTask l = false) :
    m.Passes others job (m.world.told a job) (m.perform code a job) := by
  cases job with
  | taskPolled l slot kind =>
    have hn := hn l (.inl (by simp [Job.isTask]))
    simp only [World.told, perform, taskPolled]
    cases a.toPoll with
    | pending f => exact ⟨[], _, rfl, rfl, .pending hn, .refl _⟩
    | ready r f =>
      exact ⟨[.drop f, .taskEnded l slot kind (.ok r)], _, rfl, rfl, .ending hn, .refl _⟩
  | taskEnded l slot kind o =>
    have hn := hn l (.inl (by simp [Job.isTask]))
    have hpass : Passage m.world others [.taskEnded l slot kind o] _ _ _ := .handing hn
    cases kind with
    | joined j => exact ⟨_, _, rfl, rfl, hpass, .refl _⟩
    | detached =>
      simp only [World.told, perform, taskEnded]
      split
      · exact ⟨_, _, rfl, rfl, hpass, .refl _⟩
      · exact ⟨_, _, rfl, rfl, hpass, .refl _⟩
  | taskFinished l slot =>
    have hn := hn l (.inl (by simp [Job.isTask]))
    exact ⟨[], _, rfl, rfl, .leaving hn (.inl rfl), (World.agrees_emit _ _).keeps⟩
  | taskPanicked l slot p =>
    have hn := hn l (.inl (by simp [Job.isTask]))
    exact ⟨[.report l p.toError], _, rfl, rfl, .leaving hn (.inr ⟨p, rfl⟩), .refl _⟩
  | fill j o =>
    obtain ⟨w, shared, threads, mode, jobs⟩ := m
    simp only [World.told, perform, fill, World.fill]
    cases hj : w.join? j with
    | none => exact ⟨[], _, rfl, rfl, .fillNothing hj, .refl _⟩
    | some x =>
      refine ⟨x.waiter.toList.map .wake, _, rfl, rfl, ?_, .refl _⟩
      rw [filter_isErrand_map_wake]
      exact .fill hj
  | abandon work =>
    have hpass : Passage m.world others [.abandon work] _ _ _ := .abandoning
    obtain ⟨kind, started, f⟩ := work
    cases kind with
    | detached => exact ⟨_, _, rfl, rfl, hpass, .refl _⟩
    | joined j => cases started <;> exact ⟨_, _, rfl, rfl, hpass, .refl _⟩
  | drain l n =>
    exact m.drain_passes n (hn l (.inr ⟨n, rfl⟩))
      [.emit (.closed (m.world.loopName l) (m.world.drainTasks l).2.length n)]
      (by simp [Job.isPlain]) (.going .nothing)
  | _ => cases he

/-- An errand that a panic takes off the stack. -/
theorem unwind_passes (job : Job G) (he : job.isErrand = true) {p : Payload}
    {r : Option (Future G.Coroutine)} (hf : job.isFragile = false)
    (hn : ∀ l, job.isTask l = true ∨ (∃ n, job = .drain l n) → ∀ i ∈ others, i.isTask l = false) :
    m.Passes others job (m.world.toldOfPanic p job) (m.unwind code p r job) := by
  cases job with
  | taskPolled l slot kind =>
    have hn := hn l (.inl (by simp [Job.isTask]))
    refine ⟨r.toList.map .drop ++ [.taskEnded l slot kind (.error p.toError)], _, rfl, rfl, ?_,
      .refl _⟩
    rw [List.filter_append, filter_isErrand_map_drop]
    exact .ending hn
  | taskEnded l slot kind o =>
    have hn := hn l (.inl (by simp [Job.isTask]))
    have hpass : Passage m.world others [.taskEnded l slot kind o] _ _ _ := .spoiling (p := p) hn
    cases kind <;> exact ⟨_, _, rfl, rfl, hpass, .refl _⟩
  | fill j o => exact ⟨[.fill j o, .propagate p], _, rfl, rfl, .again, .refl _⟩
  | abandon work => exact ⟨[.abandon work, .propagate p], _, rfl, rfl, .again, .refl _⟩
  | drain l n =>
    exact m.drain_passes n (hn l (.inr ⟨n, rfl⟩)) [.propagate p] (by simp [Job.isPlain])
      (.going .nothing)
  | taskFinished | taskPanicked => cases hf
  | _ => cases he

end Machine

end RunLoop
