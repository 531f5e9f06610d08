import RunLoop.Proofs.Lives

/-!
# Failures that nobody awaits

A started task that fails and a callback that panics have nobody who waits for them: their loop
reports them to its handler. A report comes either from the task, when its outcome is handed over,
or from the loop, when a panic came out of the poll; here both are counted against what became of
the tasks and callbacks. Nothing is assumed of the handler: it may panic, and it may hand further
work to the loop. What is assumed of panics is what is said of `Payload`: where one is caught, what
it carried is given up without a trace. A payload whose destructor panics would get out of a report,
and the failure be reported once more.

* `Ending` is what became of a task or callback, `Ending.failure?` what is to be reported of it.
* `Tends` lists the ways in which what a loop has under way is opened, goes on and is closed.
* `Sound.underWay_of_drive`: when a loop goes on with its batch, nothing of it is under way.
* `Walked.account`: what came in was closed, or is still under way.
* `Machine.failures_reported_once` puts it together.
-/

namespace RunLoop

variable {G : Guest} {l : LoopId}

/-! ## What is to be reported -/

/-- What became of something that a loop processed: a task came to an outcome, and its future was
dropped, by the given panic if there was one; or a callback returned, or panicked. -/
inductive Ending where
  | task (slot : Nat) (kind : Kind) (outcome : Joined) (panic : Option Payload)
  | callback (panic : Option Payload)

namespace Ending

/-- The failure that the handler of the loop is to be told of. -/
def failure? : Ending → Option Error
  | task _ _ _ (some panic) => some panic.toError
  | task _ .detached o none =>
      match o.flatten with
      | .ok _ => none
      | .error e => some e
  | task _ (.joined _) _ none => none
  | callback panic => panic.map (·.toError)

def task? : Ending → Option (Nat × Kind × Joined)
  | task slot kind o _ => some (slot, kind, o)
  | callback _ => none

def callback? : Ending → Option Unit
  | task _ _ _ _ => none
  | callback _ => some ()

end Ending

/-- A task of loop `l` came to its end. -/
def Milestone.ended? (l : LoopId) : Milestone → Option (Nat × Kind × Joined)
  | ended l' slot kind o => if l' = l then some (slot, kind, o) else none
  | _ => none

/-- A callback that was handed to loop `l` is processed. -/
def Happening.callback? (l : LoopId) : Happening G → Option Unit
  | processed l' (.call (.own _)) => if l' = l then some () else none
  | _ => none

namespace Job

/-- Something that loop `l` processes is under way: it is not over yet, or not yet reported. -/
def isOpen (l : LoopId) : Job G → Bool
  | taskPolled l' _ _ | taskEnded l' _ _ _ | taskPanicked l' _ _ | called l' | report l' _
  | reported l' _ => l' = l
  | _ => false

/-- What loop `l` does about an entry that it processes. -/
def attends (l : LoopId) : Job G → Bool
  | taskPolled l' _ _ | taskEnded l' _ _ _ | taskFinished l' _ | taskPanicked l' _ _ | called l'
  | report l' _ | reported l' _ | turn l' _ _ _ | mainPolled l' _ _ => l' = l
  | _ => false

/-- What becomes of a task or callback when a job is performed in `mode`. -/
def ending? : Mode G → Job G → Option Ending
  | .going _, taskEnded _ slot kind o => some (.task slot kind o none)
  | .unwinding p _, taskEnded _ slot kind o => some (.task slot kind o (some p))
  | .going _, called _ => some (.callback none)
  | .unwinding p _, called _ => some (.callback (some p))
  | _, _ => none

/-- What the last poll of a task comes to. -/
def lastPoll? (mode : Mode G) : Job G → Option (Nat × Kind × Joined)
  | taskPolled _ slot kind => mode.outcome?.map (slot, kind, ·)
  | _ => none

/-- A failure of which a handler is told when a job is performed in `mode`. -/
def told? : Mode G → Job G → Option Error
  | .going _, report _ e => some e
  | _, _ => none

/-- A failure that is still to be reported. -/
def due? : Job G → Option Error
  | report _ e => some e
  | taskPanicked _ _ p => some p.toError
  | _ => none

/-- The outcome of a task that came to its end and is not handed over yet. -/
def ended? : Job G → Option (Nat × Kind × Joined)
  | taskEnded _ slot kind o => some (slot, kind, o)
  | _ => none

/-- A callback that is running. -/
def callback? : Job G → Option Unit
  | called _ => some ()
  | _ => none

theorem not_isOpen_of_isPlain {job : Job G} (h : job.isPlain = true) : job.isOpen l = false := by
  cases job <;> first | rfl | cases h

theorem attends_of_isOpen {job : Job G} (h : job.isOpen l = true) : job.attends l = true := by
  cases job <;> first | exact h | cases h

theorem not_attends_of_isPlain {job : Job G} (h : job.isPlain = true) : job.attends l = false := by
  cases job <;> first | rfl | cases h

end Job

/-! ## What is under way -/

/-- `Tends l mode before η after`: when a stack is worked on in `mode`, `before` gives way to
`after` among what loop `l` has under way, and `η` happens. -/
inductive Tends (l : LoopId) :
    Mode G → List (Job G) → List (Happening G) → List (Job G) → Prop where
  | nothing {mode η} (hη : η.filterMap (Happening.callback? l) = []) : Tends l mode [] η []
  | begin {mode slot kind η} (hη : η.filterMap (Happening.callback? l) = []) :
      Tends l mode [] η [.taskPolled l slot kind]
  | call {mode c} : Tends l mode [] [.processed l (.call (.own c))] [.called l]
  | pending {mode slot kind} (ho : mode.outcome? = none) :
      Tends l mode [.taskPolled l slot kind] [] []
  | ending {mode slot kind o} (ho : mode.outcome? = some o) :
      Tends l mode [.taskPolled l slot kind] [] [.taskEnded l slot kind o]
  /-- The outcome of a task is handed to whoever awaits it. -/
  | joined {a slot j o} : Tends l (.going a) [.taskEnded l slot (.joined j) o] [] []
  | succeeded {a slot o v} (ho : o.flatten = .ok v) :
      Tends l (.going a) [.taskEnded l slot .detached o] [] []
  | failed {a slot o e} (ho : o.flatten = .error e) :
      Tends l (.going a) [.taskEnded l slot .detached o] [] [.report l e]
  /-- The future of a task panicked when it was dropped. -/
  | spoilt {p r slot kind o} :
      Tends l (.unwinding p r) [.taskEnded l slot kind o] [] [.taskPanicked l slot p]
  | removed {a slot p} : Tends l (.going a) [.taskPanicked l slot p] [] [.report l p.toError]
  | returned {a} : Tends l (.going a) [.called l] [] []
  | panicked {p r} : Tends l (.unwinding p r) [.called l] [] [.report l p.toError]
  | told {a e} : Tends l (.going a) [.report l e] [] [.reported l e]
  /-- There is no handler. -/
  | unheard {a e} : Tends l (.going a) [.report l e] [] []
  | handled {mode e} : Tends l mode [.reported l e] [] []

section

variable {busy : LoopId → Prop} {w w' : World G} {mode mode' : Mode G} {job : Job G}
  {η : List (Happening G)} {jobs rest before after : List (Job G)}

theorem filter_isOpen_of_isPlain (h : ∀ i ∈ jobs, i.isPlain = true) :
    jobs.filter (Job.isOpen l) = [] := by
  rw [List.filter_eq_nil_iff]
  intro i hi
  simp [Job.not_isOpen_of_isPlain (h i hi)]

theorem Rule.callback?_of_not_attends (rule : Rule busy w mode job η w' mode' jobs)
    (ho : Orderly w.thread.current mode (job :: rest)) (ha : job.attends l = false) :
    η.filterMap (Happening.callback? l) = [] := by
  cases rule with
  | astray h => exact absurd h ho.astray
  | processCall =>
    have hne := of_decide_eq_false ha
    simp [Happening.callback?, hne]
  | _ => rfl

/-- Nothing comes under way but by an entry that is processed, or by what is under way. -/
theorem Rule.filter_isOpen_of_not_attends (rule : Rule busy w mode job η w' mode' jobs)
    (ho : Orderly w.thread.current mode (job :: rest)) (ha : job.attends l = false) :
    jobs.filter (Job.isOpen l) = [] := by
  cases rule with
  | astray h => exact absurd h ho.astray
  | plain _ _ hs | build _ hs => exact filter_isOpen_of_isPlain hs
  | spawn _ hs | start _ hs => simpa [Job.isOpen] using filter_isOpen_of_isPlain hs
  | abandon hs =>
    rw [List.filter_eq_nil_iff]
    intro i hi
    rcases hs i hi with h | ⟨j, rfl⟩
    · simp [Job.not_isOpen_of_isPlain h]
    · simp [Job.isOpen]
  | drain hs =>
    rw [List.filter_append, filter_isOpen_of_isPlain hs, List.append_nil, List.filter_eq_nil_iff]
    exact List.forall_mem_map.mpr fun _ _ => Bool.false_ne_true
  | again hj => obtain ⟨work, rfl⟩ | ⟨j, o, rfl⟩ := hj <;> simp [Job.isOpen]
  | taskEnding _ hs =>
    rw [List.filter_append, filter_isOpen_of_isPlain hs]
    simp_all [Job.isOpen, Job.attends]
  | taskEnded _ hs =>
    obtain ⟨j, o', rfl, -⟩ | ⟨-, ⟨v, -, rfl⟩ | ⟨e, -, rfl⟩⟩ := hs <;>
      simp_all [Job.isOpen, Job.attends]
  | taskEndPanicked _ hs =>
    obtain rfl | ⟨j, o', rfl⟩ := hs <;> simp_all [Job.isOpen, Job.attends]
  | close | fill | mainPanicked | processSettle =>
    simp_all [List.filter_eq_nil_iff, Job.isOpen, Job.attends]
  | taskPanicked | calledPanicked | report | processTask | processCall =>
    have hne := of_decide_eq_false ha
    simp [List.filter, Job.isOpen, hne]
  | _ => rfl

theorem Rule.tends (rule : Rule busy w mode job η w' mode' jobs)
    (ho : Orderly w.thread.current mode (job :: rest)) (l : LoopId) :
    Tends l mode ([job].filter (Job.isOpen l)) η (jobs.filter (Job.isOpen l)) := by
  cases ha : job.attends l with
  | false =>
    have hjob : ¬job.isOpen l = true := fun h => by simp [Job.attends_of_isOpen h] at ha
    rw [rule.filter_isOpen_of_not_attends ho ha, List.filter_cons_of_neg hjob]
    exact .nothing (rule.callback?_of_not_attends ho ha)
  | true =>
    cases rule with
    | astray h => exact absurd h ho.astray
    | plain hp | ended hp | past hp | caught hp =>
      rw [Job.not_attends_of_isPlain hp] at ha
      cases ha
    | again hj => obtain ⟨work, rfl⟩ | ⟨j, o, rfl⟩ := hj <;> cases ha
    | taskPending hlast =>
      obtain rfl := of_decide_eq_true ha
      simpa [Job.isOpen] using .pending hlast
    | taskEnding jobs hs hlast =>
      obtain rfl := of_decide_eq_true ha
      rw [List.filter_append, filter_isOpen_of_isPlain hs]
      simpa [Job.isOpen] using .ending hlast
    | taskEnded _ hs =>
      obtain rfl := of_decide_eq_true ha
      obtain ⟨j, o', rfl, rfl⟩ | ⟨rfl, ⟨v, hv, rfl⟩ | ⟨e, he, rfl⟩⟩ := hs
      · simpa [Job.isOpen] using .joined
      · simpa [Job.isOpen] using .succeeded hv
      · simpa [Job.isOpen] using .failed he
    | taskEndPanicked _ hs =>
      obtain rfl := of_decide_eq_true ha
      obtain rfl | ⟨j, o', rfl⟩ := hs <;> simpa [Job.isOpen] using .spoilt
    | taskPanicked =>
      obtain rfl := of_decide_eq_true ha
      simpa [Job.isOpen] using .removed
    | called =>
      obtain rfl := of_decide_eq_true ha
      simpa [Job.isOpen] using .returned
    | calledPanicked =>
      obtain rfl := of_decide_eq_true ha
      simpa [Job.isOpen] using .panicked
    | report =>
      obtain rfl := of_decide_eq_true ha
      simpa [Job.isOpen] using .told
    | unheard =>
      obtain rfl := of_decide_eq_true ha
      simpa [Job.isOpen] using .unheard
    | reported | reportedPanicked =>
      obtain rfl := of_decide_eq_true ha
      simpa [Job.isOpen] using .handled
    | processTask =>
      obtain rfl := of_decide_eq_true ha
      simpa [Job.isOpen] using .begin (by simp [filterMap_cons_eq, Happening.callback?])
    | processCall =>
      obtain rfl := of_decide_eq_true ha
      simpa [Job.isOpen] using .call
    | taskFinished | take | processMain | processNobody | processSettled | processStart
    | mainPending | mainReady =>
      simpa [Job.isOpen] using .nothing (by simp [filterMap_cons_eq, Happening.callback?])
    | processSettle | mainPanicked =>
      simpa [Job.isOpen, List.filter_map, Function.comp_def] using
        .nothing (by simp [filterMap_cons_eq, Happening.callback?])
    | _ => cases ha

/-! ## The handler of a loop -/

/-- The handler of a loop, if there is one, for a loop that is there. -/
def World.handler? (w : World G) (l : LoopId) : Option (Option G.Handler) :=
  (w.loop? l).map (·.handler)

@[simp] theorem World.handler?_modifyQueue (l' : LoopId) (f : Queue (Entry G) → Queue (Entry G)) :
    (w.modifyQueue l' f).handler? l = w.handler? l := by
  unfold handler? modifyQueue
  rw [loop?_modifyLoop]
  split
  · cases w.loop? l <;> rfl
  · rfl

@[simp] theorem World.handler?_modifyTasks (l' : LoopId)
    (f : Slab (Task G.Coroutine) → Slab (Task G.Coroutine)) :
    (w.modifyTasks l' f).handler? l = w.handler? l := by
  unfold handler? modifyTasks
  rw [loop?_modifyLoop]
  split
  · cases w.loop? l <;> rfl
  · rfl

theorem World.handler?_of_loops (h : w'.loops = w.loops) : w'.handler? l = w.handler? l := by
  rw [handler?, handler?, loop?, loop?, h]

@[simp] theorem World.handler?_emit (e : Event) : (w.emit e).handler? l = w.handler? l :=
  rfl

@[simp] theorem World.handler?_rearm (k : WakerId) : (w.rearm k).handler? l = w.handler? l :=
  rfl

@[simp] theorem World.handler?_newWaker (l' : LoopId) (t : Target) :
    (w.newWaker l' t).1.handler? l = w.handler? l :=
  rfl

@[simp] theorem World.handler?_addTask (l' : LoopId) (kind : Kind) (f : Future G.Coroutine) :
    (w.addTask l' kind f).1.handler? l = w.handler? l := by
  obtain ⟨e, he⟩ := addTask_eq w l' kind f
  simp [he]

theorem World.handler?_build (c : Config G) {x : Option G.Handler} (h : w.handler? l = some x) :
    (w.build c).1.handler? l = some x := by
  obtain ⟨e, he, rfl⟩ := Option.map_eq_some_iff.mp h
  have hl : l.index < w.loops.size := (Array.getElem?_eq_some_iff.mp he).1
  have hne : l.index ≠ w.loops.size := Nat.ne_of_lt hl
  have he' : w.loops[l.index]? = some e := he
  simp [handler?, loop?, build, emit, write, Array.getElem?_push, hne, he']

/-- A loop keeps the handler that it was built with. -/
theorem Effect.handler? {others : List (Job G)} (effect : Effect w others before η w' after)
    {x : Option G.Handler} (h : w.handler? l = some x) : w'.handler? l = some x := by
  cases effect with
  | build c => exact World.handler?_build c h
  | close | take | mainReady | drain | taskPending => simpa using h
  | submit | handOver | notify => simpa [World.enqueue] using h
  | taskFinished | taskPanicked => simpa [World.removeTask] using h
  | processTask | processStart => simpa using h
  | spawn =>
    rw [World.handler?_addTask, World.handler?_of_loops rfl]
    exact h
  | _ => exact h

theorem Trail.handler? {w₀ : World G} {D₀ D : List (Job G)} (trail : Trail w₀ D₀ η w D)
    {x : Option G.Handler} (h : w₀.handler? l = some x) : w.handler? l = some x := by
  induction trail with
  | here => exact h
  | same _ hw _ ih => rw [World.handler?_of_loops hw.loops, ih]
  | step _ effect ih => exact effect.handler? ih

/-! ## Accounts -/

/-- A failure that comes in is told to the handler, or still due. -/
theorem Tends.failures (tends : Tends l mode before η after) :
    before.filterMap Job.due? ++ (before.filterMap (Job.ending? mode)).filterMap Ending.failure? =
      before.filterMap (Job.told? mode) ++ after.filterMap Job.due? := by
  cases tends with
  | succeeded ho | failed ho =>
    simp [filterMap_cons_eq, Job.due?, Job.ending?, Job.told?, Ending.failure?, ho]
  | pending | ending | handled => cases mode <;> rfl
  | _ => rfl

/-- A task that was polled for the last time is handed over, or about to be. -/
theorem Tends.tasks (tends : Tends l mode before η after) :
    before.filterMap Job.ended? ++ before.filterMap (Job.lastPoll? mode) =
      (before.filterMap (Job.ending? mode)).filterMap Ending.task? ++
        after.filterMap Job.ended? := by
  cases tends with
  | pending ho | ending ho =>
    simp [filterMap_cons_eq, Job.ended?, Job.lastPoll?, Job.ending?, ho]
  | handled => cases mode <;> rfl
  | _ => rfl

/-- A callback that is processed is over, or running. -/
theorem Tends.callbacks (tends : Tends l mode before η after) :
    before.filterMap Job.callback? ++ η.filterMap (Happening.callback? l) =
      (before.filterMap (Job.ending? mode)).filterMap Ending.callback? ++
        after.filterMap Job.callback? := by
  cases tends with
  | nothing hη | begin hη => simp [filterMap_cons_eq, Job.callback?, hη]
  | call => simp [Job.callback?, Happening.callback?]
  | pending | ending | handled => cases mode <;> rfl
  | _ => rfl

/-! ## One thing at a time -/

/-- Nothing of loop `l` is under way above its frame, which is somewhere below. -/
def Quiet (l : LoopId) (jobs : List (Job G)) : Prop :=
  ∃ pre rest, jobs = pre ++ .leave l :: rest ∧ Stacked rest ∧ pre.countP (Job.isOpen l) = 0

theorem quiet_of_turning (ht : Turning l jobs) (h : Stacked jobs) : Quiet l jobs := by
  obtain ⟨k, f, batch, rest, rfl⟩ := ht
  obtain ⟨rest', rfl, hs⟩ := framed_of_isDrive (l := l) h (by simp [Job.isDrive])
  exact ⟨[.turn l k f batch, .restore none], rest', rfl, hs, by simp [Job.isOpen]⟩

theorem quiet_of_attends (h : Stacked (job :: rest)) (ha : job.attends l = true) :
    Quiet l rest := by
  obtain ⟨hb, _, hs⟩ := id h
  cases job with
  | taskPolled | taskEnded | taskFinished | taskPanicked | called =>
    obtain rfl := of_decide_eq_true ha
    exact quiet_of_turning hb hs
  | report | reported =>
    obtain rfl := of_decide_eq_true ha
    rcases hb with hb | ⟨slot, rest₁, rfl⟩
    · exact quiet_of_turning hb hs
    · obtain ⟨pre, rest', rfl, hs', hpre⟩ := quiet_of_turning hs.1 hs.2.2
      exact ⟨.taskFinished _ slot :: pre, rest', rfl, hs', by simpa [Job.isOpen] using hpre⟩
  | turn | mainPolled =>
    obtain rfl := of_decide_eq_true ha
    obtain ⟨rest', rfl, hs'⟩ := framed_of_isDrive h (decide_eq_true rfl)
    exact ⟨[.restore none], rest', rfl, hs', by simp [Job.isOpen]⟩
  | _ => cases ha

theorem countP_lt_of_frame {pre : List (Job G)} (hpre : pre.countP (Job.isOpen l) = 0)
    (hrest : rest.countP (Job.isOpen l) ≤ rest.countP (Job.isLeave l)) :
    (pre ++ .leave l :: rest).countP (Job.isOpen l) <
      (pre ++ .leave l :: rest).countP (Job.isLeave l) := by
  rw [List.countP_append, List.countP_append, List.countP_cons_of_neg (by simp [Job.isOpen]),
    List.countP_cons_of_pos (by simp [Job.isLeave])]
  omega

/-- What a loop has under way stands right above the turn that goes on after it. -/
theorem tending_of_isOpen (h : Stacked (job :: rest)) (hj : job.isOpen l = true) :
    Tending l rest := by
  have hb := h.1
  cases job with
  | taskPolled | taskEnded | taskPanicked | called =>
    obtain rfl := of_decide_eq_true hj
    exact .inl hb
  | report | reported =>
    obtain rfl := of_decide_eq_true hj
    exact hb
  | _ => cases hj

/-- On a stack, a loop has one thing under way at most for each frame of it. -/
theorem countP_isOpen_le (l : LoopId) : ∀ {jobs : List (Job G)}, Stacked jobs →
    jobs.countP (Job.isOpen l) ≤ jobs.countP (Job.isLeave l)
  | [], _ => Nat.le_refl _
  | job :: rest, h => by
    have hleave : rest.countP (Job.isLeave l) ≤ (job :: rest).countP (Job.isLeave l) :=
      (List.sublist_cons_self job rest).countP_le
    cases ho : job.isOpen l with
    | false =>
      have hrest := countP_isOpen_le l h.2.2
      rw [List.countP_cons_of_neg (by simp [ho])]
      omega
    | true =>
      obtain ⟨pre, rest', rfl, hs, hpre⟩ := quiet_of_attends h (Job.attends_of_isOpen ho)
      have hlt := countP_lt_of_frame hpre (countP_isOpen_le l hs)
      rw [List.countP_cons_of_pos ho]
      omega
termination_by jobs => jobs.length

theorem Quiet.countP_lt (h : Quiet l jobs) :
    jobs.countP (Job.isOpen l) < jobs.countP (Job.isLeave l) := by
  obtain ⟨pre, rest, rfl, hs, hpre⟩ := h
  exact countP_lt_of_frame hpre (countP_isOpen_le l hs)

end

namespace Machine

variable {code : G.Code} {m m' : Machine G} {p : List (Machine G)} {job : Job G}
  {rest : List (Job G)}

/-- What loop `l` has under way, on all stacks. -/
def underWay (m : Machine G) (l : LoopId) : List (Job G) :=
  m.allJobs.filter (Job.isOpen l)

/-- What loop `l` has under way on top of the stack that is worked on. -/
def onTop (m : Machine G) (l : LoopId) : List (Job G) :=
  (m.jobs.take 1).filter (Job.isOpen l)

theorem Sound.countP_flatMap_le {ps : List (Parked G)} (h : ∀ q ∈ ps, Stacked q.jobs)
    (l : LoopId) : (ps.flatMap (·.jobs)).countP (Job.isOpen l) ≤
      (ps.flatMap (·.jobs)).countP (Job.isLeave l) := by
  induction ps with
  | nil => exact Nat.le_refl _
  | cons q ps ih =>
    obtain ⟨hq, hps⟩ := List.forall_mem_cons.mp h
    rw [List.flatMap_cons, List.countP_append, List.countP_append]
    exact Nat.add_le_add (countP_isOpen_le l hq) (ih hps)

theorem Sound.length_underWay (h : m.Sound) (l : LoopId) : (m.underWay l).length ≤ 1 := by
  rw [underWay, ← List.countP_eq_length_filter]
  exact (countP_flatMap_le (fun q hq => (h.strands q hq).stacked) l).trans (h.once l)

/-- When a loop goes on with its batch, and where it does not run, nothing of it is under way. -/
theorem Sound.underWay_of_drive (h : m.Sound) (hj : m.jobs = job :: rest)
    (hd : job.isDrive l = true) : m.underWay l = [] := by
  have ho := (h.strands _ List.mem_cons_self).stacked
  simp only [hj] at ho
  have ha : job.attends l = true := by
    cases job <;> first | exact hd | cases hd
  have hjob : ¬job.isOpen l = true := by
    cases job <;> first | exact Bool.false_ne_true | cases hd
  have hlt := (quiet_of_attends ho ha).countP_lt
  have hparked := countP_flatMap_le (l := l)
    fun q hq => (h.strands q (List.mem_cons_of_mem _ hq)).stacked
  have honce := h.once l
  rw [allJobs_of_top hj, List.countP_cons, List.countP_append] at honce
  rw [underWay, allJobs_of_top hj, List.filter_cons_of_neg hjob, ← List.length_eq_zero_iff,
    ← List.countP_eq_length_filter, List.countP_append]
  omega

theorem isRunning_eq (m : Machine G) (l : LoopId) :
    m.isRunning l = m.allJobs.any (Job.isLeave l) := by
  simp [isRunning, allJobs, List.any_flatMap]

theorem Sound.underWay_of_not_isRunning (h : m.Sound) (hl : m.isRunning l = false) :
    m.underWay l = [] := by
  have hnone : m.allJobs.countP (Job.isLeave l) = 0 := by
    rwa [List.countP_eq_zero, ← List.any_eq_false, ← isRunning_eq]
  have hle := countP_flatMap_le (l := l) fun q hq => (h.strands q hq).stacked
  rw [← allJobs_eq, hnone] at hle
  rw [underWay, ← List.length_eq_zero_iff, ← List.countP_eq_length_filter]
  exact Nat.le_zero.mp hle

/-! ## Runs -/

theorem Acts.tends {η : List (Happening G)} (acts : m.Acts η m') (h : m.Sound) (l : LoopId) :
    ∃ after others, Tends l m.mode (m.onTop l) η after ∧ m.underWay l = m.onTop l ++ others ∧
      m'.underWay l = after ++ others := by
  obtain ⟨job, rest, hj, jobs, hjobs, hparked, rule⟩ := acts
  have ho := h.strands _ List.mem_cons_self
  simp only [hj] at ho
  have htop : m.onTop l = [job].filter (Job.isOpen l) := by rw [onTop, hj]; rfl
  refine ⟨_, (rest ++ m.threads.parked.flatMap (·.jobs)).filter (Job.isOpen l),
    htop ▸ rule.tends ho l, ?_, ?_⟩
  · rw [underWay, allJobs_of_top hj, htop, ← List.filter_append]
    rfl
  · have hparked : m'.threads.parked = m.threads.parked := hparked
    rw [underWay, allJobs, hjobs, hparked, List.append_assoc, List.filter_append]

theorem Switched.underWay (switched : m.Switched m') (h : m.Sound) (l : LoopId) :
    m'.underWay l = m.underWay l := by
  have hperm : (m.underWay l).Perm (m'.underWay l) :=
    switched.filter_allJobs (fun _ => rfl) fun _ => rfl
  rcases Nat.le_one_iff_eq_zero_or_eq_one.mp (h.length_underWay l) with hzero | hone
  · rw [List.length_eq_zero_iff.mp hzero] at hperm ⊢
    exact hperm.nil_eq.symm
  · obtain ⟨job, hjob⟩ := List.length_eq_one_iff.mp hone
    rw [hjob] at hperm ⊢
    exact (List.singleton_perm.mp hperm).symm

/-- A step of the running thread does one thing about what a loop has under way, or nothing. -/
theorem Walked.tends (hm : Walked code p m) (hi : m.isIdle = false) (live : m.isAborted = false)
    (l : LoopId) : ∃ after, Tends l m.mode (m.onTop l) m.happenings after ∧
      (m.underWay l = m.onTop l ∧ (m.step code).underWay l = after ∨
        m.onTop l = [] ∧ after = [] ∧ (m.step code).underWay l = m.underWay l) := by
  have hs := hm.sound
  have hone := hs.length_underWay l
  have hone' := (hm.next hi live).sound.length_underWay l
  have step : ∀ {m₁}, m.Acts m.happenings m₁ → m₁.underWay l = (m.step code).underWay l →
      ∃ after, Tends l m.mode (m.onTop l) m.happenings after ∧
        (m.underWay l = m.onTop l ∧ (m.step code).underWay l = after ∨
          m.onTop l = [] ∧ after = [] ∧ (m.step code).underWay l = m.underWay l) := by
    intro m₁ acts hsame
    obtain ⟨after, others, tends, hbefore, hafter⟩ := acts.tends hs l
    rw [hsame] at hafter
    refine ⟨after, tends, ?_⟩
    match others with
    | [] => exact .inl ⟨by simpa using hbefore, by simpa using hafter⟩
    | i :: others =>
      -- something else is under way, and it is the only thing
      rw [hbefore, List.length_append, List.length_cons] at hone
      rw [hafter, List.length_append, List.length_cons] at hone'
      have hb : m.onTop l = [] := List.length_eq_zero_iff.mp (by omega)
      have ha : after = [] := List.length_eq_zero_iff.mp (by omega)
      exact .inr ⟨hb, ha, by rw [hafter, hbefore, hb, ha]⟩
  rcases acts_of_live code hi live with acts | ⟨m₁, acts, switched⟩
  · exact step acts rfl
  · exact step acts (switched.underWay (acts.sound hs) l).symm

/-- **An account of a loop.** What comes in, step by step, has gone out, or is still under way. -/
theorem Walked.account {α : Type} {into out : Machine G → List α} {d : Job G → Option α}
    (hb : ∀ (m : Machine G) after, Tends l m.mode (m.onTop l) m.happenings after →
      (m.onTop l).filterMap d ++ into m = out m ++ after.filterMap d)
    (hout : ∀ m, m.onTop l = [] → out m = []) (hm : Walked code p m) :
    p.flatMap into = p.flatMap out ++ (m.underWay l).filterMap d := by
  obtain ⟨shared, run, walk⟩ := hm
  induction walk with
  | here => rfl
  | @turnTo p m₁ walk q others h ih =>
    have hm₁ : Walked code p m₁ := ⟨shared, run, walk⟩
    rw [(switched_turnTo h).underWay hm₁.sound]
    exact ih
  | @launch p m₁ walk x h ih =>
    have hm₁ : Walked code p m₁ := ⟨shared, run, walk⟩
    rw [(switched_launch x).underWay hm₁.sound]
    exact ih
  | @act p m₁ walk hi live ih =>
    have hm₁ : Walked code p m₁ := ⟨shared, run, walk⟩
    obtain ⟨after, tends, h⟩ := hm₁.tends hi live l
    have hsum := hb m₁ after tends
    rw [List.flatMap_append, List.flatMap_append, List.flatMap_singleton, List.flatMap_singleton,
      ih]
    rcases h with ⟨hbefore, hafter⟩ | ⟨htop, rfl, hsame⟩
    · rw [hbefore, hafter, List.append_assoc, List.append_assoc, hsum]
    · rw [htop, hout m₁ htop] at hsum
      have hinto : into m₁ = [] := by simpa using hsum
      rw [hsame, hinto, hout m₁ htop, List.append_nil, List.append_nil]

/-- What became of the tasks and callbacks of loop `l` in the next step. -/
def endings (m : Machine G) (l : LoopId) : List Ending :=
  (m.onTop l).filterMap (Job.ending? m.mode)

/-- The failures of which the handler of loop `l` is told in the next step, with the handler. -/
def calls (m : Machine G) (l : LoopId) : List (G.Handler × Error) :=
  ((m.onTop l).filterMap (Job.told? m.mode)).filterMap fun e =>
    (m.world.handler? l).join.map (·, e)

/-- The failures that are still to be told to the handler of loop `l`. -/
def due (m : Machine G) (l : LoopId) : List Error :=
  (m.underWay l).filterMap Job.due?

theorem milestones_of_taskPolled {slot : Nat} {kind : Kind}
    (hj : m.jobs = .taskPolled l slot kind :: rest) :
    m.milestones = m.mode.outcome?.toList.map (.ended l slot kind) := by
  cases hmode : m.mode with
  | going a =>
    cases hr : a.toPoll <;> simp [milestones, hj, hmode, World.told, Mode.outcome?, hr]
  | unwinding p r => simp [milestones, hj, hmode, World.toldOfPanic, Mode.outcome?]
  | aborted => simp [milestones, hj, hmode, Mode.outcome?]

theorem filterMap_ended_milestones (m : Machine G) (l : LoopId) :
    m.milestones.filterMap (Milestone.ended? l) = (m.onTop l).filterMap (Job.lastPoll? m.mode) := by
  cases hj : m.jobs with
  | nil => simp [milestones, onTop, hj]
  | cons job rest =>
    have htop : m.onTop l = [job].filter (Job.isOpen l) := by rw [onTop, hj]; rfl
    rw [htop]
    by_cases hpolled : ∃ l' slot kind, job = .taskPolled l' slot kind
    · obtain ⟨l', slot, kind, rfl⟩ := hpolled
      rw [milestones_of_taskPolled hj]
      by_cases hl : l' = l <;> cases ho : m.mode.outcome? <;>
        simp [Milestone.ended?, Job.isOpen, Job.lastPoll?, hl, ho]
    · have hnone : m.milestones.filterMap (Milestone.ended? l) = [] := by
        rw [List.filterMap_eq_nil_iff]
        intro e he
        cases e with
        | ended l' slot kind o =>
          obtain ⟨rest', hj', _⟩ := polled_of_ended he
          cases hj.symm.trans hj'
          exact absurd ⟨l', slot, kind, rfl⟩ hpolled
        | _ => rfl
      have hlast : Job.lastPoll? m.mode job = none := by
        cases job <;> first | rfl | exact absurd ⟨_, _, _, rfl⟩ hpolled
      rw [hnone, eq_comm, List.filterMap_eq_nil_iff]
      intro i hi
      rwa [List.mem_singleton.mp (List.mem_filter.mp hi).1]

theorem Walked.failures (hm : Walked code p m) (l : LoopId) :
    (p.flatMap (endings · l)).filterMap Ending.failure? =
      p.flatMap (fun m => (m.onTop l).filterMap (Job.told? m.mode)) ++ m.due l := by
  rw [List.filterMap_flatMap]
  exact hm.account (fun _ _ tends => tends.failures) fun m h => by simp [h]

theorem Walked.tasks (hm : Walked code p m) (l : LoopId) :
    (story p).filterMap (Milestone.ended? l) =
      (p.flatMap (endings · l)).filterMap Ending.task? ++
        (m.underWay l).filterMap Job.ended? := by
  rw [story, List.filterMap_flatMap, List.filterMap_flatMap]
  refine hm.account (fun m after tends => ?_) fun m h => by simp [endings, h]
  rw [filterMap_ended_milestones]
  exact tends.tasks

theorem Walked.callbacks (hm : Walked code p m) (l : LoopId) :
    (p.flatMap happenings).filterMap (Happening.callback? l) =
      (p.flatMap (endings · l)).filterMap Ending.callback? ++
        (m.underWay l).filterMap Job.callback? := by
  rw [List.filterMap_flatMap, List.filterMap_flatMap]
  exact hm.account (fun _ _ tends => tends.callbacks) fun m h => by simp [endings, h]

theorem Walked.handler?_of_onTop (hm : Walked code p m) (h : m.onTop l ≠ []) :
    ∃ x, m.world.handler? l = some x := by
  have hrunning : m.isRunning l = true := by
    by_contra hl
    have hnone := hm.sound.underWay_of_not_isRunning (by simpa using hl)
    obtain ⟨i, hi⟩ := List.exists_mem_of_ne_nil _ h
    obtain ⟨htop, hopen⟩ := List.mem_filter.mp hi
    have hmem : i ∈ m.underWay l := by
      refine List.mem_filter.mpr ⟨?_, hopen⟩
      exact List.mem_append_left _ (List.mem_of_mem_take htop)
    rw [hnone] at hmem
    cases hmem
  rw [isRunning_eq, List.any_eq_true] at hrunning
  obtain ⟨i, hi, hleave⟩ := hrunning
  obtain rfl : i = .leave l := by
    cases i <;> first | exact congrArg _ (of_decide_eq_true hleave) | cases hleave
  have hopen := hm.reached.opened hi
  unfold World.isClosed at hopen
  unfold World.handler?
  cases he : m.world.loop? l with
  | none => simp [he] at hopen
  | some e => exact ⟨e.handler, rfl⟩

/-- A loop is told of failures by the handler that it has for good. -/
theorem Walked.calls_eq (hm : Walked code p m) {h : G.Handler}
    (hh : m.world.handler? l = some (some h)) :
    p.flatMap (calls · l) =
      (p.flatMap fun m => (m.onTop l).filterMap (Job.told? m.mode)).map (h, ·) := by
  rw [List.map_flatMap]
  refine List.flatMap_congr fun m₁ hmem => ?_
  by_cases htop : m₁.onTop l = []
  · simp [calls, htop]
  · obtain ⟨shared, run, walk⟩ := hm
    obtain ⟨p₁, p₂, -, before, hi, live, after⟩ := walk.of_mem hmem
    have hm₁ : Walked code p₁ m₁ := ⟨shared, run, before⟩
    obtain ⟨x, hx⟩ := hm₁.handler?_of_onTop htop
    have hwalk := (Walk.here.act hi live).trans after
    have hkept := (hwalk.history.course.trail hm₁.sound).handler? hx
    rw [hh] at hkept
    cases hkept
    simp [calls, hx]

/-! ## Steps -/

/-- A handler is run by the loop, on top of what is left to do in the turn. -/
theorem worksDown_of_calls (code : G.Code) {c : G.Handler × Error} (hc : c ∈ m.calls l) :
    ∃ rest, m.jobs = .report l c.2 :: rest ∧
      WorksDown code (m.step code) [.resume (code.handle c.1 c.2), .reported l c.2] rest := by
  obtain ⟨e, he, hx⟩ := List.mem_filterMap.mp hc
  obtain ⟨i, hi, htold⟩ := List.mem_filterMap.mp he
  obtain ⟨htop, hopen⟩ := List.mem_filter.mp hi
  obtain ⟨h, hh, rfl⟩ := Option.map_eq_some_iff.mp hx
  -- the job on top is the report, and the handler is the one of the loop
  cases hmode : m.mode with
  | going a =>
    cases i with
    | report l' e' =>
      rw [hmode] at htold
      cases htold
      obtain rfl := of_decide_eq_true hopen
      obtain ⟨rest, hj⟩ : ∃ rest, m.jobs = .report l' e :: rest := by
        cases hj : m.jobs with
        | nil => simp [hj] at htop
        | cons job rest =>
          rw [hj] at htop
          exact ⟨rest, by rw [List.mem_singleton.mp htop]⟩
      have hbind : (m.world.loop? l').bind (·.handler) = some h := by
        rw [← hh, World.handler?]
        cases m.world.loop? l' <;> rfl
      refine ⟨rest, hj, worksDown_of_jobs ?_⟩
      rw [step_of_going hj hmode rfl]
      simp only [perform, report, hbind]
      rfl
    | _ => simp [hmode, Job.told?] at htold
  | unwinding | aborted => cases i <;> simp [hmode, Job.told?] at htold

/-- A panic of a handler stops where the handler was called. -/
theorem step_reported (code : G.Code) {e : Error} {panic : Payload}
    {r : Option (Future G.Coroutine)} (hj : m.jobs = .reported l e :: rest)
    (hmode : m.mode = .unwinding panic r) :
    (m.step code).mode = .going .nothing ∧ (m.step code).jobs = rest ∧
      m.world.Agrees (m.step code).world := by
  rw [step_of_unwinding hj hmode]
  exact ⟨rfl, rfl, World.agrees_emit _ _⟩

/-! ## Failures are reported once -/

/-- **Every failure that nobody awaits is reported exactly once.** In every run, whatever the
handler does, a loop with a handler

* tells it of every failure, each of them once and in order, and of nothing else, up to a failure
  that is due;
* has nothing under way, and so nothing due, whenever it goes on to the next entry or polls its main
  future, and where it does not run; what it has under way stands right above the turn that goes on
  after it;
* brings every task of it that was polled for the last time to one end, with what the last poll came
  to, and every callback that it processes;
* runs the handler within the turn, and goes on with the turn where the handler panics. -/
theorem failures_reported_once (hm : Walked code p m) {h : G.Handler}
    (hh : m.world.handler? l = some (some h)) :
    ((p.flatMap (endings · l)).filterMap Ending.failure?).map (h, ·) =
      p.flatMap (calls · l) ++ (m.due l).map (h, ·) ∧
    ((m.isRunning l = false ∨ ∃ job rest, m.jobs = job :: rest ∧ job.isDrive l = true) →
      m.underWay l = [] ∧ m.due l = []) ∧
    (∀ q ∈ m.strands, ∀ job rest, job :: rest <:+ q.jobs → job.isOpen l = true →
      Tending l rest) ∧
    ((story p).filterMap (Milestone.ended? l) =
      (p.flatMap (endings · l)).filterMap Ending.task? ++ (m.underWay l).filterMap Job.ended? ∧
    ∀ slot kind o, .ended l slot kind o ∈ m.milestones →
      (∃ a r f, m.mode = .going a ∧ a.toPoll = .ready r f ∧ o = .ok r) ∨
        ∃ panic r, m.mode = .unwinding panic r ∧ o = .error (.panicked panic.message)) ∧
    (p.flatMap happenings).filterMap (Happening.callback? l) =
      (p.flatMap (endings · l)).filterMap Ending.callback? ++
        (m.underWay l).filterMap Job.callback? ∧
    (∀ c ∈ m.calls l, ∃ rest, m.jobs = .report l c.2 :: rest ∧
      WorksDown code (m.step code) [.resume (code.handle c.1 c.2), .reported l c.2] rest) ∧
    ∀ e panic r rest, m.jobs = .reported l e :: rest → m.mode = .unwinding panic r →
      (m.step code).mode = .going .nothing ∧ (m.step code).jobs = rest ∧
        m.world.Agrees (m.step code).world := by
  refine ⟨?_, ?_, ?_, ⟨hm.tasks l, ?_⟩, hm.callbacks l, fun c hc => worksDown_of_calls code hc,
    fun e panic r rest hj hmode => step_reported code hj hmode⟩
  · rw [hm.failures l, List.map_append, hm.calls_eq hh]
  · intro h
    have hnone : m.underWay l = [] := by
      rcases h with hl | ⟨job, rest, hj, hd⟩
      · exact hm.sound.underWay_of_not_isRunning hl
      · exact hm.sound.underWay_of_drive hj hd
    exact ⟨hnone, by rw [due, hnone]; rfl⟩
  · intro q hq job rest hs hopen
    obtain ⟨above, hjobs⟩ := hs
    have hstacked := (hm.sound.strands q hq).stacked
    rw [← hjobs] at hstacked
    exact tending_of_isOpen (stacked_of_suffix hstacked) hopen
  · intro slot kind o he
    obtain ⟨rest, _, h⟩ := polled_of_ended he
    exact h

open Script

/-- A loop whose handler panics is handed a callback that panics; then its main future starts a task
that panics when it is polled, one that panics when it is dropped, and one that does well. -/
def failingWork : List (String × Statement) :=
  [("loop", line "loop" "L" (.loop "L" none none
      (some [line "panic" "L" (.panic (.text "handler failed"))]) false)),
    ("handle", line "handle" "h" (.handle "h" "L")),
    ("call_soon", line "call_soon" "h" (.call "h" "c" [line "panic" "c" (.panic .other)] none)),
    ("block_on", line "block_on" "L" (.blockOn "L" (.program (.mk "main"
      [line "start" "a" (.start (.mk "a" [line "panic" "a" (.panic .other)] none none)),
        line "start" "b" (.start (.mk "b" [] none (some "b failed"))),
        line "start" "c" (.start (.mk "c" [] none none)),
        line "yield" "main" (.yield 1)] none none))))]

/-- Of the callback and the three tasks, three fail, and the handler is called three times. -/
theorem failures_reported_once_of_script : ∃ h,
    (follow failingWork 125).2.world.handler? ⟨0⟩ = some (some h) ∧
    (((follow failingWork 125).1.flatMap (endings · ⟨0⟩)).filterMap Ending.failure?).map (h, ·) =
      (follow failingWork 125).1.flatMap (calls · ⟨0⟩) ++
        ((follow failingWork 125).2.due ⟨0⟩).map (h, ·) ∧
    ((follow failingWork 125).1.flatMap (endings · ⟨0⟩)).length = 4 ∧
    ((follow failingWork 125).1.flatMap (calls · ⟨0⟩)).length = 3 ∧
    (follow failingWork 125).2.due ⟨0⟩ = [] := by
  have hsome : ((follow failingWork 125).2.world.handler? ⟨0⟩).join.isSome = true := by
    decide +kernel
  obtain ⟨h, hh⟩ := Option.isSome_iff_exists.mp hsome
  have hh := Option.join_eq_some_iff.mp hh
  have once := failures_reported_once (walked_follow failingWork 125) hh
  have idle : (follow failingWork 125).2.isRunning ⟨0⟩ = false := by decide +kernel
  exact ⟨h, hh, once.1, by decide +kernel, by decide +kernel, (once.2.1 (.inl idle)).2⟩

end Machine

end RunLoop
