import RunLoop.Proofs.Awaited

/-!
# Wrappers of awaitables

A future that runs an awaitable as a task of its own is a wrapper: its first poll spawns the task,
every poll asks the join slot, and when the outcome is there it is passed on. Here the wrapper is
itself the future of a task. What that task does is followed from the time when it was spawned until
its outcome was handed over, step by step, whatever else goes on meanwhile.

* `Machine.children` lists what the polls of a task spawned to run awaitables.
* `Layered` says how far a task has come whose future is a wrapper.
* `Machine.Walked.layered_step`: it goes on from one stage to the next.
* `Machine.Walked.layered`: it is in one of the stages at any time.
-/

namespace RunLoop

variable {G : Guest}

namespace Awaited

/-- Whether it is by a poll of task `T` that a task is about to be spawned to run an awaitable. -/
def polls (T : Awaited) (m : Machine G) : Bool :=
  match m.jobs with
  | _ :: .taskPolled l slot (.joined j) :: _ => l = T.loop && slot = T.slot && j = T.join
  | _ => false

end Awaited

namespace Machine

/-- The tasks that were spawned by the polls of task `T` to run awaitables, with their futures. -/
def children (T : Awaited) (p : List (Machine G)) : List (Future G.Coroutine × Awaited) :=
  (p.filter T.polls).filterMap nested?

end Machine

/-! ## The stages of a wrapper -/

/-- What rests of a wrapper between two polls: the awaitable `g`, or the join slot of its task. -/
inductive Wraps (p : List (Machine G)) (g : Future G.Coroutine) (T : Awaited) :
    Future G.Coroutine → Prop where
  | unpolled (h : Machine.children T p = []) : Wraps p g T (.nested g)
  | forwarding {T' : Awaited} (h : Machine.children T p = [(g, T')]) :
      Wraps p g T (.forwarding T'.join)

/-- The outcome `o` of the task that ran the awaitable was taken by its wrapper, after that task had
left the table. -/
structure Took (p : List (Machine G)) (g : Future G.Coroutine) (T T' : Awaited) (o : Joined) :
    Prop where
  child : Machine.children T p = [(g, T')]
  taken : .taken T'.join o ∈ Machine.story p
  finished : T'.Finished p

/-- What stands on a stack while task `T` is polled, whose future is a wrapper of `g`. -/
inductive Busy (p : List (Machine G)) (g : Future G.Coroutine) (T : Awaited) : Parked G → Prop where
  /-- The awaitable is about to be spawned as a task. -/
  | spawning {t a k below} (h : Machine.children T p = []) :
      Busy p g T ⟨t, .going a, .serve (.poll (.nested g) k) :: T.polled :: below⟩
  /-- The join slot is about to be asked; a task that was just spawned is queued before. -/
  | asking {T' t a k below} (wakeUp : List (Job G)) (h : Machine.children T p = [(g, T')])
      (hwakeUp : WakeUp wakeUp) :
      Busy p g T ⟨t, .going a,
        wakeUp ++ .serve (.poll (.forwarding T'.join) k) :: T.polled :: below⟩
  | pending {t a f below} (ha : a.toPoll = .pending f) (h : Wraps p g T f) :
      Busy p g T ⟨t, .going a, T.polled :: below⟩
  | ready {T' o t a below} (ha : a.toPoll = .ready o.flatten .spent) (h : Took p g T T' o) :
      Busy p g T ⟨t, .going a, T.polled :: below⟩
  /-- Nothing is left of the future, but it is dropped all the same. -/
  | dropping {T' o t a below} (h : Took p g T T' o) :
      Busy p g T ⟨t, .going a, .drop .spent :: T.ended (.ok o.flatten) :: below⟩
  | ended {T' o t a below} (h : Took p g T T' o) :
      Busy p g T ⟨t, .going a, T.ended (.ok o.flatten) :: below⟩
  | filling {T' o t a below} (h : Took p g T T' o) :
      Busy p g T ⟨t, .going a,
        .fill T.join (.ok o.flatten) :: .taskFinished T.loop T.slot :: below⟩

/-- How far task `T` has come, whose future is a wrapper of `g`. -/
inductive Layered (p : List (Machine G)) (g : Future G.Coroutine) (T : Awaited) (m : Machine G) :
    Prop where
  | seated {started f} (ht : m.world.task? T.loop T.slot = some (T.seat started f))
      (h : Wraps p g T f)
  | busy {q} (hq : q ∈ m.strands) (h : Busy p g T q)
  | past {T' o} (hfilled : .filled T.join (.ok o.flatten) ∈ Machine.story p)
      (h : Took p g T T' o)

variable {code : G.Code} {m m' : Machine G} {p p' : List (Machine G)} {g f : Future G.Coroutine}
  {T T' : Awaited} {q : Parked G} {o : Joined} {rest : List (Job G)} {k : WakerId} {a : Answer G}

namespace Machine

/-! ## What a task spawns -/

theorem jobs_of_polls (h : T.polls m = true) : ∃ job rest, m.jobs = job :: T.polled :: rest := by
  unfold Awaited.polls at h
  split at h
  · rename_i job l slot j rest hj
    obtain ⟨⟨rfl, rfl⟩, rfl⟩ : (l = T.loop ∧ slot = T.slot) ∧ j = T.join := by simpa using h
    exact ⟨job, rest, hj⟩
  · cases h

theorem children_append (T : Awaited) (p p' : List (Machine G)) :
    children T (p ++ p') = children T p ++ children T p' := by
  simp [children]

/-- A step by which nothing is spawned to run an awaitable leaves the children as they are. -/
theorem children_of_nested?_eq_none (h : m.nested? = none) (T : Awaited) :
    children T (p ++ [m]) = children T p := by
  rw [children_append]
  cases hpolls : T.polls m <;> simp [children, hpolls, h]

/-- Where task `T` is not being polled, it spawns nothing. -/
theorem children_of_not_polled (h : T.polled ∉ m.jobs) :
    children T (p ++ [m]) = children T p := by
  have hpolls : T.polls m = false := by
    by_contra hpolls
    obtain ⟨job, rest, hj⟩ := jobs_of_polls (by simpa using hpolls)
    exact h (by simp [hj])
  rw [children_append]
  simp [children, hpolls]

/-- What is spawned by the poll of an awaitable in a poll of `T` is a child of `T`. -/
theorem children_of_nested? (h : m.nested? = some (f, T'))
    (hj : m.jobs = .serve (.poll (.nested f) k) :: T.polled :: rest) :
    children T (p ++ [m]) = children T p ++ [(f, T')] := by
  have hpolls : T.polls m = true := by simp [Awaited.polls, Awaited.polled, hj]
  rw [children_append]
  simp [children, hpolls, h]

end Machine

/-! ## The stages are kept -/

theorem Wraps.next (h : Wraps p g T f)
    (hc : Machine.children T (p ++ [m]) = Machine.children T p) : Wraps (p ++ [m]) g T f := by
  cases h with
  | unpolled h => exact .unpolled (hc.trans h)
  | forwarding h => exact .forwarding (hc.trans h)

theorem Took.next (h : Took p g T T' o)
    (hc : Machine.children T (p ++ [m]) = Machine.children T p) : Took (p ++ [m]) g T T' o :=
  ⟨hc.trans h.child, Machine.mem_story_append h.taken _, Machine.mem_story_append h.finished _⟩

theorem Busy.next (h : Busy p g T q)
    (hc : Machine.children T (p ++ [m]) = Machine.children T p) : Busy (p ++ [m]) g T q := by
  cases h with
  | spawning h => exact .spawning (hc.trans h)
  | asking wakeUp h hwakeUp => exact .asking wakeUp (hc.trans h) hwakeUp
  | pending ha h => exact .pending ha (h.next hc)
  | ready ha h => exact .ready ha (h.next hc)
  | dropping h => exact .dropping (h.next hc)
  | ended h => exact .ended (h.next hc)
  | filling h => exact .filling (h.next hc)

/-- Somewhere on the stack the task is being polled, or ends. -/
theorem Busy.exists_isTask (h : Busy p g T q) : ∃ job ∈ q.jobs, job.isTask T.loop = true := by
  cases h with
  | spawning | asking | pending | ready => exact ⟨T.polled, by simp, Awaited.isTask_polled⟩
  | @dropping _ o | @ended _ o =>
    exact ⟨T.ended (.ok o.flatten), by simp, by simp [Awaited.ended, Job.isTask]⟩
  | filling => exact ⟨.taskFinished T.loop T.slot, by simp, by simp [Job.isTask]⟩

theorem Layered.switch (switched : m.Switched m') (h : Layered p g T m) : Layered p g T m' := by
  cases h with
  | @seated started f ht h =>
    have ht' : m'.world.task? T.loop T.slot = some (T.seat started f) := by
      rwa [World.task?_of_keeps switched.objects.keeps]
    exact .seated ht' h
  | busy hq h =>
    obtain ⟨job, hjob, _⟩ := h.exists_isTask
    exact .busy (switched.mem_strands hq (List.ne_nil_of_mem hjob)) h
  | past hfilled h => exact .past hfilled h

namespace Machine

/-- What the running thread does. -/
theorem layered_of_running {jobs : List (Job G)} (hmode : m.mode = .going a) (hj : m.jobs = jobs)
    (h : Busy p g T ⟨m.world.thread, .going a, jobs⟩) : Layered p g T m :=
  .busy (mem_strands_running hmode hj) h

/-- While a task is on the stack of a waiting thread, nothing is done about it. -/
theorem Walked.layered_parked (hm : Walked code p m) (hi : m.isIdle = false)
    (live : m.isAborted = false) (hq : q ∈ m.threads.parked) (h : Busy p g T q) :
    Layered (p ++ [m]) g T (m.step code) := by
  obtain ⟨job, hjob, htask⟩ := h.exists_isTask
  have hnot := hm.isTask_of_parked hq hjob htask
  have hc : children T (p ++ [m]) = children T p := by
    refine children_of_not_polled fun hmem => ?_
    have := hnot _ hmem
    simp [Awaited.polled, Job.isTask] at this
  obtain ⟨_, _, _, _, hothers⟩ := strand_of_step code hi live
  exact .busy (hothers q hq (List.ne_nil_of_mem hjob)) (h.next hc)

theorem going_turn_wake {l : LoopId} {slot : Nat} {batch : List (Entry G)}
    (hj : m.jobs = .turn l k f (.wake slot :: batch) :: rest) (hmode : m.mode = .going a) :
    (m.step code).mode = .going .nothing := by
  rw [step_of_going hj hmode rfl]
  simp only [perform, turn, process, pollTask]
  split <;> rfl

/-- Between two polls a wrapper stays in the table, until it is polled again. -/
theorem Walked.layered_seated (hm : Walked code p m) (hi : m.isIdle = false)
    (hopen : m.world.isClosed T.loop = false) {started : Bool}
    (ht : m.world.task? T.loop T.slot = some (T.seat started f)) (h : Wraps p g T f) :
    Layered (p ++ [m]) g T (m.step code) := by
  have hc : children T (p ++ [m]) = children T p := by
    refine children_of_not_polled fun hmem => ?_
    have hnone := (hm.work_eq_none_iff ht).mpr
      ⟨T.polled, List.mem_append_left _ hmem, Awaited.holds_polled⟩
    cases hnone
  rcases hm.task?_of_move hopen (.act hi) ht with ht' | ⟨_, hbegun, _⟩ | ⟨hnone, _⟩ | ⟨hnone, _⟩
  · exact .seated ht' (h.next hc)
  · have hb : .begun T.loop T.slot T.waker ∈ m.milestones := by
      rw [hbegun]
      exact List.mem_cons_self
    obtain ⟨k, f', batch, rest, a, work, hj, hmode, ht'⟩ := begun_of_milestone hb
    obtain rfl : work = ⟨.joined T.join, started, f⟩ := by
      simpa [Awaited.seat] using ht'.symm.trans ht
    obtain ⟨hjobs, _⟩ := step_turn_wake code hj hmode ht'
    have hgoing : (m.step code).mode = .going .nothing := going_turn_wake hj hmode
    cases h with
    | unpolled h => exact layered_of_running hgoing hjobs (.spawning (hc.trans h))
    | forwarding h => exact layered_of_running hgoing hjobs (.asking [] (hc.trans h) (.inl rfl))
  · cases hnone
  · cases hnone

/-! ## A wrapper that is being polled -/

theorem mem_children (h : (f, T') ∈ children T p) :
    ∃ m ∈ p, T.polls m = true ∧ m.nested? = some (f, T') := by
  obtain ⟨m, hmem, hnested⟩ := List.mem_filterMap.mp h
  obtain ⟨hmem, hpolls⟩ := List.mem_filter.mp hmem
  exact ⟨m, hmem, hpolls, hnested⟩

/-- A child of a task was spawned on the same loop. -/
theorem Walked.child (hm : Walked code p m) (h : (f, T') ∈ children T p) :
    T'.loop = T.loop ∧ T'.Spawned p := by
  obtain ⟨m₁, hmem, hpolls, hnested⟩ := mem_children h
  obtain ⟨p₁, p₂, rfl, hm₁, _⟩ := hm.of_mem hmem
  obtain ⟨job, rest, hj⟩ := jobs_of_polls hpolls
  obtain ⟨_, _, _, _, _, hl, _⟩ := nested?_eq_some hnested
  refine ⟨?_, spawned_of_nested? (by simp) hnested⟩
  exact Option.some.inj (hl.symm.trans (hm₁.current_of_polled (by simp [hj])))

theorem Walked.whereabouts_child (hm : Walked code p m) (hopen : m.world.isClosed T'.loop = false)
    (h : (f, T') ∈ children T p) : Whereabouts p T' m := by
  obtain ⟨m₁, hmem, _, hnested⟩ := mem_children h
  obtain ⟨p₁, p₂, rfl, hm₁, walk⟩ := hm.of_mem hmem
  exact hm₁.whereabouts hnested walk hopen

/-- A wrapper that asks the join slot passes on what it finds there. -/
theorem Walked.layered_asking (hm : Walked code p m) (hopen : m.world.isClosed T.loop = false)
    (h : children T p = [(g, T')]) (hmode : m.mode = .going a)
    (hj : m.jobs = .serve (.poll (.forwarding T'.join) k) :: T.polled :: rest) :
    Layered (p ++ [m]) g T (m.step code) := by
  have hchild : (g, T') ∈ children T p := by simp [h]
  obtain ⟨hloop, hs⟩ := hm.child hchild
  obtain ⟨x, hx, htaken, _⟩ := (hm.delivery hs).slot
  have hc : children T (p ++ [m]) = [(g, T')] := by
    rw [children_of_nested?_eq_none (by simp [nested?, hj]), h]
  obtain ⟨hgoing, hjobs, htold⟩ := step_read code rfl hj hmode hx
  cases ho : x.outcome with
  | none =>
    rw [ho] at hgoing
    exact layered_of_running hgoing hjobs (.pending rfl (.forwarding hc))
  | some o =>
    rw [ho] at hgoing htold htaken
    have hf : filledInto T'.join (story p) ≠ [] := by
      rw [← htaken]
      simp
    have hcurrent : m.current = some T'.loop := by
      rw [hloop]
      exact hm.current_of_polled (by simp [hj])
    have hwhere := hm.whereabouts_child (hloop ▸ hopen) hchild
    have hfinished := hm.finished_of_filled hwhere hs hcurrent hj hf
    refine layered_of_running hgoing hjobs (.ready rfl ⟨hc, ?_, mem_story_append hfinished _⟩)
    simp [story, htold]

/-- The step of a wrapper that is being polled, or ends. -/
theorem Walked.layered_running (hm : Walked code p m) (hopen : m.world.isClosed T.loop = false)
    (hs : T.Spawned p) (h : Busy p g T q) (hmode : q.mode = m.mode) (hj : q.jobs = m.jobs) :
    Layered (p ++ [m]) g T (m.step code) := by
  -- only the poll of an awaitable spawns something
  have quiet : m.nested? = none → children T (p ++ [m]) = children T p :=
    fun hnone => children_of_nested?_eq_none hnone T
  cases h with
  | spawning h =>
    have hj := hj.symm
    have hcurrent := hm.current_of_polled (T := T) (by simp [hj])
    have hnested : m.nested? = some (g, ⟨T.loop, m.world.nextSlot T.loop, ⟨m.world.wakers.size⟩,
        ⟨m.world.joins.size⟩⟩) := by
      simp [nested?, hj, ← hmode, hcurrent]
    obtain ⟨hjobs, hgoing, _⟩ := hm.step_nested hnested hj
    have hc := children_of_nested? (p := p) hnested hj
    rw [h] at hc
    exact layered_of_running hgoing hjobs (.asking [.wake _] hc (.inr (.inl ⟨_, rfl⟩)))
  | asking wakeUp h hwakeUp =>
    by_cases hne : wakeUp = []
    · subst hne
      exact hm.layered_asking hopen h hmode.symm hj.symm
    · obtain ⟨hnone, wakeUp', hwakeUp', hjobs, hgoing⟩ :=
        step_wakeUp code hwakeUp hne hj.symm hmode.symm
      exact layered_of_running hgoing hjobs (.asking wakeUp' ((quiet hnone).trans h) hwakeUp')
  | @pending _ a f below ha h =>
    have hj : m.jobs = .taskPolled T.loop T.slot (.joined T.join) :: below := hj.symm
    obtain ⟨k, ht, hs'⟩ := hm.spawned_of_polled (T := T) (by simp [hj, Awaited.polled])
    obtain ⟨_, _, rfl⟩ := hm.census.joined_unique hs' hs
    obtain ⟨ht', _⟩ := step_taskPolled_pending code hj hmode.symm ha ht
    exact .seated ht' (h.next (quiet (by simp [nested?, hj])))
  | @ready T' o _ a below ha h =>
    have hj : m.jobs = .taskPolled T.loop T.slot (.joined T.join) :: below := hj.symm
    obtain ⟨_, hjobs⟩ := step_taskPolled_ready code hj hmode.symm ha
    have hgoing : (m.step code).mode = .going .nothing := by
      rw [step_of_going hj hmode.symm rfl]
      simp only [perform, taskPolled, ha]
      rfl
    exact layered_of_running hgoing hjobs (.dropping (h.next (quiet (by simp [nested?, hj]))))
  | @dropping T' o _ a below h =>
    have hj : m.jobs = .drop .spent :: T.ended (.ok o.flatten) :: below := hj.symm
    have hstep : m.step code = { m with jobs := _ }.perform code a (.drop .spent) :=
      step_of_going hj hmode.symm rfl
    have hgoing : (m.step code).mode = .going .nothing := by rw [hstep]; rfl
    have hjobs : (m.step code).jobs = T.ended (.ok o.flatten) :: below := by rw [hstep]; rfl
    exact layered_of_running hgoing hjobs (.ended (h.next (quiet (by simp [nested?, hj]))))
  | @ended T' o _ a below h =>
    have hj : m.jobs = .taskEnded T.loop T.slot (.joined T.join) (.ok o.flatten) :: below := hj.symm
    have hgoing : (m.step code).mode = .going .nothing := by
      rw [step_of_going hj hmode.symm rfl]
      rfl
    have hjobs := step_taskEnded code hj hmode.symm
    exact layered_of_running hgoing hjobs (.filling (h.next (quiet (by simp [nested?, hj]))))
  | @filling T' o _ a below h =>
    have hj := hj.symm
    obtain ⟨x, hx⟩ := hm.census.join?_of_spawned hs
    obtain ⟨htold, _⟩ := step_fill code hj hmode.symm hx
    refine .past ?_ (h.next (quiet (by simp [nested?, hj])))
    simp [story, htold]

/-- **A wrapper goes on from one stage to the next**, as long as its loop is open. -/
theorem Walked.layered_step (hm : Walked code p m) (hi : m.isIdle = false)
    (live : m.isAborted = false) (hopen : m.world.isClosed T.loop = false) (hs : T.Spawned p)
    (h : Layered p g T m) : Layered (p ++ [m]) g T (m.step code) := by
  cases h with
  | seated ht h => exact hm.layered_seated hi hopen ht h
  | busy hq h =>
    rcases List.mem_cons.mp hq with rfl | hq
    · exact hm.layered_running hopen hs h rfl rfl
    · exact hm.layered_parked hi live hq h
  | past hfilled h =>
    have hnot : T.polled ∉ m.jobs := by
      intro hmem
      have herrand := mem_errands_of_holds (List.mem_append_left _ hmem) Awaited.holds_polled
      have htoken : (T.polled : Job G).token? T.join = some none := by
        simp [Awaited.polled, Job.token?]
      have hnil := ((hm.delivery hs).filledInto_eq_nil herrand htoken).1
      exact List.ne_nil_of_mem (mem_filledInto.mpr hfilled) hnil
    exact .past (mem_story_append hfilled _) (h.next (children_of_not_polled hnot))

/-! ## The life of a wrapper -/

/-- A task that is spawned just now has spawned nothing itself. -/
theorem Walked.children_of_new (hm : Walked code p m) (h : m.nested? = some (f, T)) :
    children T (p ++ [m]) = [] := by
  have hnot : ∀ k, .spawned T.loop T.slot k (.joined T.join) ∉ story p := by
    obtain ⟨_, _, _, _, _, _, hT⟩ := nested?_eq_some h
    intro k
    rw [hT]
    exact hm.census.not_spawned_next
  have hnow : T.polled ∉ m.jobs := fun hmem =>
    let ⟨k, _, hs⟩ := hm.spawned_of_polled hmem
    hnot k hs
  rw [children_of_not_polled hnow, List.eq_nil_iff_forall_not_mem]
  intro child hchild
  obtain ⟨m₁, hmem, hpolls, _⟩ := mem_children hchild
  obtain ⟨p₁, p₂, rfl, hm₁, _⟩ := hm.of_mem hmem
  obtain ⟨job, rest, hj⟩ := jobs_of_polls hpolls
  obtain ⟨k, _, hs⟩ := hm₁.spawned_of_polled (T := T) (by simp [hj])
  exact hnot k (mem_story_append hs _)

/-- **A task whose future is a wrapper is in one of the stages at any time**, from its spawning on
and as long as its loop is open. -/
theorem Walked.layered (hm : Walked code p m) (h : m.nested? = some (.nested g, T))
    (walk : Walk code (m.step code) p' m') (hopen : m'.world.isClosed T.loop = false) :
    Layered (p ++ m :: p') g T m' := by
  obtain ⟨k, rest, a, hj, _⟩ := nested?_eq_some h
  obtain ⟨_, _, ht⟩ := hm.step_nested h hj
  exact hm.since_spawned h (.seated ht (.unpolled (hm.children_of_new h)))
    (fun hm₁ hi live ho hs => hm₁.layered_step hi live ho hs) Layered.switch walk hopen

end Machine

end RunLoop
