import RunLoop.Proofs.JoinHandles
import RunLoop.Proofs.Yielding

/-!
# Tasks that run an awaitable

A future that runs an awaitable as a task of its own spawns it by its first poll. Such a task is
followed here through its life: it is in the table, or is polled, or it came to its end and its
outcome is being handed over, and then it is gone. User code that runs on its loop and finds the
outcome at the join slot finds the task gone, too: between the one and the other, nobody is polled.

* `Awaited` is a task that somebody awaits; `Machine.nested?` tells which one a poll spawns.
* `Whereabouts` says where such a task is.
* `Machine.Walked.whereabouts`: it is somewhere, at any time.
* `Machine.Walked.finished_of_filled`: where its outcome can be asked for, the task is gone.
-/

namespace RunLoop

variable {G : Guest}

/-- A task that somebody awaits: where it is, its waker and its join slot. -/
structure Awaited where
  loop : LoopId
  slot : Nat
  waker : WakerId
  join : JoinId

namespace Awaited

/-- The job in which the poll of a task is waited for. -/
def polled (T : Awaited) : Job G :=
  .taskPolled T.loop T.slot (.joined T.join)

/-- The task is about to hand its outcome over. -/
def ended (T : Awaited) (o : Joined) : Job G :=
  .taskEnded T.loop T.slot (.joined T.join) o

/-- A task with its future in the table. -/
def seat (T : Awaited) (started : Bool) (f : Future G.Coroutine) : Task G.Coroutine :=
  ⟨T.waker, some ⟨.joined T.join, started, f⟩⟩

/-- The task was put into the table of its loop. -/
def Spawned (T : Awaited) (p : List (Machine G)) : Prop :=
  .spawned T.loop T.slot T.waker (.joined T.join) ∈ Machine.story p

/-- The task came to its end and left the table. -/
def Finished (T : Awaited) (p : List (Machine G)) : Prop :=
  .finished T.loop T.slot T.waker ∈ Machine.story p

variable {T : Awaited}

theorem isTask_polled : (T.polled : Job G).isTask T.loop = true := by
  simp [polled, Job.isTask]

theorem holds_polled : (T.polled : Job G).holds T.loop T.slot = true := by
  simp [polled, Job.holds]

end Awaited

/-- Whoever is to be woken is about to be: a waker is marked, or its target queued. -/
def WakeUp (jobs : List (Job G)) : Prop :=
  jobs = [] ∨ (∃ k, jobs = [.wake k]) ∨ ∃ k, jobs = [.notify k]

/-- Where task `T` is, as long as its loop is open. -/
inductive Whereabouts (p : List (Machine G)) (T : Awaited) (m : Machine G) : Prop where
  | seated {work} (ht : m.world.task? T.loop T.slot = some ⟨T.waker, some work⟩)
  | polled {t below} (h : m.Holds t (T.polled :: below))
  | ended {t o below} (h : m.Holds t (T.ended o :: below))
  /-- The outcome is about to be put into the join slot. -/
  | filling {q a o job below} (hq : q ∈ m.strands) (hmode : q.mode = .going a)
      (hj : q.jobs = .fill T.join o :: job :: below) (hjob : job.removes T.loop T.slot = true)
  /-- Whoever waits for the outcome is woken before the task leaves. -/
  | leaving {q a wakeUp job below} (hq : q ∈ m.strands) (hmode : q.mode = .going a)
      (hj : q.jobs = wakeUp ++ job :: below) (hjob : job.removes T.loop T.slot = true)
      (hwakeUp : WakeUp wakeUp) (hf : filledInto T.join (Machine.story p) ≠ [])
  | past (hfinished : T.Finished p)

variable {code : G.Code} {m m' m₁ : Machine G} {p p' : List (Machine G)} {f : Future G.Coroutine}
  {T : Awaited} {q : Parked G} {o : Joined} {rest : List (Job G)} {k : WakerId} {a : Answer G}
  {l : LoopId}

theorem mem_filledInto {j : JoinId} {σ : List Milestone} :
    o ∈ filledInto j σ ↔ .filled j o ∈ σ := by
  simp [filledInto, Milestone.filled?_eq_some_iff]

theorem mem_takenFrom {j : JoinId} {σ : List Milestone} :
    o ∈ takenFrom j σ ↔ .taken j o ∈ σ := by
  simp [takenFrom, Milestone.taken?_eq_some_iff]

namespace Machine

/-! ## Walks -/

theorem Walked.of_mem (hm : Walked code p m) (h : m₁ ∈ p) :
    ∃ p₁ p₂, p = p₁ ++ m₁ :: p₂ ∧ Walked code p₁ m₁ ∧ Walk code (m₁.step code) p₂ m := by
  obtain ⟨shared, run, walk⟩ := hm
  obtain ⟨p₁, p₂, he, before, _, _, after⟩ := walk.of_mem h
  exact ⟨p₁, p₂, he, ⟨shared, run, before⟩, after⟩

/-- A loop that is open was open all the time since it was built. -/
theorem Walked.open_between {p₁ p₂ : List (Machine G)} (hm : Walked code p m)
    (ho : m.world.isClosed l = false) (before : Walk code m p₁ m₁) (after : Walk code m₁ p₂ m')
    (ho' : m'.world.isClosed l = false) : m₁.world.isClosed l = false :=
  after.history.isClosed_eq_false (hm.trans before).reached
    ((before.history.fifo hm.reached l).phase_ne_unbuilt (phase_ne_unbuilt ho)) ho'

/-! ## Spawning the task of an awaitable -/

/-- The task that is about to be spawned by the poll of an awaitable, with the future it runs. -/
def nested? (m : Machine G) : Option (Future G.Coroutine × Awaited) :=
  match m.jobs, m.mode, m.current with
  | .serve (.poll (.nested f) _) :: _, .going _, some l =>
      some (f, ⟨l, m.world.nextSlot l, ⟨m.world.wakers.size⟩, ⟨m.world.joins.size⟩⟩)
  | _, _, _ => none

theorem nested?_eq_some (h : m.nested? = some (f, T)) : ∃ k rest a,
    m.jobs = .serve (.poll (.nested f) k) :: rest ∧ m.mode = .going a ∧
      m.current = some T.loop ∧
      T = ⟨T.loop, m.world.nextSlot T.loop, ⟨m.world.wakers.size⟩, ⟨m.world.joins.size⟩⟩ := by
  unfold nested? at h
  split at h
  · rename_i f' k rest a l hj hmode hl
    obtain ⟨rfl, rfl⟩ : f' = f ∧ _ = T := by simpa using h
    exact ⟨k, rest, a, hj, hmode, hl, rfl⟩
  · cases h

theorem not_idle_of_nested? (h : m.nested? = some (f, T)) :
    m.isIdle = false ∧ m.isAborted = false := by
  obtain ⟨k, rest, a, hj, hmode, _⟩ := nested?_eq_some h
  simp [isIdle, isAborted, hj, hmode, mustWait]

theorem milestones_of_nested? (h : m.nested? = some (f, T)) :
    m.milestones = [.spawned T.loop T.slot T.waker (.joined T.join)] := by
  obtain ⟨k, rest, a, hj, hmode, hl, hT⟩ := nested?_eq_some h
  have hl : m.world.thread.current = some T.loop := hl
  simp only [milestones, hj, hmode, World.told, World.toldOfSpawn, hl]
  rw [hT]

theorem spawned_of_nested? (hmem : m₁ ∈ p) (h : m₁.nested? = some (f, T)) : T.Spawned p :=
  List.mem_flatMap.mpr ⟨m₁, hmem, by simp [milestones_of_nested? h]⟩

/-- The first poll of an awaitable spawns its task, and then asks the join slot. -/
theorem Walked.step_nested (hm : Walked code p m) (h : m.nested? = some (f, T))
    (hj : m.jobs = .serve (.poll (.nested f) k) :: rest) :
    (m.step code).jobs = .wake T.waker :: .serve (.poll (.forwarding T.join) k) :: rest ∧
      (m.step code).mode = .going .nothing ∧
      (m.step code).world.task? T.loop T.slot = some (T.seat false (f.map code.accept)) := by
  obtain ⟨k', rest', a, hj', hmode, hl, hT⟩ := nested?_eq_some h
  have hl' : m.world.thread.current = some T.loop := hl
  have hstep : m.step code = { m with jobs := rest }.poll code k (.nested f) :=
    step_of_going hj hmode rfl
  have hcurrent : current { m with jobs := rest } = some T.loop := hl
  simp only [poll, hcurrent] at hstep
  have htables : ∃ s, m.world.tasks? T.loop = some s :=
    World.tasks?_of_isClosed (hm.reached.opened_of_current hl')
  have hv : m.world.newJoin.1.TablesValid := hm.census.valid
  refine ⟨?_, ?_, ?_⟩
  · rw [hstep, hT]
    rfl
  · rw [hstep]
    rfl
  · rw [hstep, hT]
    exact (hv.task?_addTask htables).trans (if_pos ⟨rfl, rfl⟩)

/-! ## Waking -/

/-- A wake-up goes on without leaving an answer. -/
theorem step_wakeUp (code : G.Code) {wakeUp : List (Job G)} (h : WakeUp wakeUp) (hne : wakeUp ≠ [])
    (hj : m.jobs = wakeUp ++ rest) (hmode : m.mode = .going a) :
    m.nested? = none ∧ ∃ wakeUp', WakeUp wakeUp' ∧ (m.step code).jobs = wakeUp' ++ rest ∧
      (m.step code).mode = .going a := by
  rcases h with rfl | ⟨k, rfl⟩ | ⟨k, rfl⟩
  · exact absurd rfl hne
  · have hj : m.jobs = .wake k :: rest := hj
    refine ⟨by simp [nested?, hj], ?_⟩
    rw [step_of_going hj hmode rfl]
    simp only [perform, wake]
    split
    · exact ⟨[], .inl rfl, rfl, hmode⟩
    · exact ⟨[.notify k], .inr (.inr ⟨k, rfl⟩), rfl, hmode⟩
  · have hj : m.jobs = .notify k :: rest := hj
    refine ⟨by simp [nested?, hj], ?_⟩
    rw [step_of_going hj hmode rfl]
    exact ⟨[], .inl rfl, rfl, hmode⟩

/-- Filling a join slot wakes the one who asked last. -/
theorem step_fill_wakeUp (code : G.Code) {j : JoinId} {x : JoinSlot}
    (hj : m.jobs = .fill j o :: rest) (hmode : m.mode = .going a)
    (hx : m.world.join? j = some x) : m.milestones = [.filled j o] ∧
      ∃ wakeUp, WakeUp wakeUp ∧ (m.step code).jobs = wakeUp ++ rest ∧
        (m.step code).mode = .going a := by
  obtain ⟨htold, _, hjobs⟩ := step_fill code hj hmode hx
  refine ⟨htold, _, ?_, hjobs, ?_⟩
  · cases x.waiter with
    | none => exact .inl rfl
    | some k => exact .inr (.inl ⟨k, rfl⟩)
  · rw [step_of_going hj hmode rfl]
    exact hmode

/-! ## Where a task is -/

/-- Next to a task that is on the stack of a waiting thread, the running thread polls none. -/
theorem Walked.isTask_of_parked (hm : Walked code p m) (hq : q ∈ m.threads.parked) {job : Job G}
    (hjob : job ∈ q.jobs) (htask : job.isTask l = true) : ∀ i ∈ m.jobs, i.isTask l = false := by
  intro i hi
  by_contra h
  have hone := hm.countP_isTask l
  have hrunning : 0 < m.jobs.countP (Job.isTask l) :=
    List.countP_pos_iff.mpr ⟨i, hi, by simpa using h⟩
  have hparked : 0 < (m.threads.parked.flatMap (·.jobs)).countP (Job.isTask l) :=
    List.countP_pos_iff.mpr ⟨job, List.mem_flatMap.mpr ⟨q, hq, hjob⟩, htask⟩
  rw [allJobs, List.countP_append] at hone
  omega

theorem Walked.spawned_of_polled (hm : Walked code p m) (h : T.polled ∈ m.jobs) :
    ∃ k, m.world.task? T.loop T.slot = some ⟨k, none⟩ ∧
      .spawned T.loop T.slot k (.joined T.join) ∈ story p :=
  hm.census.spawned_of_polled
    (mem_errands_of_holds (List.mem_append_left _ h) Awaited.holds_polled)

/-- A task that is polled runs on the loop that is current. -/
theorem Walked.current_of_polled (hm : Walked code p m) (h : T.polled ∈ m.jobs) :
    m.current = some T.loop := by
  have hmem : (⟨m.world.thread, m.mode, m.jobs⟩ : Parked G) ∈ m.strands := List.mem_cons_self
  exact (hm.sound.current_iff hmem T.loop).mpr
    (hm.sound.inside_of_mem hmem h (.inr Awaited.isTask_polled))

theorem Walked.not_dropped (hm : Walked code p m) (hopen : m.world.isClosed T.loop = false) :
    .dropped T.loop T.slot T.waker (some (.joined T.join)) ∉ story p := by
  intro hdropped
  have hclosed := hm.reached.isClosed_of_closed (hm.of_dropped hdropped).1
  rw [hopen] at hclosed
  cases hclosed

/-- The stack of the running thread. -/
theorem holds_of_jobs (above : List (Job G)) {jobs : List (Job G)} (hj : m.jobs = above ++ jobs) :
    m.Holds m.world.thread.id jobs :=
  ⟨_, List.mem_cons_self, rfl, above, hj.symm⟩

theorem Walked.whereabouts_seated (hm : Walked code p m) (hi : m.isIdle = false)
    (hopen : m.world.isClosed T.loop = false) (hs : T.Spawned p) {work : Work G.Coroutine}
    (ht : m.world.task? T.loop T.slot = some ⟨T.waker, some work⟩) :
    Whereabouts (p ++ [m]) T (m.step code) := by
  rcases hm.task?_of_move hopen (.act hi) ht with ht' | ⟨_, hbegun, _⟩ | ⟨hnone, _⟩ | ⟨hnone, _⟩
  · exact .seated ht'
  · have hb : .begun T.loop T.slot T.waker ∈ m.milestones := by
      rw [hbegun]
      exact List.mem_cons_self
    obtain ⟨k, f, batch, rest, a, work', hj, hmode, ht'⟩ := begun_of_milestone hb
    obtain ⟨_, _, hkind⟩ := hm.census.spawned_unique (hm.census.known _ _ _ _ ht') hs
    obtain ⟨hjobs, _⟩ := step_turn_wake code hj hmode ht'
    rw [hkind] at hjobs
    exact .polled (holds_of_jobs [_] hjobs)
  · cases hnone
  · cases hnone

/-- The poll of a task comes to something. -/
theorem Walked.whereabouts_polled (hm : Walked code p m) (live : m.isAborted = false)
    (hs : T.Spawned p) (hj : m.jobs = T.polled :: rest) :
    Whereabouts (p ++ [m]) T (m.step code) := by
  cases hmode : m.mode with
  | aborted => simp [isAborted, hmode] at live
  | unwinding panic r =>
    obtain ⟨_, hjobs⟩ := step_taskPolled_panicked code hj hmode
    exact .ended (holds_of_jobs _ hjobs)
  | going a =>
    cases hpoll : a.toPoll with
    | ready r f =>
      obtain ⟨_, hjobs⟩ := step_taskPolled_ready code hj hmode hpoll
      exact .ended (holds_of_jobs [_] hjobs)
    | pending f =>
      obtain ⟨k, ht, hs'⟩ := hm.spawned_of_polled (T := T) (by simp [hj])
      obtain ⟨_, _, rfl⟩ := hm.census.joined_unique hs' hs
      exact .seated (step_taskPolled_pending code hj hmode hpoll ht).1

/-- The stack of the running thread. -/
theorem mem_strands_running (hmode : m.mode = .going a) {jobs : List (Job G)} (hj : m.jobs = jobs) :
    (⟨m.world.thread, .going a, jobs⟩ : Parked G) ∈ m.strands := by
  rw [← hmode, ← hj]
  exact List.mem_cons_self

/-- The outcome of a task is handed over; if its future panicked when it was dropped, the task
counts as cancelled. -/
theorem whereabouts_ended (code : G.Code) (live : m.isAborted = false)
    (hj : m.jobs = T.ended o :: rest) : Whereabouts (p ++ [m]) T (m.step code) := by
  cases hmode : m.mode with
  | aborted => simp [isAborted, hmode] at live
  | unwinding panic r =>
    have hstep : m.step code = { m with jobs := rest }.push
        [.fill T.join (.error .cancelled), .taskPanicked T.loop T.slot panic] :=
      step_of_unwinding hj hmode
    have hgoing : (m.step code).mode = .going .nothing := by rw [hstep]; rfl
    have hjobs : (m.step code).jobs = .fill T.join (.error .cancelled) ::
        .taskPanicked T.loop T.slot panic :: rest := by rw [hstep]; rfl
    exact .filling (mem_strands_running hgoing hjobs) rfl rfl (by simp [Job.removes])
  | going a =>
    have hjobs := step_taskEnded code hj hmode
    have hgoing : (m.step code).mode = .going .nothing := by
      rw [step_of_going hj hmode rfl]
      rfl
    exact .filling (mem_strands_running hgoing hjobs) rfl rfl (by simp [Job.removes])

/-- A task whose outcome was handed over leaves. -/
theorem Walked.whereabouts_leaving (hm : Walked code p m)
    (hopen : m.world.isClosed T.loop = false) (hs : T.Spawned p)
    (hf : filledInto T.join (story p) ≠ []) {job : Job G} (hj : m.jobs = job :: rest)
    (hmode : m.mode = .going a) (hjob : job.removes T.loop T.slot = true) :
    T.Finished (p ++ [m]) := by
  rcases hm.left_of_filled hs hf with hfinished | hdropped | ⟨ht, _⟩
  · exact mem_story_append hfinished _
  · exact absurd hdropped (hm.not_dropped hopen)
  · have htold : m.milestones = [.finished T.loop T.slot T.waker] := by
      cases job with
      | taskFinished l slot | taskPanicked l slot panic =>
        obtain ⟨rfl, rfl⟩ : l = T.loop ∧ slot = T.slot := by simpa [Job.removes] using hjob
        simp [milestones, hj, hmode, World.told, World.toldOfEnd, ht]
      | _ => cases hjob
    simp [Awaited.Finished, story, htold]

theorem Walked.whereabouts_step (hm : Walked code p m) (hi : m.isIdle = false)
    (live : m.isAborted = false) (hopen : m.world.isClosed T.loop = false) (hs : T.Spawned p)
    (h : Whereabouts p T m) : Whereabouts (p ++ [m]) T (m.step code) := by
  have elsewhere : ∀ {q : Parked G}, q ∈ m.threads.parked → q.jobs ≠ [] →
      q ∈ (m.step code).strands := by
    intro q hq hne
    obtain ⟨_, _, _, _, hothers⟩ := strand_of_step code hi live
    exact hothers q hq hne
  cases h with
  | seated ht => exact hm.whereabouts_seated hi hopen hs ht
  | polled h =>
    rcases h.step code hi live with h | ⟨_, hj, _⟩
    · exact .polled h
    · exact hm.whereabouts_polled live hs hj
  | ended h =>
    rcases h.step code hi live with h | ⟨_, hj, _⟩
    · exact .ended h
    · exact whereabouts_ended code live hj
  | @filling q a o job below hq hmode hj hjob =>
    rcases List.mem_cons.mp hq with rfl | hq
    swap
    · exact .filling (elsewhere hq (by simp [hj])) hmode hj hjob
    obtain ⟨x, hx⟩ := hm.census.join?_of_spawned hs
    obtain ⟨htold, wakeUp, hwakeUp, hjobs, hgoing⟩ := step_fill_wakeUp code hj hmode hx
    refine .leaving (mem_strands_running hgoing hjobs) rfl rfl hjob hwakeUp ?_
    have hfilled : .filled T.join o ∈ story (p ++ [m]) := by simp [story, htold]
    exact List.ne_nil_of_mem (mem_filledInto.mpr hfilled)
  | @leaving q a wakeUp job below hq hmode hj hjob hwakeUp hf =>
    have hf' : filledInto T.join (story (p ++ [m])) ≠ [] := by
      rw [story, List.flatMap_append, filledInto_append]
      exact fun he => hf (List.append_eq_nil_iff.mp he).1
    rcases List.mem_cons.mp hq with rfl | hq
    swap
    · exact .leaving (elsewhere hq (by simp [hj])) hmode hj hjob hwakeUp hf'
    by_cases hne : wakeUp = []
    · subst hne
      exact .past (hm.whereabouts_leaving hopen hs hf hj hmode hjob)
    · obtain ⟨_, wakeUp', hwakeUp', hjobs, hgoing⟩ := step_wakeUp code hwakeUp hne hj hmode
      exact .leaving (mem_strands_running hgoing hjobs) rfl rfl hjob hwakeUp' hf'
  | past hfinished => exact .past (mem_story_append hfinished _)

end Machine

theorem Whereabouts.switch (switched : m.Switched m') (h : Whereabouts p T m) :
    Whereabouts p T m' := by
  cases h with
  | seated ht =>
    rw [← World.task?_of_keeps switched.objects.keeps] at ht
    exact .seated ht
  | polled h => exact .polled (switched.holds h)
  | ended h => exact .ended (switched.holds h)
  | filling hq hmode hj hjob =>
    exact .filling (switched.mem_strands hq (by simp [hj])) hmode hj hjob
  | leaving hq hmode hj hjob hwakeUp hf =>
    exact .leaving (switched.mem_strands hq (by simp [hj])) hmode hj hjob hwakeUp hf
  | past hfinished => exact .past hfinished

namespace Machine

/-- What holds of a task when it is spawned, and goes on to hold as long as its loop is open, holds
at any time. -/
theorem Walked.since_spawned (hm : Walked code p m) (h : m.nested? = some (f, T))
    {I : List (Machine G) → Machine G → Prop} (born : I (p ++ [m]) (m.step code))
    (step : ∀ {p₁ m₁}, Walked code p₁ m₁ → m₁.isIdle = false → m₁.isAborted = false →
      m₁.world.isClosed T.loop = false → T.Spawned p₁ → I p₁ m₁ → I (p₁ ++ [m₁]) (m₁.step code))
    (switch : ∀ {p₁ m₁ m₂}, Switched m₁ m₂ → I p₁ m₁ → I p₁ m₂)
    (walk : Walk code (m.step code) p' m') (hopen : m'.world.isClosed T.loop = false) :
    I (p ++ m :: p') m' := by
  obtain ⟨hi, live⟩ := not_idle_of_nested? h
  obtain ⟨_, _, _, _, _, hl, _⟩ := nested?_eq_some h
  have hnow := hm.reached.opened_of_current hl
  have hs : T.Spawned (p ++ [m]) := spawned_of_nested? (by simp) h
  have hm₁ : Walked code (p ++ [m]) (m.step code) := hm.next hi live
  rw [show p ++ m :: p' = p ++ [m] ++ p' by simp]
  have same : ∀ {m₁ m₂ : Machine G}, m₁.Switched m₂ → m₂.world.isClosed T.loop = false →
      m₁.world.isClosed T.loop = false := by
    intro m₁ m₂ switched ho
    rwa [World.isClosed, World.loop?, ← switched.objects.loops]
  induction walk with
  | here => simpa using born
  | @act p' m₂ walk hi₂ live₂ ih =>
    have hopen₂ : m₂.world.isClosed T.loop = false :=
      hm.open_between hnow ((Walk.here.act hi live).trans walk) (Walk.here.act hi₂ live₂) hopen
    rw [← List.append_assoc]
    exact step (hm₁.trans walk) hi₂ live₂ hopen₂ (mem_story_append hs p') (ih hopen₂)
  | turnTo _ hp ih =>
    have switched := switched_turnTo hp
    exact switch switched (ih (same switched hopen))
  | @launch _ m₂ _ x _ ih =>
    have switched : m₂.Switched (m₂.launch x) := switched_launch x
    exact switch switched (ih (same switched hopen))

/-- **A task that runs an awaitable is somewhere at any time**, from its spawning on and as long as
its loop is open. -/
theorem Walked.whereabouts (hm : Walked code p m) (h : m.nested? = some (f, T))
    (walk : Walk code (m.step code) p' m') (hopen : m'.world.isClosed T.loop = false) :
    Whereabouts (p ++ m :: p') T m' := by
  obtain ⟨k, rest, a, hj, _⟩ := nested?_eq_some h
  obtain ⟨_, _, ht⟩ := hm.step_nested h hj
  exact hm.since_spawned h (.seated ht)
    (fun hm₁ hi live ho hs => hm₁.whereabouts_step hi live ho hs) Whereabouts.switch walk hopen

/-- Only the thread on which a loop is current polls its tasks. -/
theorem Sound.isTask_of_current (hs : m.Sound) (hl : m.current = some l)
    (hq : q ∈ m.threads.parked) : ∀ job ∈ q.jobs, job.isTask l = false := by
  intro job hjob
  by_contra htask
  have hmem : (⟨m.world.thread, m.mode, m.jobs⟩ : Parked G) ∈ m.strands := List.mem_cons_self
  obtain ⟨above, below, hj, _⟩ := (hs.current_iff hmem l).mp hl
  have hinside := hs.inside_of_mem (List.mem_cons_of_mem _ hq) hjob (.inr (by simpa using htask))
  obtain ⟨above', below', hj', _⟩ := hinside
  have hleave : (Job.leave l : Job G).isLeave l = true := by simp [Job.isLeave]
  have hrunning : 0 < m.jobs.countP (Job.isLeave l) :=
    List.countP_pos_iff.mpr ⟨.leave l, by simp [show m.jobs = _ from hj], hleave⟩
  have hparked : 0 < (m.threads.parked.flatMap (·.jobs)).countP (Job.isLeave l) :=
    List.countP_pos_iff.mpr ⟨.leave l, List.mem_flatMap.mpr ⟨q, hq, by simp [hj']⟩, hleave⟩
  have hone := hs.once l
  rw [allJobs, List.countP_append] at hone
  omega

/-- **Where the outcome of a task can be asked for on its loop, the task is gone** once the outcome
is there. -/
theorem Walked.finished_of_filled (hm : Walked code p m) (h : Whereabouts p T m) (hs : T.Spawned p)
    (hl : m.current = some T.loop) {q : Request G} (hj : m.jobs = .serve q :: rest)
    (hf : filledInto T.join (story p) ≠ []) : T.Finished p := by
  have no : ∀ {t : ThreadId} (job : Job G) {below : List (Job G)}, m.Holds t (job :: below) →
      job.isErrand = true → (job.token? T.join).isSome = true → False := by
    intro t job below ⟨q, hq, _, hsuffix⟩ herrand htoken
    obtain ⟨x, hx⟩ := Option.isSome_iff_exists.mp htoken
    have hmem : job ∈ m.errands := List.mem_filter.mpr ⟨mem_allJobs_of_suffix hq hsuffix, herrand⟩
    exact hf ((hm.delivery hs).filledInto_eq_nil hmem hx).1
  cases h with
  | seated ht =>
    have hnone := (hm.removed_of_filled hs hf ht).1
    cases hnone
  | polled h => exact (no T.polled h rfl (by simp [Awaited.polled, Job.token?])).elim
  | @ended _ o _ h => exact (no (T.ended o) h rfl (by simp [Awaited.ended, Job.token?])).elim
  | @filling q a o job below hq hmode hj' hjob =>
    exact (no (.fill T.join o) ⟨q, hq, rfl, [], hj'.symm⟩ rfl (by simp [Job.token?])).elim
  | @leaving q a wakeUp job below hq hmode hj' hjob hwakeUp _ =>
    rcases List.mem_cons.mp hq with rfl | hq
    · have hj' := hj.symm.trans hj'
      rcases hwakeUp with rfl | ⟨k, rfl⟩ | ⟨k, rfl⟩
      · cases hj'
        cases hjob
      · cases hj'
      · cases hj'
    · have htask := Job.isTask_of_holds (Job.holds_of_removes hjob)
      rw [hm.sound.isTask_of_current hl hq job (by simp [hj'])] at htask
      cases htask
  | past hfinished => exact hfinished

end Machine

end RunLoop
