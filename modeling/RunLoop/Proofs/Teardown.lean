import RunLoop.Proofs.JoinHandles
import RunLoop.Proofs.Sources

/-!
# Teardown

A loop that is dropped is closed before anything else. Then what was queued is dropped, entry by
entry, and after that the unfinished tasks, slot by slot, and whoever awaits one of them is told
that it was cancelled. All this is user code, which may do what it likes; but the loop accepts
nothing any more, and stays as it is, empty, whatever is done to it later and from wherever.

* `Machine.Walked.tasks?_of_closed`: the table of a loop that was dropped is left alone until its
  tasks are dropped.
* `Machine.Walked.drain_due`: its tasks are dropped once, by the job that was put down for it.
* `Machine.Destroys` says that a future is dropped by the destructor of the coroutine in it.
* `Machine.TornDown` says what becomes of a loop that is dropped, `Machine.Gone` what it is like
  ever after.
* `Machine.teardown_complete_and_final` puts it together.
-/

namespace RunLoop

variable {G : Guest} {l : LoopId} {slot : Nat} {k : WakerId} {j : JoinId} {kind : Kind}

/-- Whether loop `l` was dropped. -/
def Happening.closes (l : LoopId) : Happening G → Bool
  | closed l' => l' = l
  | _ => false

theorem Happening.eq_of_closes {h : Happening G} (hl : h.closes l = true) : h = .closed l := by
  cases h with
  | closed l' =>
    obtain rfl : l' = l := by simpa [closes] using hl
    rfl
  | _ => cases hl

/-- A job that drops the tasks of loop `l`. -/
def Job.isDrain (l : LoopId) : Job G → Bool
  | drain l' _ => l' = l
  | _ => false

/-- A job that has the outcome of the task of join slot `j` to hand over, after the task is gone. -/
def Job.owes (j : JoinId) : Job G → Bool
  | abandon work => work.kind = .joined j
  | fill j' _ => j' = j
  | _ => false

/-- The loop that a job brings a callback to, with the callback. -/
def Job.hands? : Job G → Option (LoopId × HandOff G)
  | handOff l c => some (l, c)
  | serve (.callSoon l c) => some (l, .own c)
  | serve (.startOn l f) => some (l, .start f)
  | _ => none

/-- How an entry that is not processed is dropped. -/
def Entry.dropped (code : G.Code) : Entry G → List (Job G)
  | call (.own c) => [.resume (code.discard c)]
  | call (.start f) => [.drop f]
  | _ => []

/-- The tasks of a loop whose futures are in the table, with their slots, in ascending order. -/
def World.unfinished (w : World G) (l : LoopId) : List (Nat × WakerId × Work G.Coroutine) :=
  (w.tenants l).filterMap (fun e => e.2.work.map (e.1, e.2.waker, ·))

/-- Where a milestone comes from, if it is that a task was spawned or polled: its loop is current,
or `job` is a turn of it. -/
def Milestone.Grounded (w : World G) (job : Job G) : Milestone → Prop
  | spawned l _ _ _ => w.thread.current = some l
  | begun l _ _ => job.isDrive l = true
  | _ => True

/-! ## The table of a loop that was dropped -/

section

variable {w w' : World G} {others before after : List (Job G)} {σ : List Milestone}

/-- A loop of which no task is spawned, polled or at its end keeps its table, unless its tasks are
dropped. -/
theorem Passage.tasks?_of_free (passage : Passage w others before σ w' after)
    (hfree : ∀ i ∈ before, i.isTask l = false ∧ i.isDrain l = false)
    (hspawned : ∀ slot k kind, .spawned l slot k kind ∉ σ) (hbegun : ∀ slot k, .begun l slot k ∉ σ)
    (hl : w.tasks? l ≠ none) : w'.tasks? l = w.tasks? l := by
  have other : ∀ {l' : LoopId} {f}, l' ≠ l → (w.modifyTasks l' f).tasks? l = w.tasks? l := by
    intro l' f hne
    rw [World.tasks?_modifyTasks, if_neg hne]
  cases passage with
  | build c =>
    rw [World.tasks?_build, if_neg]
    rintro rfl
    exact hl w.tasks?_size
  | @spawn l' kind f joins _ _ =>
    have hne : l' ≠ l := by
      rintro rfl
      exact hspawned _ _ _ List.mem_cons_self
    rw [World.tasks?_addTask, if_neg hne]
    rfl
  | @begin l' slot k work _ _ =>
    apply other
    rintro rfl
    exact hbegun _ _ List.mem_cons_self
  | @pending l' slot kind f _ =>
    apply other
    rintro rfl
    simpa [Job.isTask] using (hfree _ List.mem_cons_self).1
  | @leaving job l' slot _ hj =>
    apply other
    rintro rfl
    obtain rfl | ⟨p, rfl⟩ := hj <;> simpa [Job.isTask] using (hfree _ List.mem_cons_self).1
  | @draining l' n _ =>
    apply other
    rintro rfl
    simpa [Job.isDrain] using (hfree _ List.mem_cons_self).2
  | _ => rfl

end

/-- Only a request to drop a loop closes it. -/
theorem Rule.close_of_closed {busy : LoopId → Prop} {w w' : World G} {mode mode' : Mode G}
    {job : Job G} {η : List (Happening G)} {jobs rest : List (Job G)}
    (rule : Rule busy w mode job η w' mode' jobs)
    (ho : Orderly w.thread.current mode (job :: rest)) (h : .closed l ∈ η) :
    ∃ a, mode = .going a ∧ job = .serve (.close l) ∧ ¬busy l ∧ w.isClosed l = false := by
  cases rule with
  | astray ha => exact absurd ha ho.astray
  | @close l' a hb hc =>
    obtain rfl : l = l' := by simpa using h
    exact ⟨a, rfl, rfl, hb, hc⟩
  | _ => simp at h

namespace Machine

variable {code : G.Code} {m m' : Machine G} {p p' : List (Machine G)} {a : Answer G}
  {rest : List (Job G)}

/-- Tasks are spawned on the loop that is current, and polled in a turn of their own. -/
theorem grounded_of_milestone {e : Milestone} (h : e ∈ m.milestones) :
    ∃ job ∈ m.allJobs, e.Grounded m.world job := by
  obtain ⟨job, rest, mode, hj, _, origin⟩ := origin_of_milestone h
  refine ⟨job, mem_allJobs_of_top hj, ?_⟩
  cases origin with
  | spawned _ hl => exact hl
  | begun => simp [Milestone.Grounded, Job.isDrive]
  | _ => trivial

/-- No task of a loop that was dropped is spawned or polled. -/
theorem Walked.quiet_of_closed (hm : Walked code p m) (hl : .closed l ∈ p.flatMap happenings) :
    (∀ slot k kind, .spawned l slot k kind ∉ m.milestones) ∧
      ∀ slot k, .begun l slot k ∉ m.milestones := by
  have hclosed := hm.reached.isClosed_of_closed hl
  constructor
  · intro slot k kind h
    obtain ⟨_, _, hcurrent⟩ := grounded_of_milestone h
    have hopen := hm.reached.opened_of_current hcurrent
    rw [hclosed] at hopen
    cases hopen
  · intro slot k h
    obtain ⟨job, hmem, hj⟩ := grounded_of_milestone h
    have hj : job.isDrive l = true := hj
    have hno := (hm.reached.free_of_closed hclosed job hmem).2.1
    rw [hj] at hno
    cases hno

theorem Walked.tasks?_ne_none (hm : Walked code p m) (hl : .closed l ∈ p.flatMap happenings) :
    m.world.tasks? l ≠ none := by
  intro hnone
  have hqueue := hm.reached.queue?_of_closed hl
  have hloop : m.world.loop? l = none := by simpa [World.tasks?] using hnone
  simp [World.queue?, hloop] at hqueue

/-- A loop that was dropped keeps its table until its tasks are dropped. -/
theorem Walked.tasks?_of_closed (hm : Walked code p m) (hl : .closed l ∈ p.flatMap happenings)
    (hi : m.isIdle = false) (live : m.isAborted = false)
    (htop : ∀ n rest, m.jobs ≠ .drain l n :: rest) :
    (m.step code).world.tasks? l = m.world.tasks? l := by
  obtain ⟨job, rest, jobs, advance⟩ := hm.advance hi live
  obtain ⟨w, passage, hw⟩ := advance.passage
  obtain ⟨hspawned, hbegun⟩ := hm.quiet_of_closed hl
  have hfree := hm.reached.free_of_closed (hm.reached.isClosed_of_closed hl)
  rw [hw.tasks]
  refine passage.tasks?_of_free ?_ hspawned hbegun (hm.tasks?_ne_none hl)
  intro i hmem
  obtain rfl := List.mem_singleton.mp (List.mem_filter.mp hmem).1
  constructor
  · exact (hfree i (mem_allJobs_of_top advance.top)).2.2
  · cases i with
    | drain l' n =>
      have hne : l' ≠ l := by
        rintro rfl
        exact htop n rest advance.top
      simpa [Job.isDrain] using hne
    | _ => rfl

/-! ## The tasks of a loop are dropped once -/

theorem Switched.countP_drain (switched : m.Switched m') (l : LoopId) :
    m'.allJobs.countP (Job.isDrain l) = m.allJobs.countP (Job.isDrain l) := by
  have hperm := switched.filter_allJobs (p := Job.isDrain l) (fun _ => rfl) fun _ => rfl
  rw [List.countP_eq_length_filter, List.countP_eq_length_filter, hperm.length_eq]

/-- Where a loop is not being dropped, no further job comes up that drops its tasks. -/
theorem Sound.countP_drain_step (hs : m.Sound) (code : G.Code) (hi : m.isIdle = false)
    (live : m.isAborted = false) (hη : .closed l ∉ m.happenings) {job : Job G}
    (hj : m.jobs = job :: rest) : (m.step code).allJobs.countP (Job.isDrain l) =
      (rest ++ m.threads.parked.flatMap (·.jobs)).countP (Job.isDrain l) := by
  have acting : ∀ {m₁ : Machine G}, m.Acts m.happenings m₁ → m₁.allJobs.countP (Job.isDrain l) =
      (rest ++ m.threads.parked.flatMap (·.jobs)).countP (Job.isDrain l) := by
    rintro m₁ ⟨job', rest', hj', jobs, hjobs, hparked, rule⟩
    cases hj.symm.trans hj'
    have ho := hs.strands _ List.mem_cons_self
    simp only [hj] at ho
    have hjobs : m₁.jobs = jobs ++ rest := hjobs
    have hparked : m₁.threads.parked = m.threads.parked := hparked
    have hnone : jobs.countP (Job.isDrain l) = 0 := by
      rw [List.countP_eq_zero]
      intro i hmem hdrain
      cases i with
      | drain l' n =>
        obtain rfl : l' = l := by simpa [Job.isDrain] using hdrain
        exact hη (rule.closed_of_drain ho hmem)
      | _ => cases hdrain
    rw [allJobs, hjobs, hparked, List.append_assoc, List.countP_append, hnone, Nat.zero_add]
  rcases acts_of_live code hi live with acts | ⟨m₁, acts, switched⟩
  · exact acting acts
  · rw [switched.countP_drain, acting acts]

/-- As long as the tasks of a loop that was dropped are still to be dropped, its table stays as it
is. -/
theorem Walked.tasks?_of_drain (hm : Walked code p m) (hl : .closed l ∈ p.flatMap happenings)
    (hone : m.allJobs.countP (Job.isDrain l) ≤ 1) (hi : m.isIdle = false)
    (live : m.isAborted = false) {n : Nat} (hd : .drain l n ∈ (m.step code).allJobs) :
    (m.step code).world.tasks? l = m.world.tasks? l ∧
      (m.step code).allJobs.countP (Job.isDrain l) ≤ 1 := by
  obtain ⟨job, below, hj⟩ := exists_job hi
  have hη : .closed l ∉ m.happenings := by
    intro hη
    have next : History code m m.happenings (m.step code) := History.here.next (.act hi)
    have hsigns := next.signs_of_closed hm.reached hl
    have hmem : .closed ∈ signs l m.happenings :=
      List.mem_filterMap.mpr ⟨_, hη, by simp [Happening.sign?]⟩
    rw [hsigns] at hmem
    cases hmem
  have hcount := hm.sound.countP_drain_step code hi live hη hj
  have hall : m.allJobs.countP (Job.isDrain l) = [job].countP (Job.isDrain l) +
      (below ++ m.threads.parked.flatMap (·.jobs)).countP (Job.isDrain l) := by
    rw [← List.countP_append, allJobs_of_top hj]
    rfl
  have hpos : 0 < (m.step code).allJobs.countP (Job.isDrain l) :=
    List.countP_pos_iff.mpr ⟨_, hd, by simp [Job.isDrain]⟩
  refine ⟨hm.tasks?_of_closed hl hi live fun n' rest htop => ?_, by omega⟩
  -- the job on top would be a second one
  cases hj.symm.trans htop
  have htwo : [Job.drain (G := G) l n'].countP (Job.isDrain l) = 1 := by simp [Job.isDrain]
  omega

/-- The tasks of a loop that was dropped are in its table until they are dropped, by the one job
that was put down for it. -/
theorem Walked.drain_due (hm : Walked code p m) (hl : .closed l ∈ p.flatMap happenings)
    (hone : m.allJobs.countP (Job.isDrain l) ≤ 1) {n : Nat} {t : ThreadId}
    (hold : m.Holds t (.drain l n :: rest)) (walk : Walk code m p' m') :
    (m'.world.tasks? l = m.world.tasks? l ∧ m'.allJobs.countP (Job.isDrain l) ≤ 1 ∧
      m'.Holds t (.drain l n :: rest)) ∨
    ∃ p₁ m₁ p₂, p' = p₁ ++ m₁ :: p₂ ∧ Walk code m p₁ m₁ ∧ m₁.isIdle = false ∧
      m₁.isAborted = false ∧ m₁.world.thread.id = t ∧ m₁.jobs = .drain l n :: rest ∧
      m₁.world.tasks? l = m.world.tasks? l ∧ Walk code (m₁.step code) p₂ m' := by
  have due := walk.holds_until
    (fun _ m₁ => m₁.world.tasks? l = m.world.tasks? l ∧ m₁.allJobs.countP (Job.isDrain l) ≤ 1 ∧
      m₁.Holds t (.drain l n :: rest))
    (fun _ m₁ => m₁.world.thread.id = t ∧ m₁.jobs = .drain l n :: rest ∧
      m₁.world.tasks? l = m.world.tasks? l) ⟨rfl, hone, hold⟩ ?_ ?_
  · refine due.imp_right ?_
    rintro ⟨p₁, m₁, p₂, he, before, hi, live, ⟨hid, hj, htasks⟩, after⟩
    exact ⟨p₁, m₁, p₂, he, before, hi, live, hid, hj, htasks, after⟩
  · -- the job stays where it stands, or is performed in this step
    rintro p₀ m₁ - before hi live ⟨htasks, hone, hold⟩
    rcases hold.step code hi live with ⟨q, hq, hid, hs⟩ | ⟨hid, hj, _⟩
    · have hd := mem_allJobs_of_suffix hq hs
      obtain ⟨hkept, hone⟩ :=
        (hm.trans before).tasks?_of_drain (mem_happenings_append hl p₀) hone hi live hd
      exact .inl ⟨hkept.trans htasks, hone, q, hq, hid, hs⟩
    · exact .inr ⟨hid, hj, htasks⟩
  · rintro p₀ m₁ m₂ ⟨htasks, hone, hold⟩ switched
    refine ⟨?_, ?_, switched.holds hold⟩
    · rw [switched.objects.keeps.tasks, htasks]
    · rwa [switched.countP_drain]

/-! ## Steps -/

/-- The jobs `above` are on top of a stack with `rest` below; they are performed one after the
other, whatever is put on top of them and whatever other threads do, and `rest` stays below. -/
def WorksDown (code : G.Code) (m : Machine G) (above rest : List (Job G)) : Prop :=
  m.jobs = above ++ rest ∧ ∀ p m', Walk code m p m' → ∃ done left, above = done ++ left ∧
    (stations done (left ++ rest)).Sublist (p.map (·.jobs)) ∧
      (left = [] ∨ ∃ q ∈ m'.strands, left ++ rest <:+ q.jobs)

theorem worksDown_of_jobs {above : List (Job G)} (hj : m.jobs = above ++ rest) :
    WorksDown code m above rest :=
  ⟨hj, fun _ _ walk => walk.works_down List.mem_cons_self ⟨[], hj.symm⟩⟩

/-- A loop is dropped by whoever asks for it, unless it is running. -/
theorem Sound.close_of_closed (hs : m.Sound) (code : G.Code) (hi : m.isIdle = false)
    (live : m.isAborted = false) (h : .closed l ∈ m.happenings) :
    ∃ a rest, m.jobs = .serve (.close l) :: rest ∧ m.mode = .going a ∧ m.isRunning l = false ∧
      m.world.isClosed l = false := by
  have closing : ∀ {m₁}, m.Acts m.happenings m₁ → ∃ a rest, m.jobs = .serve (.close l) :: rest ∧
      m.mode = .going a ∧ m.isRunning l = false ∧ m.world.isClosed l = false := by
    rintro m₁ ⟨job, rest, hj, jobs, _, _, rule⟩
    have ho := hs.strands _ List.mem_cons_self
    simp only [hj] at ho
    obtain ⟨a, hmode, rfl, hidle, hopen⟩ := rule.close_of_closed ho h
    refine ⟨a, rest, hj, hmode, ?_, hopen⟩
    simpa [isRunning, hj, Job.isLeave] using hidle
  rcases acts_of_live code hi live with acts | ⟨m₁, acts, _⟩
  · exact closing acts
  · exact closing acts

/-- The queue of a loop that is dropped is closed first; what was in it is dropped next, and after
that the tasks of the loop. -/
theorem step_close (code : G.Code) (hj : m.jobs = .serve (.close l) :: rest)
    (hmode : m.mode = .going a) (hidle : m.isRunning l = false)
    (hopen : m.world.isClosed l = false) :
    m.happenings = [.closed l] ∧ (m.step code).world = m.world.modifyQueue l (·.close.1) ∧
      (m.step code).threads = m.threads ∧
      (m.step code).jobs = (m.world.queued l).map .discard ++
        .drain l (m.world.queued l).length :: rest := by
  have hidle' : isRunning { m with jobs := rest } l = false := by
    simpa [isRunning, hj, Job.isLeave] using hidle
  have hstep : m.step code = { m with jobs := rest }.close l := step_of_going hj hmode rfl
  rw [hstep]
  simp only [close, hidle', hopen, World.closeQueue_eq]
  refine ⟨?_, rfl, rfl, ?_⟩
  · simp [happenings, hj, hmode, performed, served, hidle, hopen]
  · simp [push, insert, go, Machine.set]

/-- An entry that is dropped is neither processed nor brings anything about by itself. -/
theorem step_discard (code : G.Code) {e : Entry G} (hj : m.jobs = .discard e :: rest)
    (hmode : m.mode = .going a) : m.happenings = [] ∧ m.milestones = [] ∧
      (m.step code).world = m.world ∧ (m.step code).jobs = e.dropped code ++ rest := by
  have hstep : m.step code = { m with jobs := rest }.discard code e := step_of_going hj hmode rfl
  rw [hstep]
  refine ⟨?_, ?_, ?_⟩
  · simp [happenings, hj, hmode, performed]
  · simp [milestones, hj, hmode, World.told]
  · cases e with
    | call c => cases c <;> exact ⟨rfl, rfl⟩
    | _ => exact ⟨rfl, rfl⟩

/-- The tasks of a loop are taken out of its table, to be dropped by slot. -/
theorem step_drain (code : G.Code) {n : Nat} (hj : m.jobs = .drain l n :: rest)
    (live : m.isAborted = false) : m.milestones = m.world.toldOfDrop l ∧
      (m.step code).world = m.world.modifyTasks l (·.drain.1) ∧
      ∃ last, (m.step code).jobs =
          ((m.world.tenants l).filterMap (·.2.work)).map .abandon ++ last :: rest ∧
        ∀ a, m.mode = .going a →
          last = .emit (.closed (m.world.loopName l) (m.world.tenants l).length n) := by
  have hdrain := m.world.drainTasks_eq_tenants l
  cases hmode : m.mode with
  | aborted => simp [isAborted, hmode] at live
  | going a =>
    have hstep : m.step code = { m with jobs := rest }.drain l n := step_of_going hj hmode rfl
    simp only [drain, hdrain] at hstep
    rw [hstep]
    refine ⟨?_, rfl, .emit (.closed (m.world.loopName l) (m.world.tenants l).length n), ?_, ?_⟩
    · simp [milestones, hj, hmode, World.told]
    · simp [push, insert, go, Machine.set, List.filterMap_map]
    · exact fun _ _ => rfl
  | unwinding panic r =>
    have hstep : m.step code = { m with jobs := rest }.unwind code panic r (.drain l n) :=
      step_of_unwinding hj hmode
    simp only [unwind, hdrain] at hstep
    rw [hstep]
    refine ⟨?_, rfl, .propagate panic, ?_, ?_⟩
    · simp [milestones, hj, hmode, World.toldOfPanic]
    · simp [cleanUp, push, insert, go, Machine.set, List.filterMap_map]
    · intro a ha
      cases ha

/-- A task that is dropped with its loop has its future dropped, and its join slot told that it was
cancelled. -/
theorem step_abandon (code : G.Code) {work : Work G.Coroutine}
    (hj : m.jobs = .abandon work :: rest) (hmode : m.mode = .going a) :
    m.happenings = [] ∧ m.milestones = [] ∧ (m.step code).world = m.world ∧
      ∃ jobs, (m.step code).jobs = jobs ++ rest ∧
        jobs.Perm (.drop work.future :: work.kind.slots.map (.fill · (.error .cancelled))) := by
  have hstep : m.step code = { m with jobs := rest }.abandon work := step_of_going hj hmode rfl
  rw [hstep]
  refine ⟨?_, ?_, ?_⟩
  · simp [happenings, hj, hmode, performed]
  · simp [milestones, hj, hmode, World.told]
  · obtain ⟨kind, started, f⟩ := work
    cases kind with
    | detached => exact ⟨rfl, [.drop f], rfl, .refl _⟩
    | joined j =>
      cases started with
      | true => exact ⟨rfl, [.drop f, .fill j (.error .cancelled)], rfl, .refl _⟩
      | false =>
        exact ⟨rfl, [.fill j (.error .cancelled), .drop f], rfl, List.Perm.swap _ _ _⟩

/-- A coroutine is dropped by its destructor. -/
theorem step_drop_own (code : G.Code) {c : G.Coroutine} (hj : m.jobs = .drop (.own c) :: rest)
    (hmode : m.mode = .going a) :
    m.step code = { m with mode := .going .nothing, jobs := .resume (code.drop c) :: rest } :=
  (step_of_going hj hmode rfl).trans (dropFuture_own code _ c)

/-- A nested future is dropped layer by layer. -/
theorem step_drop_nested (code : G.Code) {f : Future G.Coroutine}
    (hj : m.jobs = .drop (.nested f) :: rest) (hmode : m.mode = .going a) :
    m.step code = { m with mode := .going .nothing, jobs := .drop f :: rest } :=
  (step_of_going hj hmode rfl).trans (dropFuture_nested code _ f)

/-- Future `f` is dropped: the destructor of the coroutine that it owns runs next, if it owns one,
above `rest`; on the way to it nothing is done but to take off the layers around it. -/
def Destroys (code : G.Code) (m : Machine G) (f : Future G.Coroutine) (rest : List (Job G)) : Prop :=
  ∃ n, (m.trace code (n + 1)).2 = { m with
    mode := .going .nothing
    jobs := f.coroutine?.toList.map (fun c => .resume (code.drop c)) ++ rest }

/-- A step that changes nothing but the stack is a step on the way. -/
theorem Destroys.of_step {f : Future G.Coroutine} {jobs : List (Job G)}
    (hstep : m.step code = { m with mode := .going .nothing, jobs })
    (h : (m.step code).Destroys code f rest) : m.Destroys code f rest := by
  obtain ⟨n, hn⟩ := h
  refine ⟨n + 1, ?_⟩
  rw [Nat.add_comm (n + 1) 1, trace_add]
  exact hn.trans (by rw [hstep])

theorem destroys_of_going (code : G.Code) {f : Future G.Coroutine} (hj : m.jobs = .drop f :: rest)
    (hmode : m.mode = .going a) : m.Destroys code f rest := by
  induction f generalizing m a with
  | own c => exact ⟨0, step_drop_own code hj hmode⟩
  | nested inner ih =>
    have hstep := step_drop_nested code hj hmode
    refine .of_step hstep ?_
    rw [hstep]
    exact ih rfl rfl
  | forwarding j => exact ⟨0, step_of_going hj hmode rfl⟩
  | spent => exact ⟨0, step_of_going hj hmode rfl⟩

/-- A panic that meets a future goes on when that is dropped. -/
theorem destroys_of_live (code : G.Code) {f : Future G.Coroutine} (hj : m.jobs = .drop f :: rest)
    (live : m.isAborted = false) :
    m.Destroys code f rest ∨ ∃ panic, m.Destroys code f (.propagate panic :: rest) := by
  cases hmode : m.mode with
  | aborted => simp [isAborted, hmode] at live
  | going a => exact .inl (destroys_of_going code hj hmode)
  | unwinding panic r =>
    have hstep : m.step code =
        { m with mode := .going .nothing, jobs := .drop f :: .propagate panic :: rest } :=
      step_of_unwinding hj hmode
    refine .inr ⟨panic, .of_step hstep ?_⟩
    rw [hstep]
    exact destroys_of_going code rfl rfl

/-- Who has an outcome to hand over does so, or puts down a job that has. -/
theorem step_of_owes (code : G.Code) {job : Job G} (hj : m.jobs = job :: rest)
    (live : m.isAborted = false) (ho : job.owes j = true) {x : JoinSlot}
    (hx : m.world.join? j = some x) : (∃ o, m.milestones = [.filled j o]) ∨
      ∃ job' below, job' :: below <:+ (m.step code).jobs ∧ rest <:+ below ∧
        job'.owes j = true := by
  cases hmode : m.mode with
  | aborted => simp [isAborted, hmode] at live
  | unwinding panic r =>
    rw [step_of_unwinding hj hmode]
    cases job with
    | abandon | fill =>
      exact .inr ⟨_, .propagate panic :: rest, List.suffix_refl _, List.suffix_cons _ _, ho⟩
    | _ => cases ho
  | going a =>
    cases job with
    | abandon work =>
      have hk : work.kind = .joined j := by simpa [Job.owes] using ho
      rw [step_of_going hj hmode rfl]
      obtain ⟨kind, started, f⟩ := work
      obtain rfl : kind = .joined j := hk
      cases started with
      | true =>
        exact .inr ⟨.fill j (.error .cancelled), rest, List.suffix_cons _ _, List.suffix_refl _,
          by simp [Job.owes]⟩
      | false =>
        exact .inr ⟨.fill j (.error .cancelled), .drop f :: rest, List.suffix_refl _,
          List.suffix_cons _ _, by simp [Job.owes]⟩
    | fill j' o =>
      obtain rfl : j' = j := by simpa [Job.owes] using ho
      exact .inl ⟨o, (step_fill code hj hmode hx).1⟩
    | _ => cases ho

/-! ## Unfinished tasks are cancelled -/

/-- Above `rest`, on a stack, stands a job that `f` picks. -/
def HasAbove (m : Machine G) (rest : List (Job G)) (f : Job G → Bool) : Prop :=
  ∃ q ∈ m.strands, ∃ job below, job :: below <:+ q.jobs ∧ rest <:+ below ∧ f job = true

theorem Switched.hasAbove (switched : m.Switched m') {f : Job G → Bool}
    (h : m.HasAbove rest f) : m'.HasAbove rest f := by
  obtain ⟨q, hq, job, below, hb, hf⟩ := h
  obtain ⟨q', hq', _, hb'⟩ := switched.holds ⟨q, hq, rfl, hb⟩
  exact ⟨q', hq', job, below, hb', hf⟩

theorem HasAbove.mono {f g : Job G → Bool} (h : m.HasAbove rest f)
    (hfg : ∀ job, f job = true → g job = true) : m.HasAbove rest g := by
  obtain ⟨q, hq, job, below, hb, hrest, hf⟩ := h
  exact ⟨q, hq, job, below, hb, hrest, hfg job hf⟩

/-- An outcome that is to be handed over is handed over, or stands on its stack above what was
below. -/
theorem Walked.filled_or_owed (hm : Walked code p m)
    (hs : .spawned l slot k (.joined j) ∈ story p) (howed : m.HasAbove rest (Job.owes j))
    (walk : Walk code m p' m') :
    filledInto j (story (p ++ p')) ≠ [] ∨ m'.HasAbove rest (Job.owes j) := by
  induction walk with
  | here => exact .inr howed
  | @act p₀ m₁ walk hi live ih =>
    have hm₁ := hm.trans walk
    have hstory : story (p ++ (p₀ ++ [m₁])) = story (p ++ p₀) ++ m₁.milestones := by
      simp [story]
    rw [hstory, filledInto_append]
    rcases ih with hfilled | ⟨q, hq, job, below, hb, hrest, ho⟩
    · left
      simp [hfilled]
    · have hold : m₁.Holds q.thread.id (job :: below) := ⟨q, hq, rfl, hb⟩
      rcases hold.step code hi live with ⟨q', hq', _, hb'⟩ | ⟨_, hj, _⟩
      · exact .inr ⟨q', hq', job, below, hb', hrest, ho⟩
      · obtain ⟨x, hx, _⟩ := (hm₁.delivery (mem_story_append hs p₀)).slot
        rcases step_of_owes code hj live ho hx with ⟨o, hfilled⟩ | ⟨job', below', hb', hbelow, ho'⟩
        · left
          simp [hfilled, filledInto, Milestone.filled?]
        · exact .inr ⟨_, List.mem_cons_self, job', below', hb', hrest.trans hbelow, ho'⟩
  | turnTo walk h ih => exact ih.imp_right (switched_turnTo h).hasAbove
  | launch walk h ih => exact ih.imp_right (switched_launch _).hasAbove

/-- All that is handed over for a task that was dropped with its loop is that it was cancelled. -/
theorem Walked.filledInto_of_dropped (hm : Walked code p m)
    (hs : .spawned l slot k (.joined j) ∈ story p)
    (hd : .dropped l slot k (some (.joined j)) ∈ story p) (hf : filledInto j (story p) ≠ []) :
    filledInto j (story p) = [.error .cancelled] := by
  have delivery := hm.delivery hs
  obtain ⟨o, ho, hlast⟩ := delivery.filledInto_eq_singleton hf
  rw [delivery.cancelled _ hd (.inr ⟨k, rfl⟩)] at hlast
  rw [ho, Option.some.inj hlast]

/-- When a loop is dropped, the one job that drops its tasks is put down. -/
theorem Walked.countP_drain_close (hm : Walked code p m) (hj : m.jobs = .serve (.close l) :: rest)
    (hmode : m.mode = .going a) (hidle : m.isRunning l = false)
    (hopen : m.world.isClosed l = false) :
    (m.step code).allJobs.countP (Job.isDrain l) ≤ 1 := by
  obtain ⟨_, _, hthreads, hjobs⟩ := step_close code hj hmode hidle hopen
  have hnone : (rest ++ m.threads.parked.flatMap (·.jobs)).countP (Job.isDrain l) = 0 := by
    rw [List.countP_eq_zero]
    intro i hi hdrain
    cases i with
    | drain l' n =>
      obtain rfl : l' = l := by simpa [Job.isDrain] using hdrain
      have hmem : .drain l' n ∈ m.allJobs := by
        rw [allJobs_of_top hj]
        exact List.mem_cons_of_mem _ hi
      rw [hm.reached.isClosed_of_closed (hm.reached.closed_of_drain hmem)] at hopen
      cases hopen
    | _ => cases hdrain
  have hdiscards : ((m.world.queued l).map Job.discard).countP (Job.isDrain l) = 0 := by
    rw [List.countP_eq_zero]
    intro i hi
    obtain ⟨e, _, rfl⟩ := List.mem_map.mp hi
    exact Bool.false_ne_true
  rw [allJobs, hjobs, hthreads, List.append_assoc, List.cons_append, List.countP_append,
    List.countP_cons, hdiscards, hnone]
  split <;> omega

/-- When the tasks of a loop are dropped, whoever awaits one of them is told so. -/
theorem Walked.cancelled_of_drain (hm : Walked code p m) {n : Nat}
    (hj : m.jobs = .drain l n :: rest) (live : m.isAborted = false)
    (hs : .spawned l slot k (.joined j) ∈ story p) {t : Option (Work G.Coroutine)}
    (ht : m.world.task? l slot = some ⟨k, t⟩) (walk : Walk code (m.step code) p' m') :
    filledInto j (story (p ++ m :: p')) = [.error .cancelled] ∨ m'.HasAbove rest (Job.owes j) := by
  have hi : m.isIdle = false := by
    cases hmode : m.mode <;> simp [isIdle, hj, hmode, mustWait]
  have hm₁ : Walked code (p ++ [m]) (m.step code) := hm.next hi live
  have hl := hm.reached.closed_of_drain (mem_allJobs_of_top hj)
  have hclosed := hm.reached.isClosed_of_closed hl
  obtain ⟨work, rfl⟩ := Option.ne_none_iff_exists'.mp
    (hm.work_of_free (hm.reached.free_of_closed hclosed) ht)
  have hkind : work.kind = .joined j :=
    (hm.census.spawned_unique (hm.census.known _ _ _ _ ht) hs).2.2
  have hmem : (slot, ⟨k, some work⟩) ∈ m.world.tenants l := World.mem_tenants.mpr ht
  obtain ⟨htold, _, last, hjobs, _⟩ := step_drain code hj live
  -- the step tells of the task as dropped, and puts its future down to be dropped, above `rest`
  have habandon : Job.abandon work ∈ ((m.world.tenants l).filterMap (·.2.work)).map .abandon :=
    List.mem_map.mpr ⟨work, List.mem_filterMap.mpr ⟨_, hmem, rfl⟩, rfl⟩
  obtain ⟨above, below, hworks⟩ := List.append_of_mem habandon
  have hsuffix : .abandon work :: (below ++ last :: rest) <:+ (m.step code).jobs := by
    refine ⟨above, ?_⟩
    rw [hjobs, hworks]
    simp
  have habove : (m.step code).HasAbove rest (Job.owes j) := by
    refine ⟨_, List.mem_cons_self, .abandon work, below ++ last :: rest, hsuffix, ?_, ?_⟩
    · exact ⟨below ++ [last], by simp⟩
    · simp [Job.owes, hkind]
  have hstory : p ++ m :: p' = p ++ [m] ++ p' := by simp
  rw [hstory]
  refine (hm₁.filled_or_owed (mem_story_append hs [m]) habove walk).imp_left fun hfilled => ?_
  have hdropped : .dropped l slot k (some (.joined j)) ∈ story (p ++ [m] ++ p') := by
    have htold' : .dropped l slot k (some (.joined j)) ∈ m.milestones := by
      rw [htold]
      exact List.mem_map.mpr ⟨_, hmem, by simp [hkind]⟩
    exact List.mem_flatMap.mpr ⟨m, by simp, htold'⟩
  have hspawned := mem_story_append (mem_story_append hs [m]) p'
  exact (hm₁.trans walk).filledInto_of_dropped hspawned hdropped hfilled

/-- Whoever awaits a task that is dropped with its loop is told that it was cancelled, by jobs that
stand above what was below the request to drop the loop. -/
theorem Walked.cancelled_or_owed (hm : Walked code p m)
    (hj : m.jobs = .serve (.close l) :: rest) (hmode : m.mode = .going a)
    (hidle : m.isRunning l = false) (hopen : m.world.isClosed l = false)
    (hs : .spawned l slot k (.joined j) ∈ story p) {t : Option (Work G.Coroutine)}
    (ht : m.world.task? l slot = some ⟨k, t⟩) (walk : Walk code (m.step code) p' m') :
    filledInto j (story (p ++ m :: p')) = [.error .cancelled] ∨
      m'.HasAbove rest (fun job => job.isDrain l || job.owes j) := by
  obtain ⟨hη, hw, _, hjobs⟩ := step_close code hj hmode hidle hopen
  have hm₀ : Walked code (p ++ [m]) (m.step code) := hm.next_of_going hj hmode rfl
  have hl : .closed l ∈ (p ++ [m]).flatMap happenings := by simp [hη]
  have hone := hm.countP_drain_close hj hmode hidle hopen
  have due := hm₀.drain_due hl hone ⟨_, List.mem_cons_self, rfl, ⟨_, hjobs.symm⟩⟩ walk
  rcases due with ⟨_, _, q, hq, _, hs'⟩ | ⟨p₁, m₁, p₂, rfl, before, _, live₁, _, hj₁, htasks, after⟩
  · exact .inr ⟨q, hq, _, rest, hs', List.suffix_refl _, by simp [Job.isDrain]⟩
  · have hm₁ : Walked code (p ++ m :: p₁) m₁ := by simpa using hm₀.trans before
    have hspawned := mem_story_append hs (m :: p₁)
    have ht₁ : m₁.world.task? l slot = some ⟨k, t⟩ := by
      rwa [World.task?_eq, htasks, hw, World.tasks?_modifyQueue, ← World.task?_eq]
    have hstory : p ++ m :: (p₁ ++ m₁ :: p₂) = p ++ m :: p₁ ++ m₁ :: p₂ := by simp
    rw [hstory]
    refine (hm₁.cancelled_of_drain hj₁ live₁ hspawned ht₁ after).imp_right fun habove => ?_
    exact habove.mono fun job ho => by simp [ho]

/-! ## Nothing comes after -/

/-- A table that is empty stays so. -/
theorem Walked.task?_of_empty (hm : Walked code p m) (hl : .closed l ∈ p.flatMap happenings)
    (hempty : ∀ slot, m.world.task? l slot = none) (walk : Walk code m p' m') :
    ∀ slot, m'.world.task? l slot = none := by
  induction walk with
  | here => exact hempty
  | @act p₀ m₁ walk hi live ih =>
    intro slot
    by_cases htop : ∃ n rest, m₁.jobs = .drain l n :: rest
    · obtain ⟨n, rest, hj⟩ := htop
      obtain ⟨_, hw, _⟩ := step_drain code hj live
      rw [hw, World.task?_drain, if_pos rfl]
    · have hm₁ := hm.trans walk
      have hl₁ := mem_happenings_append hl p₀
      rw [World.task?_eq, hm₁.tasks?_of_closed hl₁ hi live fun n rest hj => htop ⟨n, rest, hj⟩,
        ← World.task?_eq]
      exact ih slot
  | turnTo _ _ ih => exact ih
  | launch _ _ ih => exact ih

/-- Where no job is left to drop the tasks of a loop that was dropped, its table is empty. -/
theorem Walked.task?_of_drained (hm : Walked code p m) (hl : .closed l ∈ p.flatMap happenings)
    (hno : ∀ n, .drain l n ∉ m.allJobs) (slot : Nat) : m.world.task? l slot = none := by
  obtain ⟨m₀, hm₀, hη⟩ := List.mem_flatMap.mp hl
  obtain ⟨shared, run, walk⟩ := hm
  obtain ⟨p₁, p₂, rfl, before, hi, live, after⟩ := walk.of_mem hm₀
  have hm₀ : Walked code p₁ m₀ := ⟨shared, run, before⟩
  have hm₁ : Walked code (p₁ ++ [m₀]) (m₀.step code) := hm₀.next hi live
  have hl₁ : .closed l ∈ (p₁ ++ [m₀]).flatMap happenings := by simp [hη]
  obtain ⟨a, rest, hj, hmode, hidle, hopen⟩ := hm₀.sound.close_of_closed code hi live hη
  obtain ⟨_, _, _, hjobs⟩ := step_close code hj hmode hidle hopen
  have hone := hm₀.countP_drain_close hj hmode hidle hopen
  have due := hm₁.drain_due hl₁ hone ⟨_, List.mem_cons_self, rfl, ⟨_, hjobs.symm⟩⟩ after
  rcases due with ⟨_, _, q, hq, _, hs⟩ | ⟨p₃, m₁, p₄, rfl, between, hi₁, live₁, _, hj₁, _, after⟩
  · exact absurd (mem_allJobs_of_suffix hq hs) (hno _)
  · obtain ⟨_, hw, _⟩ := step_drain code hj₁ live₁
    have hm₂ : Walked code (p₁ ++ [m₀] ++ (p₃ ++ [m₁])) (m₁.step code) :=
      hm₁.trans (between.act hi₁ live₁)
    refine hm₂.task?_of_empty (mem_happenings_append hl₁ _) (fun slot => ?_) after slot
    rw [hw, World.task?_drain, if_pos rfl]

/-- No cell that is bound to a loop that was dropped changes. -/
theorem Reached.outcome?_of_closed {τ τ' : List (Happening G)} (hm : Reached code τ m)
    (hl : .closed l ∈ τ) {s : SourceId} {x : Source} (hx : m.world.source? s = some x)
    (hxl : x.loop = l) (h : History code m τ' m') :
    m'.world.outcome? x.cell = m.world.outcome? x.cell := by
  induction h with
  | here => rfl
  | @next τ₁ η m₁ m₂ run move ih =>
    obtain ⟨x', hx', hloop, hcell⟩ := (run.course.trail hm.sound).source? hx
    have hsigns := (run.next move).signs_of_closed hm hl
    rw [signs_append] at hsigns
    have hnone := (List.append_eq_nil_iff.mp hsigns).2
    rcases move.outcome (hm.append run) hx' with hsame | ⟨_, o, _, hprocessed⟩
    · rw [← ih, ← hcell]
      exact hsame
    · have hmem : .processed (.call (.settle x'.cell o)) ∈ signs l η :=
        List.mem_filterMap.mpr ⟨_, hprocessed, by simp [Happening.sign?, hloop, hxl]⟩
      rw [hnone] at hmem
      cases hmem

/-- No task of a loop that was dropped is spawned or polled any more. -/
theorem Walked.story_of_closed (hm : Walked code p m) (hl : .closed l ∈ p.flatMap happenings)
    (walk : Walk code m p' m') :
    spawnedOn l (story p') = [] ∧ begunOn l (story p') = [] := by
  have quiet : ∀ e ∈ story p', e.spawned? l = none ∧ e.begun? l = none := by
    intro e he
    obtain ⟨m₁, hm₁, hmilestone⟩ := List.mem_flatMap.mp he
    obtain ⟨p₁, p₂, rfl, before, _⟩ := walk.of_mem hm₁
    obtain ⟨hspawned, hbegun⟩ := (hm.trans before).quiet_of_closed (mem_happenings_append hl p₁)
    cases e with
    | spawned l' slot k kind =>
      have hne : l' ≠ l := by
        rintro rfl
        exact hspawned _ _ _ hmilestone
      simp [Milestone.spawned?, Milestone.begun?, hne]
    | begun l' slot k =>
      have hne : l' ≠ l := by
        rintro rfl
        exact hbegun _ _ hmilestone
      simp [Milestone.spawned?, Milestone.begun?, hne]
    | _ => exact ⟨rfl, rfl⟩
  constructor
  · exact List.filterMap_eq_nil_iff.mpr fun e he => (quiet e he).1
  · exact List.filterMap_eq_nil_iff.mpr fun e he => (quiet e he).2

/-! ## What is handed to a loop that was dropped -/

/-- A callback that was brought to a loop is refused: it is dropped, and not called, before that is
answered. -/
structure Rejected (code : G.Code) (m : Machine G) (c : HandOff G) (rest : List (Job G)) :
    Prop where
  happenings : m.happenings = []
  world : (m.step code).world = m.world
  jobs : ∃ e, WorksDown code (m.step code)
    [.discard (.call c), .emit e, .answer (.unit (.error .loopClosed))] rest
  answer : ∀ (m₁ : Machine G) a, m₁.jobs = .answer (.unit (.error .loopClosed)) :: rest →
    m₁.mode = .going a → (m₁.step code).mode = .going (.unit (.error .loopClosed)) ∧
      (m₁.step code).jobs = rest ∧ (m₁.step code).world = m₁.world

theorem rejected_of_isClosed (code : G.Code) {job : Job G} {c : HandOff G}
    (hc : job.hands? = some (l, c)) (hj : m.jobs = job :: rest) (hmode : m.mode = .going a)
    (hclosed : m.world.isClosed l = true) : Rejected code m c rest := by
  have hpush : m.world.push? l (.call c) = none := by
    rw [← Option.isNone_iff_eq_none, ← World.isClosed_eq_isNone_push?]
    exact hclosed
  have hands : m.step code = { m with jobs := rest }.handOff l c ∧
      m.happenings = m.handed l (.call c) := by
    cases job with
    | handOff l' c' =>
      cases hc
      exact ⟨step_of_going hj hmode rfl, by simp only [Machine.happenings, hj, hmode, performed]⟩
    | serve q =>
      cases q with
      | callSoon | startOn =>
        cases hc
        refine ⟨step_of_going hj hmode rfl, ?_⟩
        simp only [Machine.happenings, hj, hmode, performed, served]
      | _ => cases hc
    | _ => cases hc
  obtain ⟨hstep, hη⟩ := hands
  simp only [handOff, hpush] at hstep
  refine ⟨?_, ?_, ⟨.handOffRejected (m.world.loopName l) .loopClosed, ?_⟩, ?_⟩
  · rw [hη, handed_of_none hpush]
  · rw [hstep]
    rfl
  · apply worksDown_of_jobs
    rw [hstep]
    rfl
  · intro m₁ a hj₁ hmode₁
    rw [step_of_going hj₁ hmode₁ rfl]
    exact ⟨rfl, rfl, rfl⟩

/-! ## The teardown of a loop -/

/-- Loop `l` is dropped: it is closed at once, then what was queued is dropped, and then its tasks.
Whoever awaits one of them is told that it was cancelled, or jobs that are to do so still stand
above what was below. -/
structure TornDown (code : G.Code) (p : List (Machine G)) (m : Machine G) (l : LoopId)
    (rest : List (Job G)) : Prop where
  happenings : m.happenings = [.closed l]
  queue : (m.step code).world.queue? l = some ⟨[], true⟩
  tasks : ∀ slot, (m.step code).world.task? l slot = m.world.task? l slot
  jobs : WorksDown code (m.step code)
    ((m.world.queued l).map .discard ++ [.drain l (m.world.queued l).length]) rest
  cancelled : ∀ slot k j t, .spawned l slot k (.joined j) ∈ story p →
    m.world.task? l slot = some ⟨k, t⟩ → ∀ p' m', Walk code (m.step code) p' m' →
      filledInto j (story (p ++ m :: p')) = [.error .cancelled] ∨
        m'.HasAbove rest (fun job => job.isDrain l || job.owes j)

/-- The tasks of loop `l` are dropped: all of them are taken out of the table, and then their
futures are dropped, one after the other, by slot. -/
structure Drained (code : G.Code) (m : Machine G) (l : LoopId) (n : Nat) (rest : List (Job G)) :
    Prop where
  all : ∀ slot t, m.world.task? l slot = some t ↔
    ∃ work, t.work = some work ∧ (slot, t.waker, work) ∈ m.world.unfinished l
  ascending : (m.world.unfinished l).Pairwise (fun e e' => e.1 < e'.1)
  milestones : m.milestones =
    (m.world.unfinished l).map (fun e => .dropped l e.1 e.2.1 (some e.2.2.kind))
  empty : ∀ slot, (m.step code).world.task? l slot = none
  jobs : WorksDown code (m.step code) ((m.world.unfinished l).map (.abandon ·.2.2) ++
    [.emit (.closed (m.world.loopName l) (m.world.unfinished l).length n)]) rest

/-- Loop `l` is gone: nothing is in its queue, and nothing in its table as soon as its tasks were
dropped, and it stays like that whatever is done. What is handed to it is refused, and no cell that
is bound to it changes. -/
structure Gone (code : G.Code) (p : List (Machine G)) (m : Machine G) (l : LoopId) : Prop where
  queue : m.world.queue? l = some ⟨[], true⟩
  closed : m.scene.world.isClosed l = true
  table : (∀ n, .drain l n ∉ m.allJobs) → (∀ slot, m.world.task? l slot = none) ∧
    m.world.pendingTasks l = 0 ∧ (leftFrom l (story p)).Perm (spawnedOn l (story p))
  once : (leftFrom l (story p)).Nodup
  quiet : ∀ p' m', Walk code m p' m' → signs l (p'.flatMap happenings) = [] ∧
    spawnedOn l (story p') = [] ∧ begunOn l (story p') = []
  cells : ∀ s x, m.world.source? s = some x → x.loop = l → ∀ p' m', Walk code m p' m' →
    m'.world.outcome? x.cell = m.world.outcome? x.cell
  rejected : ∀ job c rest a, job.hands? = some (l, c) → m.jobs = job :: rest →
    m.mode = .going a → Rejected code m c rest
  settled : ∀ s x o rest a, m.world.source? s = some x → x.loop = l →
    m.jobs = .serve (.settle s o) :: rest → m.mode = .going a →
    (m.step code).mode = .going (.unit (.error .alreadyCompleted)) ∧ (m.step code).jobs = rest ∨
      WorksDown code (m.step code) [.handOff l (.settle x.cell o)] rest ∧
        Rejected code (m.step code) (.settle x.cell o) rest

end Machine

/-! ## How a loop is torn down -/

namespace World

variable {w : World G}

theorem mem_unfinished {work : Work G.Coroutine} :
    (slot, k, work) ∈ w.unfinished l ↔ w.task? l slot = some ⟨k, some work⟩ := by
  unfold unfinished
  rw [List.mem_filterMap, ← mem_tenants]
  constructor
  · rintro ⟨⟨slot', k', work'⟩, hm, he⟩
    obtain ⟨work, rfl, he⟩ := Option.map_eq_some_iff.mp he
    cases he
    exact hm
  · intro hm
    exact ⟨_, hm, rfl⟩

theorem pairwise_unfinished (w : World G) (l : LoopId) :
    (w.unfinished l).Pairwise (fun e e' => e.1 < e'.1) := by
  have htenants : (w.tenants l).Pairwise (fun e e' => e.1 < e'.1) := by
    unfold tenants
    cases w.tasks? l with
    | none => exact .nil
    | some s => exact s.pairwise_entries
  refine htenants.filterMap _ fun e e' hlt x hx y hy => ?_
  obtain ⟨_, _, rfl⟩ := Option.map_eq_some_iff.mp hx
  obtain ⟨_, _, rfl⟩ := Option.map_eq_some_iff.mp hy
  exact hlt

theorem filterMap_work_tenants (w : World G) (l : LoopId) :
    (w.tenants l).filterMap (·.2.work) = (w.unfinished l).map (·.2.2) := by
  unfold unfinished
  rw [List.map_filterMap]
  congr 1
  funext e
  cases e.2.work <;> rfl

/-- Where no future is out of the table, all tasks are unfinished. -/
theorem tenants_eq_unfinished (h : ∀ slot t, w.task? l slot = some t → t.work ≠ none) :
    w.tenants l = (w.unfinished l).map (fun e => (e.1, ⟨e.2.1, some e.2.2⟩)) := by
  have hall : ∀ e ∈ w.tenants l, e.2.work ≠ none := fun e he => h e.1 e.2 (mem_tenants.mp he)
  unfold unfinished
  generalize w.tenants l = es at hall
  induction es with
  | nil => rfl
  | cons e es ih =>
    obtain ⟨work, hwork⟩ := Option.ne_none_iff_exists'.mp (hall e List.mem_cons_self)
    obtain ⟨slot, k, _⟩ := e
    obtain rfl := hwork
    simp only [List.filterMap_cons, Option.map_some, List.map_cons]
    rw [← ih fun e he => hall e (List.mem_cons_of_mem _ he)]

end World

namespace Machine

variable {code : G.Code} {m m' : Machine G} {p p' : List (Machine G)} {a : Answer G}
  {rest : List (Job G)}

theorem Walked.tornDown (hm : Walked code p m) (hj : m.jobs = .serve (.close l) :: rest)
    (hmode : m.mode = .going a) (hidle : m.isRunning l = false)
    (hopen : m.world.isClosed l = false) : TornDown code p m l rest := by
  obtain ⟨hη, hw, _, hjobs⟩ := step_close code hj hmode hidle hopen
  obtain ⟨q, hq, _⟩ := isClosed_eq_false hopen
  refine ⟨hη, ?_, ?_, ?_, ?_⟩
  · rw [hw, World.queue?_modifyQueue, if_pos rfl, hq]
    rfl
  · intro slot
    rw [hw, World.task?_modifyQueue]
  · apply worksDown_of_jobs
    rw [hjobs]
    simp
  · intro slot k j t hs ht p' m' walk
    exact hm.cancelled_or_owed hj hmode hidle hopen hs ht walk

theorem Walked.drained (hm : Walked code p m) {n : Nat} (hj : m.jobs = .drain l n :: rest)
    (hmode : m.mode = .going a) : Drained code m l n rest := by
  have hl := hm.reached.closed_of_drain (mem_allJobs_of_top hj)
  have hclosed := hm.reached.isClosed_of_closed hl
  have hfree := hm.reached.free_of_closed hclosed
  have hworks : ∀ slot t, m.world.task? l slot = some t → t.work ≠ none :=
    fun slot t ht => hm.work_of_free hfree ht
  have htenants := World.tenants_eq_unfinished hworks
  obtain ⟨htold, hw, last, hjobs, hlast⟩ := step_drain code hj (by simp [isAborted, hmode])
  refine ⟨?_, m.world.pairwise_unfinished l, ?_, ?_, ?_⟩
  · rintro slot ⟨k, work⟩
    constructor
    · intro ht
      obtain ⟨work, rfl⟩ := Option.ne_none_iff_exists'.mp (hworks slot _ ht)
      exact ⟨work, rfl, World.mem_unfinished.mpr ht⟩
    · rintro ⟨work, rfl, hunfinished⟩
      exact World.mem_unfinished.mp hunfinished
  · rw [htold, World.toldOfDrop, htenants, List.map_map]
    rfl
  · intro slot
    rw [hw, World.task?_drain, if_pos rfl]
  · apply worksDown_of_jobs
    rw [hjobs, hlast a hmode, World.filterMap_work_tenants, htenants, List.map_map,
      List.length_map, List.append_assoc]
    rfl

theorem Walked.gone (hm : Walked code p m) (hl : .closed l ∈ p.flatMap happenings) :
    Gone code p m l := by
  have hclosed := hm.reached.isClosed_of_closed hl
  refine ⟨hm.reached.queue?_of_closed hl, hclosed, ?_, ?_, ?_, ?_, ?_, ?_⟩
  · intro hno
    have hempty := hm.task?_of_drained hl hno
    have hseats := World.seats_eq_nil hempty
    refine ⟨hempty, ?_, ?_⟩
    · rw [hm.pendingTasks_eq, hseats]
      rfl
    · have hbalance := hm.census.balance l
      rwa [hseats, List.append_nil] at hbalance
  · exact (List.nodup_append.mp (hm.census.nodup_leftFrom l)).1
  · intro p' m' walk
    exact ⟨walk.history.signs_of_closed hm.reached hl, hm.story_of_closed hl walk⟩
  · intro s x hx hxl p' m' walk
    exact hm.reached.outcome?_of_closed hl hx hxl walk.history
  · intro job c rest a hc hj hmode
    exact rejected_of_isClosed code hc hj hmode hclosed
  · intro s x o rest a hx hxl hj hmode
    cases hs : x.settled with
    | true =>
      obtain ⟨_, hmode', hjobs, _⟩ := step_settle_of_settled hj hmode hx hs
      exact .inl ⟨hmode', hjobs⟩
    | false =>
      have hstep : m.step code = { m with jobs := rest }.settle s o := step_of_going hj hmode rfl
      have hgoing : ∃ b, (m.step code).mode = .going b := by
        rw [hstep]
        unfold settle
        split <;> exact ⟨_, rfl⟩
      obtain ⟨b, hgoing⟩ := hgoing
      have hm₁ : Walked code (p ++ [m]) (m.step code) := hm.next_of_going hj hmode rfl
      have hlater : (m.step code).world.isClosed l = true :=
        hm₁.reached.isClosed_of_closed (mem_happenings_append hl [m])
      obtain ⟨_, _, hjobs⟩ := step_settle_of_unsettled hj hmode hx hs
      rw [hxl] at hjobs
      exact .inr ⟨worksDown_of_jobs hjobs, rejected_of_isClosed code rfl hjobs hgoing hlater⟩

/-- **Teardown is complete and final.** Whatever is queued on a loop and whichever of its tasks are
unfinished:

* when the loop is dropped, it is closed before any code of the guest runs; then the entries of its
  queue are dropped, in order, and after them its tasks; and whoever awaits one of these is told
  that it was cancelled;
* an entry is dropped without being processed: no callback is called and no task polled;
* all tasks are taken out of the table at once, and their futures dropped by slot, each of them
  once;
* to drop a future is to run the destructor of the coroutine in it, before anything else is done;
* from then on, whatever any thread does, the queue stays closed and empty, and the table empty; a
  callback that is handed to the loop is dropped, not called, and `LoopClosed` is answered; no
  transition of a source of the loop succeeds, and no cell of the loop changes. -/
theorem teardown_complete_and_final (hm : Walked code p m) :
    (∀ l rest a, m.jobs = .serve (.close l) :: rest → m.mode = .going a →
      m.isRunning l = false → m.world.isClosed l = false → TornDown code p m l rest) ∧
    (∀ e rest a, m.jobs = .discard e :: rest → m.mode = .going a →
      m.happenings = [] ∧ m.milestones = [] ∧ (m.step code).world = m.world ∧
        (m.step code).jobs = e.dropped code ++ rest) ∧
    (∀ l n rest a, m.jobs = .drain l n :: rest → m.mode = .going a → Drained code m l n rest) ∧
    (∀ work rest a, m.jobs = .abandon work :: rest → m.mode = .going a →
      m.happenings = [] ∧ m.milestones = [] ∧ (m.step code).world = m.world ∧
        ∃ jobs, (m.step code).jobs = jobs ++ rest ∧
          jobs.Perm (.drop work.future :: work.kind.slots.map (.fill · (.error .cancelled)))) ∧
    (∀ f rest a, m.jobs = .drop f :: rest → m.mode = .going a → m.Destroys code f rest) ∧
    ∀ l, .closed l ∈ p.flatMap happenings → Gone code p m l := by
  refine ⟨?_, ?_, ?_, ?_, ?_, ?_⟩
  · exact fun l rest a hj hmode hidle hopen => hm.tornDown hj hmode hidle hopen
  · exact fun e rest a hj hmode => step_discard code hj hmode
  · exact fun l n rest a hj hmode => hm.drained hj hmode
  · exact fun work rest a hj hmode => step_abandon code hj hmode
  · exact fun f rest a hj hmode => destroys_of_going code hj hmode
  · exact fun l hl => hm.gone hl

open Script

/-- A loop that is dropped with a task and a callback, and a source that is settled afterwards. -/
def taskLeftBehind : List (String × Statement) :=
  onLoop [[line "source" "s" (.source "s" none),
      line "spawn" "a" (.spawn "a" (.mk "a" [line "yield" "a" (.yield 1)] none none)),
      line "call_soon" "h" (.call "h" "c" [] none)]] ++
    [("drop_loop", line "drop_loop" "L" (.dropLoop "L")),
      ("set_result", line "set_result" "s" (.settle "s" (.completed .null)))]

/-- The loop that is to be dropped by the job on top of the stack. -/
def closing? (m : Machine G) : Option (LoopId × List (Job G)) :=
  match m.jobs, m.mode with
  | .serve (.close l) :: rest, .going _ => some (l, rest)
  | _, _ => none

theorem jobs_of_closing (h : m.closing? = some (l, rest)) :
    m.jobs = .serve (.close l) :: rest ∧ ∃ a, m.mode = .going a := by
  unfold closing? at h
  split at h
  · rename_i hj hmode
    cases h
    exact ⟨hj, _, hmode⟩
  · cases h

/-- When the source is settled, the loop is gone with its task. -/
theorem teardown_complete_and_final_of_script :
    (∃ rest, TornDown Script.code (follow taskLeftBehind 42).1 (follow taskLeftBehind 42).2 ⟨0⟩
      rest) ∧
    (follow taskLeftBehind 42).2.world.pendingTasks ⟨0⟩ = 1 ∧
    Gone Script.code (follow taskLeftBehind 58).1 (follow taskLeftBehind 58).2 ⟨0⟩ ∧
    (follow taskLeftBehind 58).2.world.pendingTasks ⟨0⟩ = 0 := by
  have before := teardown_complete_and_final (walked_follow taskLeftBehind 42)
  have after := teardown_complete_and_final (walked_follow taskLeftBehind 58)
  have hclosing : (follow taskLeftBehind 42).2.closing?.any (fun x => x.1 = ⟨0⟩) = true := by
    decide +kernel
  obtain ⟨⟨l, rest⟩, hsome, hl⟩ := Option.any_eq_true _ _ |>.mp hclosing
  obtain rfl : l = ⟨0⟩ := by simpa using hl
  obtain ⟨hj, a, hmode⟩ := jobs_of_closing hsome
  have htorn := before.1 ⟨0⟩ rest a hj hmode (by decide +kernel) (by decide +kernel)
  have hclosed : ((follow taskLeftBehind 58).1.flatMap happenings).any (Happening.closes ⟨0⟩) =
      true := by
    decide +kernel
  obtain ⟨e, he, hcloses⟩ := List.any_eq_true.mp hclosed
  rw [Happening.eq_of_closes hcloses] at he
  have hgone := after.2.2.2.2.2 ⟨0⟩ he
  have hdrained : (follow taskLeftBehind 58).2.allJobs.any (Job.isDrain ⟨0⟩) = false := by
    decide +kernel
  have hno : ∀ n, .drain ⟨0⟩ n ∉ (follow taskLeftBehind 58).2.allJobs := by
    intro n hmem
    have hfalse := List.any_eq_false.mp hdrained _ hmem
    simp [Job.isDrain] at hfalse
  exact ⟨⟨rest, htorn⟩, by decide +kernel, hgone, (hgone.table hno).2.1⟩

end Machine

end RunLoop
