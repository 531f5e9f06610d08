import RunLoop.Proofs.Play
import RunLoop.Proofs.Walk

/-!
# The current loop

The current loop of a thread is the one whose frame is on its stack. The frame is put down before
the main future is accepted, and taken off after that future was dropped, whether the main future
was ready or panicked. So the loop is current to everything that stands above the frame, and none is
current outside of it. Whoever asks for a loop to be run while one is current is refused.

* `Inside` says that a loop is being run on a stack.
* `Machine.Sound.current_iff`: exactly the loop that is being run on a stack is current.
* `Machine.Refused` says what becomes of a request to run a loop inside of another one.
* `Machine.current_loop_discipline` puts it together.
-/

namespace RunLoop

variable {G : Guest} {l : LoopId} {jobs rest : List (Job G)}

/-- Whether a job is the upper half of the frame of a loop. -/
def Job.isRestore : Job G → Bool
  | restore _ => true
  | _ => false

/-- Loop `l` is being run on a stack: its frame is there, and no other one. -/
def Inside (l : LoopId) (jobs : List (Job G)) : Prop :=
  ∃ above below, jobs = above ++ .restore none :: .leave l :: below ∧
    ∀ i ∈ above ++ below, i.isRestore = false

theorem ne_restore_of_isRestore {job : Job G} (h : job.isRestore = false) (p : Option LoopId) :
    job ≠ .restore p := by
  rintro rfl
  cases h

theorem currentLoop_eq_none_iff (h : Stacked jobs) :
    currentLoop jobs = none ↔ ∀ i ∈ jobs, i.isRestore = false := by
  induction jobs with
  | nil => simp [currentLoop]
  | cons job rest ih =>
    have ih := ih h.2.2
    rw [List.forall_mem_cons]
    cases hr : job.isRestore with
    | false =>
      rw [currentLoop_cons (ne_restore_of_isRestore hr), ih]
      simp
    | true =>
      have hsome : currentLoop (job :: rest) ≠ none := by
        cases job with
        | restore p =>
          obtain ⟨⟨rfl, l, rest', rfl⟩, _⟩ := h
          simp [currentLoop]
        | _ => cases hr
      simp [hsome]

/-- The loop that is current to the job on top of a stack is the one that is being run on it. -/
theorem currentLoop_eq_some_iff (h : Stacked jobs) : currentLoop jobs = some l ↔ Inside l jobs := by
  constructor
  · intro hl
    induction jobs with
    | nil => cases hl
    | cons job rest ih =>
      cases hr : job.isRestore with
      | false =>
        rw [currentLoop_cons (ne_restore_of_isRestore hr)] at hl
        obtain ⟨above, below, rfl, hnone⟩ := ih h.2.2 hl
        exact ⟨job :: above, below, rfl, List.forall_mem_cons.mpr ⟨hr, hnone⟩⟩
      | true =>
        cases job with
        | restore p =>
          obtain ⟨⟨rfl, l', below, rfl⟩, _, hleave, _, hbelow⟩ := h
          cases hl
          exact ⟨[], below, rfl, (currentLoop_eq_none_iff hbelow).mp hleave⟩
        | _ => cases hr
  · rintro ⟨above, below, rfl, hnone⟩
    rw [currentLoop_append]
    · rfl
    · intro i hi
      exact ne_restore_of_isRestore (hnone i (List.mem_append_left _ hi))

/-- The future that a request would run to its end, and the answer by which it is refused inside of
a running loop. -/
def Request.toRun? : Request G → Option (Future G.Coroutine × Answer G)
  | blockOn _ f => some (f, .blocked (.error .nestedLoop))
  | getResult f => some (f, .result (.error .nestedLoop))
  | _ => none

namespace Machine

variable {code : G.Code} {m m' : Machine G} {τ : List (Happening G)} {a : Answer G}

/-- A loop is current on a thread exactly while it is being run on the stack of the thread. -/
theorem Sound.current_iff (h : m.Sound) {q : Parked G} (hq : q ∈ m.strands) (l : LoopId) :
    q.thread.current = some l ↔ Inside l q.jobs := by
  have ho := h.strands q hq
  rw [ho.current]
  exact currentLoop_eq_some_iff ho.stacked

/-! ## Where a loop becomes current, and where not any more -/

/-- The loop is current before its main future is accepted and polled. -/
theorem step_blockOn {f : Future G.Coroutine} (hj : m.jobs = .serve (.blockOn l f) :: rest)
    (hmode : m.mode = .going a) (hnone : m.world.thread.current = none)
    (hidle : m.isRunning l = false) (hopen : m.world.isClosed l = false) :
    (m.step code).world.thread.current = some l ∧
      (m.step code).jobs = .serve (.poll (f.map code.accept) ⟨m.world.wakers.size⟩) ::
        .mainPolled l ⟨m.world.wakers.size⟩ [] :: .restore none :: .leave l :: rest := by
  have hidle' : isRunning { m with jobs := rest } l = false := by
    simpa [isRunning, hj, Job.isLeave] using hidle
  have hstep : m.step code = { m with jobs := rest }.blockOn code l f :=
    step_of_going hj hmode rfl
  rw [hstep]
  simp only [blockOn, current, hnone, hidle', hopen]
  exact ⟨rfl, rfl⟩

/-- A main future that is ready is dropped while its loop is still current. -/
theorem Sound.step_ready (h : m.Sound) (code : G.Code) {k : WakerId} {batch : List (Entry G)}
    {r : Result} {f : Future G.Coroutine} (hj : m.jobs = .mainPolled l k batch :: rest)
    (hmode : m.mode = .going a) (hready : a.toPoll = .ready r f) :
    (m.step code).jobs = .drop f :: .answer (.result r) :: rest ∧
      Framed l rest ∧ (m.step code).world.thread.current = some l := by
  have ho := h.strands _ List.mem_cons_self
  simp only [hj] at ho
  obtain ⟨below, rfl⟩ := ho.stacked.1
  have hstep : m.step code = { m with jobs := .restore none :: .leave l :: below }.mainPolled l k
      batch a.toPoll := step_of_going hj hmode rfl
  rw [hstep, hready]
  exact ⟨rfl, ⟨below, rfl⟩, ho.current⟩

/-- What is left of a main future that panicked is dropped while its loop is still current. -/
theorem Sound.step_panicked (h : m.Sound) (code : G.Code) {k : WakerId} {batch : List (Entry G)}
    {p : Payload} {r : Option (Future G.Coroutine)} (hj : m.jobs = .mainPolled l k batch :: rest)
    (hmode : m.mode = .unwinding p r) :
    (m.step code).jobs = batch.map .discard ++ r.toList.map .drop ++ .propagate p :: rest ∧
      Framed l rest ∧ (m.step code).world.thread.current = some l := by
  have ho := h.strands _ List.mem_cons_self
  simp only [hj] at ho
  obtain ⟨below, rfl⟩ := ho.stacked.1
  rw [step_of_unwinding hj hmode]
  refine ⟨?_, ⟨below, rfl⟩, ho.current⟩
  simp [unwind, cleanUp, push, insert, go]

/-- After the frame no loop is current, in order or in a panic. -/
theorem Sound.step_restore (h : m.Sound) {previous : Option LoopId}
    (hj : m.jobs = .restore previous :: rest) (live : m.isAborted = false) :
    (∃ l below, rest = .leave l :: below) ∧ (m.step code).jobs = rest ∧
      (m.step code).world.thread.current = none := by
  have ho := h.strands _ List.mem_cons_self
  simp only [hj] at ho
  obtain ⟨⟨rfl, hleave⟩, _⟩ := ho.stacked
  refine ⟨hleave, ?_⟩
  cases hmode : m.mode with
  | going a =>
    rw [step_of_going hj hmode rfl]
    exact ⟨rfl, rfl⟩
  | unwinding p r =>
    rw [step_of_unwinding hj hmode]
    exact ⟨rfl, rfl⟩
  | aborted => simp [isAborted, hmode] at live

/-! ## What is bound to the current loop -/

theorem step_spawn (code : G.Code) {f : Future G.Coroutine}
    (hj : m.jobs = .serve (.spawn f) :: rest) (hmode : m.mode = .going a) :
    (∀ l, m.world.thread.current = some l →
      (m.step code).world = (m.world.newJoin.1.addTask l (.joined ⟨m.world.joins.size⟩)
        (f.map code.accept)).1 ∧
      (m.step code).jobs =
        .wake ⟨m.world.wakers.size⟩ :: .answer (.join (.ok ⟨m.world.joins.size⟩)) :: rest) ∧
    (m.world.thread.current = none → (m.step code).world = m.world ∧
      (m.step code).jobs = .drop f :: .answer (.join (.error .noActiveLoop)) :: rest) := by
  have hstep : m.step code = { m with jobs := rest }.spawn code f := step_of_going hj hmode rfl
  rw [hstep]
  constructor
  · intro l hl
    simp only [spawn, current, hl]
    exact ⟨rfl, rfl⟩
  · intro hnone
    simp only [spawn, current, hnone]
    exact ⟨rfl, rfl⟩

theorem step_start (code : G.Code) {f : Future G.Coroutine}
    (hj : m.jobs = .serve (.start f) :: rest) (hmode : m.mode = .going a) :
    (∀ l, m.world.thread.current = some l →
      (m.step code).world = (m.world.addTask l .detached (f.map code.accept)).1 ∧
      (m.step code).jobs = .wake ⟨m.world.wakers.size⟩ :: .answer (.unit (.ok ())) :: rest) ∧
    (m.world.thread.current = none → (m.step code).world = m.world ∧
      (m.step code).jobs = .drop f :: .answer (.unit (.error .noActiveLoop)) :: rest) := by
  have hstep : m.step code = { m with jobs := rest }.startTask code f := step_of_going hj hmode rfl
  rw [hstep]
  constructor
  · intro l hl
    simp only [startTask, current, hl]
    exact ⟨rfl, rfl⟩
  · intro hnone
    simp only [startTask, current, hnone]
    exact ⟨rfl, rfl⟩

theorem step_source (code : G.Code) (hj : m.jobs = .serve (.source none) :: rest)
    (hmode : m.mode = .going a) :
    (∀ l, m.world.thread.current = some l →
      (m.step code).world = (m.world.newSource l).1 ∧ (m.step code).jobs = rest ∧
      (m.step code).mode = .going (.source (.ok ⟨m.world.sources.size⟩))) ∧
    (m.world.thread.current = none → (m.step code).world = m.world ∧ (m.step code).jobs = rest ∧
      (m.step code).mode = .going (.source (.error .noActiveLoop))) := by
  have hstep : m.step code = { m with jobs := rest }.newSource none := step_of_going hj hmode rfl
  rw [hstep]
  constructor
  · intro l hl
    simp only [newSource, current, hl]
    exact ⟨rfl, rfl, rfl⟩
  · intro hnone
    simp only [newSource, current, hnone]
    exact ⟨rfl, rfl, rfl⟩

/-! ## Requests inside of a running loop -/

/-- A request to run `f` is refused with `b`: nothing happens, `f` is dropped, and when that is
over, however long it takes and whatever other threads do, `b` is the answer. -/
structure Refused (code : G.Code) (m : Machine G) (f : Future G.Coroutine) (b : Answer G)
    (rest : List (Job G)) : Prop where
  jobs : (m.step code).jobs = .drop f :: .answer b :: rest
  happenings : m.happenings = []
  objects : m.world.Agrees (m.step code).world
  thread : (m.step code).world.thread = m.world.thread
  /-- The two jobs are performed in this order, and what is below them stays. -/
  order : ∀ p m', Walk code (m.step code) p m' → ∃ done left,
    [.drop f, .answer b] = done ++ left ∧ (stations done (left ++ rest)).Sublist (p.map (·.jobs)) ∧
      (left = [] ∨ ∃ q ∈ m'.strands, left ++ rest <:+ q.jobs)
  answer : ∀ (m₁ : Machine G) a, m₁.jobs = .answer b :: rest → m₁.mode = .going a →
    (m₁.step code).mode = .going b ∧ (m₁.step code).jobs = rest ∧
      (m₁.step code).world = m₁.world

theorem refused_of_jobs {f : Future G.Coroutine} {b : Answer G}
    (hjobs : (m.step code).jobs = .drop f :: .answer b :: rest) (hη : m.happenings = [])
    (hw : m.world.Agrees (m.step code).world)
    (ht : (m.step code).world.thread = m.world.thread) : Refused code m f b rest := by
  refine ⟨hjobs, hη, hw, ht, ?_, ?_⟩
  · intro p m' walk
    exact walk.works_down List.mem_cons_self ⟨[], hjobs.symm⟩
  · intro m₁ a hj hmode
    rw [step_of_going hj hmode rfl]
    exact ⟨rfl, rfl, rfl⟩

/-- Whoever asks for a loop to be run while one is current is refused. -/
theorem refused_of_current {q : Request G} {f : Future G.Coroutine} {b : Answer G}
    (hq : q.toRun? = some (f, b)) (hj : m.jobs = .serve q :: rest) (hmode : m.mode = .going a)
    (hl : m.world.thread.current = some l) : Refused code m f b rest := by
  have hcur : ∀ jobs, current { m with jobs } = some l := fun _ => hl
  have hstep : m.step code = { m with jobs := rest }.serve code q := step_of_going hj hmode rfl
  cases q with
  | blockOn l' f' =>
    cases hq
    simp only [serve, blockOn, hcur, Option.isSome_some, Bool.true_or, if_true] at hstep
    apply refused_of_jobs
    · rw [hstep]
      rfl
    · simp [Machine.happenings, hj, hmode, performed, served, current, hl]
    · rw [hstep]
      exact World.agrees_emit _ _
    · rw [hstep]
      rfl
  | getResult f' =>
    cases hq
    simp only [serve, getResult, hcur, Option.isSome_some, if_true] at hstep
    apply refused_of_jobs
    · rw [hstep]
      rfl
    · simp [Machine.happenings, hj, hmode, performed, served, current, hl]
    · rw [hstep]
      exact World.agrees_emit _ _
    · rw [hstep]
      rfl
  | _ => cases hq

/-! ## The discipline -/

/-- **The current loop of a thread is the one that runs on it.** Whatever code runs on whatever
threads, and whether it returns or panics:

* a loop is current on a thread exactly while it is being run on its stack, and user code sees it;
* it becomes current before its main future is accepted, is so until that future was dropped, be it
  ready or left by a panic, and is not any more after the frame, in order or in a panic;
* tasks and sources are bound to the loop that is being run, and outside of it there is no loop for
  them;
* a request to run a loop inside of another one is refused: its future is dropped, never polled,
  and no loop and no thread is changed by it. -/
theorem current_loop_discipline (hm : Reached code τ m) :
    (∀ q ∈ m.strands, ∀ l, q.thread.current = some l ↔ Inside l q.jobs) ∧
    (∀ l, m.scene.world.thread.current = some l ↔ Inside l m.jobs) ∧
    (∀ l f a rest, m.jobs = .serve (.blockOn l f) :: rest → m.mode = .going a →
      (∀ l', ¬Inside l' m.jobs) → m.isRunning l = false → m.world.isClosed l = false →
      (m.step code).world.thread.current = some l ∧
        (m.step code).jobs = .serve (.poll (f.map code.accept) ⟨m.world.wakers.size⟩) ::
          .mainPolled l ⟨m.world.wakers.size⟩ [] :: .restore none :: .leave l :: rest) ∧
    (∀ l k batch rest, m.jobs = .mainPolled l k batch :: rest → Framed l rest ∧
      (∀ a r f, m.mode = .going a → a.toPoll = .ready r f →
        (m.step code).jobs = .drop f :: .answer (.result r) :: rest ∧
          (m.step code).world.thread.current = some l) ∧
      ∀ p r, m.mode = .unwinding p r →
        (m.step code).jobs = batch.map .discard ++ r.toList.map .drop ++ .propagate p :: rest ∧
          (m.step code).world.thread.current = some l) ∧
    (∀ previous rest, m.jobs = .restore previous :: rest → m.isAborted = false →
      (m.step code).jobs = rest ∧ (m.step code).world.thread.current = none) ∧
    (∀ f a rest, m.jobs = .serve (.spawn f) :: rest → m.mode = .going a →
      (∀ l, Inside l m.jobs →
        (m.step code).world = (m.world.newJoin.1.addTask l (.joined ⟨m.world.joins.size⟩)
          (f.map code.accept)).1 ∧
        (m.step code).jobs =
          .wake ⟨m.world.wakers.size⟩ :: .answer (.join (.ok ⟨m.world.joins.size⟩)) :: rest) ∧
      ((∀ l, ¬Inside l m.jobs) → (m.step code).world = m.world ∧
        (m.step code).jobs = .drop f :: .answer (.join (.error .noActiveLoop)) :: rest)) ∧
    (∀ f a rest, m.jobs = .serve (.start f) :: rest → m.mode = .going a →
      (∀ l, Inside l m.jobs →
        (m.step code).world = (m.world.addTask l .detached (f.map code.accept)).1 ∧
        (m.step code).jobs = .wake ⟨m.world.wakers.size⟩ :: .answer (.unit (.ok ())) :: rest) ∧
      ((∀ l, ¬Inside l m.jobs) → (m.step code).world = m.world ∧
        (m.step code).jobs = .drop f :: .answer (.unit (.error .noActiveLoop)) :: rest)) ∧
    (∀ a rest, m.jobs = .serve (.source none) :: rest → m.mode = .going a →
      (∀ l, Inside l m.jobs → (m.step code).world = (m.world.newSource l).1 ∧
        (m.step code).jobs = rest ∧
        (m.step code).mode = .going (.source (.ok ⟨m.world.sources.size⟩))) ∧
      ((∀ l, ¬Inside l m.jobs) → (m.step code).world = m.world ∧ (m.step code).jobs = rest ∧
        (m.step code).mode = .going (.source (.error .noActiveLoop)))) ∧
    ∀ q f b l a rest, q.toRun? = some (f, b) → m.jobs = .serve q :: rest → m.mode = .going a →
      Inside l m.jobs → Refused code m f b rest := by
  have hsound := hm.sound
  have current_iff : ∀ l, m.world.thread.current = some l ↔ Inside l m.jobs :=
    hsound.current_iff List.mem_cons_self
  have none_of : (∀ l, ¬Inside l m.jobs) → m.world.thread.current = none := by
    intro hout
    rw [Option.eq_none_iff_forall_ne_some]
    exact fun l hl => hout l ((current_iff l).mp hl)
  refine ⟨fun q hq l => hsound.current_iff hq l, current_iff, ?_, ?_, ?_, ?_, ?_, ?_, ?_⟩
  · intro l f a rest hj hmode hout hidle hopen
    exact step_blockOn hj hmode (none_of hout) hidle hopen
  · intro l k batch rest hj
    have ho := hsound.strands _ List.mem_cons_self
    simp only [hj] at ho
    refine ⟨ho.stacked.1, ?_, ?_⟩
    · intro a r f hmode hready
      obtain ⟨hjobs, _, hcur⟩ := hsound.step_ready code hj hmode hready
      exact ⟨hjobs, hcur⟩
    · intro p r hmode
      obtain ⟨hjobs, _, hcur⟩ := hsound.step_panicked code hj hmode
      exact ⟨hjobs, hcur⟩
  · intro previous rest hj live
    exact (hsound.step_restore hj live).2
  · intro f a rest hj hmode
    obtain ⟨hin, hout⟩ := step_spawn code hj hmode
    exact ⟨fun l hl => hin l ((current_iff l).mpr hl), fun h => hout (none_of h)⟩
  · intro f a rest hj hmode
    obtain ⟨hin, hout⟩ := step_start code hj hmode
    exact ⟨fun l hl => hin l ((current_iff l).mpr hl), fun h => hout (none_of h)⟩
  · intro a rest hj hmode
    obtain ⟨hin, hout⟩ := step_source code hj hmode
    exact ⟨fun l hl => hin l ((current_iff l).mpr hl), fun h => hout (none_of h)⟩
  · intro q f b l a rest hq hj hmode hl
    exact refused_of_current hq hj hmode ((current_iff l).mpr hl)

open Script

/-- The main future of one loop asks for another loop to be run. -/
def loopInsideLoop : List (String × Statement) :=
  ("loop", line "loop" "M" (.loop "M" none none none false)) ::
    onLoop [[line "block_on" "M" (.blockOn "M" (.program (.mk "inner" [] none none)))]]

/-- The loop that is asked for by the job on top of the stack. -/
def blockedOn? (m : Machine G) : Option (LoopId × Future G.Coroutine × List (Job G)) :=
  match m.jobs, m.mode with
  | .serve (.blockOn l f) :: rest, .going _ => some (l, f, rest)
  | _, _ => none

theorem jobs_of_blockedOn {f : Future G.Coroutine} (h : m.blockedOn? = some (l, f, rest)) :
    m.jobs = .serve (.blockOn l f) :: rest ∧ ∃ a, m.mode = .going a := by
  unfold blockedOn? at h
  split at h
  · rename_i hj hmode
    cases h
    exact ⟨hj, _, hmode⟩
  · cases h

/-- It is refused, although nothing runs on that other loop. -/
theorem current_loop_discipline_of_script :
    Inside ⟨1⟩ (play loopInsideLoop 25).2.jobs ∧
      ∃ f rest, (play loopInsideLoop 25).2.jobs = .serve (.blockOn ⟨0⟩ f) :: rest ∧
        Refused Script.code (play loopInsideLoop 25).2 f (.blocked (.error .nestedLoop)) rest := by
  have h := current_loop_discipline (reached_play loopInsideLoop 25)
  have hin : Inside ⟨1⟩ (play loopInsideLoop 25).2.jobs :=
    (h.2.1 ⟨1⟩).mp (by decide +kernel)
  have hblocked : (play loopInsideLoop 25).2.blockedOn?.any (fun x => x.1 = ⟨0⟩) = true := by
    decide +kernel
  obtain ⟨⟨l, f, rest⟩, hsome, hl⟩ := Option.any_eq_true _ _ |>.mp hblocked
  obtain rfl : l = ⟨0⟩ := by simpa using hl
  obtain ⟨hj, a, hmode⟩ := jobs_of_blockedOn hsome
  exact ⟨hin, f, rest, hj, h.2.2.2.2.2.2.2.2 _ f _ ⟨1⟩ a rest rfl hj hmode hin⟩

end Machine

end RunLoop
