import RunLoop.Proofs.Passage

/-!
# Chronicles of tasks

Every step of a run is a passage: the facts that a passage asks for, that no further task of the
loop is being polled and that a task is spawned on a loop that is there, hold in every run. So a run
leaves a chronicle of the milestones that were reached.

* `Machine.story` is what is told of tasks in a run, `Machine.errands` what is under way on all
  stacks.
* `Machine.Advance` is what a step does about tasks, and `Machine.Walked.advance` finds it.
* `Machine.Walked.chronicle` finds the chronicle of a run.
-/

namespace RunLoop

variable {G : Guest}

theorem World.told_of_not_tells (w : World G) (a : Answer G) {job : Job G}
    (h : job.tells = false) : w.told a job = [] := by
  cases job with
  | serve q =>
    cases q with
    | poll f k => cases f <;> first | rfl | cases h
    | _ => first | rfl | cases h
  | turn l k f batch =>
    match batch, h with
    | [], _ => rfl
    | .main :: _, _ => rfl
    | .call (.own _) :: _, _ => rfl
    | .call (.settle _ _) :: _, _ => rfl
  | _ => first | rfl | cases h

theorem World.toldOfPanic_of_not_isErrand (w : World G) (p : Payload) {job : Job G}
    (h : job.isErrand = false) : w.toldOfPanic p job = [] := by
  cases job <;> first | rfl | cases h

/-- An open loop has a task table. -/
theorem World.tasks?_of_isClosed {w : World G} {l : LoopId} (h : w.isClosed l = false) :
    ∃ s, w.tasks? l = some s := by
  obtain ⟨q, hq, _⟩ := isClosed_eq_false h
  obtain ⟨e, he, _⟩ := Option.map_eq_some_iff.mp hq
  exact ⟨e.tasks, by rw [tasks?, he]; rfl⟩

/-- What a run leaves behind of tasks and join slots: the milestones that were reached, and the
errands that are still under way. -/
inductive Chronicle : List Milestone → World G → List (Job G) → Prop where
  | here : Chronicle [] .empty []
  | same {σ w w' D D'} (chronicle : Chronicle σ w D) (hw : w.Keeps w') (hD : D.Perm D') :
      Chronicle σ w' D'
  | step {σ σ' w w' others before after} (chronicle : Chronicle σ w (before ++ others))
      (passage : Passage w others before σ' w' after) : Chronicle (σ ++ σ') w' (after ++ others)

namespace Machine

variable {code : G.Code} {m m' m₁ : Machine G} {p : List (Machine G)} {job : Job G}
  {rest : List (Job G)} {σ : List Milestone}

/-- The milestones that were reached in the steps of a walk. -/
def story (p : List (Machine G)) : List Milestone :=
  p.flatMap milestones

theorem mem_story_append {e : Milestone} (h : e ∈ story p) (p' : List (Machine G)) :
    e ∈ story (p ++ p') := by
  rw [story, List.flatMap_append]
  exact List.mem_append_left _ h

/-- The errands on all stacks. -/
def errands (m : Machine G) : List (Job G) :=
  m.allJobs.filter Job.isErrand

/-- Next to an errand of a loop, no task of the loop is being polled. -/
theorem Walked.no_task_below (hm : Walked code p m) (hj : m.jobs = job :: rest) (l : LoopId)
    (h : job.isTask l = true ∨ job.isDrive l = true ∨ ∃ n, job = .drain l n) :
    ∀ i ∈ (rest ++ m.threads.parked.flatMap (·.jobs)).filter Job.isErrand,
      i.isTask l = false := by
  intro i hi
  have hi := (List.mem_filter.mp hi).1
  rcases h with h | h | ⟨n, rfl⟩
  · exact (hm.sound.polling_below hj h).2 i hi
  · exact ((hm.sound.alone_below hj h).2 i hi).2
  · have hdrain := hm.reached.closed_of_drain (mem_allJobs_of_top hj)
    have hfree := hm.reached.free_of_closed (hm.reached.isClosed_of_closed hdrain)
    refine (hfree i ?_).2.2
    rw [allJobs_of_top hj]
    exact List.mem_cons_of_mem _ hi

/-- What a step does about tasks: on the stack of the running thread `job` gives way to `jobs`, by a
passage; the errands on the other stacks stay where they are. -/
structure Advance (code : G.Code) (m : Machine G) (job : Job G) (rest jobs : List (Job G)) :
    Prop where
  top : m.jobs = job :: rest
  passage : ∃ w, Passage m.world ((rest ++ m.threads.parked.flatMap (·.jobs)).filter Job.isErrand)
    ([job].filter Job.isErrand) m.milestones w (jobs.filter Job.isErrand) ∧
    w.Keeps (m.step code).world
  errands : ((jobs ++ (rest ++ m.threads.parked.flatMap (·.jobs))).filter Job.isErrand).Perm
    (m.step code).errands
  strands : ∀ q ∈ (m.step code).strands, q ∈ m.threads.parked ∨ q.jobs = jobs ++ rest ∨
    ∀ i ∈ q.jobs, i.isErrand = false

theorem Advance.errands_eq {jobs : List (Job G)} (h : Advance code m job rest jobs) :
    m.errands = [job].filter Job.isErrand ++
      (rest ++ m.threads.parked.flatMap (·.jobs)).filter Job.isErrand := by
  rw [Machine.errands, allJobs_of_top h.top, ← List.filter_append]
  simp

/-- The passage of a step in which the thread goes on. -/
theorem Passes.advance (hj : m.jobs = job :: rest) (h : Passes { m with jobs := rest }
    ((rest ++ m.threads.parked.flatMap (·.jobs)).filter Job.isErrand) job m.milestones
    (m.step code)) : ∃ jobs, Advance code m job rest jobs := by
  obtain ⟨jobs, w, hjobs, hparked, passage, hw⟩ := h
  have hparked : (m.step code).threads.parked = m.threads.parked := hparked
  have hjobs : (m.step code).jobs = jobs ++ rest := hjobs
  refine ⟨jobs, hj, ⟨w, passage, hw⟩, ?_, ?_⟩
  · rw [Machine.errands, allJobs, hjobs, hparked, List.append_assoc]
  · intro q hq
    rcases List.mem_cons.mp hq with rfl | hq
    · exact .inr (.inl hjobs)
    · exact .inl (hparked ▸ hq)

/-- The passage of a step after which another thread goes on. -/
theorem Passes.advance_of_switched (hj : m.jobs = job :: rest)
    (h : Passes { m with jobs := rest }
      ((rest ++ m.threads.parked.flatMap (·.jobs)).filter Job.isErrand) job m.milestones m₁)
    (switched : m₁.Switched (m.step code)) : ∃ jobs, Advance code m job rest jobs := by
  obtain ⟨jobs, w, hjobs, hparked, passage, hw⟩ := h
  have hparked : m₁.threads.parked = m.threads.parked := hparked
  have hjobs : m₁.jobs = jobs ++ rest := hjobs
  have hkeeps := switched.objects.keeps
  refine ⟨jobs, hj, ⟨w, passage, ?_⟩, ?_, ?_⟩
  · exact ⟨fun l => (hkeeps.tasks l).trans (hw.tasks l), hkeeps.joins.trans hw.joins,
      Nat.le_trans hw.wakers hkeeps.wakers⟩
  · have hperm : m₁.errands.Perm (m.step code).errands :=
      switched.filter_allJobs (fun _ => rfl) fun _ => rfl
    rwa [Machine.errands, allJobs, hjobs, hparked, List.append_assoc] at hperm
  · intro q hq
    obtain ⟨_, fresh, hnew, hperm⟩ := switched
    rcases List.mem_append.mp (hperm.mem_iff.mp hq) with hq | hq
    · obtain ⟨t, run, rfl⟩ := hnew q hq
      exact .inr (.inr (by simp [Job.isErrand]))
    · rcases List.mem_cons.mp (mem_strands_of_mem_parked hq) with rfl | hq
      · exact .inr (.inl hjobs)
      · exact .inl (hparked ▸ hq)

/-- A job that has nothing to do with tasks passes them by. -/
theorem Acts.passes {η : List (Happening G)} (acts : m.Acts η m₁) (hs : m.Sound)
    (hj : m.jobs = job :: rest) (he : job.isErrand = false)
    (ht : ∀ a, m.mode = .going a → job.tells = false) (others : List (Job G)) :
    Passes { m with jobs := rest } others job [] m₁ := by
  obtain ⟨job', rest', hj', jobs, hjobs, hparked, rule⟩ := acts
  cases hj.symm.trans hj'
  have ho := hs.strands _ List.mem_cons_self
  simp only [hj] at ho
  obtain ⟨w, passage, hw⟩ : ∃ w, Passage m.world others _ _ w _ ∧ w.Keeps m₁.world :=
    Rule.passage rule ho he ht
  exact ⟨jobs, w, hjobs, hparked, passage, hw⟩

/-- Every step of a run is a passage. -/
theorem Walked.advance (hm : Walked code p m) (hi : m.isIdle = false)
    (live : m.isAborted = false) : ∃ job rest jobs, Advance code m job rest jobs := by
  obtain ⟨job, rest, hj⟩ := exists_job hi
  have hs := hm.sound
  have hno := hm.no_task_below hj
  refine ⟨job, rest, ?_⟩
  -- What concerns tasks is looked up; of everything else the rules are enough.
  have quiet : m.milestones = [] → job.isErrand = false →
      (∀ a, m.mode = .going a → job.tells = false) → ∃ jobs, Advance code m job rest jobs := by
    intro hnone he ht
    have passes : ∀ {η m₁}, m.Acts η m₁ → Passes { m with jobs := rest }
        ((rest ++ m.threads.parked.flatMap (·.jobs)).filter Job.isErrand) job m.milestones m₁ := by
      intro η m₁ acts
      rw [hnone]
      exact acts.passes hs hj he ht _
    rcases acts_of_live code hi live with acts | ⟨m₁, acts, switched⟩
    · exact (passes acts).advance hj
    · exact (passes acts).advance_of_switched hj switched
  cases hmode : m.mode with
  | aborted => simp [isAborted, hmode] at live
  | unwinding q r =>
    have htold : m.milestones = m.world.toldOfPanic q job := by
      simp only [milestones, hj, hmode]
    cases he : job.isErrand with
    | false =>
      refine quiet ?_ he (by simp [hmode])
      rw [htold, World.toldOfPanic_of_not_isErrand _ _ he]
    | true =>
      apply Passes.advance hj
      have ho := hs.strands _ List.mem_cons_self
      simp only [hj] at ho
      have hf : job.isFragile = false := by
        have hspared := ho.spared q r hmode
        simp only [sheltered, Bool.or_eq_false_iff] at hspared
        exact hspared.1
      rw [htold, step_of_unwinding hj hmode]
      exact unwind_passes job he hf fun l h => hno l (h.imp_right .inr)
  | going a =>
    have htold : m.milestones = m.world.told a job := by
      simp only [milestones, hj, hmode]
    have hwait : m.mustWait job = false := (isIdle_of_going hj hmode).symm.trans hi
    cases ht : job.tells with
    | false =>
      refine quiet ?_ (Job.isErrand_of_tells ht) (by simp [hmode, ht])
      rw [htold, World.told_of_not_tells _ _ ht]
    | true =>
      apply Passes.advance hj
      have hcur : ∀ l, m.world.thread.current = some l → ∃ s, m.world.tasks? l = some s :=
        fun l hl => World.tasks?_of_isClosed (hm.reached.opened_of_current hl)
      rw [htold, step_of_going hj hmode hwait]
      cases job with
      | serve q => exact serve_passes (m := { m with jobs := rest }) hcur q ht
      | turn l k f batch =>
        have hno := hno l (.inr (.inl (by simp [Job.isDrive])))
        exact turn_passes (m := { m with jobs := rest }) hcur hno ht
      | _ => exact perform_passes _ ht hmode fun l h => hno l (h.imp_right .inr)

/-- Every run leaves a chronicle. -/
theorem Walked.chronicle (hm : Walked code p m) :
    Chronicle (story p) m.world m.errands := by
  obtain ⟨shared, run, walk⟩ := hm
  unfold story
  induction walk with
  | here => exact .here
  | act walk hi live ih =>
    obtain ⟨job, rest, jobs, advance⟩ := Walked.advance ⟨shared, run, walk⟩ hi live
    obtain ⟨w, passage, hw⟩ := advance.passage
    have herrands := advance.errands
    rw [List.filter_append] at herrands
    rw [advance.errands_eq] at ih
    rw [List.flatMap_append, List.flatMap_singleton]
    exact (ih.step passage).same hw herrands
  | turnTo _ h ih =>
    have switched := switched_turnTo h
    exact ih.same switched.objects.keeps (switched.filter_allJobs (fun _ => rfl) fun _ => rfl)
  | @launch _ m₁ _ x _ ih =>
    have switched : m₁.Switched (m₁.launch x) := switched_launch x
    exact ih.same switched.objects.keeps (switched.filter_allJobs (fun _ => rfl) fun _ => rfl)

end Machine

end RunLoop
