import RunLoop.Proofs.Course
import RunLoop.Proofs.View

/-!
# The discipline of the stacks

What stands on a stack stands in order: the work of a loop above the frame that its entry put down,
the work of a task above the turn that polls it, and nothing from which a panic could come above
what a panic must not take away. So no panic takes work away silently (`Orderly.astray`).

* `Stacked` is the order on a stack, `sheltered` says that a panic must not reach it.
* `Orderly` is what holds of every stack.
* `Rule.stacked` and `Rule.currentLoop`: every rule keeps a stack in order.
-/

namespace RunLoop

variable {G : Guest}

/-! ## The order on a stack -/

/-- Whether something that a panic must not take away stands above all that stops a panic. -/
def sheltered : List (Job G) → Bool
  | [] => false
  | job :: rest => job.isFragile || (!job.catches && sheltered rest)

/-- The loop that is current to the job on top of a stack. -/
def currentLoop : List (Job G) → Option LoopId
  | [] => none
  | .restore _ :: .leave l :: _ => some l
  | _ :: rest => currentLoop rest

/-- The frame of a loop comes next: no loop is current outside of it. -/
def Framed (l : LoopId) (jobs : List (Job G)) : Prop :=
  ∃ rest, jobs = .restore none :: .leave l :: rest

/-- The turn of a loop comes next. -/
def Turning (l : LoopId) (jobs : List (Job G)) : Prop :=
  ∃ k f batch rest, jobs = .turn l k f batch :: rest

/-- The turn of a loop comes next, or a task of the loop is removed before. -/
def Tending (l : LoopId) (jobs : List (Job G)) : Prop :=
  Turning l jobs ∨ ∃ slot rest, jobs = .taskFinished l slot :: rest

/-- What has to stand right below a job. -/
def Below : Job G → List (Job G) → Prop
  | .turn l _ _ _, rest => Framed l rest
  | .mainPolled l _ _, rest => Framed l rest
  | .taskPolled l _ _, rest => Turning l rest
  | .taskEnded l _ _ _, rest => Turning l rest
  | .taskFinished l _, rest => Turning l rest
  | .taskPanicked l _ _, rest => Turning l rest
  | .called l, rest => Turning l rest
  | .report l _, rest => Tending l rest
  | .reported l _, rest => Tending l rest
  | .restore previous, rest => previous = none ∧ ∃ l rest', rest = .leave l :: rest'
  | .leave _, rest => currentLoop rest = none
  | _, _ => True

/-- The order on a stack. -/
def Stacked : List (Job G) → Prop
  | [] => True
  | job :: rest => Below job rest ∧ (job.isCalm = false → sheltered rest = false) ∧ Stacked rest

/-- The order on a stack, with how it is worked on and the loop that is current. -/
structure Orderly (current : Option LoopId) (mode : Mode G) (jobs : List (Job G)) : Prop where
  stacked : Stacked jobs
  spared : ∀ p r, mode = .unwinding p r → sheltered jobs = false
  current : current = currentLoop jobs

/-- Jobs that may stand anywhere, and that a panic may take away. -/
def Loose (job : Job G) : Prop :=
  job.isFragile = false ∧ ∀ rest, Below job rest

theorem loose_of_isPlain {job : Job G} (h : job.isPlain = true) : Loose job := by
  cases job <;> first | exact ⟨rfl, fun _ => trivial⟩ | cases h

theorem stacked_append {jobs rest : List (Job G)} (hj : ∀ i ∈ jobs, Loose i) (hr : Stacked rest)
    (hs : sheltered rest = false) :
    Stacked (jobs ++ rest) ∧ sheltered (jobs ++ rest) = false := by
  induction jobs with
  | nil => exact ⟨hr, hs⟩
  | cons job jobs ih =>
    obtain ⟨h₁, h₂⟩ := ih fun i hi => hj i (List.mem_cons_of_mem _ hi)
    obtain ⟨hf, hb⟩ := hj job List.mem_cons_self
    exact ⟨⟨hb _, fun _ => h₂, h₁⟩, by simp [sheltered, hf, h₂]⟩

theorem stacked_map_wake (ws : List WakerId) {rest : List (Job G)} (hr : Stacked rest) :
    Stacked (ws.map .wake ++ rest) := by
  induction ws with
  | nil => exact hr
  | cons k ws ih => exact ⟨trivial, by simp [Job.isCalm], ih⟩

theorem currentLoop_cons {job : Job G} (h : ∀ p, job ≠ .restore p) (rest : List (Job G)) :
    currentLoop (job :: rest) = currentLoop rest := by
  cases job with
  | restore p => exact absurd rfl (h p)
  | _ => simp [currentLoop]

theorem currentLoop_append {jobs : List (Job G)} (h : ∀ i ∈ jobs, ∀ p, i ≠ .restore p)
    (rest : List (Job G)) : currentLoop (jobs ++ rest) = currentLoop rest := by
  induction jobs with
  | nil => rfl
  | cons job jobs ih =>
    rw [List.cons_append, currentLoop_cons (h job List.mem_cons_self)]
    exact ih fun i hi => h i (List.mem_cons_of_mem _ hi)

/-! ## Rules keep the order -/

section

variable {busy : LoopId → Prop} {w w' : World G} {mode mode' : Mode G} {job : Job G}
  {η : List (Happening G)} {jobs rest : List (Job G)}

/-- A panic takes away nothing that it must not, and futures are started on a loop. -/
theorem Orderly.astray (h : Orderly w.thread.current mode (job :: rest)) :
    ¬(job.isFragile = true ∧ (∃ p r, mode = .unwinding p r) ∨
      w.thread.current = none ∧
        ∃ l k f g batch, job = .turn l k f (.call (.start g) :: batch)) := by
  rintro (⟨hf, p, r, hm⟩ | ⟨hc, l, k, f, g, batch, rfl⟩)
  · have := h.spared p r hm
    simp [sheltered, hf] at this
  · obtain ⟨below, rfl⟩ := h.stacked.1
    have := h.current
    rw [hc] at this
    simp [currentLoop] at this

theorem Rule.stacked (rule : Rule busy w mode job η w' mode' jobs)
    (h : Orderly w.thread.current mode (job :: rest)) :
    Stacked (jobs ++ rest) ∧ ∀ p r, mode' = .unwinding p r → sheltered (jobs ++ rest) = false := by
  obtain ⟨⟨hb, hc, hs⟩, hp, hcur⟩ := id h
  -- Jobs that may stand anywhere are put above what is open to a panic.
  have loose : ∀ {jobs}, (∀ i ∈ jobs, Loose i) → job.isCalm = false →
      Stacked (jobs ++ rest) ∧ ∀ p r, mode' = .unwinding p r → sheltered (jobs ++ rest) = false :=
    fun hj hcalm =>
      have hl := stacked_append hj hs (hc hcalm)
      ⟨hl.1, fun _ _ _ => hl.2⟩
  cases rule with
  | astray ha => exact absurd ha h.astray
  | ended | caught | called | reported | reportedPanicked | unheard | newSource | refuse | awaitCell
  | awaitJoin | takeJoin | submit | handOver | marked | wakeNobody | notify | dropWake | fillNothing
  | taskPending | taskFinished =>
    exact ⟨hs, by simp⟩
  | past _ hcatch =>
    -- Nothing that a panic must not take away is above the next job that stops it.
    have := hp _ _ rfl
    simp only [sheltered, hcatch, Bool.or_eq_false_iff] at this
    exact ⟨hs, fun _ _ _ => by simpa using this.2⟩
  | restore =>
    refine ⟨hs, fun p r hm => ?_⟩
    simpa [sheltered, Job.isFragile, Job.catches] using hp p r hm
  | leave _ _ hm =>
    refine ⟨hs, fun p r he => ?_⟩
    simpa [sheltered, Job.isFragile, Job.catches] using hp p r (hm p r he)
  | plain _ hcalm hj => exact loose (fun i hi => loose_of_isPlain (hj i hi)) hcalm
  | build _ hj => exact loose (fun i hi => loose_of_isPlain (hj i hi)) rfl
  | spawn _ hj | start _ hj =>
    obtain ⟨h₁, _⟩ := loose (fun i hi => loose_of_isPlain (hj i hi)) rfl
    exact ⟨⟨trivial, by simp [Job.isCalm], h₁⟩, by simp⟩
  | abandon hj =>
    refine loose (fun i hi => ?_) rfl
    rcases hj i hi with hi | ⟨j, rfl⟩
    · exact loose_of_isPlain hi
    · exact ⟨rfl, fun _ => trivial⟩
  | drain hj =>
    refine loose (fun i hi => ?_) rfl
    rcases List.mem_append.mp hi with hi | hi
    · obtain ⟨work, _, rfl⟩ := List.mem_map.mp hi
      exact ⟨rfl, fun _ => trivial⟩
    · exact loose_of_isPlain (hj i hi)
  | close =>
    refine loose (fun i hi => ?_) rfl
    rcases List.mem_append.mp hi with hi | hi
    · obtain ⟨e, _, rfl⟩ := List.mem_map.mp hi
      exact ⟨rfl, fun _ => trivial⟩
    · rw [List.mem_singleton.mp hi]
      exact ⟨rfl, fun _ => trivial⟩
  | mainPanicked =>
    refine loose (fun i hi => loose_of_isPlain ?_) rfl
    simp only [List.mem_append, List.mem_map, List.mem_singleton] at hi
    rcases hi with (⟨e, _, rfl⟩ | ⟨f, _, rfl⟩) | rfl <;> rfl
  | fill => exact ⟨stacked_map_wake _ hs, by simp⟩
  | processSettle =>
    rw [List.append_assoc]
    refine ⟨stacked_map_wake _ ?_, by simp⟩
    exact ⟨trivial, by simp [Job.isCalm], hb, hc, hs⟩
  | @taskEnding l slot kind o _ _ hj _ =>
    have h₀ : Stacked (.taskEnded l slot kind o :: rest) := ⟨hb, by simp [Job.isCalm], hs⟩
    obtain ⟨h₁, _⟩ := stacked_append (fun i hi => loose_of_isPlain (hj i hi)) h₀ rfl
    rw [List.append_assoc]
    exact ⟨h₁, by simp⟩
  | taskEnded _ hj =>
    refine ⟨?_, by simp⟩
    obtain ⟨j, o', rfl, -⟩ | ⟨-, ⟨v, -, rfl⟩ | ⟨e, -, rfl⟩⟩ := hj
    all_goals simpa [Stacked, Below, Job.isCalm, Tending] using ⟨hb, hs⟩
  | taskEndPanicked _ hj =>
    refine ⟨?_, by simp⟩
    obtain rfl | ⟨j, o', rfl⟩ := hj
    all_goals simpa [Stacked, Below, Job.isCalm] using ⟨hb, hs⟩
  | again hj =>
    have := hp _ _ rfl
    obtain ⟨work, rfl⟩ | ⟨j, o, rfl⟩ := hj
    all_goals simp_all [Stacked, Below, Job.isCalm, sheltered, Job.catches, Job.isFragile]
  | calledPanicked | taskPanicked => exact ⟨⟨.inl hb, by simp [Job.isCalm], hs⟩, by simp⟩
  | enter hidle hopen hnone =>
    have hcalm := hc rfl
    rw [hnone] at hcur
    have hout : currentLoop rest = none := hcur.symm
    refine ⟨?_, by simp⟩
    simp [Stacked, Below, Framed, sheltered, Job.isCalm, Job.catches, Job.isFragile, hs, hcalm,
      hout]
  | _ =>
    simp_all [Stacked, Below, Job.isCalm, sheltered, Job.catches, Job.isFragile, Turning]

theorem Rule.currentLoop (rule : Rule busy w mode job η w' mode' jobs)
    (h : Orderly w.thread.current mode (job :: rest)) :
    w'.thread.current = RunLoop.currentLoop (jobs ++ rest) := by
  have frame : w'.thread = w.thread → (∀ p, job ≠ .restore p) →
      (∀ i ∈ jobs, ∀ p, i ≠ .restore p) →
      w'.thread.current = RunLoop.currentLoop (jobs ++ rest) := by
    intro ht hj hjs
    rw [ht, h.current, currentLoop_append hjs, currentLoop_cons hj]
  have plain : ∀ {i : Job G}, i.isPlain = true → ∀ p, i ≠ .restore p := by
    rintro i hi p rfl
    cases hi
  cases rule with
  | astray ha => exact absurd ha h.astray
  | enter => rfl
  | restore =>
    obtain ⟨⟨rfl, l, rest, rfl⟩, _, hb, _⟩ := h.stacked
    exact hb.symm
  | plain hp _ hj _ ht => exact frame ht (plain hp) fun i hi => plain (hj i hi)
  | ended hp _ ht | caught hp _ ht => exact frame ht (plain hp) (by simp)
  | past hp => exact frame rfl (plain hp) (by simp)
  | leave _ ht | dropWake _ _ ht => exact frame ht (by simp) (by simp)
  | build _ hj => exact frame rfl (by simp) fun i hi => plain (hj i hi)
  | spawn _ hj | start _ hj =>
    refine frame rfl (by simp) fun i hi => ?_
    rcases List.mem_cons.mp hi with rfl | hi
    · simp
    · exact plain (hj i hi)
  | abandon hj =>
    refine frame rfl (by simp) fun i hi => ?_
    rcases hj i hi with hi | ⟨j, rfl⟩
    · exact plain hi
    · simp
  | drain hj =>
    refine frame (by rw [World.drainTasks_eq]; rfl) (by simp) fun i hi => ?_
    rcases List.mem_append.mp hi with hi | hi
    · obtain ⟨work, _, rfl⟩ := List.mem_map.mp hi
      simp
    · exact plain (hj i hi)
  | taskEnding _ hj =>
    refine frame rfl (by simp) fun i hi => ?_
    rcases List.mem_append.mp hi with hi | hi
    · exact plain (hj i hi)
    · rw [List.mem_singleton.mp hi]
      simp
  | taskEnded _ hj =>
    obtain ⟨j, o', rfl, -⟩ | ⟨-, ⟨v, -, rfl⟩ | ⟨e, -, rfl⟩⟩ := hj <;>
      exact frame rfl (by simp) (by simp)
  | taskEndPanicked _ hj =>
    obtain rfl | ⟨j, o', rfl⟩ := hj <;> exact frame rfl (by simp) (by simp)
  | again hj =>
    obtain ⟨work, rfl⟩ | ⟨j, o, rfl⟩ := hj <;> exact frame rfl (by simp) (by simp)
  | submit _ hp | handOver hp | notify _ hp =>
    obtain ⟨_, rfl⟩ := World.push?_eq_some_iff.mp hp
    exact frame rfl (by simp) (by simp)
  | close =>
    refine frame (by rw [World.closeQueue_eq]; rfl) (by simp) ?_
    simp only [List.forall_mem_append, List.forall_mem_map]
    simp
  | take => exact frame (by rw [World.takeBatch_eq]; rfl) (by simp) (by simp)
  | processTask ht =>
    obtain ⟨_, rfl⟩ := World.takeWork_eq_some_iff.mp ht
    exact frame rfl (by simp) (by simp)
  | processSettle | mainPanicked =>
    refine frame rfl (by simp) ?_
    simp only [List.forall_mem_append, List.forall_mem_map]
    simp
  | _ => exact frame rfl (by simp) (by simp)

end

end RunLoop
