import RunLoop.Proofs.Walk

/-!
# Clean-up comes to its end

What is left to do when a loop is dropped is a list of jobs none of which waits. Those that drop
what user code brought run user code; if that comes to its end, so does all the rest.

* `Machine.LeadsTo` and `Machine.Clears` say that a run leads to a machine, or to where the jobs on
  top were performed.
* `Machine.DropsEnd` says that whatever is dropped is dropped to the end.
* `Machine.clears_jobs`: jobs that come to their end do so one after the other.
* `Machine.jobEnds_close`: then a loop is dropped to the end.
-/

namespace RunLoop

variable {G : Guest}

/-- Whether a job drops something that user code may have brought. -/
def Job.isDrop : Job G → Bool
  | drop _ | discard _ => true
  | _ => false

namespace Machine

variable {code : G.Code} {m m' m₁ : Machine G} {p : List (Machine G)} {a : Answer G} {job : Job G}
  {rest below : List (Job G)}

/-- A run leads to a machine in which the same thread runs. -/
def LeadsTo (code : G.Code) (m m' : Machine G) : Prop :=
  (∃ p, Walk code m p m') ∧ m'.world.thread.id = m.world.thread.id

/-- A run leads to where all jobs above `below` were performed, with no panic left. -/
def Clears (code : G.Code) (m : Machine G) (below : List (Job G)) : Prop :=
  ∃ m', LeadsTo code m m' ∧ m'.jobs = below ∧ ∃ a, m'.mode = .going a

/-- Whatever is dropped above `rest`, in any run, is dropped to the end. -/
def DropsEnd (code : G.Code) (m : Machine G) (rest : List (Job G)) : Prop :=
  ∀ p m₁, Walk code m p m₁ → ∀ job below a, m₁.jobs = job :: below → job.isDrop = true →
    rest <:+ below → m₁.mode = .going a → Clears code m₁ below

theorem DropsEnd.after (h : DropsEnd code m rest) (walk : Walk code m p m') :
    DropsEnd code m' rest :=
  fun _ m₁ later => h _ m₁ (walk.trans later)

theorem LeadsTo.trans (h : LeadsTo code m m₁) (h' : LeadsTo code m₁ m') : LeadsTo code m m' := by
  obtain ⟨⟨p, walk⟩, hid⟩ := h
  obtain ⟨⟨p', walk'⟩, hid'⟩ := h'
  exact ⟨⟨p ++ p', walk.trans walk'⟩, hid'.trans hid⟩

/-- Where no thread is started, a step leads to the next machine. -/
theorem leadsTo_step (code : G.Code) (hi : m.isIdle = false) (live : m.isAborted = false)
    (hj : m.jobs = job :: rest) (hthread : ∀ run, job ≠ .serve (.thread run)) :
    LeadsTo code m (m.step code) :=
  ⟨⟨[m], Walk.here.act hi live⟩, thread_step code hi live hj fun ⟨run, _, e, _⟩ => hthread run e⟩

theorem clears_here (hj : m.jobs = below) (hmode : m.mode = .going a) : Clears code m below :=
  ⟨m, ⟨⟨[], .here⟩, rfl⟩, hj, a, hmode⟩

theorem LeadsTo.clears (h : LeadsTo code m m') (h' : Clears code m' below) :
    Clears code m below := by
  obtain ⟨m₁, hlater, hj, hgoing⟩ := h'
  exact ⟨m₁, h.trans hlater, hj, hgoing⟩

/-- A job comes to its end wherever it stands above `rest`. -/
def JobEnds (code : G.Code) (rest : List (Job G)) (job : Job G) : Prop :=
  ∀ m below a, DropsEnd code m rest → rest <:+ below → m.jobs = job :: below →
    m.mode = .going a → Clears code m below

/-- Jobs that come to their end do so one after the other. -/
theorem clears_jobs {jobs : List (Job G)} (h : ∀ job ∈ jobs, JobEnds code rest job)
    (hd : DropsEnd code m rest) (hrest : rest <:+ below) (hj : m.jobs = jobs ++ below)
    (hmode : m.mode = .going a) : Clears code m below := by
  induction jobs generalizing m a with
  | nil => exact clears_here hj hmode
  | cons job jobs ih =>
    have hfirst : Clears code m (jobs ++ below) :=
      h job List.mem_cons_self m _ a hd (hrest.trans (List.suffix_append _ _)) hj hmode
    obtain ⟨m₁, hleads, hj₁, b, hgoing⟩ := hfirst
    obtain ⟨p, walk⟩ := hleads.1
    exact hleads.clears
      (ih (fun i hi => h i (List.mem_cons_of_mem _ hi)) (hd.after walk) hj₁ hgoing)

/-- A job that puts down only jobs that come to their end does so itself. -/
theorem jobEnds_of_step (hw : ∀ m : Machine G, m.mustWait job = false)
    (hthread : ∀ run, job ≠ .serve (.thread run))
    (h : ∀ (m : Machine G) a, m.mode = .going a → ∃ jobs b,
      (m.perform code a job).jobs = jobs ++ m.jobs ∧ (m.perform code a job).mode = .going b ∧
        ∀ i ∈ jobs, JobEnds code rest i) : JobEnds code rest job := by
  intro m below a hd hrest hj hmode
  obtain ⟨hi, live⟩ := live_of_going hj hmode (hw m)
  have hstep : m.step code = { m with jobs := below }.perform code a job :=
    step_of_going hj hmode (hw m)
  obtain ⟨jobs, b, hjobs, hgoing, hends⟩ := h { m with jobs := below } a hmode
  rw [← hstep] at hjobs hgoing
  exact (leadsTo_step code hi live hj hthread).clears
    (clears_jobs hends (hd.after (Walk.here.act hi live)) hrest hjobs hgoing)

theorem jobEnds_of_isDrop (h : job.isDrop = true) : JobEnds code rest job :=
  fun m below a hd hrest hj hmode => hd [] m .here job below a hj h hrest hmode

theorem jobEnds_emit (e : Event) : JobEnds code rest (.emit e : Job G) :=
  jobEnds_of_step (fun _ => rfl) (by simp) fun _ a hmode => ⟨[], a, rfl, hmode, by simp⟩

theorem jobEnds_notify (k : WakerId) : JobEnds code rest (.notify k : Job G) :=
  jobEnds_of_step (fun _ => rfl) (by simp) fun _ a hmode => ⟨[], a, rfl, hmode, by simp⟩

theorem jobEnds_wake (k : WakerId) : JobEnds code rest (.wake k : Job G) := by
  refine jobEnds_of_step (fun _ => rfl) (by simp) fun m a hmode => ?_
  simp only [perform, wake]
  split
  · exact ⟨[], a, rfl, hmode, by simp⟩
  · exact ⟨[.notify k], a, rfl, hmode, by simp [jobEnds_notify]⟩

theorem jobEnds_fill (j : JoinId) (o : Joined) : JobEnds code rest (.fill j o : Job G) := by
  refine jobEnds_of_step (fun _ => rfl) (by simp) fun m a hmode => ?_
  refine ⟨(m.world.fill j o).2.toList.map .wake, a, rfl, hmode, ?_⟩
  simp [jobEnds_wake]

theorem jobEnds_abandon (work : Work G.Coroutine) : JobEnds code rest (.abandon work) := by
  have hdrop : JobEnds code rest (.drop work.future) := jobEnds_of_isDrop rfl
  refine jobEnds_of_step (fun _ => rfl) (by simp) fun m a hmode => ?_
  simp only [perform, abandon]
  split
  · exact ⟨_, _, rfl, rfl, by simp [hdrop]⟩
  · exact ⟨_, _, rfl, rfl, by simp [hdrop, jobEnds_fill]⟩
  · exact ⟨_, _, rfl, rfl, by simp [hdrop, jobEnds_fill]⟩

theorem jobEnds_drain (l : LoopId) (n : Nat) : JobEnds code rest (.drain l n : Job G) := by
  refine jobEnds_of_step (fun _ => rfl) (by simp) fun m a hmode => ⟨_, _, rfl, rfl, ?_⟩
  intro i hi
  rcases List.mem_append.mp hi with hi | hi
  · obtain ⟨work, _, rfl⟩ := List.mem_map.mp hi
    exact jobEnds_abandon work
  · obtain rfl := List.mem_singleton.mp hi
    exact jobEnds_emit _

/-- A loop is dropped to the end. -/
theorem jobEnds_close (l : LoopId) : JobEnds code rest (.serve (.close l) : Job G) := by
  refine jobEnds_of_step (fun _ => rfl) (by simp) fun m a hmode => ?_
  simp only [perform, serve, close]
  split
  · exact ⟨[], _, rfl, rfl, by simp⟩
  · refine ⟨_, _, rfl, rfl, fun i hi => ?_⟩
    rcases List.mem_append.mp hi with hi | hi
    · obtain ⟨e, _, rfl⟩ := List.mem_map.mp hi
      exact jobEnds_of_isDrop rfl
    · obtain rfl := List.mem_singleton.mp hi
      exact jobEnds_drain _ _

end Machine

end RunLoop
