import RunLoop.Proofs.Roster

/-!
# Every run follows the rules

A run of the machine, under any order of the threads, is a course: the running thread does what a
rule says, or another thread runs instead. Courses do not mention the code of the guest, so that
what is proved of them holds whatever that code does.

* `Machine.step_follows` says that a step follows a rule; `Machine.parked_step`,
  `Machine.jobs_of_step` and `Machine.thread_step` say what that leaves alone.
* `Machine.Switched` says that another thread runs, and that nothing else has changed.
* `Machine.Course` is a run by rules.
* `Machine.History.course` finds the course of a run.
-/

namespace RunLoop

variable {G : Guest}

/-- A thread that has only begun. -/
def Parked.IsNew (p : Parked G) : Prop :=
  ∃ t run, p = ⟨⟨t, none⟩, .going .nothing, [.resume run, .threadEnd t]⟩

namespace Machine

variable {code : G.Code} {m m₁ m₂ m' : Machine G} {τ τ' η : List (Happening G)}

/-- Another thread runs; it was parked, or has only begun. -/
structure Switched (m m' : Machine G) : Prop where
  objects : m.world.Agrees m'.world
  strands : ∃ fresh : List (Parked G), (∀ p ∈ fresh, p.IsNew) ∧ m'.strands.Perm (fresh ++ m.parked)

/-- A run from `m` by rules, with what happened on the way. -/
inductive Course (m : Machine G) : List (Happening G) → Machine G → Prop where
  | here : Course m [] m
  | act {τ η : List (Happening G)} {m₁ m₂ : Machine G} (course : Course m τ m₁)
      (acts : m₁.Acts η m₂) : Course m (τ ++ η) m₂
  | switch {τ : List (Happening G)} {m₁ m₂ : Machine G} (course : Course m τ m₁)
      (switched : m₁.Switched m₂) : Course m τ m₂

theorem switched_startThread (t : ThreadId) (run : G.Run) : m.Switched (m.startThread t run) := by
  refine ⟨⟨rfl, rfl, rfl, rfl, rfl⟩, [⟨⟨t, none⟩, .going .nothing, [.resume run, .threadEnd t]⟩],
    ?_, .refl _⟩
  intro p hp
  exact ⟨t, run, List.mem_singleton.mp hp⟩

theorem switched_launch (x : Waiting G) : m.Switched (m.launch x) := by
  obtain ⟨_, fresh, hnew, hperm⟩ := switched_startThread (m := m) x.thread x.run
  exact ⟨⟨rfl, rfl, rfl, rfl, rfl⟩, fresh, hnew, hperm⟩

theorem switched_turnTo {p : Parked G} {others : List (Parked G)}
    (h : m.parked.Perm (p :: others)) : m.Switched (m.turnTo p others) :=
  ⟨⟨rfl, rfl, rfl, rfl, rfl⟩, [], by simp, h.symm⟩

/-- Whether the machine was aborted. -/
def isAborted (m : Machine G) : Bool :=
  match m.mode with
  | .aborted => true
  | _ => false

/-! ## Steps -/

section Steps

variable {job : Job G} {rest : List (Job G)}

/-- Outside of a panic a job that need not wait is performed. -/
theorem live_of_going {a : Answer G} (hj : m.jobs = job :: rest) (hmode : m.mode = .going a)
    (hw : m.mustWait job = false) : m.isIdle = false ∧ m.isAborted = false :=
  ⟨(isIdle_of_going hj hmode).trans hw, by simp [isAborted, hmode]⟩

/-- What happens is read off the job on top; whether it is still there makes no difference. -/
theorem happenings_of_going {a : Answer G} (hj : m.jobs = job :: rest) (hmode : m.mode = .going a) :
    m.happenings = { m with jobs := rest }.performed a job := by
  obtain ⟨w, shared, threads, mode, jobs⟩ := m
  cases hj
  cases hmode
  cases job with
  | serve q => cases q <;> rfl
  | _ => rfl

variable (code) (hi : m.isIdle = false) (live : m.isAborted = false) (hj : m.jobs = job :: rest)
  (hne : ¬∃ run a, job = .serve (.thread run) ∧ m.mode = .going a)

include hi live hj hne

/-- A step of the running thread follows a rule, unless a thread is started at once. -/
theorem step_follows : Follows { m with jobs := rest } m.mode job m.happenings (m.step code) := by
  cases hmode : m.mode with
  | aborted => simp [isAborted, hmode] at live
  | unwinding p r =>
    have hη : m.happenings = torn job := by
      unfold happenings
      simp only [hj, hmode]
      cases job <;> rfl
    rw [hη, step_of_unwinding hj hmode]
    exact unwind_follows job p r hmode
  | going a =>
    have hw : m.mustWait job = false := (isIdle_of_going hj hmode).symm.trans hi
    rw [happenings_of_going hj hmode, step_of_going hj hmode hw]
    exact perform_follows job hmode fun run e => hne ⟨run, a, e, hmode⟩

theorem parked_step : (m.step code).threads.parked = m.threads.parked := by
  obtain ⟨_, _, hparked, _⟩ := step_follows code hi live hj hne
  exact hparked

theorem jobs_of_step : ∃ jobs, (m.step code).jobs = jobs ++ rest := by
  obtain ⟨jobs, hjobs, _⟩ := step_follows code hi live hj hne
  exact ⟨jobs, hjobs⟩

/-- Only where a thread is started another one runs after a step. -/
theorem thread_step : (m.step code).world.thread.id = m.world.thread.id := by
  cases hmode : m.mode with
  | aborted => simp [isAborted, hmode] at live
  | unwinding p r =>
    rw [step_of_unwinding hj hmode]
    exact (sameThreads_unwind p r job).id
  | going a =>
    rw [step_of_going hj hmode ((isIdle_of_going hj hmode).symm.trans hi)]
    exact thread_perform job fun run e => hne ⟨run, a, e, hmode⟩

end Steps

/-! ## Courses -/

/-- A step of the running thread follows a rule; a thread that it asks for may be started at once
after that. -/
theorem acting_of_live (code : G.Code) (h : m.isIdle = false) (live : m.isAborted = false) :
    ∃ m₁, m.Acts m.happenings m₁ ∧ m₁.world.thread.id = m.world.thread.id ∧
      (m₁ = m.step code ∨ m₁.Switched (m.step code)) := by
  obtain ⟨job, rest, hj⟩ := exists_job h
  by_cases hne : ∃ run a, job = .serve (.thread run) ∧ m.mode = .going a
  · obtain ⟨run, a, rfl, hmode⟩ := hne
    rw [happenings_of_going hj hmode, step_of_going hj hmode rfl]
    refine ⟨_, ?_, ?_, .inr (switched_startThread _ _)⟩
    · refine ⟨_, rest, hj, _, rfl, rfl, ?_⟩
      rw [hmode]
      exact .plain rfl rfl (by simp [Job.isPlain]) (.refl _) rfl
    · rfl
  · exact ⟨_, ⟨job, rest, hj, step_follows code h live hj hne⟩, thread_step code h live hj hne,
      .inl rfl⟩

theorem acts_of_live (code : G.Code) (h : m.isIdle = false) (live : m.isAborted = false) :
    m.Acts m.happenings (m.step code) ∨
      ∃ m₁, m.Acts m.happenings m₁ ∧ m₁.Switched (m.step code) := by
  obtain ⟨m₁, acts, _, rfl | switched⟩ := acting_of_live code h live
  · exact .inl acts
  · exact .inr ⟨m₁, acts, switched⟩

theorem step_of_isAborted (code : G.Code) (h : m.isAborted = true) :
    m.happenings = [] ∧ m.step code = m := by
  obtain ⟨w, shared, threads, mode, jobs⟩ := m
  cases mode with
  | aborted => cases jobs with
    | nil => exact ⟨rfl, rfl⟩
    | cons job rest => exact ⟨by cases job <;> rfl, rfl⟩
  | _ => simp [isAborted] at h

/-- A step of the running thread follows a rule, unless there was an abort: then it changes
nothing. -/
theorem act_cases (code : G.Code) (h : m.isIdle = false) :
    (m.happenings = [] ∧ m.step code = m) ∨ m.Acts m.happenings (m.step code) ∨
      ∃ m₁, m.Acts m.happenings m₁ ∧ m₁.Switched (m.step code) := by
  cases live : m.isAborted with
  | true => exact .inl (step_of_isAborted code live)
  | false => exact .inr (acts_of_live code h live)

/-- Every run follows the rules. -/
theorem History.course (h : History code m τ m') : Course m τ m' := by
  induction h with
  | here => exact .here
  | next _ move ih =>
    cases move with
    | act hi =>
      rcases act_cases code hi with ⟨hη, hs⟩ | hacts | ⟨m₁, hacts, hsw⟩
      · rw [hη, hs, List.append_nil]
        exact ih
      · exact ih.act hacts
      · exact (ih.act hacts).switch hsw
    | turnTo hp =>
      rw [List.append_nil]
      exact ih.switch (switched_turnTo hp)
    | launch _ =>
      rw [List.append_nil]
      exact ih.switch (switched_launch _)

end Machine

end RunLoop
