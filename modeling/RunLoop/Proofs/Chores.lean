import RunLoop.Proofs.Teardown

/-!
# Chores

What is to be done before the jobs below are gone on with is carried by jobs above them: one of them
does it, or puts down another one that will. So when the jobs below are reached, everything is done,
whatever user code and other threads do meanwhile.

* `Machine.Chore` is something that is to be done, with the jobs that carry it.
* `Machine.Walked.carried`: chores are carried above what is below, or done when it is reached.
* `Machine.dropping` and `Machine.cancelling` are the chores of a task that is dropped with its
  loop: to drop its future, and to tell whoever awaits it.
-/

namespace RunLoop.Machine

variable {G : Guest} {code : G.Code} {m m' : Machine G} {p p₀ p' : List (Machine G)} {a : Answer G}
  {job : Job G} {base rest : List (Job G)} {t : ThreadId} {l : LoopId} {slot : Nat} {k : WakerId}
  {j : JoinId}

/-- Something that is to be done in a run after `p₀`. -/
structure Chore (code : G.Code) (p₀ : List (Machine G)) where
  /-- Whether a job sees to it. -/
  carries : Job G → Prop
  done : List (Machine G) → Prop
  done_append : ∀ {p} m, done p → done (p ++ [m])
  not_carries_thread : ∀ run, ¬carries (.serve (.thread run))
  /-- A job that is performed, or taken away by a panic, does it or leaves it to another job. -/
  step : ∀ {p m job rest}, Walked code p m → p₀ <+: p → m.isAborted = false →
    m.jobs = job :: rest → carries job → done (p ++ [m]) ∨
      ∃ job' below, job' :: below <:+ (m.step code).jobs ∧ rest <:+ below ∧ carries job'

/-- On the stack of thread `t`, with `base` at the bottom, all chores are done or carried. -/
def Carries (m : Machine G) (chores : Chore code p₀ → Prop) (p : List (Machine G)) (t : ThreadId)
    (base : List (Job G)) : Prop :=
  ∃ q ∈ m.strands, q.thread.id = t ∧ ∃ above, q.jobs = above ++ base ∧
    ∀ c, chores c → c.done p ∨ ∃ job ∈ above, c.carries job

theorem Carries.holds {chores : Chore code p₀ → Prop} (h : m.Carries chores p t base) :
    m.Holds t base := by
  obtain ⟨q, hq, hid, above, hjobs, _⟩ := h
  exact ⟨q, hq, hid, above, hjobs.symm⟩

theorem Carries.step {chores : Chore code p₀ → Prop} (h : m.Carries chores p t base)
    (hm : Walked code p m) (hp : p₀ <+: p) (hbase : base ≠ []) (hi : m.isIdle = false)
    (live : m.isAborted = false) :
    (m.step code).Carries chores (p ++ [m]) t base ∨
      m.world.thread.id = t ∧ m.jobs = base ∧ ∀ c, chores c → c.done p := by
  obtain ⟨q, hq, hid, above, hjobs, hall⟩ := h
  obtain ⟨job, rest, hj, hkept, hothers⟩ := strand_of_step code hi live
  rcases List.mem_cons.mp hq with rfl | hq
  swap
  · refine .inl ⟨q, hothers q hq (by simp [hjobs, hbase]), hid, above, hjobs, fun c hc => ?_⟩
    exact (hall c hc).imp_left (c.done_append m)
  have hjobs : m.jobs = above ++ base := hjobs
  cases above with
  | nil =>
    refine .inr ⟨hid, hjobs, fun c hc => (hall c hc).resolve_right ?_⟩
    rintro ⟨job, hmem, _⟩
    cases hmem
  | cons top above =>
    obtain ⟨rfl, rfl⟩ := List.cons.inj (hj.symm.trans hjobs)
    refine .inl ?_
    by_cases hne : ∃ run a, job = .serve (.thread run) ∧ m.mode = .going a
    · obtain ⟨run, _, rfl, _⟩ := hne
      obtain ⟨q, hq, hid', jobs, hs⟩ := hkept (by simp [hbase])
      refine ⟨q, hq, hid'.trans hid, jobs ++ above, by rw [← hs]; simp, fun c hc => ?_⟩
      refine (hall c hc).imp (c.done_append m) ?_
      rintro ⟨i, hmem, hi⟩
      rcases List.mem_cons.mp hmem with rfl | hmem
      · exact absurd hi (c.not_carries_thread run)
      · exact ⟨i, List.mem_append_right _ hmem, hi⟩
    · obtain ⟨jobs, hs⟩ := jobs_of_step code hi live hj hne
      refine ⟨_, List.mem_cons_self, (thread_step code hi live hj hne).trans hid,
        jobs ++ above, by rw [hs]; simp, fun c hc => ?_⟩
      rcases hall c hc with hdone | ⟨i, hmem, hi⟩
      · exact .inl (c.done_append m hdone)
      · rcases List.mem_cons.mp hmem with rfl | hmem
        · refine (c.step hm hp live hj hi).imp_right ?_
          rintro ⟨i', below, ⟨before, hs'⟩, ⟨between, rfl⟩, hi'⟩
          -- the job that is put down stands above what was below
          have happend : before ++ i' :: between ++ (above ++ base) = jobs ++ (above ++ base) := by
            simpa using hs'.trans hs
          have hsame : before ++ i' :: between = jobs := List.append_cancel_right happend
          exact ⟨i', by simp [← hsame], hi'⟩
        · exact .inr ⟨i, List.mem_append_right _ hmem, hi⟩

theorem Carries.switch {chores : Chore code p₀ → Prop} (h : m.Carries chores p t base)
    (hbase : base ≠ []) (switched : m.Switched m') : m'.Carries chores p t base := by
  obtain ⟨q, hq, hid, above, hjobs, hall⟩ := h
  exact ⟨q, switched.mem_strands hq (by simp [hjobs, hbase]), hid, above, hjobs, hall⟩

/-- Chores that are carried above `base` are so as long as `base` is not reached, and done when it
is. -/
theorem Walked.carried {chores : Chore code p₀ → Prop} (hm : Walked code p m) (hp : p₀ <+: p)
    (hbase : base ≠ []) (h : m.Carries chores p t base) (walk : Walk code m p' m') :
    m'.Carries chores (p ++ p') t base ∨ ∃ p₁ m₁ p₂, p' = p₁ ++ m₁ :: p₂ ∧ Walk code m p₁ m₁ ∧
      m₁.isIdle = false ∧ m₁.isAborted = false ∧ m₁.world.thread.id = t ∧ m₁.jobs = base ∧
      (∀ c, chores c → c.done (p ++ p₁)) ∧ Walk code (m₁.step code) p₂ m' := by
  have carried := walk.holds_until (fun q m₁ => m₁.Carries chores (p ++ q) t base)
    (fun q m₁ => m₁.world.thread.id = t ∧ m₁.jobs = base ∧ ∀ c, chores c → c.done (p ++ q))
    (by simpa using h)
    (fun q m₁ _ before hi live h => ?_) fun q m₁ m₂ h => h.switch hbase
  · refine carried.imp_right ?_
    rintro ⟨p₁, m₁, p₂, he, before, hi, live, ⟨hid, hj, hdone⟩, after⟩
    exact ⟨p₁, m₁, p₂, he, before, hi, live, hid, hj, hdone, after⟩
  · rw [← List.append_assoc]
    exact h.step (hm.trans before) (hp.trans (List.prefix_append _ _)) hbase hi live

/-! ## The chores of a task that is dropped with its loop -/

/-- Whether a future is dropped in the next step. -/
def Drops (m : Machine G) (f : Future G.Coroutine) : Prop :=
  ∃ rest a, m.jobs = .drop f :: rest ∧ m.mode = .going a

/-- To drop the future of a task. -/
def dropping (code : G.Code) (p₀ : List (Machine G)) (work : Work G.Coroutine) : Chore code p₀ where
  carries job := job = .abandon work ∨ job = .drop work.future
  done p := ∃ m ∈ p, m.Drops work.future
  done_append m h := by
    obtain ⟨m₁, hmem, hd⟩ := h
    exact ⟨m₁, List.mem_append_left _ hmem, hd⟩
  not_carries_thread run := by simp
  step {p m job rest} _ _ live hj hc := by
    cases hmode : m.mode with
    | aborted => simp [isAborted, hmode] at live
    | unwinding panic r =>
      rw [step_of_unwinding hj hmode]
      obtain rfl | rfl := hc
      · exact .inr ⟨_, .propagate panic :: rest, List.suffix_refl _, List.suffix_cons _ _, .inl rfl⟩
      · exact .inr ⟨_, .propagate panic :: rest, List.suffix_refl _, List.suffix_cons _ _, .inr rfl⟩
    | going a =>
      obtain rfl | rfl := hc
      · refine .inr ?_
        rw [step_of_going hj hmode rfl]
        obtain ⟨kind, started, f⟩ := work
        cases kind with
        | detached =>
          exact ⟨.drop f, rest, List.suffix_refl _, List.suffix_refl _, .inr rfl⟩
        | joined j =>
          cases started with
          | true =>
            exact ⟨.drop f, _ :: rest, List.suffix_refl _, List.suffix_cons _ _, .inr rfl⟩
          | false =>
            exact ⟨.drop f, rest, List.suffix_cons _ _, List.suffix_refl _, .inr rfl⟩
      · exact .inl ⟨m, by simp, rest, a, hj, hmode⟩

/-- To tell whoever awaits a task that there is no result. -/
def cancelling (code : G.Code) (hs : .spawned l slot k (.joined j) ∈ story p₀) : Chore code p₀ where
  carries job := job.owes j = true
  done p := filledInto j (story p) ≠ []
  done_append m h := by
    rw [story, List.flatMap_append, filledInto_append]
    exact fun he => h (List.append_eq_nil_iff.mp he).1
  not_carries_thread run := by simp [Job.owes]
  step {p m job rest} hm hp live hj hc := by
    obtain ⟨p', rfl⟩ := hp
    obtain ⟨x, hx, _⟩ := (hm.delivery (mem_story_append hs p')).slot
    refine (step_of_owes code hj live hc hx).imp_left ?_
    rintro ⟨o, hfilled⟩
    have hstory : story (p₀ ++ p' ++ [m]) = story (p₀ ++ p') ++ m.milestones := by simp [story]
    rw [hstory, filledInto_append, hfilled]
    simp [filledInto, Milestone.filled?]

end RunLoop.Machine
