import RunLoop.Proofs.Effect

/-!
# The duties of a machine

The duties on all stacks together are the ledger of a machine. A machine is sound if every stack is
in order and no loop runs twice; then a step has an effect on the ledger, and it leaves the machine
sound. Invariants of all runs are proved about the world and the ledger, by induction over the
effects on a `Trail`.

* `Machine.duties` is the ledger.
* `Machine.Sound` is kept by every run (`Machine.Course.sound`).
* `Machine.Acts.effect` finds the effect of a step.
-/

namespace RunLoop

variable {G : Guest} {l : LoopId} {job : Job G} {jobs rest : List (Job G)}

/-! ## What stands below -/

theorem framed_of_isDrive (h : Stacked (job :: rest)) (hj : job.isDrive l = true) :
    ∃ rest', rest = .restore none :: .leave l :: rest' ∧ Stacked rest' := by
  cases job with
  | mainPolled | turn =>
    obtain ⟨⟨rest', rfl⟩, _, _, _, _, _, hs⟩ := h
    simp only [Job.isDrive, decide_eq_true_eq] at hj
    exact ⟨rest', by rw [hj], hs⟩
  | _ => cases hj

theorem turning_of_isTask (h : Stacked (job :: rest)) (hj : job.isTask l = true) :
    ∃ k f batch rest', rest = .turn l k f batch :: .restore none :: .leave l :: rest' ∧
      Stacked rest' := by
  cases job with
  | taskPolled | taskEnded | taskFinished | taskPanicked =>
    obtain ⟨⟨k, f, batch, rest₁, rfl⟩, _, hs⟩ := h
    simp only [Job.isTask, decide_eq_true_eq] at hj
    obtain ⟨rest', rfl, hs'⟩ := framed_of_isDrive (l := l) hs (by simpa [Job.isDrive] using hj)
    exact ⟨k, f, batch, rest', by rw [hj], hs'⟩
  | _ => cases hj

/-- Where a loop has no frame, there is no work of a run of it. -/
theorem free_of_stacked (h : Stacked jobs) (hl : ∀ i ∈ jobs, i.isLeave l = false) :
    Free l jobs := by
  induction jobs with
  | nil => simp [Free]
  | cons job jobs ih =>
    have hrest := ih h.2.2 fun i hi => hl i (List.mem_cons_of_mem _ hi)
    have hleave : .leave l ∉ jobs := by
      intro hm
      have := hl (.leave l) (List.mem_cons_of_mem _ hm)
      simp [Job.isLeave] at this
    refine List.forall_mem_cons.mpr ⟨⟨hl job List.mem_cons_self, ?_, ?_⟩, hrest⟩
    · cases hd : job.isDrive l with
      | false => rfl
      | true =>
        obtain ⟨rest', rfl, _⟩ := framed_of_isDrive h hd
        simp at hleave
    · cases ht : job.isTask l with
      | false => rfl
      | true =>
        obtain ⟨k, f, batch, rest', rfl, _⟩ := turning_of_isTask h ht
        simp at hleave

theorem Job.isDuty_of_isLeave (h : job.isLeave l = true) : job.isDuty = true := by
  cases job <;> first | rfl | cases h

theorem countP_filter_isDuty :
    (jobs.filter Job.isDuty).countP (Job.isLeave l) = jobs.countP (Job.isLeave l) := by
  rw [List.countP_filter]
  refine List.countP_congr fun i _ => ?_
  simpa using Job.isDuty_of_isLeave

theorem Free.filter (h : Free l jobs) (p : Job G → Bool) : Free l (jobs.filter p) :=
  fun i hi => h i (List.mem_filter.mp hi).1

theorem Free.append {jobs' : List (Job G)} (h : Free l jobs) (h' : Free l jobs') :
    Free l (jobs ++ jobs') :=
  List.forall_mem_append.mpr ⟨h, h'⟩

theorem Alone.filter (h : Alone l jobs) : Alone l (jobs.filter Job.isDuty) :=
  ⟨List.mem_filter.mpr ⟨h.1, rfl⟩, fun i hi => h.2 i (List.mem_filter.mp hi).1⟩

theorem Polling.filter (h : Polling l jobs) : Polling l (jobs.filter Job.isDuty) :=
  ⟨List.mem_filter.mpr ⟨h.1, rfl⟩, fun i hi => h.2 i (List.mem_filter.mp hi).1⟩

/-- No effect lets a loop run twice. -/
theorem Effect.countP_isLeave {w w' : World G} {others before after : List (Job G)}
    (effect : Effect w others before η w' after)
    (h : (before ++ others).countP (Job.isLeave l) ≤ 1) :
    (after ++ others).countP (Job.isLeave l) ≤ 1 := by
  cases effect with
  | @enter l' hf _ =>
    by_cases hl : l' = l
    · subst hl
      have hz : others.countP (Job.isLeave l') = 0 := by
        rw [List.countP_eq_zero]
        intro i hi
        simp [(hf i hi).1]
      simp [Job.isLeave, hz]
    · simpa [Job.isLeave, hl] using h
  | fill | processSettle =>
    have hz : ∀ ws : List WakerId, (ws.map (Job.wake (G := G))).countP (Job.isLeave l) = 0 := by
      simp [List.countP_eq_zero, Job.isLeave]
    simp only [List.countP_append, hz] at h ⊢
    simpa [Job.isLeave] using h
  | leave =>
    rw [List.singleton_append, List.countP_cons] at h
    exact Nat.le_trans (Nat.le_add_right _ _) h
  | _ => simpa [Job.isLeave] using h

namespace Machine

variable {m m' m₀ : Machine G} {τ η : List (Happening G)}

/-- The duties on all stacks. -/
def duties (m : Machine G) : List (Job G) :=
  m.allJobs.filter Job.isDuty

theorem allJobs_eq (m : Machine G) : m.allJobs = m.strands.flatMap (·.jobs) :=
  rfl

theorem allJobs_of_top (hj : m.jobs = job :: rest) :
    m.allJobs = job :: (rest ++ m.threads.parked.flatMap (·.jobs)) := by
  rw [allJobs, hj]
  rfl

theorem mem_allJobs_of_top (hj : m.jobs = job :: rest) : job ∈ m.allJobs := by
  rw [allJobs_of_top hj]
  exact List.mem_cons_self

/-- Every stack is in order, and no loop runs twice. -/
structure Sound (m : Machine G) : Prop where
  strands : ∀ p ∈ m.strands, Orderly p.thread.current p.mode p.jobs
  once : ∀ l, m.allJobs.countP (Job.isLeave l) ≤ 1

theorem sound_start (shared : G.Shared) (run : G.Run) : (start shared run).Sound := by
  constructor
  · intro p hp
    obtain rfl : p = ⟨⟨⟨0⟩, none⟩, .going .nothing, [.resume run]⟩ := List.mem_singleton.mp hp
    exact ⟨⟨trivial, fun _ => rfl, trivial⟩, by simp, rfl⟩
  · intro l
    simp [start, allJobs, Job.isLeave]

/-! ## The effect of a step -/

theorem free_parked (h : m.Sound)
    (hl : ∀ i ∈ m.threads.parked.flatMap (·.jobs), i.isLeave l = false) :
    Free l (m.threads.parked.flatMap (·.jobs)) := by
  intro i hi
  obtain ⟨p, hp, hip⟩ := List.mem_flatMap.mp hi
  have hs := (h.strands p (List.mem_cons_of_mem _ hp)).stacked
  exact free_of_stacked hs (fun j hj => hl j (List.mem_flatMap.mpr ⟨p, hp, hj⟩)) i hip

/-- If one frame of a loop is on the stack of the running thread, no further work of a run of that
loop is anywhere outside of it. -/
theorem free_outside (h : m.Sound) (pre : List (Job G)) (hm : m.jobs = pre ++ .leave l :: rest)
    (hs : Stacked rest) : Free l (rest ++ m.threads.parked.flatMap (·.jobs)) := by
  have honce := h.once l
  simp only [allJobs, hm, List.countP_append, List.countP_cons, Job.isLeave, decide_true,
    if_true] at honce
  have none : ∀ jobs : List (Job G), jobs.countP (Job.isLeave l) = 0 →
      ∀ i ∈ jobs, i.isLeave l = false := by
    intro jobs hz i hi
    simpa using List.countP_eq_zero.mp hz i hi
  exact (free_of_stacked hs (none _ (by omega))).append (free_parked h (none _ (by omega)))

/-- Where a loop has no frame, no work of a run of it is anywhere. -/
theorem Sound.free_below (h : m.Sound) (hj : m.jobs = job :: rest)
    (hl : isRunning { m with jobs := rest } l = false) :
    Free l (rest ++ m.threads.parked.flatMap (·.jobs)) := by
  have ho := h.strands _ List.mem_cons_self
  simp only [hj] at ho
  obtain ⟨hr, hp⟩ : (∀ i ∈ rest, i.isLeave l = false) ∧
      ∀ p ∈ m.threads.parked, ∀ i ∈ p.jobs, i.isLeave l = false := by
    simpa [isRunning] using hl
  refine (free_of_stacked ho.stacked.2.2 hr).append (free_parked h ?_)
  intro i hi
  obtain ⟨p, hpm, hip⟩ := List.mem_flatMap.mp hi
  exact hp p hpm i hip

/-- Next to the main future of a loop, no further work of a run of the loop is anywhere. -/
theorem Sound.alone_below (h : m.Sound) (hj : m.jobs = job :: rest) (hd : job.isDrive l = true) :
    Alone l (rest ++ m.threads.parked.flatMap (·.jobs)) := by
  have ho := h.strands _ List.mem_cons_self
  simp only [hj] at ho
  obtain ⟨rest', rfl, hs'⟩ := framed_of_isDrive ho.stacked hd
  have hout := free_outside h [job, .restore none] hj hs'
  refine ⟨by simp, ?_⟩
  simp only [List.cons_append, List.forall_mem_cons]
  exact ⟨⟨rfl, rfl⟩, ⟨rfl, rfl⟩, fun i hi => (hout i hi).2⟩

/-- Next to a task of a loop that is polled, no further task of the loop is. -/
theorem Sound.polling_below (h : m.Sound) (hj : m.jobs = job :: rest) (ht : job.isTask l = true) :
    Polling l (rest ++ m.threads.parked.flatMap (·.jobs)) := by
  have ho := h.strands _ List.mem_cons_self
  simp only [hj] at ho
  obtain ⟨k, f, batch, rest', rfl, hs'⟩ := turning_of_isTask ho.stacked ht
  have hout := free_outside h [job, .turn l k f batch, .restore none] hj hs'
  refine ⟨by simp, ?_⟩
  simp only [List.cons_append, List.forall_mem_cons]
  exact ⟨rfl, rfl, rfl, fun i hi => (hout i hi).2.2⟩

/-- The effect of a step takes no duty away but the job on top. -/
theorem Acts.effect_top (acts : m.Acts η m') (h : m.Sound) (hj : m.jobs = job :: rest) :
    ∃ before after others w, (∀ i ∈ before, i = job) ∧ m.duties = before ++ others ∧
      m'.duties = after ++ others ∧ Effect m.world others before η w after ∧
      w.Agrees m'.world := by
  obtain ⟨job', rest', hjobs, jobs, hjobs', hparked, rule⟩ := acts
  obtain ⟨rfl, rfl⟩ := List.cons.inj (hj.symm.trans hjobs)
  have ho := h.strands _ List.mem_cons_self
  simp only [hjobs] at ho
  simp only at hjobs' hparked rule
  obtain ⟨w, heffect, hw⟩ := rule.effect ho
    (fun l hl => (h.free_below hjobs (by simpa using hl)).filter Job.isDuty)
    (fun l hd => (h.alone_below hjobs hd).filter)
    (fun l ht => (h.polling_below hjobs ht).filter)
  refine ⟨_, _, _, w, ?_, ?_, ?_, heffect, hw⟩
  · exact fun i hi => List.mem_singleton.mp (List.mem_filter.mp hi).1
  · rw [duties, allJobs, hjobs, ← List.filter_append]
    simp
  · simp [duties, allJobs, hjobs', hparked]

theorem Acts.effect (acts : m.Acts η m') (h : m.Sound) :
    ∃ before after others w, m.duties = before ++ others ∧ m'.duties = after ++ others ∧
      Effect m.world others before η w after ∧ w.Agrees m'.world := by
  obtain ⟨job, rest, hj, _⟩ := id acts
  obtain ⟨before, after, others, w, _, heffect⟩ := acts.effect_top h hj
  exact ⟨before, after, others, w, heffect⟩

/-! ## Soundness -/

theorem Acts.sound (acts : m.Acts η m') (h : m.Sound) : m'.Sound := by
  constructor
  · obtain ⟨job, rest, hjobs, jobs, hjobs', hparked, rule⟩ := acts
    have ho := h.strands _ List.mem_cons_self
    simp only [hjobs] at ho
    simp only at hjobs' hparked rule
    obtain ⟨hs, hp⟩ := rule.stacked ho
    refine List.forall_mem_cons.mpr ⟨?_, ?_⟩
    · rw [hjobs']
      exact ⟨hs, hp, rule.currentLoop ho⟩
    · rw [hparked]
      exact fun p hp => h.strands p (List.mem_cons_of_mem _ hp)
  · intro l
    obtain ⟨before, after, others, w, hd, hd', heffect, _⟩ := acts.effect h
    have honce := h.once l
    rw [← countP_filter_isDuty] at honce ⊢
    rw [← duties, hd] at honce
    rw [← duties, hd']
    exact heffect.countP_isLeave honce

theorem mem_strands_of_mem_parked {p : Parked G} (h : p ∈ m.parked) : p ∈ m.strands := by
  unfold parked at h
  rcases List.mem_append.mp h with h | h
  · exact List.mem_cons_of_mem _ h
  · split at h
    · cases h
    · exact List.mem_singleton.mp h ▸ List.mem_cons_self

/-- A thread that has only begun is about to run code of the guest, and nothing else. -/
theorem Switched.allJobs (switched : m.Switched m') : ∃ fresh : List (Job G),
    m'.allJobs.Perm (fresh ++ m.allJobs) ∧
      ∀ i ∈ fresh, (∃ run, i = .resume run) ∨ ∃ t, i = .threadEnd t := by
  obtain ⟨_, fresh, hnew, hperm⟩ := switched
  have hparked : m.allJobs.Perm (m.parked.flatMap (·.jobs)) := by
    unfold Machine.allJobs parked
    rw [List.flatMap_append]
    split
    · rename_i he
      simp [List.isEmpty_iff.mp he]
    · simpa using List.perm_append_comm
  have hall : m'.allJobs.Perm (fresh.flatMap (·.jobs) ++ m.parked.flatMap (·.jobs)) := by
    rw [← List.flatMap_append, allJobs_eq]
    exact hperm.flatMap_right _
  refine ⟨_, hall.trans (hparked.symm.append_left _), fun i hi => ?_⟩
  obtain ⟨p, hp, hip⟩ := List.mem_flatMap.mp hi
  obtain ⟨t, run, rfl⟩ := hnew p hp
  simp only [List.mem_cons, List.not_mem_nil, or_false] at hip
  exact hip.imp (fun h => ⟨run, h⟩) fun h => ⟨t, h⟩

/-- Where another thread runs instead, the jobs of every sort are the same, code of the guest
apart. -/
theorem Switched.filter_allJobs (switched : m.Switched m') {p : Job G → Bool}
    (hr : ∀ run, p (.resume run) = false) (ht : ∀ t, p (.threadEnd t) = false) :
    (m.allJobs.filter p).Perm (m'.allJobs.filter p) := by
  obtain ⟨fresh, hperm, hfresh⟩ := switched.allJobs
  have hnone : fresh.filter p = [] := by
    rw [List.filter_eq_nil_iff]
    intro i hi
    obtain ⟨run, rfl⟩ | ⟨t, rfl⟩ := hfresh i hi
    · simp [hr]
    · simp [ht]
  have hall := hperm.filter p
  rw [List.filter_append, hnone, List.nil_append] at hall
  exact hall.symm

/-- A thread that has only begun has no duties. -/
theorem Switched.duties (switched : m.Switched m') : m.duties.Perm m'.duties :=
  switched.filter_allJobs (fun _ => rfl) fun _ => rfl

theorem Switched.sound (switched : m.Switched m') (h : m.Sound) : m'.Sound := by
  constructor
  · obtain ⟨_, fresh, hnew, hperm⟩ := switched
    intro p hp
    rcases List.mem_append.mp (hperm.mem_iff.mp hp) with hp | hp
    · obtain ⟨t, run, rfl⟩ := hnew p hp
      exact ⟨⟨trivial, fun _ => rfl, trivial, fun _ => rfl, trivial⟩, by simp, rfl⟩
    · exact h.strands p (mem_strands_of_mem_parked hp)
  · intro l
    have honce := h.once l
    rw [← countP_filter_isDuty] at honce ⊢
    exact Nat.le_trans (Nat.le_of_eq (switched.duties.countP_eq _).symm) honce

/-- Every run leaves the machine sound. -/
theorem Course.sound (course : Course m₀ τ m) (h : m₀.Sound) : m.Sound := by
  induction course with
  | here => exact h
  | act _ acts ih => exact acts.sound ih
  | switch _ switched ih => exact switched.sound ih

end Machine

/-! ## Trails -/

/-- What runs from the world `w₀` and the ledger `D₀` come to, with what happened on the way. -/
inductive Trail (w₀ : World G) (D₀ : List (Job G)) :
    List (Happening G) → World G → List (Job G) → Prop where
  | here : Trail w₀ D₀ [] w₀ D₀
  | same {τ w w' D D'} (trail : Trail w₀ D₀ τ w D) (hw : w.Agrees w') (hD : D.Perm D') :
      Trail w₀ D₀ τ w' D'
  | step {τ η w w' others before after} (trail : Trail w₀ D₀ τ w (before ++ others))
      (effect : Effect w others before η w' after) : Trail w₀ D₀ (τ ++ η) w' (after ++ others)

/-- One trail after the other. -/
theorem Trail.append {w₀ w w₁ : World G} {D₀ D D₁ : List (Job G)} {τ τ' : List (Happening G)}
    (trail : Trail w₀ D₀ τ w D) (trail' : Trail w D τ' w₁ D₁) :
    Trail w₀ D₀ (τ ++ τ') w₁ D₁ := by
  induction trail' with
  | here => simpa using trail
  | same _ hw hD ih => exact ih.same hw hD
  | step _ effect ih =>
    rw [← List.append_assoc]
    exact ih.step effect

namespace Machine

variable {code : G.Code} {m m₀ : Machine G} {τ : List (Happening G)}

/-- Every run leaves a trail. -/
theorem Course.trail (course : Course m₀ τ m) (h : m₀.Sound) :
    Trail m₀.world m₀.duties τ m.world m.duties := by
  induction course with
  | here => exact .here
  | act course acts ih =>
    obtain ⟨before, after, others, w, hd, hd', heffect, hw⟩ := acts.effect (course.sound h)
    rw [hd] at ih
    rw [hd']
    exact (ih.step heffect).same hw (.refl _)
  | switch _ switched ih => exact ih.same switched.objects switched.duties

theorem Reached.sound (h : Reached code τ m) : m.Sound := by
  obtain ⟨shared, run, h⟩ := h
  exact h.course.sound (sound_start shared run)

/-- The trail of a run that began in an empty world. -/
theorem Reached.trail (h : Reached code τ m) : Trail .empty [] τ m.world m.duties := by
  obtain ⟨shared, run, h⟩ := h
  exact h.course.trail (sound_start shared run)

end Machine

end RunLoop
