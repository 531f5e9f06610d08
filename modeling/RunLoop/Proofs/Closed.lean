import RunLoop.Proofs.Batches

/-!
# Loops that were dropped

A loop that was dropped is closed for good: its queue stays empty, nothing is accepted or processed
any more, and no main future is run on it. A loop that is being run is not closed, so that a loop
that was dropped has no work on any stack.

* `Machine.Reached.opened`: a loop whose frame is on a stack is open.
* `Machine.Reached.queue?_of_closed` and `Machine.History.signs_of_closed`: what was dropped stays
  as it is.
* `Machine.Reached.closed_of_drain`: only tasks of a loop that was dropped are dropped with it.
-/

namespace RunLoop

variable {G : Guest} {l : LoopId} {code : G.Code} {τ τ' : List (Happening G)}

/-! ## Loops that are being run -/

section

variable {w w' : World G} {D others before after : List (Job G)} {η : List (Happening G)}

/-- A loop that is being run is open. -/
theorem Effect.opened (effect : Effect w others before η w' after)
    (h : .leave l ∈ before ++ others → w.isClosed l = false) (hm : .leave l ∈ after ++ others) :
    w'.isClosed l = false := by
  have same : w'.queue? l = w.queue? l → w.isClosed l = false → w'.isClosed l = false := by
    intro hq hopen
    rwa [World.isClosed_eq, hq, ← World.isClosed_eq]
  have kept : ∀ {l' : LoopId} {f : Queue (Entry G) → Queue (Entry G)},
      w' = w.modifyQueue l' f → (∀ q, (f q).closed = q.closed) → w.isClosed l = false →
      w'.isClosed l = false := by
    rintro l' f rfl hf hopen
    obtain ⟨q, hq, hqc⟩ := isClosed_eq_false hopen
    rw [World.isClosed_eq, World.queue?_modifyQueue, hq]
    split <;> simp [hf, hqc]
  cases effect with
  | build c =>
    have hopen := h hm
    obtain ⟨q, hq, hqc⟩ := isClosed_eq_false hopen
    rw [World.isClosed_eq, World.queue?_build]
    split
    · rfl
    · simp [hq, hqc]
  | @close l' hf =>
    have hne : l' ≠ l := by
      rintro rfl
      simpa [Job.isLeave] using (hf _ hm).1
    exact same (by rw [World.queue?_modifyQueue, if_neg hne]) (h hm)
  | @enter l' _ hc =>
    simp only [List.cons_append, List.nil_append, List.mem_cons, reduceCtorEq, false_or,
      Job.leave.injEq] at hm
    rcases hm with rfl | hm
    · exact same rfl hc
    · exact same rfl (h (by simpa using hm))
  | submit | handOver | notify =>
    exact kept rfl (fun _ => rfl) (h (List.mem_append_right _ (by simpa using hm)))
  | take => exact kept rfl (fun _ => rfl) (h (by simpa using hm))
  | mainReady => exact kept rfl (fun _ => rfl) (h (by simpa using hm))
  | spawn =>
    refine same ?_ (h (by simpa using hm))
    rw [World.queue?_addTask]
    rfl
  | fill => exact same rfl (h (by simpa using hm))
  | processSettle => exact same rfl (h (by simpa using hm))
  | leave => exact same rfl (h (List.mem_append_right _ (by simpa using hm)))
  | _ => exact same (by simp) (h (by simpa using hm))

theorem Trail.opened (trail : Trail .empty [] τ w D) (hm : .leave l ∈ D) :
    w.isClosed l = false := by
  induction trail with
  | here => cases hm
  | same _ hw hD ih =>
    rw [World.isClosed, World.loop?, hw.loops]
    exact ih (hD.mem_iff.mpr hm)
  | step _ effect ih => exact effect.opened ih hm

end

/-- The tasks of a loop are about to be dropped only when it is closed. -/
theorem Rule.closed_of_drain {busy : LoopId → Prop} {w w' : World G} {mode mode' : Mode G}
    {job : Job G} {η : List (Happening G)} {jobs rest : List (Job G)} {n : Nat}
    (rule : Rule busy w mode job η w' mode' jobs)
    (ho : Orderly w.thread.current mode (job :: rest)) (hm : .drain l n ∈ jobs) :
    .closed l ∈ η := by
  have plain : (∀ i ∈ jobs, i.isPlain = true) → False := fun hj => by cases hj _ hm
  cases rule with
  | astray ha => exact absurd ha ho.astray
  | plain _ _ hj | build _ hj => exact (plain hj).elim
  | close =>
    simp only [List.mem_append, List.mem_map, reduceCtorEq, and_false, exists_false,
      List.mem_singleton, Job.drain.injEq, false_or] at hm
    rw [hm.1]
    exact List.mem_cons_self
  | spawn _ hj | start _ hj =>
    have := hj _ (by simpa using hm)
    cases this
  | abandon hj => rcases hj _ hm with h | ⟨j, h⟩ <;> cases h
  | drain hj =>
    have := hj _ (by simpa using hm)
    cases this
  | taskEnding _ hj =>
    have := hj _ (by simpa using hm)
    cases this
  | again hj => obtain ⟨work, rfl⟩ | ⟨j, o, rfl⟩ := hj <;> simp at hm
  | taskEnded _ hj =>
    obtain ⟨j, o', rfl, -⟩ | ⟨-, ⟨v, -, rfl⟩ | ⟨e, -, rfl⟩⟩ := hj <;> simp at hm
  | taskEndPanicked _ hj => obtain rfl | ⟨j, o', rfl⟩ := hj <;> simp at hm
  | _ => simp at hm

namespace Machine

variable {m m' : Machine G}

/-- A loop whose frame is on a stack is open. -/
theorem Reached.opened (hm : Reached code τ m) (h : .leave l ∈ m.allJobs) :
    m.world.isClosed l = false :=
  hm.trail.opened (List.mem_filter.mpr ⟨h, rfl⟩)

/-- The loop that is current on the running thread is open. -/
theorem Reached.opened_of_current (hm : Reached code τ m) (h : m.world.thread.current = some l) :
    m.world.isClosed l = false := by
  apply hm.opened
  have ho := hm.sound.strands _ List.mem_cons_self
  rw [ho.current] at h
  have hmem : ∀ jobs : List (Job G), currentLoop jobs = some l → .leave l ∈ jobs := by
    intro jobs hc
    induction jobs using currentLoop.induct with
    | case1 => cases hc
    | case2 p l' rest =>
      cases hc
      simp
    | case3 job rest hne ih =>
      rw [currentLoop] at hc
      · exact List.mem_cons_of_mem _ (ih hc)
      · exact hne
  exact List.mem_append_left _ (hmem _ h)

/-! ## Loops that were dropped -/

theorem phase_of_closed (hm : Reached code τ m) (h : .closed l ∈ τ) :
    (m.fifo l).phase = .closed := by
  refine (hm.fifo l).phase_of_closed_mem (List.mem_filterMap.mpr ⟨_, h, ?_⟩)
  simp [Happening.sign?]

/-- A loop that was dropped has an empty queue that accepts nothing. -/
theorem Reached.queue?_of_closed (hm : Reached code τ m) (h : .closed l ∈ τ) :
    m.world.queue? l = some ⟨[], true⟩ := by
  have hphase := phase_of_closed hm h
  have hqueue := (hm.fifo l).queue_of_closed hphase
  simp only [Machine.fifo, bench, Bench.toFifo] at hphase hqueue
  split at hphase
  · cases hphase
  · rename_i q hq hb
    obtain ⟨entries, closed⟩ := q
    cases closed with
    | false => cases hphase
    | true =>
      obtain rfl : entries = [] := by simpa [hq, hb] using hqueue
      exact hq
  · cases hphase

theorem Reached.isClosed_of_closed (hm : Reached code τ m) (h : .closed l ∈ τ) :
    m.world.isClosed l = true := by
  rw [World.isClosed_eq, hm.queue?_of_closed h]
  rfl

/-- Nothing more is seen of a loop that was dropped. -/
theorem History.signs_of_closed (hm' : History code m τ' m') (hm : Reached code τ m)
    (h : .closed l ∈ τ) : signs l τ' = [] :=
  ((hm'.fifo hm l).of_closed (phase_of_closed hm h)).1

/-- No work of a loop that was dropped is on any stack. -/
theorem Reached.free_of_closed (hm : Reached code τ m) (h : m.world.isClosed l = true) :
    Free l m.allJobs := by
  have hleave : ∀ i ∈ m.allJobs, i.isLeave l = false := by
    intro i hi
    cases hl : i.isLeave l with
    | false => rfl
    | true =>
      cases i with
      | leave l' =>
        obtain rfl : l' = l := by simpa [Job.isLeave] using hl
        rw [hm.opened hi] at h
        cases h
      | _ => cases hl
  have hs := hm.sound.strands _ List.mem_cons_self
  have hrun : Free l m.jobs :=
    free_of_stacked hs.stacked fun i hi => hleave i (List.mem_append_left _ hi)
  exact hrun.append (free_parked hm.sound fun i hi => hleave i (List.mem_append_right _ hi))

/-! ## Tasks that are to be dropped with their loop -/

theorem Course.closed_of_drain {m₀ : Machine G} (course : Course m₀ τ m) (hs : m₀.Sound)
    (h₀ : ∀ n, .drain l n ∉ m₀.allJobs) {n : Nat} (h : .drain l n ∈ m.allJobs) :
    .closed l ∈ τ := by
  induction course with
  | here => exact absurd h (h₀ n)
  | @act τ η m₁ m₂ course acts ih =>
    obtain ⟨job, rest, hj, jobs, hj', hp, rule⟩ := acts
    have ho := (course.sound hs).strands _ List.mem_cons_self
    simp only [hj] at ho
    simp only at hj' hp
    simp only [allJobs, hj', hp, List.append_assoc, List.mem_append] at h
    rcases h with h | h
    · exact List.mem_append_right _ (rule.closed_of_drain ho h)
    · refine List.mem_append_left _ (ih ?_)
      simp only [allJobs, hj, List.cons_append, List.mem_cons, List.mem_append]
      exact .inr h
  | switch _ switched ih =>
    apply ih
    obtain ⟨_, fresh, hnew, hperm⟩ := switched
    rw [allJobs_eq, List.mem_flatMap] at h
    obtain ⟨q, hq, hqj⟩ := h
    rcases List.mem_append.mp (hperm.mem_iff.mp hq) with hq | hq
    · obtain ⟨t, run, rfl⟩ := hnew q hq
      simp at hqj
    · rw [allJobs_eq, List.mem_flatMap]
      exact ⟨q, mem_strands_of_mem_parked hq, hqj⟩

/-- Only a loop that was dropped has its tasks dropped. -/
theorem Reached.closed_of_drain (hm : Reached code τ m) {n : Nat} (h : .drain l n ∈ m.allJobs) :
    .closed l ∈ τ := by
  obtain ⟨shared, run, hm⟩ := hm
  refine hm.course.closed_of_drain (sound_start shared run) ?_ h
  intro n
  simp [start, allJobs]

end Machine

end RunLoop
