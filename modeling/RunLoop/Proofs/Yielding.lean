import RunLoop.Proofs.Lives
import RunLoop.Proofs.MainPolls
import RunLoop.Proofs.Refusals

/-!
# Whoever yields lets the others go first

To yield is to ask, in a poll, to be woken oneself, and to be pending then. The wake-up puts the
caller at the back of the queue, and everybody who was queued before is polled before the caller
resumes. But where an entry of the caller is in the queue already, the caller resumes as soon as
that entry is processed, ahead of whatever is queued behind it. The entry may be there because the
caller was woken earlier in the same poll, or because it was left behind, for the slot that a task
was given later or for a main future that ran on the loop before.

* `Suspended` says that the future of a target is kept until the target is polled.
* `Machine.Yields` says that a target is about to yield.
* `Machine.History.suspended`: on an open loop a future is kept until the target is polled.
* `Machine.yield_lets_queued_run`: who is polled before the caller resumes.
-/

namespace RunLoop

variable {G : Guest} {l : LoopId} {k k₂ : WakerId} {t t₂ : Target} {slot : Nat}

/-! ## Lists -/

/-- Two lists with one element at its first place in both agree up to there. -/
theorem eq_of_append_cons {α : Type} {a : α} {as bs cs ds : List α}
    (h : as ++ a :: bs = cs ++ a :: ds) (ha : a ∉ as) (hc : a ∉ cs) : as = cs := by
  rcases append_eq_append_cons h with ⟨ρ, rfl, _⟩ | ⟨σ, hσ, rfl⟩
  · simp at ha
  · cases σ with
    | nil => simp
    | cons i σ =>
      obtain ⟨rfl, _⟩ := List.cons.inj hσ
      simp at hc

/-- What is counted once at most is the same wherever it is found. -/
theorem eq_of_countP_le_one {α : Type} {p : α → Bool} {xs : List α} {a b : α}
    (h : xs.countP p ≤ 1) (ha : a ∈ xs) (hb : b ∈ xs) (hpa : p a = true) (hpb : p b = true) :
    a = b := by
  obtain ⟨as, bs, rfl⟩ := List.append_of_mem ha
  rw [List.countP_append, List.countP_cons_of_pos hpa] at h
  have hnone : ∀ x ∈ as ++ bs, ¬p x = true := by
    refine List.countP_eq_zero.mp ?_
    rw [List.countP_append]
    omega
  by_contra hne
  refine hnone b ?_ hpb
  simp only [List.mem_append, List.mem_cons] at hb ⊢
  rcases hb with hb | rfl | hb
  · exact .inl hb
  · exact absurd rfl hne
  · exact .inr hb

instance (t : Target) (q : List (Entry G)) : Decidable (t.entry ∈ q) :=
  decidable_of_iff (∃ e ∈ q, e.isFor t = true) <| by
    simp [Entry.isFor_iff]

/-! ## Futures that are kept -/

/-- The future of target `t` of loop `l`, whose waker is `k`, is kept until the target is polled: in
the slot of the task, or by the turn of the loop. -/
def Suspended (w : World G) (D : List (Job G)) (l : LoopId) (k : WakerId) : Target → Prop
  | .task slot => ∃ work, w.task? l slot = some ⟨k, some work⟩
  | .main => ∃ f batch, .turn l k f batch ∈ D

section

variable {w w' : World G} {D D' others before after : List (Job G)} {τ τ' η : List (Happening G)}

theorem live_of_waker (h : (w.task? l slot).map (·.waker) = some k) :
    Live w D l k (.task slot) := by
  obtain ⟨⟨k', work⟩, ht, rfl⟩ := Option.map_eq_some_iff.mp h
  exact ⟨work, ht⟩

theorem Suspended.live (h : Suspended w D l k t) : Live w D l k t := by
  cases t with
  | task slot =>
    obtain ⟨work, ht⟩ := h
    exact ⟨_, ht⟩
  | main =>
    obtain ⟨f, batch, hm⟩ := h
    exact ⟨_, hm, by simp [Job.drives]⟩

/-- The future of a task leaves its slot only to be polled, or with the task. -/
theorem Effect.polled_of_taken (effect : Effect w others before η w' after)
    {work : Work G.Coroutine} (ht : w.task? l slot = some ⟨k, some work⟩)
    (ht' : w'.task? l slot = some ⟨k, none⟩) : .polled k ∈ η := by
  rcases effect.task? ht' with ⟨work', h, htaken⟩ | ⟨hne, _⟩
  · cases ht.symm.trans h
    obtain ⟨job, hm, hj⟩ := (htaken rfl).resolve_left (by simp)
    cases effect with
    | @processTask l' _ _ slot' _ _ _ _ h' =>
      rcases List.mem_cons.mp hm with rfl | hm
      · obtain ⟨rfl, rfl⟩ : l' = l ∧ slot' = slot := by simpa [Job.holds] using hj
        cases ht.symm.trans h'
        simp
      · obtain rfl := List.mem_singleton.mp hm
        cases hj
    | taskEnding | taskEnded | taskEndPanicked => cases ht.symm.trans ht'
    | _ => simp_all [Job.holds]
  · exact absurd rfl hne

/-- A main future is kept by the turn of its loop until it is polled. -/
theorem Effect.turn_or_polled (effect : Effect w others before η w' after)
    (h : ∃ f batch, .turn l k f batch ∈ before ++ others) :
    (∃ f batch, .turn l k f batch ∈ after ++ others) ∨ .polled k ∈ η := by
  obtain ⟨f, batch, hm⟩ := h
  rcases List.mem_append.mp hm with hb | ho
  · cases effect with
    | processMain =>
      obtain ⟨-, rfl, -⟩ : l = _ ∧ k = _ ∧ _ := by simpa using hb
      exact .inr (by simp)
    | take | processNobody | processCall | processSettled =>
      obtain ⟨rfl, rfl, rfl, -⟩ : l = _ ∧ k = _ ∧ f = _ ∧ _ := by simpa using hb
      exact .inl ⟨f, _, List.mem_append_left _ List.mem_cons_self⟩
    | processTask | processStart =>
      obtain ⟨rfl, rfl, rfl, -⟩ : l = _ ∧ k = _ ∧ f = _ ∧ _ := by simpa using hb
      exact .inl ⟨f, _, List.mem_append_left _ (List.mem_cons_of_mem _ List.mem_cons_self)⟩
    | processSettle =>
      obtain ⟨rfl, rfl, rfl, -⟩ : l = _ ∧ k = _ ∧ f = _ ∧ _ := by simpa using hb
      exact .inl ⟨f, _, List.mem_append_left _ (List.mem_append_right _ List.mem_cons_self)⟩
    | _ => simp at hb
  · exact .inl ⟨f, batch, List.mem_append_right _ ho⟩

/-- Nobody is polled without an entry for it being processed, once its waker is there. -/
theorem Trail.processed_of_polled (trail₀ : Trail .empty [] τ w D) (trail : Trail w D τ' w' D')
    {b : Bool} (hx : w.waker? k = some ⟨l, t, b⟩) (hp : .polled k ∈ τ') :
    .processed l t.entry ∈ τ' := by
  induction trail with
  | here => simp at hp
  | same _ _ _ ih => exact ih hp
  | step trail effect ih =>
    rcases List.mem_append.mp hp with hp | hp
    · exact List.mem_append_left _ (ih hp)
    · obtain ⟨c, hx'⟩ := trail.waker? hx
      rcases effect.live_of_polled hp with ⟨l', t', rfl, hl⟩ | ⟨_, _, hnew⟩
      · obtain ⟨d, hx''⟩ := (trail₀.append trail).wired.label k t' hl
        cases hx'.symm.trans hx''
        simp
      · cases hnew.symm.trans hx'

/-- Where a task is being polled, or ends, the turn of its loop is on the stack. -/
theorem exists_turn_of_isTask {jobs : List (Job G)} (h : Stacked jobs) {job : Job G}
    (hm : job ∈ jobs) (hj : job.isTask l = true) : ∃ k f batch, .turn l k f batch ∈ jobs := by
  obtain ⟨above, below, rfl⟩ := List.append_of_mem hm
  obtain ⟨k, f, batch, rest, rfl, _⟩ := turning_of_isTask (Machine.stacked_of_suffix h) hj
  exact ⟨k, f, batch, by simp⟩

end

/-- The target `t` of loop `l` is being polled. -/
def Job.polls (l : LoopId) : Target → Job G → Bool
  | .task slot, taskPolled l' slot' _ => l' = l && slot' = slot
  | .main, mainPolled l' _ _ => l' = l
  | _, _ => false

theorem Job.holds_of_polls {job : Job G} (h : job.polls l (.task slot) = true) :
    job.holds l slot = true := by
  cases job with
  | taskPolled => exact h
  | _ => cases h

theorem Job.isDrive_of_polls {job : Job G} (h : job.polls l .main = true) :
    job.isDrive l = true := by
  cases job with
  | mainPolled => exact h
  | _ => cases h

theorem Job.slot_unique {job : Job G} {slot' : Nat} (h : job.holds l slot = true)
    (h' : job.holds l slot' = true) : slot = slot' := by
  cases job with
  | taskPolled | taskEnded | taskFinished | taskPanicked =>
    simp only [holds, Bool.and_eq_true, decide_eq_true_eq] at h h'
    exact h.2.symm.trans h'.2
  | _ => cases h

/-! ## Code that yields -/

namespace Script

/-- Code that yields in a poll with waker `k`, before and after it asked to be woken. -/
inductive Yielding (k : WakerId) : Run → Run → Prop where
  /-- An awaitable yields for the first time, with `n` more times to come. -/
  | first (n : Nat) : Yielding k (.poll (.yields (n + 1) false) k) (.putOff (n + 1))
  | again (n : Nat) : Yielding k (.poll (.yields (n + 2) true) k) (.putOff (n + 1))
  /-- A program yields. -/
  | statement {who : String} {h : Heading} {n : Nat} {rest : List Statement}
      {guard : Option Guard} :
      Yielding k (.body ⟨who, .single h (.yield (n + 1)) :: rest, .program k guard⟩ .next)
        (.body ⟨who, rest, .program k guard⟩ (.yielded ⟨h.op, .null⟩ n))
  | resumed {who : String} {h : Heading} {n : Nat} {rest : List Statement}
      {guard : Option Guard} :
      Yielding k (.poll (.program who rest (.yielding h (n + 1)) guard) k)
        (.body ⟨who, rest, .program k guard⟩ (.yielded h n))

theorem Yielding.step {run run' : Run} (h : Yielding k run run') (scene : Scene guest)
    (r : Registry) (a : Answer guest) :
    Script.step scene r run a =
      ⟨r.turnTo scene.world.thread.id, [], .request (.wake k) run'⟩ := by
  cases h with
  | first n => cases n <;> rfl
  | _ => rfl

/-- Whoever has asked to be woken ends the poll, to resume in another one. -/
theorem Yielding.pending {run run' : Run} (h : Yielding k run run') (scene : Scene guest)
    (r : Registry) (a : Answer guest) : ∃ f, Script.step scene r run' a =
      ⟨r.turnTo scene.world.thread.id, [], .finish (.polled (.pending f))⟩ := by
  cases h <;> exact ⟨_, rfl⟩

end Script

namespace Machine

open Script

variable {code : G.Code} {m m' m'' : Machine G} {τ τ' η : List (Happening G)} {job : Job G}

/-! ## Open loops -/

/-- An open loop that was there before was open before. -/
theorem History.isClosed_eq_false (h : History code m τ' m') (hm : Reached code τ m)
    (hb : (m.fifo l).phase ≠ .unbuilt) (ho : m'.world.isClosed l = false) :
    m.world.isClosed l = false := by
  by_contra hc
  rw [fifo_eq] at hb
  have hphase := (hm.tidy l).phase_eq_closed hb (by simpa using hc)
  rw [← fifo_eq] at hphase
  have hsame := ((h.fifo hm l).of_closed hphase).2
  exact phase_fifo_ne_closed ho (hsame ▸ hphase)

/-- A loop that is driven, or polls a task, is open. -/
theorem Reached.opened_of_mem (hm : Reached code τ m) (h : job ∈ m.allJobs)
    (hj : job.isDrive l = true ∨ job.isTask l = true) : m.world.isClosed l = false := by
  by_contra hc
  have hfree := hm.free_of_closed (by simpa using hc) job h
  rcases hj with hj | hj <;> simp [hj] at hfree

theorem phase_ne_unbuilt (h : m.world.isClosed l = false) : (m.fifo l).phase ≠ .unbuilt := by
  obtain ⟨q, hq, _⟩ := RunLoop.isClosed_eq_false h
  obtain ⟨e, he, _⟩ := Option.map_eq_some_iff.mp hq
  exact phase_of_loop (by simp [he])

/-! ## The future is kept until the poll -/

/-- A step leaves a future of an open loop where it is, or begins to poll it. -/
theorem Move.suspended (move : Move code m η m') (hm : Reached code τ m)
    (hopen : m.world.isClosed l = false) (h : Suspended m.world m.duties l k t) :
    Suspended m'.world m'.duties l k t ∨ .polled k ∈ η := by
  cases t with
  | task slot =>
    obtain ⟨work, ht⟩ := h
    obtain ⟨p, hp⟩ := hm.walked
    rcases hp.task?_of_move hopen move ht with hs | ⟨_, _, htaken⟩ | ⟨hne, _⟩ | ⟨hne, _⟩
    · exact .inl ⟨work, hs⟩
    · right
      rcases move.effect hm.sound with ⟨_, hw, _⟩ | ⟨_, _, _, w, _, effect, hw, _⟩
      · rw [World.task?_of_keeps hw.keeps, ht] at htaken
        cases htaken
      · rw [World.task?_of_keeps hw.keeps] at htaken
        exact effect.polled_of_taken ht htaken
    · cases hne
    · cases hne
  | main =>
    rcases move.effect hm.sound with ⟨_, _, hD⟩ | ⟨_, _, _, _, hd, effect, _, hD⟩
    · obtain ⟨f, batch, h⟩ := h
      exact .inl ⟨f, batch, hD.mem_iff.mp h⟩
    · rw [hd] at h
      refine (effect.turn_or_polled h).imp_left ?_
      rintro ⟨f, batch, h⟩
      exact ⟨f, batch, hD.mem_iff.mp h⟩

/-- As long as a loop is open, a future is kept until its target is polled. -/
theorem History.suspended (h : History code m τ' m') (hm : Reached code τ m)
    (hopen : m.world.isClosed l = false) (hopen' : m'.world.isClosed l = false)
    (hs : Suspended m.world m.duties l k t) (hp : .polled k ∉ τ') :
    Suspended m'.world m'.duties l k t := by
  induction h with
  | here => exact hs
  | next h move ih =>
    rw [List.mem_append, not_or] at hp
    have hm₁ := hm.append h
    have hbuilt := (h.fifo hm l).phase_ne_unbuilt (phase_ne_unbuilt hopen)
    have hopen₁ := (History.here.next move).isClosed_eq_false hm₁ hbuilt hopen'
    exact (move.suspended hm₁ hopen₁ (ih hopen₁ hp.1)).resolve_right hp.2

/-! ## One target is polled at a time -/

theorem Reached.countP_isDrive (hm : Reached code τ m) (l : LoopId) :
    m.allJobs.countP (Job.isDrive l) ≤ 1 := by
  have hsingle := (hm.tidy l).single
  rw [duties, batches_filter_isDuty, batches, List.length_filterMap_eq_countP] at hsingle
  refine Nat.le_trans (Nat.le_of_eq (List.countP_congr fun i _ => ?_)) hsingle
  cases i <;> simp [Job.isDrive, Job.batch?]

/-- While a target is being polled, the futures of all others of the loop are kept. -/
theorem Reached.suspended_of_polls (hm : Reached code τ m) (hj : job ∈ m.allJobs)
    (hpolls : job.polls l t = true) (hl : Live m.world m.allJobs l k₂ t₂) (hne : t₂ ≠ t) :
    Suspended m.world m.duties l k₂ t₂ := by
  obtain ⟨p, hp⟩ := hm.walked
  have turning : ∀ i ∈ m.allJobs, i.isTask l = true →
      ∃ k f batch, .turn l k f batch ∈ m.allJobs := by
    intro i hi htask
    rw [allJobs_eq] at hi ⊢
    obtain ⟨q, hq, hqi⟩ := List.mem_flatMap.mp hi
    obtain ⟨k, f, batch, h⟩ := exists_turn_of_isTask (hm.sound.strands q hq).stacked hqi htask
    exact ⟨k, f, batch, List.mem_flatMap.mpr ⟨q, hq, h⟩⟩
  cases t₂ with
  | task slot₂ =>
    obtain ⟨_ | work, ht⟩ := hl
    · exfalso
      obtain ⟨job₂, hm₂, hj₂⟩ := (hp.work_eq_none_iff ht).mp rfl
      have htask₂ := Job.isTask_of_holds hj₂
      cases t with
      | task slot =>
        have hholds := Job.holds_of_polls hpolls
        obtain rfl := eq_of_countP_le_one (hp.countP_isTask l) hj hm₂
          (Job.isTask_of_holds hholds) htask₂
        exact hne (congrArg Target.task (Job.slot_unique hj₂ hholds))
      | main =>
        obtain ⟨k', f, batch, hturn⟩ := turning job₂ hm₂ htask₂
        obtain rfl := eq_of_countP_le_one (hm.countP_isDrive l) hj hturn
          (Job.isDrive_of_polls hpolls) (by simp [Job.isDrive])
        cases hpolls
    · exact ⟨work, ht⟩
  | main =>
    obtain ⟨job₂, hm₂, hj₂⟩ := hl
    cases t with
    | main => exact absurd rfl hne
    | task slot =>
      obtain ⟨k', f, batch, hturn⟩ :=
        turning job hj (Job.isTask_of_holds (Job.holds_of_polls hpolls))
      obtain rfl := eq_of_countP_le_one (hm.countP_isDrive l) hturn hm₂ (by simp [Job.isDrive])
        (Job.isDrive_of_drives hj₂)
      obtain rfl : k' = k₂ := by simpa [Job.drives] using hj₂
      exact ⟨f, batch, List.mem_filter.mpr ⟨hturn, rfl⟩⟩

/-! ## Yielding -/

/-- The waker that the running thread is about to wake on a request. -/
def asksFor? (m : Machine G) : Option WakerId :=
  match m.mode, m.jobs with
  | .going _, .serve (.wake k) :: _ => some k
  | _, _ => none

/-- Target `t` of loop `l`, whose waker is `k`, is about to yield: it is being polled, and asks to
be woken itself. -/
structure Yields (m : Machine G) (l : LoopId) (k : WakerId) (t : Target) : Prop where
  live : Live m.world m.allJobs l k t
  polled : ∃ job ∈ m.jobs, job.polls l t = true
  asks : m.asksFor? = some k

theorem Yields.suspended (hy : m.Yields l k t) (hm : Reached code τ m)
    (hl : Live m.world m.allJobs l k₂ t₂) (hne : t₂ ≠ t) :
    Suspended m.world m.duties l k₂ t₂ := by
  obtain ⟨job, hj, hpolls⟩ := hy.polled
  exact hm.suspended_of_polls (List.mem_append_left _ hj) hpolls hl hne

theorem Yields.opened (hy : m.Yields l k t) (hm : Reached code τ m) :
    m.world.isClosed l = false := by
  obtain ⟨job, hj, hpolls⟩ := hy.polled
  refine hm.opened_of_mem (List.mem_append_left _ hj) ?_
  cases t with
  | task slot => exact .inr (Job.isTask_of_holds (Job.holds_of_polls hpolls))
  | main => exact .inl (Job.isDrive_of_polls hpolls)

/-- A target whose code yields is about to yield. -/
theorem yields_of_yielding {m : Machine guest} {run run' : Run} {a : Answer guest}
    {rest : List (Job guest)} (hj : m.jobs = .resume run :: rest) (hmode : m.mode = .going a)
    (hrun : Yielding k run run') (hl : Live m.world m.allJobs l k t)
    (hp : ∃ job ∈ rest, job.polls l t = true) : (m.step Script.code).Yields l k t := by
  have hstep : m.step Script.code = { m with jobs := rest }.advance Script.code run a :=
    step_of_going hj hmode rfl
  rw [advance, show Script.code.step = Script.step from rfl, hrun.step] at hstep
  have hjobs : (m.step Script.code).jobs = .serve (.wake k) :: .resume run' :: rest := by
    rw [hstep]
    rfl
  have hworld : (m.step Script.code).world = m.world := by
    rw [hstep]
    rfl
  have hparked : (m.step Script.code).threads.parked = m.threads.parked := by
    rw [hstep]
    rfl
  refine ⟨?_, ?_, ?_⟩
  · have hduties : (m.step Script.code).duties = m.duties := by
      rw [duties, duties, allJobs_of_top hjobs, allJobs_of_top hj, hparked]
      rfl
    rw [← live_duties] at hl ⊢
    rwa [hworld, hduties]
  · obtain ⟨job, hm, hjob⟩ := hp
    exact ⟨job, by simp [hjobs, hm], hjob⟩
  · rw [hstep]
    rfl

/-- A target that was there is polled next when its loop, which is open, processes an entry for it;
until then none was processed. -/
theorem Reached.next_poll (hm : Reached code τ m) (hl : Live m.world m.allJobs l k t)
    (h : History code m τ' m') (hp : .polled k ∉ τ') (move : Move code m' η m'')
    (hη : .polled k ∈ η) :
    m'.world.isClosed l = false ∧ .processed l t.entry ∉ τ' ∧
      ∃ rest, m'.unprocessed l = t.entry :: rest := by
  have hm' := hm.append h
  have hl₀ := live_duties.mpr hl
  have trail := h.course.trail hm.sound
  obtain ⟨b, hx⟩ := hm.trail.wired.label k t hl₀
  obtain ⟨c, hx'⟩ := trail.waker? hx
  rcases move.effect hm'.sound with ⟨rfl, _⟩ | ⟨before, after, others, w, hd, effect, _⟩
  · simp at hη
  rcases effect.live_of_polled hη with ⟨l', t', rfl, hl'⟩ | ⟨_, _, hnew⟩
  · rw [← hd] at hl'
    obtain ⟨d, hx''⟩ := hm'.trail.wired.label k t' hl'
    obtain ⟨rfl, rfl⟩ : l = l' ∧ t = t' := by
      cases hx'.symm.trans hx''
      exact ⟨rfl, rfl⟩
    have hmoves : Fifo.Moves Fifo.Lossy (m'.fifo l) [.processed t.entry] (m''.fifo l) := by
      simpa [Happening.sign?] using move.fifo hm' l
    obtain ⟨hphase, hqueue⟩ := hmoves.of_processed
    refine ⟨?_, fun hproc => ?_, _, hqueue⟩
    · by_contra hc
      rw [fifo_eq] at hphase
      have hclosed := (hm'.tidy l).phase_eq_closed (by simp [hphase]) (by simpa using hc)
      cases hphase.symm.trans hclosed
    · exact hp (trail.polled_of_processed hm.trail.wired (by simp [hx]) hl' hproc)
  · cases hnew.symm.trans hx'

/-- Where nothing is lost, what was queued and what was accepted since has been processed or is
queued. -/
theorem History.queue_eq (h : History code m τ' m') (hm : Reached code τ m)
    (hopen : m'.world.isClosed l = false) (lossless : Lossless l τ') :
    m.unprocessed l ++ acceptedBy l τ' = processedBy l τ' ++ m'.unprocessed l := by
  have hbalance := (h.fifo hm l).balance (phase_fifo_ne_closed hopen) lossless.signs
  rwa [filterMap_accepted?_signs, filterMap_processed?_signs] at hbalance

/-- **Whoever yields lets the others go first, unless it is queued.** Let a task or a main future
yield, and let it be polled later for the first time since, nothing having been lost in between by
the panic of a main future. If no entry for it was queued when it yielded, then whatever was queued
has been processed when it is polled, and everybody else who was queued and could be polled has been
polled. If an entry for it was queued, then exactly what stood ahead of it has been processed: of
all others, those have been polled who had an entry ahead of it, and nobody else. -/
theorem yield_lets_queued_run (hm : Reached code τ m) (hy : m.Yields l k t)
    (h : History code m τ' m') (hp : .polled k ∉ τ') (move : Move code m' η m'')
    (hη : .polled k ∈ η) (lossless : Lossless l τ') :
    (t.entry ∉ m.unprocessed l →
      m.unprocessed l <+: processedBy l τ' ∧
      ∀ k₂ t₂, Live m.world m.allJobs l k₂ t₂ → t₂.entry ∈ m.unprocessed l → .polled k₂ ∈ τ') ∧
    ∀ ahead behind, m.unprocessed l = ahead ++ t.entry :: behind → t.entry ∉ ahead →
      processedBy l τ' = ahead ∧
      ∀ k₂ t₂, Live m.world m.allJobs l k₂ t₂ → t₂ ≠ t → (.polled k₂ ∈ τ' ↔ t₂.entry ∈ ahead) := by
  obtain ⟨hopen', hproc, rest, hqueue⟩ := hm.next_poll hy.live h hp move hη
  have hbalance := h.queue_eq hm hopen' lossless
  rw [hqueue] at hbalance
  have hproc' : t.entry ∉ processedBy l τ' := fun hmem => hproc (mem_processedBy.mp hmem)
  have trail := h.course.trail hm.sound
  have polled : ∀ k₂ t₂, Live m.world m.allJobs l k₂ t₂ → t₂ ≠ t →
      t₂.entry ∈ processedBy l τ' → .polled k₂ ∈ τ' := by
    intro k₂ t₂ hl hne hmem
    by_contra hnot
    have hs := h.suspended hm (hy.opened hm) hopen' (hy.suspended hm hl hne) hnot
    obtain ⟨b, hx⟩ := hm.trail.wired.label k₂ t₂ (live_duties.mpr hl)
    exact hnot (trail.polled_of_processed hm.trail.wired (by simp [hx]) hs.live
      (mem_processedBy.mp hmem))
  constructor
  · intro hnone
    have hahead : m.unprocessed l <+: processedBy l τ' := by
      rcases List.append_eq_append_iff.mp hbalance with ⟨as, hps, _⟩ | ⟨as, hqs, has⟩
      · exact ⟨as, hps.symm⟩
      · cases as with
        | nil => exact ⟨[], by simpa using hqs⟩
        | cons e as =>
          obtain ⟨rfl, _⟩ := List.cons.inj has
          simp [hqs] at hnone
    refine ⟨hahead, fun k₂ t₂ hl hmem => polled k₂ t₂ hl ?_ (hahead.subset hmem)⟩
    rintro rfl
    exact hnone hmem
  · intro ahead behind hahead hnone
    rw [hahead, List.append_assoc, List.cons_append] at hbalance
    have heq : ahead = processedBy l τ' := eq_of_append_cons hbalance hnone hproc'
    refine ⟨heq.symm, fun k₂ t₂ hl hne => ⟨fun hpolled => ?_, fun hmem => ?_⟩⟩
    · obtain ⟨b, hx⟩ := hm.trail.wired.label k₂ t₂ (live_duties.mpr hl)
      rw [heq]
      exact mem_processedBy.mpr (hm.trail.processed_of_polled trail hx hpolled)
    · exact polled k₂ t₂ hl hne (heq ▸ hmem)

/-- A main future spawns a task and yields. -/
def yieldsAfterSpawn : List (String × Statement) :=
  onLoop
    [[line "spawn" "t" (.spawn "t" (.mk "t" [line "log" "ran" .log] none none)),
      line "yield" "" (.yield 1)]]

/-- The main future is not queued when it yields, and the task is polled before it goes on. -/
theorem yield_lets_queued_run_of_script :
    (play yieldsAfterSpawn 24).2.Yields ⟨0⟩ ⟨0⟩ .main ∧
      Target.main.entry ∉ (play yieldsAfterSpawn 24).2.unprocessed ⟨0⟩ ∧
      .polled ⟨1⟩ ∈ ((play yieldsAfterSpawn 24).2.record Script.code 16).1 := by
  have hy : (play yieldsAfterSpawn 24).2.Yields ⟨0⟩ ⟨0⟩ .main := by
    refine ⟨?_, by decide +kernel, by decide +kernel⟩
    show ∃ job ∈ (play yieldsAfterSpawn 24).2.allJobs, job.drives ⟨0⟩ ⟨0⟩ = true
    decide +kernel
  have hnone : Target.main.entry ∉ (play yieldsAfterSpawn 24).2.unprocessed ⟨0⟩ := by
    decide +kernel
  have ht : Live (play yieldsAfterSpawn 24).2.world (play yieldsAfterSpawn 24).2.allJobs ⟨0⟩ ⟨1⟩
      (.task 0) := live_of_waker (by decide +kernel)
  have hmem : (Target.task 0).entry ∈ (play yieldsAfterSpawn 24).2.unprocessed ⟨0⟩ := by
    decide +kernel
  have hidle : ((play yieldsAfterSpawn 24).2.record Script.code 16).2.isIdle = false := by
    decide +kernel
  have h := yield_lets_queued_run (reached_play yieldsAfterSpawn 24) hy
    (history_play yieldsAfterSpawn 24 16) (by decide +kernel) (.act hidle) (by decide +kernel)
    (by decide +kernel)
  exact ⟨hy, hnone, (h.1 hnone).2 ⟨1⟩ (.task 0) ht hmem⟩

/-- The waker of a main future is woken when the main future is at its end. The next main future
spawns a task and yields. -/
def yieldsBehindStaleEntry : List (String × Statement) :=
  [("loop", line "loop" "L" (.loop "L" none none none false)),
    ("block_on", line "block_on" "L" (.blockOn "L"
      (.program (.mk "first" [line "save_waker" "w" (.saveWaker "w")] none none)))),
    ("wake_ref", line "wake_ref" "w" (.wake "w" false)),
    ("block_on", line "block_on" "L" (.blockOn "L"
      (.program (.mk "second"
        [line "spawn" "t" (.spawn "t" (.mk "t" [line "log" "ran" .log] none none)),
          line "yield" "" (.yield 1)] none none))))]

/-- A main future yields and resumes, and a task that was queued before it yielded has not been
polled. -/
theorem yield_overtakes_queued : ∃ (τ τ' η : List (Happening guest)) (m m' m'' : Machine guest)
    (l : LoopId) (k k₂ : WakerId) (t t₂ : Target), Reached Script.code τ m ∧ m.Yields l k t ∧
      Live m.world m.allJobs l k₂ t₂ ∧ t₂ ≠ t ∧ t₂.entry ∈ m.unprocessed l ∧
      History Script.code m τ' m' ∧ Lossless l τ' ∧ Move Script.code m' η m'' ∧ .polled k ∈ η ∧
      .polled k₂ ∉ τ' ++ η := by
  have hlive : Live (play yieldsBehindStaleEntry 44).2.world
      (play yieldsBehindStaleEntry 44).2.allJobs ⟨0⟩ ⟨1⟩ .main := by
    show ∃ job ∈ (play yieldsBehindStaleEntry 44).2.allJobs, job.drives ⟨0⟩ ⟨1⟩ = true
    decide +kernel
  have hidle : ((play yieldsBehindStaleEntry 44).2.record Script.code 6).2.isIdle = false := by
    decide +kernel
  exact ⟨_, _, _, _, _, _, ⟨0⟩, ⟨1⟩, ⟨2⟩, .main, .task 0, reached_play yieldsBehindStaleEntry 44,
    ⟨hlive, by decide +kernel, by decide +kernel⟩, live_of_waker (by decide +kernel), by simp,
    by decide +kernel, history_play yieldsBehindStaleEntry 44 6, by decide +kernel, .act hidle,
    by decide +kernel, by decide +kernel⟩

end Machine

end RunLoop
