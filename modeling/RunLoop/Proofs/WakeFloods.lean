import RunLoop.Proofs.Resumption

/-!
# Floods of wake-ups

However many wakers are kept, and however often they are woken, the queue of a loop does not grow
beyond bounds. That there is one entry of a target at most is not true: a slot has many tasks, one
after the other, and the entry that the waker of an earlier one left behind takes the mark of the
present one away, which is queued again while its own entry is still there. But there are never more
entries of a slot than tasks that were spawned into it, and never more of main futures than main
futures that ran. What is at its end is queued once more at most.

* `Machine.Walked.spawned_of_waker`: every waker of a slot was made for a task that was spawned
  into it.
* `World.marks_le_length` bounds the marked wakers by all that were made.
* `Machine.Walk.queues_le`: how often what is at its end is queued.
* `Machine.wake_floods_bounded` puts them together.
-/

namespace RunLoop

variable {G : Guest} {l l' : LoopId} {k : WakerId} {t : Target} {slot : Nat}

/-- The wakers of the main futures that ran on a loop. -/
def enteredOn (l : LoopId) (τ : List (Happening G)) : List WakerId :=
  τ.filterMap (Happening.entered? l)

theorem mem_enteredOn {τ : List (Happening G)} : k ∈ enteredOn l τ ↔ .entered l k ∈ τ := by
  simp [enteredOn, Happening.entered?_eq_some_iff]

/-- What is counted in a list stands at different places. -/
theorem countP_le_length_of_indices {α : Type} {p : α → Bool} {xs : List α} {is : List Nat}
    (h : ∀ i x, xs[i]? = some x → p x = true → i ∈ is) : xs.countP p ≤ is.length := by
  have hcount : xs.countP p = ((xs.zipIdx.filter (fun e => p e.1)).map Prod.snd).length := by
    rw [List.length_map, ← List.countP_eq_length_filter]
    conv_lhs => rw [← List.zipIdx_map_fst 0 xs, List.countP_map]
    rfl
  have hnodup : ((xs.zipIdx.filter (fun e => p e.1)).map Prod.snd).Nodup := by
    refine (List.filter_sublist.map Prod.snd).nodup ?_
    rw [List.zipIdx_map_snd]
    exact List.nodup_range'
  rw [hcount]
  refine (hnodup.subperm fun i hi => ?_).length_le
  obtain ⟨⟨x, i⟩, he, rfl⟩ := List.mem_map.mp hi
  obtain ⟨hmem, hp⟩ := List.mem_filter.mp he
  exact h i x (List.mem_zipIdx_iff_getElem?.mp hmem) hp

/-- No more wakers of a target are marked than were made for it. -/
theorem World.marks_le_length {w : World G} {ks : List WakerId}
    (h : ∀ k b, w.waker? k = some ⟨l, t, b⟩ → k ∈ ks) : w.marks l t ≤ ks.length := by
  rw [World.marks, ← List.length_map WakerId.index]
  refine countP_le_length_of_indices fun i x hx hp => List.mem_map.mpr ⟨⟨i⟩, ?_, rfl⟩
  obtain ⟨l', t', b⟩ := x
  obtain ⟨⟨rfl, rfl⟩, rfl⟩ : (l' = l ∧ t' = t) ∧ b = true := by simpa [Waker.isOf] using hp
  exact h ⟨i⟩ true (by simpa [World.waker?] using hx)

/-- A thread is about to queue the target of waker `k`. -/
def Job.isNotify (k : WakerId) : Job G → Bool
  | notify k' => k' = k
  | _ => false

/-- A waker that is not marked queues its target once, and is marked until the target is polled. -/
theorem Effect.toCome_le {w w' : World G} {others before after : List (Job G)}
    {η : List (Happening G)} (effect : Effect w others before η w' after) (hp : .polled k ∉ η) :
    after.countP (Job.isNotify k) + (if w'.notified k then 0 else 1) ≤
      before.countP (Job.isNotify k) + if w.notified k then 0 else 1 := by
  have marked : (if w'.notified k then 0 else 1) ≤ if w.notified k then 0 else 1 := by
    by_cases hn : w.notified k = true
    · simp [effect.notified_of_notified hn hp]
    · rw [if_neg hn]
      split <;> omega
  have quiet : after.countP (Job.isNotify k) = 0 →
      after.countP (Job.isNotify k) + (if w'.notified k then 0 else 1) ≤
        before.countP (Job.isNotify k) + if w.notified k then 0 else 1 := by
    omega
  cases effect with
  | @mark k' x hx hn =>
    by_cases hk : k' = k
    · subst hk
      have hnot : w.notified k' = false := by simp [World.notified, hx, hn]
      have hmarked : (w.mark k').1.notified k' = true := by
        simp [World.notified, World.waker?_mark, hx]
      simp [Job.isNotify, hnot, hmarked]
    · exact quiet (by simp [Job.isNotify, hk])
  | fill | processSettle => exact quiet (by simp [Job.isNotify, List.countP_eq_zero])
  | _ => exact quiet (by simp [Job.isNotify])

/-! ## Whom wakers were made for -/

section

variable {w w' : World G} {b : Bool}

/-- A waker that is new comes with the task that is put into its slot. -/
theorem World.TablesValid.seat_of_new (h : w.TablesValid) (hl : ∃ s, w.tasks? l' = some s)
    {kind : Kind} {f : Future G.Coroutine} (hnew : w.waker? k = none)
    (hx : (w.addTask l' kind f).1.waker? k = some ⟨l, .task slot, b⟩) :
    ∃ work, (w.addTask l' kind f).1.task? l slot = some ⟨k, some work⟩ := by
  rw [World.waker?_addTask] at hx
  split at hx
  · rename_i hk
    cases hx
    exact ⟨_, by rw [h.task?_addTask hl, if_pos ⟨rfl, rfl⟩, hk]⟩
  · simp [hnew] at hx

/-- A waker of a slot that is new comes with a task in the slot. -/
theorem Rule.seat_of_new {busy : LoopId → Prop} {mode mode' : Mode G} {job : Job G}
    {η : List (Happening G)} {jobs rest : List (Job G)}
    (rule : Rule busy w mode job η w' mode' jobs)
    (ho : Orderly w.thread.current mode (job :: rest)) (hv : w.TablesValid)
    (hcur : ∀ l, w.thread.current = some l → ∃ s, w.tasks? l = some s)
    (hnew : w.waker? k = none) (hx : w'.waker? k = some ⟨l, .task slot, b⟩) :
    ∃ work, w'.task? l slot = some ⟨k, some work⟩ := by
  have old : w'.wakers = w.wakers → ∃ work, w'.task? l slot = some ⟨k, some work⟩ := by
    intro hw
    simp only [World.waker?, hw] at hx hnew
    simp [hnew] at hx
  cases rule with
  | astray ha => exact absurd ha ho.astray
  | spawn hl =>
    have hv' : w.newJoin.1.TablesValid := hv
    exact hv'.seat_of_new (hcur _ hl) hnew hx
  | start hl | processStart hl => exact hv.seat_of_new (hcur _ hl) hnew hx
  | enter =>
    have hx' : (w.newWaker _ .main).1.waker? k = some _ := hx
    rw [World.waker?_newWaker] at hx'
    split at hx'
    · cases hx'
    · simp [hnew] at hx'
  | mark | marked =>
    rw [World.waker?_mark] at hx
    split at hx <;> simp [hnew] at hx
  | processMain =>
    rw [World.waker?_rearm] at hx
    split at hx <;> simp [hnew] at hx
  | @processTask l' _ _ slot' _ _ _ _ _ ht =>
    obtain ⟨_, rfl⟩ := World.takeWork_eq_some_iff.mp ht
    have hnew' : (w.modifyTasks l' (·.modify slot' (fun t => { t with work := none }))).waker? k =
        none := hnew
    rw [World.waker?_rearm] at hx
    split at hx <;> simp [hnew'] at hx
  | submit _ hp | handOver hp | notify _ hp =>
    obtain ⟨_, rfl⟩ := World.push?_eq_some_iff.mp hp
    exact old rfl
  | plain _ _ _ hw | ended _ hw | caught _ hw | dropWake _ hw | leave hw => exact old hw.wakers
  | drain => exact old (by rw [World.drainTasks_eq]; rfl)
  | close => exact old (by rw [World.closeQueue_eq]; rfl)
  | take => exact old (by rw [World.takeBatch_eq]; rfl)
  | _ => exact old rfl

end

namespace Machine

variable {code : G.Code} {m m' : Machine G} {p p' : List (Machine G)} {τ : List (Happening G)}
  {job : Job G} {rest : List (Job G)} {b : Bool}

theorem Walked.seat_of_new (hm : Walked code p m) (hi : m.isIdle = false)
    (live : m.isAborted = false) (hnew : m.world.waker? k = none)
    (hx : (m.step code).world.waker? k = some ⟨l, .task slot, b⟩) :
    ∃ work, (m.step code).world.task? l slot = some ⟨k, some work⟩ := by
  have acting : ∀ {m₁ : Machine G}, m.Acts m.happenings m₁ →
      m₁.world.waker? k = some ⟨l, .task slot, b⟩ →
      ∃ work, m₁.world.task? l slot = some ⟨k, some work⟩ := by
    rintro m₁ ⟨job, rest, hj, jobs, _, _, rule⟩ hx
    have ho := hm.sound.strands _ List.mem_cons_self
    simp only [hj] at ho
    exact Rule.seat_of_new (w := m.world) rule ho hm.census.valid
      (fun l hl => World.tasks?_of_isClosed (hm.reached.opened_of_current hl)) hnew hx
  rcases acts_of_live code hi live with acts | ⟨m₁, acts, switched⟩
  · exact acting acts hx
  · rw [waker?_same switched.objects] at hx
    obtain ⟨work, ht⟩ := acting acts hx
    exact ⟨work, (World.task?_of_keeps switched.objects.keeps l slot).trans ht⟩

/-- Every waker of a slot was made for a task that was spawned into it. -/
theorem Walked.spawned_of_waker (hm : Walked code p m)
    (hx : m.world.waker? k = some ⟨l, .task slot, b⟩) : (slot, k) ∈ spawnedOn l (story p) := by
  obtain ⟨shared, run, walk⟩ := hm
  induction walk generalizing b with
  | here => simp [World.waker?, World.empty, start] at hx
  | @act p m₁ walk hi live ih =>
    have hm₁ : Walked code p m₁ := ⟨shared, run, walk⟩
    cases hx₁ : m₁.world.waker? k with
    | some x =>
      obtain ⟨l', t', b'⟩ := x
      have hmove : Move code m₁ m₁.happenings (m₁.step code) := .act hi
      obtain ⟨b₁, hx'⟩ := (History.here.next hmove).course.trail hm₁.sound |>.waker? hx₁
      cases hx.symm.trans hx'
      obtain ⟨kind, hs⟩ := mem_spawnedOn.mp (ih hx₁)
      exact mem_spawnedOn.mpr ⟨kind, mem_story_append hs _⟩
    | none =>
      obtain ⟨work, ht⟩ := hm₁.seat_of_new hi live hx₁ hx
      have hm' : Walked code (p ++ [m₁]) (m₁.step code) := ⟨shared, run, walk.act hi live⟩
      exact mem_spawnedOn.mpr ⟨work.kind, hm'.census.known _ _ _ _ ht⟩
  | turnTo _ hp ih => exact ih ((waker?_same (switched_turnTo hp).objects k).symm.trans hx)
  | launch _ _ ih => exact ih ((waker?_same (switched_launch _).objects k).symm.trans hx)

/-! ## Entries -/

/-- The entries of a target, and those that threads are about to queue, are no more than the marked
wakers of the target, also where loops have popped an entry and not acted on it. -/
theorem Reached.countP_unprocessed_le (hm : Reached code τ m) (popped : List LoopId) :
    ((⟨m, popped⟩ : Poised G).unprocessed l).countP (Entry.isFor t) +
      m.allJobs.countP (Job.notifies m.world l t) ≤ m.world.marks l t := by
  have hway := hm.trail.onTheWay_le (l := l) (t := t)
  have hduties : m.duties.countP (Job.notifies m.world l t) =
      m.allJobs.countP (Job.notifies m.world l t) := by
    rw [duties, List.countP_filter]
    refine List.countP_congr fun job _ => ?_
    cases job <;> simp [Job.notifies, Job.isDuty]
  rw [onTheWay, hduties, ← fifo_eq] at hway
  have hpopped : ((⟨m, popped⟩ : Poised G).unprocessed l).Sublist (m.unprocessed l) := by
    unfold Poised.unprocessed
    split
    · exact List.tail_sublist _
    · exact .refl _
  have hcount := hpopped.countP_le (p := Entry.isFor t)
  rw [unprocessed] at hcount
  omega

theorem Walked.marks_task_le (hm : Walked code p m) :
    m.world.marks l (.task slot) ≤ (spawnedOn l (story p)).countP (·.1 = slot) := by
  rw [List.countP_eq_length_filter, ← List.length_map Prod.snd]
  refine World.marks_le_length fun k b hx => List.mem_map.mpr ⟨(slot, k), ?_, rfl⟩
  exact List.mem_filter.mpr ⟨hm.spawned_of_waker hx, by simp⟩

theorem Reached.marks_main_le (hm : Reached code τ m) :
    m.world.marks l .main ≤ (enteredOn l τ).length :=
  World.marks_le_length fun _ b hx => mem_enteredOn.mpr (hm.trail.entered_iff.mpr ⟨b, hx⟩)

/-! ## Wakers of what is at its end -/

/-- The running thread queues the target of waker `k`. -/
def queues (k : WakerId) (m : Machine G) : Bool :=
  match m.jobs, m.mode with
  | .notify k' :: _, .going _ => k' = k
  | _, _ => false

theorem jobs_of_queues (h : m.queues k = true) :
    ∃ rest a, m.jobs = .notify k :: rest ∧ m.mode = .going a := by
  unfold queues at h
  split at h
  · rename_i hj hmode
    obtain rfl := of_decide_eq_true h
    exact ⟨_, _, hj, hmode⟩
  · cases h

/-- How often the target of waker `k` may be queued by it, if it is not polled: by the threads that
are about to, and by the next wake-up if it is not marked. -/
def toCome (m : Machine G) (k : WakerId) : Nat :=
  m.allJobs.countP (Job.isNotify k) + if m.world.notified k then 0 else 1

theorem countP_duties : m.duties.countP (Job.isNotify k) = m.allJobs.countP (Job.isNotify k) := by
  rw [duties, List.countP_filter]
  refine List.countP_congr fun job _ => ?_
  cases job <;> simp [Job.isNotify, Job.isDuty]

/-- Who is at its end is not polled, and stays at its end. -/
theorem Reached.gone (hm : Reached code τ m) (hx : m.world.waker? k = some ⟨l, t, b⟩)
    (hgone : ¬Live m.world m.allJobs l k t) {η : List (Happening G)} (move : Move code m η m') :
    .polled k ∉ η ∧ ¬Live m'.world m'.allJobs l k t := by
  rw [← live_duties] at hgone ⊢
  rcases move.effect hm.sound with ⟨rfl, hw, hD⟩ | ⟨before, after, others, w, hd, effect, hw, hD⟩
  · exact ⟨by simp, (live_same hw hD).not.mpr hgone⟩
  · rw [hd] at hgone
    constructor
    · intro hp
      rcases effect.live_of_polled hp with ⟨l', t', _, hl⟩ | ⟨_, _, hnone⟩
      · obtain ⟨b', hx'⟩ := hm.trail.wired.label k t' (hd ▸ hl)
        cases hx.symm.trans hx'
        exact hgone hl
      · simp [hx] at hnone
    · exact fun hl => hgone (effect.live_before (by simp [hx]) ((live_same hw hD).mp hl))

/-- Whoever queues a target does so in place of a wake-up that found it not marked. -/
theorem Reached.toCome_le (hm : Reached code τ m) {η : List (Happening G)}
    (move : Move code m η m') (hp : .polled k ∉ η) : m'.toCome k ≤ m.toCome k := by
  unfold toCome
  rw [← countP_duties, ← countP_duties]
  rcases move.effect hm.sound with ⟨_, hw, hD⟩ | ⟨before, after, others, w, hd, effect, hw, hD⟩
  · rw [notified_same hw, hD.countP_eq]
  · have hstep := effect.toCome_le hp
    rw [notified_same hw, ← hD.countP_eq, hd, List.countP_append, List.countP_append]
    omega

/-- To queue a target leaves one time less to come. -/
theorem Reached.toCome_of_queues (hm : Reached code τ m) (h : m.queues k = true)
    (hp : .polled k ∉ m.happenings) : 1 + (m.step code).toCome k ≤ m.toCome k := by
  obtain ⟨rest, a, hj, hmode⟩ := jobs_of_queues h
  obtain ⟨hi, _⟩ := live_of_going hj hmode rfl
  have hstep : m.step code = _ := step_of_going hj hmode rfl
  have hjobs : (m.step code).allJobs = rest ++ m.threads.parked.flatMap (·.jobs) := by
    rw [hstep]
    rfl
  have hn : m.world.notified k = true → (m.step code).world.notified k = true := by
    intro hn
    have move : Move code m m.happenings (m.step code) := .act hi
    refine ((History.here.next move).course.trail hm.sound).notified_of_notified hn ?_
    simpa using hp
  have hcount : m.allJobs.countP (Job.isNotify k) =
      (m.step code).allJobs.countP (Job.isNotify k) + 1 := by
    rw [allJobs_of_top hj, hjobs, List.countP_cons_of_pos (by simp [Job.isNotify])]
  unfold toCome
  by_cases hm' : m.world.notified k = true
  · simp [hm', hn hm', hcount, Nat.add_comm]
  · rw [if_neg hm']
    split <;> omega

/-- What is at its end is queued by its waker by the threads that are about to do so, and once more
if the waker is not marked. -/
theorem Walk.queues_le (walk : Walk code m p m') (hm : Reached code τ m)
    (hx : m.world.waker? k = some ⟨l, t, b⟩) (hgone : ¬Live m.world m.allJobs l k t) :
    ¬Live m'.world m'.allJobs l k t ∧ p.countP (queues k) + m'.toCome k ≤ m.toCome k := by
  have step : ∀ {p m₁ η m₂}, Walk code m p m₁ → ¬Live m₁.world m₁.allJobs l k t →
      Move code m₁ η m₂ → Reached code (τ ++ p.flatMap happenings) m₁ ∧ .polled k ∉ η ∧
        ¬Live m₂.world m₂.allJobs l k t := by
    intro p m₁ η m₂ walk hgone move
    have hm₁ := hm.append walk.history
    obtain ⟨b', hx'⟩ := (walk.history.course.trail hm.sound).waker? hx
    exact ⟨hm₁, hm₁.gone hx' hgone move⟩
  induction walk with
  | here => exact ⟨hgone, by simp⟩
  | @act p x walk hi live ih =>
    have move : Move code x x.happenings (x.step code) := .act hi
    obtain ⟨hx, hp, hgone'⟩ := step walk ih.1 move
    refine ⟨hgone', ?_⟩
    rw [List.countP_append, List.countP_singleton]
    split
    · rename_i hq
      have hless := hx.toCome_of_queues hq hp
      omega
    · have hless := hx.toCome_le move hp
      omega
  | turnTo walk hq ih =>
    obtain ⟨hx, hp, hgone'⟩ := step walk ih.1 (.turnTo hq)
    exact ⟨hgone', (Nat.add_le_add_left (hx.toCome_le (.turnTo hq) hp) _).trans ih.2⟩
  | launch walk hw ih =>
    obtain ⟨hx, hp, hgone'⟩ := step walk ih.1 (.launch hw)
    exact ⟨hgone', (Nat.add_le_add_left (hx.toCome_le (.launch hw) hp) _).trans ih.2⟩

/-- Nothing but its wakers queues a target. -/
theorem Reached.queues_of_accepted (hm : Reached code τ m) (hi : m.isIdle = false)
    (live : m.isAborted = false) (h : .accepted l t.entry ∈ m.happenings) :
    ∃ k b, m.queues k = true ∧ m.world.waker? k = some ⟨l, t, b⟩ := by
  obtain ⟨job, rest, hj⟩ : ∃ job rest, m.jobs = job :: rest := by
    cases hj : m.jobs with
    | nil => simp [happenings, hj] at h
    | cons job rest => exact ⟨job, rest, rfl⟩
  obtain ⟨before, after, others, w, hb, _, effect, _⟩ := effect_of_step code hm.sound hi live hj
  obtain ⟨k, b, hn, hx⟩ := effect.notify_of_accepted h
  obtain rfl := hb _ hn
  refine ⟨k, b, ?_, hx⟩
  cases hmode : m.mode with
  | going a => simp [queues, hj, hmode]
  | _ => simp [happenings, hj, hmode] at h

/-- **Wake-ups do not make the queue grow beyond bounds.** Whatever is woken, how often and on
whatever threads, at every moment of every run, with any loops having popped an entry on which they
did not act yet:

* the entries of a target that a loop did not process, and those that threads are about to queue,
  are no more than the marked wakers of this target;
* the marked wakers of a slot are no more than the tasks that were spawned into it;
* the marked wakers of main futures are no more than the main futures that ran on the loop;
* nothing but its wakers queues a target;
* the waker of a task or of a main future that is at its end queues it for threads that are about to
  do so at this moment, and once more if it is not marked, however often it is woken. -/
theorem wake_floods_bounded (hm : Walked code p m) (l : LoopId) :
    (∀ t popped, ((⟨m, popped⟩ : Poised G).unprocessed l).countP (Entry.isFor t) +
      m.allJobs.countP (Job.notifies m.world l t) ≤ m.world.marks l t) ∧
    (∀ slot, m.world.marks l (.task slot) ≤
      (spawnedOn l (story p)).countP (·.1 = slot)) ∧
    m.world.marks l .main ≤ (enteredOn l (p.flatMap happenings)).length ∧
    (∀ t, m.isIdle = false → m.isAborted = false → .accepted l t.entry ∈ m.happenings →
      ∃ k b, m.queues k = true ∧ m.world.waker? k = some ⟨l, t, b⟩) ∧
    ∀ t k b, m.world.waker? k = some ⟨l, t, b⟩ → ¬Live m.world m.allJobs l k t →
      ∀ p' m', Walk code m p' m' →
        p'.countP (queues k) + m'.allJobs.countP (Job.isNotify k) ≤
          m.allJobs.countP (Job.isNotify k) + if b then 0 else 1 := by
  refine ⟨?_, fun slot => hm.marks_task_le, hm.reached.marks_main_le, ?_, ?_⟩
  · exact fun t popped => hm.reached.countP_unprocessed_le popped
  · exact fun t hi live h => hm.reached.queues_of_accepted hi live h
  · intro t k b hx hgone p' m' walk
    have hle := (walk.queues_le hm.reached hx hgone).2
    have hn : m.world.notified k = b := by simp [World.notified, hx]
    simp only [toCome, hn] at hle
    omega

open Script

/-- The waker of a task is woken again and again when the task is at its end, and then another task
comes into its slot. -/
def wakerOutlivesTask : List (String × Statement) :=
  onLoop
    [[line "spawn" "a" (.spawn "a" (.mk "a" [line "save_waker" "w" (.saveWaker "w")] none none)),
      line "await" "a" (.await .keep .null (.join "a")), line "wake_ref" "w" (.wake "w" false),
      line "wake_ref" "w" (.wake "w" false),
      line "spawn" "b" (.spawn "b" (.mk "b" [] none none)),
      line "await" "b" (.await .keep .null (.join "b"))]]

/-- Slot 0 has two entries, as many as tasks were spawned into it; the task that is gone is queued
once, though its waker is woken twice. -/
theorem wake_floods_bounded_of_script :
    ((⟨(follow wakerOutlivesTask 70).2, []⟩ : Poised guest).unprocessed ⟨0⟩).countP
        (Entry.isFor (.task 0)) = 2 ∧
      2 ≤ (follow wakerOutlivesTask 70).2.world.marks ⟨0⟩ (.task 0) ∧
      (follow wakerOutlivesTask 70).2.world.marks ⟨0⟩ (.task 0) ≤
        (spawnedOn ⟨0⟩ (story (follow wakerOutlivesTask 70).1)).countP (·.1 = 0) ∧
      ((follow wakerOutlivesTask 50).2.trace Script.code 20).1.countP (queues ⟨1⟩) ≤ 1 := by
  have hcount : ((⟨(follow wakerOutlivesTask 70).2, []⟩ : Poised guest).unprocessed ⟨0⟩).countP
      (Entry.isFor (.task 0)) = 2 := by
    decide +kernel
  have h := wake_floods_bounded (walked_follow wakerOutlivesTask 70) ⟨0⟩
  have hentries := h.1 (.task 0) []
  rw [hcount] at hentries
  have hx : (follow wakerOutlivesTask 50).2.world.waker? ⟨1⟩ = some ⟨⟨0⟩, .task 0, false⟩ := by
    decide +kernel
  have hnone : ((follow wakerOutlivesTask 50).2.world.task? ⟨0⟩ 0).isNone = true := by
    decide +kernel
  have hgone : ¬Live (follow wakerOutlivesTask 50).2.world (follow wakerOutlivesTask 50).2.allJobs
      ⟨0⟩ ⟨1⟩ (.task 0) := by
    rintro ⟨work, ht⟩
    simp [ht] at hnone
  have hzero : (follow wakerOutlivesTask 50).2.allJobs.countP (Job.isNotify ⟨1⟩) = 0 := by
    decide +kernel
  have hqueues := (wake_floods_bounded (walked_follow wakerOutlivesTask 50) ⟨0⟩).2.2.2.2
    (.task 0) ⟨1⟩ false hx hgone _ _ (walk_trace Script.code _ 20)
  rw [hzero, if_neg (by simp), Nat.zero_add] at hqueues
  have hle := Nat.le_of_add_right_le hqueues
  exact ⟨hcount, Nat.le_of_add_right_le hentries, h.2.1 0, hle⟩

end Machine

end RunLoop
