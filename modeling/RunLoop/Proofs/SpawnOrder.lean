import RunLoop.Proofs.Awaited
import RunLoop.Proofs.Resumption

/-!
# The order in which tasks start

A task that is spawned is queued behind everything that is queued already, so it seems that tasks
start in the order in which they were spawned. But what is queued is the slot. If the waker of an
earlier task in that slot left an entry behind, the loop polls the new task when it gets there, and
that may be ahead of tasks that were spawned before.

* `Machine.Walked.suspended_of_spawned`: a task keeps its future in its slot until it is polled.
* `Machine.Walked.queued_of_spawned`: it is queued meanwhile.
* `Machine.tasks_start_in_queue_order` says of two tasks which one starts first.
* `Machine.tasks_start_out_of_order`: it need not be the one that was spawned first.
-/

namespace RunLoop

variable {G : Guest} {l : LoopId} {k k₁ k₂ : WakerId} {slot s₁ s₂ : Nat} {kind kind₁ kind₂ : Kind}

/-- Waker `k` is about to be marked, or to queue its target. -/
def Job.rouses (k : WakerId) : Job G → Bool
  | wake k' | notify k' => k' = k
  | _ => false

/-! ## Lists -/

/-- Where one of two elements is in a list, one of them precedes the other. -/
theorem precedes_or {α : Type} {a b : α} {as : List α} (ha : a ∈ as) :
    Precedes a b as ∨ Precedes b a as := by
  obtain ⟨ahead, behind, rfl, hahead⟩ := List.eq_append_cons_of_mem ha
  by_cases hb : b ∈ ahead
  · exact .inr ((precedes_of_mem hb hahead).append _)
  · exact .inl ⟨ahead, behind, rfl, hb⟩

theorem Precedes.mem {α : Type} {a b : α} {as : List α} (h : Precedes a b as) : a ∈ as := by
  obtain ⟨ahead, behind, rfl, _⟩ := h
  simp

/-- What does not stand in the first part precedes another element in the second. -/
theorem Precedes.of_append {α : Type} {a b : α} {as bs : List α} (h : Precedes a b (as ++ bs))
    (ha : a ∉ as) : Precedes a b bs := by
  obtain ⟨ahead, behind, he, hb⟩ := h
  rcases append_eq_append_cons he with ⟨ρ, rfl, _⟩ | ⟨σ, rfl, rfl⟩
  · simp at ha
  · exact ⟨σ, behind, rfl, fun hmem => hb (List.mem_append_right _ hmem)⟩

/-- Of two different elements only one precedes the other. -/
theorem Precedes.not_symm {α : Type} {a b : α} {as : List α} (h : Precedes a b as) (hne : a ≠ b) :
    ¬Precedes b a as := by
  rintro ⟨ahead, behind, rfl, ha⟩
  exact ha (h.mem_of_append hne)

/-! ## Spawning -/

namespace Machine

variable {code : G.Code} {m m' : Machine G} {p p' : List (Machine G)} {τ : List (Happening G)}

theorem happenings_of_spawned (h : .spawned l slot k kind ∈ m.milestones) :
    m.isIdle = false ∧ m.isAborted = false ∧
      (m.happenings = [] ∨ ∃ l' g, m.happenings = [.processed l' (.call (.start g))]) := by
  obtain ⟨job, rest, mode, hjobs, hmode, origin⟩ := origin_of_milestone h
  cases origin with
  | spawned hj =>
    have going : m.mustWait job = false → m.isIdle = false ∧ m.isAborted = false :=
      live_of_going hjobs hmode
    unfold Job.spawns at hj
    split at hj
    case h_1 | h_2 | h_3 =>
      obtain ⟨hi, live⟩ := going rfl
      exact ⟨hi, live, .inl (by simp [happenings, hjobs, hmode, performed, served])⟩
    case h_4 l' _ _ g _ =>
      obtain ⟨hi, live⟩ := going rfl
      refine ⟨hi, live, .inr ⟨l', g, ?_⟩⟩
      simp [happenings, hjobs, hmode, performed, entryProcessed]
    case h_5 => cases hj

/-- The loop that is current stays open in a step. -/
theorem Reached.opened_step (hm : Reached code τ m) (hi : m.isIdle = false)
    (live : m.isAborted = false) (h : m.world.thread.current = some l) :
    (m.step code).world.isClosed l = false := by
  obtain ⟨above, below, hjobs, _⟩ := (hm.sound.current_iff List.mem_cons_self l).mp h
  obtain ⟨job, rest, hj, hbelow, _⟩ := strand_of_step code hi live
  have hleave : .leave l ∈ rest := by
    have hsplit : job :: rest = above ++ .restore none :: .leave l :: below := hj.symm.trans hjobs
    cases above with
    | nil => simp [(List.cons.inj hsplit).2]
    | cons _ above => simp [(List.cons.inj hsplit).2]
  obtain ⟨q, hq, _, hs⟩ := hbelow (List.ne_nil_of_mem hleave)
  refine (hm.next (.act hi)).opened ?_
  rw [allJobs_eq, List.mem_flatMap]
  exact ⟨q, hq, hs.subset hleave⟩

/-- A task that is spawned is in its slot, and its loop is open. -/
theorem Walked.spawn (hm : Walked code p m) (h : .spawned l slot k kind ∈ m.milestones) :
    k = ⟨m.world.wakers.size⟩ ∧ m.world.isClosed l = false ∧
      (m.step code).world.isClosed l = false ∧
      ∃ f, (m.step code).world.task? l slot = some ⟨k, some ⟨kind, false, f⟩⟩ := by
  obtain ⟨hi, live, hη⟩ := happenings_of_spawned h
  obtain ⟨_, _, hcurrent⟩ := grounded_of_milestone h
  have hopen := hm.reached.opened_of_current hcurrent
  obtain ⟨_, _, _, advance⟩ := hm.advance hi live
  obtain ⟨w, passage, hw⟩ := advance.passage
  obtain ⟨hk, f, ht⟩ := passage.task?_of_spawned hm.census.valid h
  exact ⟨hk, hopen, hm.reached.opened_step hi live hcurrent, f,
    (World.task?_of_keeps hw l slot).trans ht⟩

/-- A task that was spawned and not polled keeps its future in its slot, as long as its loop is
open. -/
theorem Walked.suspended_of_spawned (hm : Walked code p m)
    (hs : .spawned l slot k kind ∈ story p) (hp : .polled k ∉ p.flatMap happenings)
    (hopen : m.world.isClosed l = false) : Suspended m.world m.duties l k (.task slot) := by
  obtain ⟨m₁, hmem, hspawn⟩ := List.mem_flatMap.mp hs
  obtain ⟨p₁, p₂, rfl, hm₁, walk⟩ := hm.of_mem hmem
  obtain ⟨hi, live, _⟩ := happenings_of_spawned hspawn
  obtain ⟨_, _, hopen', f, ht⟩ := hm₁.spawn hspawn
  have hp₂ : .polled k ∉ p₂.flatMap happenings := fun h => hp (by simp [h])
  exact walk.history.suspended (hm₁.next hi live).reached hopen' hopen ⟨_, ht⟩ hp₂

/-- It is queued, unless somebody is about to wake it. -/
theorem Walked.queued_of_spawned (hm : Walked code p m)
    (hs : .spawned l slot k kind ∈ story p) (hp : .polled k ∉ p.flatMap happenings)
    (hopen : m.world.isClosed l = false) (lossless : Lossless l (p.flatMap happenings))
    (hquiet : ∀ job ∈ m.allJobs, job.rouses k = false) : .wake slot ∈ m.unprocessed l := by
  have hwake : .wake k ∉ m.allJobs := fun h => by simpa [Job.rouses] using hquiet _ h
  have hnotify : .notify k ∉ m.allJobs := fun h => by simpa [Job.rouses] using hquiet _ h
  have hl := (hm.suspended_of_spawned hs hp hopen).live
  have hmarked : m.world.notified k = true :=
    (hm.reached.trail.pinged_of_unpolled hl hp).resolve_right
      fun h => hwake (List.mem_filter.mp h).1
  have hphase := phase_fifo_ne_closed hopen
  rw [fifo_eq] at hphase
  rw [unprocessed, fifo_eq]
  exact (hm.reached.trail.heeded lossless hphase k (.task slot) hl hmarked).resolve_right
    fun h => hnotify (List.mem_filter.mp h).1

/-! ## Two tasks -/

section

variable (hm : Walked code p m) (hs₁ : .spawned l s₁ k₁ kind₁ ∈ story p)
  (hs₂ : .spawned l s₂ k₂ kind₂ ∈ m.milestones)

include hm hs₂

theorem Walked.not_polled_before (k : WakerId) (h : k = k₂ ∨ .polled k ∉ p.flatMap happenings) :
    .polled k ∉ (p ++ [m]).flatMap happenings := by
  obtain ⟨_, _, hη⟩ := happenings_of_spawned hs₂
  have hnone : .polled k ∉ m.happenings := by
    rcases hη with he | ⟨_, _, he⟩ <;> simp [he]
  have hp : .polled k ∉ p.flatMap happenings := by
    rcases h with rfl | hp
    · intro hp
      have hsome := hm.reached.trail.isSome_of_polled hp
      simp [(hm.spawn hs₂).1, World.waker?_size] at hsome
    · exact hp
  rw [List.flatMap_append, List.flatMap_singleton, List.mem_append]
  exact not_or.mpr ⟨hp, hnone⟩

include hs₁

/-- A task that was spawned before has another waker. -/
theorem Walked.waker_ne_of_spawned : k₁ ≠ k₂ := by
  rintro rfl
  have hmade := hm.census.made k₁ (List.mem_filterMap.mpr ⟨_, hs₁, rfl⟩)
  simp [(hm.spawn hs₂).1] at hmade

/-- As long as it is not polled, it is in another slot. -/
theorem Walked.slot_ne_of_spawned (hp : .polled k₁ ∉ p.flatMap happenings) : s₁ ≠ s₂ := by
  obtain ⟨hi, live, _⟩ := happenings_of_spawned hs₂
  obtain ⟨_, _, hopen', f, ht₂⟩ := hm.spawn hs₂
  have hp' := hm.not_polled_before hs₂ k₁ (.inr hp)
  obtain ⟨work, ht₁⟩ :=
    (hm.next hi live).suspended_of_spawned (mem_story_append hs₁ _) hp' hopen'
  rintro rfl
  cases ht₁.symm.trans ht₂
  exact hm.waker_ne_of_spawned hs₁ hs₂ rfl

/-- As long as the first task is not polled, of two tasks the one starts first whose slot is queued
ahead of that of the other. -/
theorem Walked.starts_first_iff (hp : .polled k₁ ∉ p.flatMap happenings)
    (hqueued : .wake s₁ ∈ (m.step code).unprocessed l) (walk : Walk code (m.step code) p' m')
    (lossless : Lossless l (p'.flatMap happenings)) (hp₂ : .polled k₂ ∈ p'.flatMap happenings) :
    Precedes (.polled k₁) (.polled k₂) (p'.flatMap happenings) ↔
      Precedes (.wake s₁) (.wake s₂) ((m.step code).unprocessed l) := by
  obtain ⟨hi, live, _⟩ := happenings_of_spawned hs₂
  obtain ⟨_, _, hopen', f, ht₂⟩ := hm.spawn hs₂
  have hm' := hm.next hi live
  have hsusp₁ : Suspended (m.step code).world (m.step code).duties l k₁ (.task s₁) :=
    hm'.suspended_of_spawned (mem_story_append hs₁ _) (hm.not_polled_before hs₂ k₁ (.inr hp)) hopen'
  have hsusp₂ : Suspended (m.step code).world (m.step code).duties l k₂ (.task s₂) := ⟨_, ht₂⟩
  have hne := hm.slot_ne_of_spawned hs₁ hs₂ hp
  constructor
  · intro hprecedes
    refine (precedes_or hqueued).resolve_right fun hstale => ?_
    -- An entry for the slot of the second task stands ahead, so the second one is polled first.
    have hsecond := walk.polls_first hm'.reached hopen' hsusp₂ (live_duties.mp hsusp₁.live)
      (by simpa using hne.symm) (fun _ _ _ _ _ _ => hstale.append _) lossless hprecedes.mem
    refine hprecedes.not_symm ?_ hsecond
    simpa using hm.waker_ne_of_spawned hs₁ hs₂
  · intro hfirst
    exact walk.polls_first hm'.reached hopen' hsusp₁ (live_duties.mp hsusp₂.live)
      (by simpa using hne) (fun _ _ _ _ _ _ => hfirst.append _) lossless hp₂

end

/-- **Tasks start in the order of the queue.** Let a task be spawned on loop `l`, with waker `k₁` in
slot `s₁`, and later another one, with waker `k₂` in slot `s₂`. Let nothing be lost by the panic of
a main future, and nobody be about to wake the first task when the second one is spawned, unless the
first one was polled already. Then:

* the second task was not polled before;
* if the first one was not polled either, it is in another slot, which is queued;
* if the second task is polled later, the first one is polled before it exactly if it was polled
  already when the second one was spawned, or if its slot is queued at this moment ahead of what is
  queued for the slot of the second task.

So the task that was spawned last starts first exactly where an entry that an earlier task left
behind in its slot stands ahead. -/
theorem tasks_start_in_queue_order (hm : Walked code p m)
    (hs₁ : .spawned l s₁ k₁ kind₁ ∈ story p) (hs₂ : .spawned l s₂ k₂ kind₂ ∈ m.milestones)
    (hquiet : .polled k₁ ∉ p.flatMap happenings →
      ∀ job ∈ (m.step code).allJobs, job.rouses k₁ = false)
    (walk : Walk code (m.step code) p' m')
    (lossless : Lossless l ((p ++ m :: p').flatMap happenings)) :
    .polled k₂ ∉ (p ++ [m]).flatMap happenings ∧
    (.polled k₁ ∉ p.flatMap happenings →
      s₁ ≠ s₂ ∧ .wake s₁ ∈ (m.step code).unprocessed l) ∧
    (.polled k₂ ∈ p'.flatMap happenings →
      (Precedes (.polled k₁) (.polled k₂) ((p ++ m :: p').flatMap happenings) ↔
        .polled k₁ ∈ p.flatMap happenings ∨
          Precedes (.wake s₁) (.wake s₂) ((m.step code).unprocessed l))) := by
  obtain ⟨hi, live, _⟩ := happenings_of_spawned hs₂
  obtain ⟨_, _, hopen', _⟩ := hm.spawn hs₂
  have hsplit : (p ++ m :: p').flatMap happenings =
      (p ++ [m]).flatMap happenings ++ p'.flatMap happenings := by
    simp
  rw [hsplit] at lossless ⊢
  obtain ⟨losslessBefore, losslessAfter⟩ := lossless_append.mp lossless
  have hnew := hm.not_polled_before hs₂ k₂ (.inl rfl)
  have hqueued : .polled k₁ ∉ p.flatMap happenings → .wake s₁ ∈ (m.step code).unprocessed l := by
    intro hp
    exact (hm.next hi live).queued_of_spawned (mem_story_append hs₁ _)
      (hm.not_polled_before hs₂ k₁ (.inr hp)) hopen' losslessBefore (hquiet hp)
  refine ⟨hnew, fun hp => ⟨hm.slot_ne_of_spawned hs₁ hs₂ hp, hqueued hp⟩, fun hp₂ => ?_⟩
  by_cases hp : .polled k₁ ∈ p.flatMap happenings
  · have hearly : .polled k₁ ∈ (p ++ [m]).flatMap happenings := mem_happenings_append hp _
    exact iff_of_true ((precedes_of_mem hearly hnew).append _) (.inl hp)
  · have hnot := hm.not_polled_before hs₂ k₁ (.inr hp)
    have hafter := hm.starts_first_iff hs₁ hs₂ hp (hqueued hp) walk losslessAfter hp₂
    rw [← hafter, or_iff_right hp]
    exact ⟨fun h => h.of_append hnot, fun h => h.append_left hnew⟩

open Script

/-- Two tasks that are spawned one after the other. -/
def tasksInTurn : List (String × Statement) :=
  onLoop
    [[line "spawn" "a" (.spawn "a" (.mk "a" [] none none)),
      line "spawn" "b" (.spawn "b" (.mk "b" [] none none)),
      line "await" "b" (.await .keep .null (.join "b"))]]

/-- The task that was spawned first is polled first. -/
theorem tasks_start_in_queue_order_of_script :
    (0, ⟨1⟩) ∈ spawnedOn ⟨0⟩ (story (follow tasksInTurn 24).1) ∧
      (1, ⟨2⟩) ∈ spawnedOn ⟨0⟩ (follow tasksInTurn 24).2.milestones ∧
      Precedes (.polled ⟨1⟩) (.polled ⟨2⟩)
        (((follow tasksInTurn 24).1 ++ (follow tasksInTurn 24).2 ::
          (((follow tasksInTurn 24).2.step Script.code).trace Script.code 22).1).flatMap
            happenings) := by
  have hs₁ : (0, ⟨1⟩) ∈ spawnedOn ⟨0⟩ (story (follow tasksInTurn 24).1) := by decide +kernel
  have hs₂ : (1, ⟨2⟩) ∈ spawnedOn ⟨0⟩ (follow tasksInTurn 24).2.milestones := by decide +kernel
  obtain ⟨kind₁, h₁⟩ := mem_spawnedOn.mp hs₁
  obtain ⟨kind₂, h₂⟩ := mem_spawnedOn.mp hs₂
  have hquiet : ∀ job ∈ ((follow tasksInTurn 24).2.step Script.code).allJobs,
      job.rouses ⟨1⟩ = false := by
    decide +kernel
  have hfirst : Precedes (.wake 0) (.wake 1)
      (((follow tasksInTurn 24).2.step Script.code).unprocessed ⟨0⟩) :=
    precedes_of_mem (show (Target.task 0).entry ∈ _ by decide +kernel)
      (show (Target.task 1).entry ∉ _ by decide +kernel)
  have h := tasks_start_in_queue_order (walked_follow tasksInTurn 24) h₁ h₂ (fun _ => hquiet)
    (walk_trace Script.code _ 22) (by decide +kernel)
  exact ⟨hs₁, hs₂, (h.2.2 (by decide +kernel)).mpr (.inr hfirst)⟩

/-- Two tasks that are at their end, of which the first is woken once more; then two others come
into their slots, the one that is freed last being taken first. -/
def tasksBehindStaleEntry : List (String × Statement) :=
  onLoop
    [[line "spawn" "a" (.spawn "a" (.mk "a" [line "save_waker" "w" (.saveWaker "w")] none none)),
      line "spawn" "b" (.spawn "b" (.mk "b" [] none none)),
      line "await" "a" (.await .keep .null (.join "a")),
      line "await" "b" (.await .keep .null (.join "b")),
      line "wake_ref" "w" (.wake "w" false),
      line "spawn" "first" (.spawn "first" (.mk "first" [] none none)),
      line "spawn" "second" (.spawn "second" (.mk "second" [] none none)),
      line "await" "first" (.await .keep .null (.join "first")),
      line "await" "second" (.await .keep .null (.join "second"))]]

/-- Of two tasks the one that was spawned last is polled first. -/
theorem tasks_start_out_of_order : ∃ (p p' : List (Machine guest)) (m m' : Machine guest)
    (l : LoopId) (s₁ s₂ : Nat) (k₁ k₂ : WakerId) (kind₁ kind₂ : Kind),
      Walked Script.code p m ∧ .spawned l s₁ k₁ kind₁ ∈ story p ∧
      .spawned l s₂ k₂ kind₂ ∈ m.milestones ∧ Walk Script.code (m.step Script.code) p' m' ∧
      Lossless l ((p ++ m :: p').flatMap happenings) ∧ .polled k₂ ∈ p'.flatMap happenings ∧
      .polled k₁ ∉ (p ++ m :: p').flatMap happenings := by
  have hs₁ : (1, ⟨3⟩) ∈ spawnedOn ⟨0⟩ (story (follow tasksBehindStaleEntry 89).1) := by
    decide +kernel
  have hs₂ : (0, ⟨4⟩) ∈ spawnedOn ⟨0⟩ (follow tasksBehindStaleEntry 89).2.milestones := by
    decide +kernel
  obtain ⟨kind₁, h₁⟩ := mem_spawnedOn.mp hs₁
  obtain ⟨kind₂, h₂⟩ := mem_spawnedOn.mp hs₂
  exact ⟨_, _, _, _, ⟨0⟩, 1, 0, ⟨3⟩, ⟨4⟩, kind₁, kind₂, walked_follow tasksBehindStaleEntry 89, h₁,
    h₂, walk_trace Script.code _ 13, by decide +kernel, by decide +kernel, by decide +kernel⟩

end Machine

end RunLoop
