import RunLoop.Proofs.Awaited
import RunLoop.Proofs.Lives

/-!
# Cancelled tasks

A join handle says that its task was cancelled when the task was dropped with its loop before it
came to an end. There is one other way to hear it: the future came to an end, and panicked when it
was dropped after that. The outcome is handed over only once the future is gone, so the panic takes
it away, and the handle is told of a cancellation that never was.

* `Chronicle.ended_of_taskEnded`: what is about to be handed over is what a task came to.
* `Machine.Walked.not_dropped_of_ended`: a task that came to an end is not dropped with its loop.
* `Machine.cancelled_iff` says when a join handle hears of a cancellation, and what it hears
  otherwise.
* `Machine.cancelled_on_open_loop`: it hears of one although the future was ready.
-/

namespace RunLoop

variable {G : Guest} {l : LoopId} {slot : Nat} {k : WakerId} {j : JoinId} {kind : Kind}

/-- Whether an outcome is a cancellation. -/
def Joined.isCancelled : Joined → Bool
  | .error .cancelled => true
  | _ => false

theorem Joined.eq_cancelled {o : Joined} (h : o.isCancelled = true) : o = .error .cancelled := by
  unfold isCancelled at h
  split at h
  · rfl
  · cases h

/-- The slot, the waker and the join slot of a task that was spawned to be awaited. -/
def Milestone.awaitable? : Milestone → Option (LoopId × Nat × WakerId × JoinId)
  | spawned l slot k (.joined j) => some (l, slot, k, j)
  | _ => none

theorem spawned_of_awaitable {σ : List Milestone}
    (h : (l, slot, k, j) ∈ σ.filterMap Milestone.awaitable?) :
    .spawned l slot k (.joined j) ∈ σ := by
  obtain ⟨e, he, heq⟩ := List.mem_filterMap.mp h
  unfold Milestone.awaitable? at heq
  split at heq
  · cases heq
    exact he
  · cases heq

/-! ## The end of a task -/

section

variable {w w' : World G} {D others before after : List (Job G)} {σ σ₀ : List Milestone}

/-- What is about to be handed over is what a task came to. -/
theorem Chronicle.ended_of_taskEnded (chronicle : Chronicle σ w D) {o : Joined}
    (hm : .taskEnded l slot kind o ∈ D) : .ended l slot kind o ∈ σ := by
  induction chronicle with
  | here => cases hm
  | same _ _ hD ih => exact ih (hD.mem_iff.mpr hm)
  | @step _ _ _ _ _ before after _ passage ih =>
    rcases List.mem_append.mp hm with hm | hm
    · cases passage with
      | ending =>
        cases List.mem_singleton.mp hm
        exact List.mem_append_right _ List.mem_cons_self
      | again => exact List.mem_append_left _ (ih (List.mem_append_left _ hm))
      | _ => simp at hm
    · exact List.mem_append_left _ (ih (List.mem_append_right _ hm))

/-- A task that came to a result came to its end. -/
theorem ended_of_verdict {r : Result} (h : .ok r ∈ verdictsOf j σ) :
    ∃ l slot, .ended l slot (.joined j) (.ok r) ∈ σ := by
  obtain ⟨e, he, hv⟩ := List.mem_filterMap.mp h
  cases e with
  | ended l slot kind o =>
    obtain ⟨rfl, rfl⟩ : kind = .joined j ∧ o = .ok r := by simpa [Milestone.verdict?] using hv
    exact ⟨l, slot, he⟩
  | spoilt | dropped => simp [Milestone.verdict?] at hv
  | _ => cases hv

end

/-- A life with an end in it has no drop in it. -/
theorem Lived.not_dropped {has : Prop} {stages : List Stage} (h : Lived has stages)
    (he : .ended ∈ stages) : .dropped ∉ stages := by
  cases h with
  | lives n => simp at he
  | ended n => simp
  | dropped n => simp at he

namespace Machine

variable {code : G.Code} {m m' : Machine G} {p : List (Machine G)}

/-- The end of a task is a stage in the life of its future. -/
theorem Walked.mem_life_of_ended (hm : Walked code p m)
    (hs : .spawned l slot k (.joined j) ∈ story p) {o : Joined}
    (he : .ended l slot (.joined j) o ∈ story p) : .ended ∈ life l slot k p := by
  obtain ⟨m₁, hm₁, hended⟩ := List.mem_flatMap.mp he
  obtain ⟨p₁, p₂, rfl, before, _⟩ := hm.of_mem hm₁
  obtain ⟨rest, hj, _⟩ := polled_of_ended hended
  have hholds : (Job.taskPolled l slot (.joined j) : Job G).holds l slot = true := by
    simp [Job.holds]
  obtain ⟨k', ht, hs'⟩ :=
    before.census.spawned_of_polled (mem_errands_of_holds (mem_allJobs_of_top hj) hholds)
  obtain ⟨_, _, rfl⟩ := hm.census.joined_unique (mem_story_append hs' _) hs
  refine List.mem_flatMap.mpr ⟨m₁, hm₁, List.mem_filterMap.mpr ⟨_, hended, ?_⟩⟩
  simp [Milestone.stage?, ht]

/-- A task that came to an end is not dropped with its loop, before or after. -/
theorem Walked.not_dropped_of_ended (hm : Walked code p m)
    (hs : .spawned l slot k (.joined j) ∈ story p) {o : Joined}
    (he : .ended l slot (.joined j) o ∈ story p) (kind : Option Kind) :
    .dropped l slot k kind ∉ story p := by
  intro hd
  have hlived := (hm.lived l slot k).1 ⟨_, hs⟩
  refine hlived.not_dropped (hm.mem_life_of_ended hs he) ?_
  obtain ⟨m₁, hm₁, hd⟩ := List.mem_flatMap.mp hd
  refine List.mem_flatMap.mpr ⟨m₁, hm₁, List.mem_filterMap.mpr ⟨_, hd, ?_⟩⟩
  simp [Milestone.stage?]

/-- A task comes to the result of its future or to the panic of it. -/
theorem outcome_of_ended {o : Joined} (h : .ended l slot kind o ∈ story p) :
    (∃ r, o = .ok r) ∨ ∃ message, o = .error (.panicked message) := by
  obtain ⟨m₁, _, he⟩ := List.mem_flatMap.mp h
  obtain ⟨_, _, ⟨_, r, _, _, _, rfl⟩ | ⟨panic, _, _, rfl⟩⟩ := polled_of_ended he
  · exact .inl ⟨r, rfl⟩
  · exact .inr ⟨panic.message, rfl⟩

/-- A task is spoilt by a panic that comes out of what is left to do when its outcome is known. -/
theorem unwinding_of_spoilt (h : .spoilt l slot kind ∈ m.milestones) : ∃ o rest panic r,
    m.jobs = .taskEnded l slot kind o :: rest ∧ m.mode = .unwinding panic r := by
  obtain ⟨job, rest, mode, hj, hmode, origin⟩ := origin_of_milestone h
  cases origin with
  | spoilt => exact ⟨_, rest, _, _, hj, hmode⟩

/-! ## What a join handle hears -/

/-- **When a join handle hears of a cancellation.** Of the join slot `j` that was made for the task
with waker `k`, in every run:

* what is taken out of it was put into it, and it is put in that the task was cancelled exactly if
  the task was dropped with its loop, or its future panicked when it was dropped at its end;
* a task that came to an end came to the result of its future or to the panic of it, and was not
  dropped with its loop; unless its future panicked when it was dropped, its own outcome and nothing
  else is put in, and it is there when the task has left the table;
* a task is dropped with its loop only after the loop was dropped;
* what takes an outcome away is a panic that comes out of what is left to do at the end of a task,
  when the outcome is known and not handed over. -/
theorem cancelled_iff (hm : Walked code p m) (hs : .spawned l slot k (.joined j) ∈ story p) :
    (∀ o ∈ takenFrom j (story p), o ∈ filledInto j (story p)) ∧
    (∀ o ∈ filledInto j (story p), o = .error .cancelled ↔
      .dropped l slot k (some (.joined j)) ∈ story p ∨
        .spoilt l slot (.joined j) ∈ story p) ∧
    (∀ o, .ended l slot (.joined j) o ∈ story p →
      ((∃ r, o = .ok r) ∨ ∃ message, o = .error (.panicked message)) ∧
      .dropped l slot k (some (.joined j)) ∉ story p ∧
      (.spoilt l slot (.joined j) ∉ story p → (∀ o' ∈ filledInto j (story p), o' = o) ∧
        (.finished l slot k ∈ story p → filledInto j (story p) = [o]))) ∧
    (.dropped l slot k (some (.joined j)) ∈ story p → .closed l ∈ p.flatMap happenings) ∧
    ∀ q ∈ p, .spoilt l slot (.joined j) ∈ q.milestones → ∃ o rest panic r,
      q.jobs = .taskEnded l slot (.joined j) o :: rest ∧ q.mode = .unwinding panic r ∧
        .ended l slot (.joined j) o ∈ story p := by
  obtain ⟨x, _, htaken, _⟩ := (hm.delivery hs).slot
  have cancels : ∀ o ∈ filledInto j (story p), .dropped l slot k (some (.joined j)) ∈ story p ∨
      .spoilt l slot (.joined j) ∈ story p → o = .error .cancelled := by
    intro o ho hcancels
    have hlast := (hm.delivery hs).getLast?_of_filled ho
    rcases hcancels with hd | hspoilt
    · rw [(hm.delivery hs).cancelled _ hd (.inr ⟨k, rfl⟩)] at hlast
      exact (Option.some.inj hlast).symm
    · rw [(hm.delivery hs).cancelled _ hspoilt (.inl rfl)] at hlast
      exact (Option.some.inj hlast).symm
  refine ⟨fun o ho => htaken ▸ List.mem_append_left _ ho, fun o ho => ⟨?_, cancels o ho⟩, ?_,
    fun hd => (hm.of_dropped hd).1, ?_⟩
  · rintro rfl
    rcases hm.outcome_of_filled hs ho with ⟨hended, _⟩ | ⟨_, hspoilt | hd⟩
    · rcases outcome_of_ended hended with ⟨_, h⟩ | ⟨_, h⟩ <;> cases h
    · exact .inr hspoilt
    · exact .inl hd
  · intro o he
    refine ⟨outcome_of_ended he, hm.not_dropped_of_ended hs he _, fun hspoilt => ?_⟩
    have own : ∀ o' ∈ filledInto j (story p), o' = o :=
      fun o' ho' => hm.filled_of_ended hs ho' he hspoilt
    refine ⟨own, fun hfinished => ?_⟩
    obtain ⟨o', ho', _⟩ :=
      (hm.delivery hs).filledInto_eq_singleton (hm.filled_of_finished hs hfinished)
    rw [ho', own o' (by simp [ho'])]
  · intro q hq hspoilt
    obtain ⟨o, rest, panic, r, hj, hmode⟩ := unwinding_of_spoilt hspoilt
    refine ⟨o, rest, panic, r, hj, hmode, ?_⟩
    obtain ⟨p₁, p₂, rfl, before, _⟩ := hm.of_mem hq
    have hholds : (Job.taskEnded l slot (.joined j) o : Job G).holds l slot = true := by
      simp [Job.holds]
    have herrand := mem_errands_of_holds (mem_allJobs_of_top hj) hholds
    exact mem_story_append (before.chronicle.ended_of_taskEnded herrand) _

open Script

/-- A task whose future is ready at its first poll and panics when it is dropped, and a main future
that waits for it. -/
def bombedTask : List (String × Statement) :=
  onLoop [[line "spawn" "t" (.spawn "t" (.mk "t" [line "return" "t" (.finish (.num 1))] none
      (some "boom"))),
    line "await" "t" (.await .keep .null (.join "t"))]]

/-- The task has come to an end, and the main future has heard of it. -/
theorem walked_bombedTask : Walked Script.code (follow bombedTask 60).1 (follow bombedTask 60).2 ∧
    .spawned ⟨0⟩ 0 ⟨1⟩ (.joined ⟨0⟩) ∈ story (follow bombedTask 60).1 ∧
    .closed ⟨0⟩ ∉ (follow bombedTask 60).1.flatMap happenings ∧
    takenFrom ⟨0⟩ (story (follow bombedTask 60).1) = [.error .cancelled] := by
  have hm := walked_follow bombedTask 60
  refine ⟨hm, spawned_of_awaitable (by decide +kernel), fun hclosed => ?_, ?_⟩
  · have hopen : (follow bombedTask 60).2.world.isClosed ⟨0⟩ = false := by decide +kernel
    rw [hm.reached.isClosed_of_closed hclosed] at hopen
    cases hopen
  · have htaken : (takenFrom ⟨0⟩ (story (follow bombedTask 60).1)).map Joined.isCancelled =
        [true] := by decide +kernel
    obtain ⟨o, ho, hcancelled⟩ := List.map_eq_singleton_iff.mp htaken
    rw [ho, Joined.eq_cancelled hcancelled]

/-- The panic of the future took its outcome away. -/
theorem cancelled_iff_of_script :
    .spawned ⟨0⟩ 0 ⟨1⟩ (.joined ⟨0⟩) ∈ story (follow bombedTask 60).1 ∧
      .spoilt ⟨0⟩ 0 (.joined ⟨0⟩) ∈ story (follow bombedTask 60).1 := by
  obtain ⟨hm, hs, hopen, htaken⟩ := walked_bombedTask
  obtain ⟨hfilled, hiff, _, hclosed, _⟩ := cancelled_iff hm hs
  have hcancelled := (hiff _ (hfilled _ (htaken ▸ List.mem_cons_self))).mp rfl
  exact ⟨hs, hcancelled.resolve_left fun hd => hopen (hclosed hd)⟩

/-- A join handle hears of a cancellation although the future was ready with a result, and nobody
dropped the loop. -/
theorem cancelled_on_open_loop :
    .spawned ⟨0⟩ 0 ⟨1⟩ (.joined ⟨0⟩) ∈ story (follow bombedTask 60).1 ∧
      (∃ r, .ended ⟨0⟩ 0 (.joined ⟨0⟩) (.ok r) ∈ story (follow bombedTask 60).1) ∧
      .closed ⟨0⟩ ∉ (follow bombedTask 60).1.flatMap happenings ∧
      takenFrom ⟨0⟩ (story (follow bombedTask 60).1) = [.error .cancelled] := by
  obtain ⟨hm, hs, hopen, htaken⟩ := walked_bombedTask
  refine ⟨hs, ?_, hopen, htaken⟩
  have hverdicts : (verdictsOf ⟨0⟩ (story (follow bombedTask 60).1)).any (·.isOk) = true := by
    decide +kernel
  obtain ⟨o, ho, hok⟩ := List.any_eq_true.mp hverdicts
  cases o with
  | error => cases hok
  | ok r =>
    obtain ⟨l, slot, he⟩ := ended_of_verdict ho
    have hrooted : Milestone.Rooted _ _ := hm.chronicle.roots.told _ he
    obtain ⟨k, hs'⟩ := hrooted
    obtain ⟨rfl, rfl, _⟩ := hm.census.joined_unique hs' hs
    exact ⟨r, he⟩

end Machine

end RunLoop
