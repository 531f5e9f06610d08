import RunLoop.Proofs.Delivery
import RunLoop.Proofs.Play

/-!
# Join handles

A join handle gives the outcome of its own task, once. The slot behind it is filled in the very turn
in which the task leaves the table, before it leaves: the outcome stands on the stack right above
what removes the task. If the task is dropped with its loop, the slot is told that the task was
cancelled.

* `Machine.Walked.sealed`: an outcome that is under way is handed over before its task is gone.
* `Machine.join_delivers_once` states what a join slot is told, when it is told, and what its reader
  gets.
-/

namespace RunLoop

variable {G : Guest} {l : LoopId} {slot : Nat} {k : WakerId} {j : JoinId}

/-- A job that removes the task in a slot, which came to its end. -/
def Job.removes (l : LoopId) (slot : Nat) : Job G → Bool
  | taskFinished l' slot' | taskPanicked l' slot' _ => l' = l && slot' = slot
  | _ => false

theorem Job.holds_of_removes {job : Job G} (h : job.removes l slot = true) :
    job.holds l slot = true := by
  cases job <;> first | exact h | cases h

/-- The join slot that a request reads, for whom, and the answer to what is found there. -/
def Request.read? : Request G → Option (JoinId × WakerId × (Option Joined → Answer G))
  | pollJoin j k => some (j, k, .joined)
  | poll (.forwarding j) k => some (j, k, fun
      | some o => .polled (.ready o.flatten .spent)
      | none => .polled (.pending (.forwarding j)))
  | _ => none

/-! ## Outcomes that are under way -/

/-- The outcome for join slot `j` stands on a stack above `rest`: its task was dropped, or is still
in its slot, to be removed below. -/
def Sealed (σ : List Milestone) (w : World G) (j : JoinId) (rest : List (Job G)) : Prop :=
  (∃ l slot k, .dropped l slot k (some (.joined j)) ∈ σ) ∨
    ∃ l slot k, .spawned l slot k (.joined j) ∈ σ ∧ w.task? l slot = some ⟨k, none⟩ ∧
      ∃ job ∈ rest, job.removes l slot = true

/-- A suffix of two lists ends in the second one, or begins in the first one. -/
theorem suffix_append_cases {α : Type} {a : α} {as bs cs : List α} (h : a :: as <:+ bs ++ cs) :
    a :: as <:+ cs ∨ ∃ r, a :: r <:+ bs ∧ as = r ++ cs := by
  rcases List.suffix_or_suffix_of_suffix h (List.suffix_append bs cs) with h' | ⟨s, hs⟩
  · exact .inl h'
  · cases s with
    | nil => exact .inl ⟨[], hs.symm⟩
    | cons b r =>
      rw [List.cons_append] at hs
      obtain ⟨rfl, rfl⟩ := List.cons.inj hs
      refine .inr ⟨r, ?_, rfl⟩
      rw [← List.cons_append] at h
      exact List.suffix_append_self_iff.mp h

section

variable {w w' w'' : World G} {others before after D rest : List (Job G)} {σ σ₀ : List Milestone}

theorem Sealed.mono (h : Sealed σ w j rest) (hw : w.Keeps w') {rest' : List (Job G)}
    (hrest : rest ⊆ rest') : Sealed σ w' j rest' := by
  refine h.imp_right ?_
  rintro ⟨l, slot, k, hs, ht, job, hm, hj⟩
  rw [← World.task?_of_keeps hw] at ht
  exact ⟨l, slot, k, hs, ht, job, hrest hm, hj⟩

/-- What stands above jobs that are not touched by a step remains sealed. -/
theorem Sealed.beside (h : Sealed σ₀ w j rest) (passage : Passage w others before σ w' after)
    (hv : w.TablesValid) (hw : w'.Keeps w'')
    (hrest : ∀ i ∈ rest, i.isErrand = true → i ∈ others) : Sealed (σ₀ ++ σ) w'' j rest := by
  rcases h with ⟨l, slot, k, hd⟩ | ⟨l, slot, k, hs, ht, job, hm, hj⟩
  · exact .inl ⟨l, slot, k, List.mem_append_left _ hd⟩
  · have htask := Job.isTask_of_holds (Job.holds_of_removes hj)
    have hother := hrest job hm (Job.isErrand_of_isTask htask)
    obtain ⟨ht', _⟩ := passage.beside hv hother htask ht
    rw [← World.task?_of_keeps hw] at ht'
    exact .inr ⟨l, slot, k, List.mem_append_left _ hs, ht', job, hm, hj⟩

/-- An outcome that comes onto a stack is sealed, unless it stood there before. -/
theorem Passage.sealed (passage : Passage w others before σ w' after)
    (census : Census σ₀ w (before ++ others)) (roots : Roots σ₀ (before ++ others)) {o : Joined}
    (hs : .fill j o :: rest <:+ after) :
    Sealed (σ₀ ++ σ) w' j rest ∨ before = [.fill j o] := by
  have fills : ∀ {kind : Kind} {o' : Joined} {tail : List (Job G)},
      .fill j o :: rest <:+ kind.slots.map (.fill · o') ++ tail → (∀ o, .fill j o ∉ tail) →
      kind = .joined j ∧ rest = tail := by
    intro kind o' tail hs htail
    rcases suffix_append_cases hs with hbelow | ⟨r, habove, rfl⟩
    · exact absurd (hbelow.subset List.mem_cons_self) (htail o)
    · cases kind with
      | detached => exact absurd (List.suffix_nil.mp habove) (List.cons_ne_nil _ _)
      | joined j' =>
        rcases List.suffix_cons_iff.mp habove with he | hnil
        · obtain ⟨hfill, rfl⟩ := List.cons.inj he
          cases hfill
          exact ⟨rfl, rfl⟩
        · exact absurd (List.suffix_nil.mp hnil) (List.cons_ne_nil _ _)
  cases passage with
  | @handing l slot kind o' =>
    obtain ⟨rfl, rfl⟩ := fills hs (by simp)
    obtain ⟨k, ht, hspawned⟩ := census.spawned_of_ended List.mem_cons_self
    refine .inl (.inr ⟨l, slot, k, List.mem_append_left _ hspawned, ht, _, List.mem_cons_self, ?_⟩)
    simp [Job.removes]
  | @spoiling l slot kind o' =>
    obtain ⟨rfl, rfl⟩ := fills hs (by simp)
    obtain ⟨k, ht, hspawned⟩ := census.spawned_of_ended List.mem_cons_self
    refine .inl (.inr ⟨l, slot, k, List.mem_append_left _ hspawned, ht, _, List.mem_cons_self, ?_⟩)
    simp [Job.removes]
  | @abandoning work =>
    rw [← List.append_nil (List.map _ _)] at hs
    obtain ⟨hkind, rfl⟩ := fills hs (by simp)
    have hroot := roots.borne (.abandon work) List.mem_cons_self
    obtain ⟨l, slot, k, hd⟩ := hroot
    rw [hkind] at hd
    exact .inl (.inl ⟨l, slot, k, List.mem_append_left _ hd⟩)
  | @again job =>
    have hm := List.mem_singleton.mp (hs.subset List.mem_cons_self)
    exact .inr (by rw [hm])
  | draining =>
    obtain ⟨work, _, he⟩ := List.mem_map.mp (hs.subset List.mem_cons_self)
    cases he
  | _ => exact absurd (hs.subset List.mem_cons_self) (by simp)

end

namespace Machine

variable {code : G.Code} {m m' : Machine G} {p : List (Machine G)} {a : Answer G}
  {rest : List (Job G)}

/-- Whatever outcome is on a stack, its task was dropped, or is to be removed below it. -/
def AllSealed (σ : List Milestone) (m : Machine G) : Prop :=
  ∀ q ∈ m.strands, ∀ j o rest, .fill j o :: rest <:+ q.jobs → Sealed σ m.world j rest

/-- Another thread takes over: its stack was there before, or is new. -/
theorem AllSealed.switch {σ : List Milestone} (h : AllSealed σ m) (switched : m.Switched m') :
    AllSealed σ m' := by
  intro q hq j o rest hs
  obtain ⟨hobjects, fresh, hnew, hperm⟩ := switched
  rcases List.mem_append.mp (hperm.mem_iff.mp hq) with hq | hq
  · obtain ⟨t, run, rfl⟩ := hnew q hq
    exact absurd (hs.subset List.mem_cons_self) (by simp)
  · exact (h q (mem_strands_of_mem_parked hq) j o rest hs).mono hobjects.keeps fun _ hi => hi

theorem Walked.allSealed_step (hm : Walked code p m) (hi : m.isIdle = false)
    (live : m.isAborted = false) (h : AllSealed (story p) m) :
    AllSealed (story (p ++ [m])) (m.step code) := by
  intro q hq j o rest hs
  obtain ⟨job, rest₀, jobs, advance⟩ := hm.advance hi live
  obtain ⟨w, passage, hw⟩ := advance.passage
  have hvalid := hm.census.valid
  have hstory : story (p ++ [m]) = story p ++ m.milestones := by
    simp [story, List.flatMap_append]
  rw [hstory]
  rcases advance.strands q hq with hq | hq | hq
  · -- the stack of another thread stays as it is
    refine (h q (List.mem_cons_of_mem _ hq) j o rest hs).beside passage hvalid hw ?_
    intro i hi he
    have hmem : i ∈ q.jobs := hs.subset (List.mem_cons_of_mem _ hi)
    refine List.mem_filter.mpr ⟨List.mem_append_right _ ?_, he⟩
    exact List.mem_flatMap.mpr ⟨q, hq, hmem⟩
  · have running : ∀ {j o rest}, .fill j o :: rest <:+ job :: rest₀ →
        Sealed (story p) m.world j rest := by
      intro j o rest hs
      rw [← advance.top] at hs
      exact h _ List.mem_cons_self j o rest hs
    have below : ∀ i ∈ rest₀, i.isErrand = true →
        i ∈ (rest₀ ++ m.threads.parked.flatMap (·.jobs)).filter Job.isErrand :=
      fun i hi he => List.mem_filter.mpr ⟨List.mem_append_left _ hi, he⟩
    rw [hq] at hs
    rcases suffix_append_cases hs with hs | ⟨r, hr, rfl⟩
    · -- the outcome stood below the job on top
      refine (running (hs.trans (List.suffix_cons _ _))).beside passage hvalid hw fun i hi => ?_
      exact below i (hs.subset (List.mem_cons_of_mem _ hi))
    · -- the outcome is put down in this step
      have hfill := hr.filter Job.isErrand
      have hcensus := hm.census
      have hroots := hm.chronicle.roots
      rw [advance.errands_eq] at hcensus hroots
      rcases passage.sealed hcensus hroots hfill with hsealed | hbefore
      · refine hsealed.mono hw fun i hi => ?_
        exact List.mem_append_left _ (List.mem_filter.mp hi).1
      · have hjob : job = .fill j o := by
          have hmem : .fill j o ∈ [job].filter Job.isErrand := hbefore ▸ List.mem_cons_self
          exact (List.mem_singleton.mp (List.mem_filter.mp hmem).1).symm
        subst hjob
        refine ((running ⟨[], rfl⟩).beside passage hvalid hw below).mono (.refl _) fun i hi => ?_
        exact List.mem_append_right _ hi
  · have hno := hq _ (hs.subset List.mem_cons_self)
    cases hno

theorem Walked.sealed (hm : Walked code p m) : AllSealed (story p) m := by
  obtain ⟨shared, run, walk⟩ := hm
  induction walk with
  | here =>
    intro q hq j o rest hs
    obtain rfl : q = ⟨⟨⟨0⟩, none⟩, .going .nothing, [.resume run]⟩ := List.mem_singleton.mp hq
    exact absurd (hs.subset List.mem_cons_self) (by simp)
  | act walk hi live ih => exact Walked.allSealed_step ⟨shared, run, walk⟩ hi live ih
  | turnTo _ h ih => exact ih.switch (switched_turnTo h)
  | launch _ _ ih => exact ih.switch (switched_launch _)

theorem Walked.delivery (hm : Walked code p m) (hs : .spawned l slot k (.joined j) ∈ story p) :
    Delivery (story p) m.world m.errands l slot j :=
  hm.chronicle.delivery hs

/-- Until a join slot is filled, its task is in its slot, or its outcome is under way. -/
theorem Walked.bearer (hm : Walked code p m) (hs : .spawned l slot k (.joined j) ∈ story p)
    (hf : filledInto j (story p) = []) :
    (∃ work, m.world.task? l slot = some ⟨k, work⟩) ∨ (∃ o, .fill j o ∈ m.allJobs) ∨
      ∃ work, .abandon work ∈ m.allJobs ∧ work.kind = .joined j := by
  have census := hm.census
  have hbearer := (hm.delivery hs).bearer
  rw [hf, List.map_nil, List.append_nil] at hbearer
  have hmem := hbearer.mem_iff.mpr (List.mem_singleton.mpr rfl)
  -- a task in its slot that bears for `j` is the one that was spawned with it
  have seated : ∀ {l' slot' k' work}, .spawned l' slot' k' (.joined j) ∈ story p →
      m.world.task? l' slot' = some ⟨k', work⟩ → ∃ work, m.world.task? l slot = some ⟨k, work⟩ := by
    intro l' slot' k' work hs' ht
    obtain ⟨rfl, rfl, rfl⟩ := census.joined_unique hs' hs
    exact ⟨work, ht⟩
  rcases List.mem_append.mp hmem with hmem | hmem
  · obtain ⟨t, ht, htoken⟩ := Option.bind_eq_some_iff.mp (Option.mem_toList.mp hmem)
    unfold Task.token? at htoken
    split at htoken
    · rename_i hk
      obtain ⟨k', work⟩ := t
      obtain ⟨work, rfl, hkind⟩ := Option.map_eq_some_iff.mp hk
      exact .inl (seated (hkind ▸ census.known _ _ _ _ ht) ht)
    · cases htoken
  · obtain ⟨job, hjob, htoken⟩ := List.mem_filterMap.mp hmem
    have hall := (List.mem_filter.mp hjob).1
    cases job with
    | taskPolled l' slot' kind =>
      obtain ⟨k', ht, hspawned⟩ := census.spawned_of_polled hjob
      by_cases hk : kind = .joined j
      · exact .inl (seated (hk ▸ hspawned) ht)
      · simp [Job.token?, hk] at htoken
    | taskEnded l' slot' kind o =>
      obtain ⟨k', ht, hspawned⟩ := census.spawned_of_ended hjob
      by_cases hk : kind = .joined j
      · exact .inl (seated (hk ▸ hspawned) ht)
      · simp [Job.token?, hk] at htoken
    | fill j' o =>
      by_cases hj : j' = j
      · exact .inr (.inl ⟨o, hj ▸ hall⟩)
      · simp [Job.token?, hj] at htoken
    | abandon work =>
      by_cases hk : work.kind = .joined j
      · exact .inr (.inr ⟨work, hall, hk⟩)
      · simp [Job.token?, hk] at htoken
    | _ => cases htoken

/-- The join slot of a task is not filled before the task is about to be removed. -/
theorem Walked.removed_of_filled (hm : Walked code p m)
    (hs : .spawned l slot k (.joined j) ∈ story p) (hf : filledInto j (story p) ≠ [])
    {work : Option (Work G.Coroutine)} (ht : m.world.task? l slot = some ⟨k, work⟩) :
    work = none ∧ ∃ job ∈ m.allJobs, job.removes l slot = true := by
  have census := hm.census
  have hlen := (hm.delivery hs).length_add
  have hpos := List.length_pos_iff.mpr hf
  have htokens : tokens m.world m.errands l slot j = [] :=
    List.eq_nil_of_length_eq_zero (by omega)
  obtain ⟨htask, hjobs⟩ := List.append_eq_nil_iff.mp htokens
  have mine : ∀ {kind}, .spawned l slot k kind ∈ story p → kind = .joined j :=
    fun h => (census.spawned_unique h hs).2.2
  cases work with
  | some work =>
    have hkind := mine (census.known _ _ _ _ ht)
    simp [ht, Task.token?, hkind] at htask
  | none =>
    refine ⟨rfl, ?_⟩
    obtain ⟨job, hmem, hj⟩ := (hm.work_eq_none_iff ht).mp rfl
    have herrand := mem_errands_of_holds hmem hj
    have hnone := List.filterMap_eq_nil_iff.mp hjobs job herrand
    obtain ⟨k', ht', _, hkind⟩ := census.held job herrand l slot hj
    cases ht.symm.trans ht'
    cases job with
    | taskPolled l' slot' kind | taskEnded l' slot' kind o =>
      simp [Job.token?, mine (hkind kind rfl)] at hnone
    | taskFinished | taskPanicked => exact ⟨_, hmem, hj⟩
    | _ => cases hj

/-- A task whose outcome was handed over left the table, or is about to be removed from it. -/
theorem Walked.left_of_filled (hm : Walked code p m)
    (hs : .spawned l slot k (.joined j) ∈ story p) (hf : filledInto j (story p) ≠ []) :
    .finished l slot k ∈ story p ∨ .dropped l slot k (some (.joined j)) ∈ story p ∨
      m.world.task? l slot = some ⟨k, none⟩ ∧ ∃ job ∈ m.allJobs, job.removes l slot = true := by
  rcases hm.census.left_or_seated hs with hleft | ⟨work, ht⟩
  · rcases mem_leftFrom.mp hleft with hfinished | ⟨kind, hd⟩
    · exact .inl hfinished
    · obtain ⟨_, kind', rfl, hs'⟩ := hm.of_dropped hd
      obtain ⟨_, _, rfl⟩ := hm.census.spawned_unique hs' hs
      exact .inr (.inl hd)
  · obtain ⟨rfl, hjob⟩ := hm.removed_of_filled hs hf ht
    exact .inr (.inr ⟨ht, hjob⟩)

/-- When a task has come to its end and left its slot, its join slot was filled. -/
theorem Walked.filled_of_finished (hm : Walked code p m)
    (hs : .spawned l slot k (.joined j) ∈ story p) (hf : .finished l slot k ∈ story p) :
    filledInto j (story p) ≠ [] := by
  intro hnone
  have census := hm.census
  have gone := census.task?_ne_of_left (mem_leftFrom.mpr (.inl hf))
  have not_dropped : ∀ l' slot' k', .dropped l' slot' k' (some (.joined j)) ∉ story p := by
    intro l' slot' k' hd
    have hs' : .spawned l' slot' k' (.joined j) ∈ story p := hm.chronicle.roots.told _ hd
    obtain ⟨rfl, rfl, rfl⟩ := census.joined_unique hs' hs
    exact census.not_dropped_of_finished hf _ hd
  rcases hm.bearer hs hnone with ⟨work, ht⟩ | ⟨o, hfill⟩ | ⟨work, habandon, hkind⟩
  · exact gone work ht
  · rw [allJobs_eq, List.mem_flatMap] at hfill
    obtain ⟨q, hq, hfill⟩ := hfill
    obtain ⟨above, rest, hjobs⟩ := List.append_of_mem hfill
    rcases hm.sealed q hq j o rest ⟨above, hjobs.symm⟩ with ⟨l', slot', k', hd⟩ |
        ⟨l', slot', k', hs', ht, _⟩
    · exact not_dropped l' slot' k' hd
    · obtain ⟨rfl, rfl, rfl⟩ := census.joined_unique hs' hs
      exact gone none ht
  · have hroot := hm.chronicle.roots.borne (.abandon work) (List.mem_filter.mpr ⟨habandon, rfl⟩)
    obtain ⟨l', slot', k', hd⟩ := hroot
    exact not_dropped l' slot' k' (hkind ▸ hd)

/-- What a join slot is filled with is what its task came to: its result or its panic, unless it was
cancelled. -/
theorem Walked.outcome_of_filled (hm : Walked code p m)
    (hs : .spawned l slot k (.joined j) ∈ story p) {o : Joined}
    (ho : o ∈ filledInto j (story p)) :
    (.ended l slot (.joined j) o ∈ story p ∧ .spoilt l slot (.joined j) ∉ story p) ∨
      o = .error .cancelled ∧ (.spoilt l slot (.joined j) ∈ story p ∨
        .dropped l slot k (some (.joined j)) ∈ story p) := by
  have delivery := hm.delivery hs
  have census := hm.census
  have roots := hm.chronicle.roots
  have hlast := delivery.getLast?_of_filled ho
  by_cases hspoilt : .spoilt l slot (.joined j) ∈ story p
  · have hcancelled := delivery.cancelled _ hspoilt (.inl rfl)
    rw [hcancelled] at hlast
    exact .inr ⟨(Option.some.inj hlast).symm, .inl hspoilt⟩
  · obtain ⟨e, he, hv⟩ := List.mem_filterMap.mp (List.mem_of_getLast? hlast)
    have hroot := roots.told e he
    cases e with
    | ended l' slot' kind o' =>
      by_cases hk : kind = .joined j
      · subst hk
        obtain ⟨k', hs'⟩ := hroot
        obtain ⟨rfl, rfl, rfl⟩ := census.joined_unique hs' hs
        have ho' : o' = o := by simpa [Milestone.verdict?] using hv
        exact .inl ⟨ho' ▸ he, hspoilt⟩
      · simp [Milestone.verdict?, hk] at hv
    | spoilt l' slot' kind =>
      by_cases hk : kind = .joined j
      · subst hk
        obtain ⟨k', hs'⟩ := hroot
        obtain ⟨rfl, rfl, rfl⟩ := census.joined_unique hs' hs
        exact absurd he hspoilt
      · simp [Milestone.verdict?, hk] at hv
    | dropped l' slot' k' kind =>
      by_cases hk : kind = some (.joined j)
      · subst hk
        have hs' : .spawned l' slot' k' (.joined j) ∈ story p := hroot
        obtain ⟨rfl, rfl, rfl⟩ := census.joined_unique hs' hs
        have ho' : .error .cancelled = o := by simpa [Milestone.verdict?] using hv
        exact .inr ⟨ho'.symm, .inr he⟩
      · simp [Milestone.verdict?, hk] at hv
    | _ => cases hv

/-- The result or the panic of a task is what its join slot is filled with, if its future is dropped
without a panic. -/
theorem Walked.filled_of_ended (hm : Walked code p m)
    (hs : .spawned l slot k (.joined j) ∈ story p) {o o' : Joined}
    (ho : o ∈ filledInto j (story p)) (he : .ended l slot (.joined j) o' ∈ story p)
    (hspoilt : .spoilt l slot (.joined j) ∉ story p) : o = o' := by
  have delivery := hm.delivery hs
  have hlast := delivery.getLast?_of_filled ho
  have hv : o ∈ verdictsOf j (story p) := List.mem_of_getLast? hlast
  have hv' : o' ∈ verdictsOf j (story p) :=
    List.mem_filterMap.mpr ⟨_, he, by simp [Milestone.verdict?]⟩
  have hone := delivery.sole hspoilt
  obtain ⟨a, hverdicts⟩ := List.length_eq_one_iff.mp
    (Nat.le_antisymm hone (List.length_pos_of_mem hv))
  rw [hverdicts, List.mem_singleton] at hv hv'
  exact hv.trans hv'.symm

/-! ## Steps -/

/-- A future that is ready is dropped, and then its task ends with the result. -/
theorem step_taskPolled_ready (code : G.Code) {kind : Kind} {r : Result} {f : Future G.Coroutine}
    (hj : m.jobs = .taskPolled l slot kind :: rest) (hmode : m.mode = .going a)
    (hr : a.toPoll = .ready r f) : m.milestones = [.ended l slot kind (.ok r)] ∧
      (m.step code).jobs = .drop f :: .taskEnded l slot kind (.ok r) :: rest := by
  have hstep : m.step code = { m with jobs := rest }.taskPolled l slot kind a.toPoll :=
    step_of_going hj hmode rfl
  rw [hr] at hstep
  rw [hstep]
  refine ⟨?_, rfl⟩
  simp only [milestones, hj, hmode, World.told, hr]

/-- A task that panics ends with the message of its panic. -/
theorem step_taskPolled_panicked (code : G.Code) {kind : Kind} {panic : Payload}
    {r : Option (Future G.Coroutine)} (hj : m.jobs = .taskPolled l slot kind :: rest)
    (hmode : m.mode = .unwinding panic r) :
    m.milestones = [.ended l slot kind (.error (.panicked panic.message))] ∧
      (m.step code).jobs = r.toList.map .drop ++
        .taskEnded l slot kind (.error (.panicked panic.message)) :: rest := by
  rw [step_of_unwinding hj hmode]
  constructor
  · simp only [milestones, hj, hmode, World.toldOfPanic, Payload.toError]
  · simp [unwind, push, insert, go, Payload.toError]

/-- The outcome of a task is handed over right before the task is removed. -/
theorem step_taskEnded (code : G.Code) {o : Joined}
    (hj : m.jobs = .taskEnded l slot (.joined j) o :: rest) (hmode : m.mode = .going a) :
    (m.step code).jobs = .fill j o :: .taskFinished l slot :: rest := by
  rw [step_of_going hj hmode rfl]
  rfl

/-- A join slot that is filled takes the outcome, and who was waiting is woken. -/
theorem step_fill (code : G.Code) {o : Joined} {x : JoinSlot}
    (hj : m.jobs = .fill j o :: rest) (hmode : m.mode = .going a)
    (hx : m.world.join? j = some x) : m.milestones = [.filled j o] ∧
      (m.step code).world.join? j = some ⟨some o, none⟩ ∧
      (m.step code).jobs = x.waiter.toList.map .wake ++ rest := by
  have hfill : m.world.fill j o = (m.world.setJoin j ⟨some o, none⟩, x.waiter) := by
    simp [World.fill, hx, JoinSlot.fill]
  have hstep : m.step code = { m with jobs := rest }.fill j o := step_of_going hj hmode rfl
  simp only [fill, hfill] at hstep
  rw [hstep]
  refine ⟨?_, ?_, rfl⟩
  · simp [milestones, hj, hmode, World.told, hx]
  · have hset : (m.world.setJoin j ⟨some o, none⟩).join? j =
        if j = j then some ⟨some o, none⟩ else m.world.join? j := World.join?_setJoin hx
    rwa [if_pos rfl] at hset

/-- Who reads a join slot gets the outcome if there is one, and is woken later if there is none. -/
theorem step_read (code : G.Code) {q : Request G} {answer : Option Joined → Answer G}
    {x : JoinSlot} (hq : q.read? = some (j, k, answer)) (hj : m.jobs = .serve q :: rest)
    (hmode : m.mode = .going a) (hx : m.world.join? j = some x) :
    (m.step code).mode = .going (answer x.outcome) ∧ (m.step code).jobs = rest ∧
      m.milestones = match x.outcome with
        | some o => [.taken j o]
        | none => [.awaited j k] := by
  have hstep : m.step code = { m with jobs := rest }.serve code q := step_of_going hj hmode rfl
  have hread : m.world.toldOfRead j k = match x.outcome with
      | some o => [.taken j o]
      | none => [.awaited j k] := by
    obtain ⟨o, waiter⟩ := x
    cases o <;> simp [World.toldOfRead, hx]
  have hpoll : (m.world.pollJoin j k).2 = x.outcome := by
    obtain ⟨o, waiter⟩ := x
    cases o <;> simp [World.pollJoin, hx, JoinSlot.poll]
  rw [hstep, ← hread]
  cases q with
  | pollJoin j' k' =>
    cases hq
    refine ⟨?_, rfl, ?_⟩
    · simp [serve, go, hpoll]
    · simp [milestones, hj, hmode, World.told]
  | poll f k' =>
    cases f with
    | forwarding j' =>
      cases hq
      refine ⟨?_, ?_, ?_⟩
      · simp only [serve, poll, forward]
        generalize hp : m.world.pollJoin j k = polled at hpoll
        obtain ⟨w, o⟩ := polled
        obtain rfl : o = x.outcome := hpoll
        cases x.outcome <;> rfl
      · simp only [serve, poll, forward]
        split <;> rfl
      · simp [milestones, hj, hmode, World.told]
    | _ => cases hq
  | _ => cases hq

open Script

end Machine

end RunLoop
