import Mathlib.Data.List.Infix
import RunLoop.Proofs.Ledger

/-!
# Runs as walks

A run is looked at here together with the machines in which the running thread took its steps. All
that can be told of the run can be read off them: what happens, and in which order the jobs of a
stack are performed. A stack is worked on from the top, and what stands below stays as it is until
its turn comes, whatever the other threads do meanwhile.

* `Machine.Walk` is a run with the machines in which a step was taken.
* `Machine.History.walk`: every run is a walk.
* `Machine.Holds` says what the stack of a thread ends with; `Machine.Holds.step` that it keeps it.
* `Machine.Walk.works_down`: the jobs of a stack are performed one after the other.
* `Machine.Walk.holds_until`: what every step keeps until something happens holds until then.
-/

namespace RunLoop

variable {G : Guest}

/-- The stacks of which the jobs `above` are the top ones, one after the other, as long as `base`
is below. -/
def stations : List (Job G) → List (Job G) → List (List (Job G))
  | [], _ => []
  | job :: above, base => (job :: above ++ base) :: stations above base

@[simp] theorem stations_nil (base : List (Job G)) : stations [] base = [] :=
  rfl

theorem stations_append (above above' base : List (Job G)) :
    stations (above ++ above') base = stations above (above' ++ base) ++ stations above' base := by
  induction above with
  | nil => rfl
  | cons job above ih =>
    simp only [List.cons_append, stations, List.cons.injEq]
    exact ⟨by simp, ih⟩

namespace Machine

variable {code : G.Code} {m m' m₁ m₂ : Machine G} {p p' : List (Machine G)}
  {τ η : List (Happening G)}

/-- A run from `m`, with the machines in which the running thread took a step. -/
inductive Walk (code : G.Code) (m : Machine G) : List (Machine G) → Machine G → Prop where
  | here : Walk code m [] m
  /-- The running thread acts, if it need not wait. -/
  | act {p : List (Machine G)} {m₁ : Machine G} (walk : Walk code m p m₁) (h : m₁.isIdle = false)
      (live : m₁.isAborted = false) : Walk code m (p ++ [m₁]) (m₁.step code)
  /-- Another thread takes over. -/
  | turnTo {p : List (Machine G)} {m₁ : Machine G} (walk : Walk code m p m₁) {q : Parked G}
      {others : List (Parked G)} (h : m₁.parked.Perm (q :: others)) :
      Walk code m p (m₁.turnTo q others)
  /-- A thread is started. -/
  | launch {p : List (Machine G)} {m₁ : Machine G} (walk : Walk code m p m₁) {x : Waiting G}
      (h : x ∈ m₁.threads.waiting) : Walk code m p (m₁.launch x)

/-- A walk that began with one thread in an empty world comes to `m`. -/
def Walked (code : G.Code) (p : List (Machine G)) (m : Machine G) : Prop :=
  ∃ shared run, Walk code (start shared run) p m

/-! ## Walks and histories -/

theorem Walk.history (walk : Walk code m p m') : History code m (p.flatMap happenings) m' := by
  induction walk with
  | here => exact .here
  | act _ h _ ih =>
    rw [List.flatMap_append, List.flatMap_singleton]
    exact ih.next (.act h)
  | turnTo _ h ih => simpa using ih.next (.turnTo h)
  | launch _ h ih => simpa using ih.next (.launch h)

/-- Every run is a walk. -/
theorem History.walk (h : History code m τ m') :
    ∃ p, Walk code m p m' ∧ τ = p.flatMap happenings := by
  induction h with
  | here => exact ⟨[], .here, rfl⟩
  | @next τ η m₁ m₂ _ move ih =>
    obtain ⟨p, walk, rfl⟩ := ih
    cases move with
    | act hi =>
      cases live : m₁.isAborted with
      | true =>
        obtain ⟨hη, hs⟩ := step_of_isAborted code live
        rw [hη, hs, List.append_nil]
        exact ⟨p, walk, rfl⟩
      | false => exact ⟨p ++ [m₁], walk.act hi live, by simp⟩
    | turnTo hp => exact ⟨p, walk.turnTo hp, by simp⟩
    | launch hx => exact ⟨p, walk.launch hx, by simp⟩

theorem Reached.walked (h : Reached code τ m) : ∃ p, Walked code p m := by
  obtain ⟨shared, run, h⟩ := h
  obtain ⟨p, walk, _⟩ := h.walk
  exact ⟨p, shared, run, walk⟩

theorem Walked.reached (h : Walked code p m) : Reached code (p.flatMap happenings) m := by
  obtain ⟨shared, run, walk⟩ := h
  exact ⟨shared, run, walk.history⟩

theorem Walked.sound (h : Walked code p m) : m.Sound :=
  h.reached.sound

theorem Walk.trans (walk : Walk code m p m₁) (walk' : Walk code m₁ p' m') :
    Walk code m (p ++ p') m' := by
  induction walk' with
  | here => simpa using walk
  | act _ h live ih =>
    rw [← List.append_assoc]
    exact ih.act h live
  | turnTo _ h ih => exact ih.turnTo h
  | launch _ h ih => exact ih.launch h

theorem Walked.trans (h : Walked code p m) (walk : Walk code m p' m') :
    Walked code (p ++ p') m' := by
  obtain ⟨shared, run, before⟩ := h
  exact ⟨shared, run, before.trans walk⟩

theorem Walked.next (h : Walked code p m) (hi : m.isIdle = false) (live : m.isAborted = false) :
    Walked code (p ++ [m]) (m.step code) := by
  obtain ⟨shared, run, walk⟩ := h
  exact ⟨shared, run, walk.act hi live⟩

theorem Walked.next_of_going (h : Walked code p m) {a : Answer G} {job : Job G}
    {rest : List (Job G)} (hj : m.jobs = job :: rest) (hmode : m.mode = .going a)
    (hw : m.mustWait job = false) : Walked code (p ++ [m]) (m.step code) := by
  obtain ⟨hi, live⟩ := live_of_going hj hmode hw
  exact h.next hi live

theorem mem_happenings_append {e : Happening G} (h : e ∈ p.flatMap happenings)
    (p' : List (Machine G)) : e ∈ (p ++ p').flatMap happenings := by
  rw [List.flatMap_append]
  exact List.mem_append_left _ h

/-- What comes before and after a step of a walk. -/
theorem Walk.of_mem (walk : Walk code m p m') (h : m₁ ∈ p) :
    ∃ p₁ p₂, p = p₁ ++ m₁ :: p₂ ∧ Walk code m p₁ m₁ ∧ m₁.isIdle = false ∧ m₁.isAborted = false ∧
      Walk code (m₁.step code) p₂ m' := by
  induction walk with
  | here => cases h
  | @act p m₂ walk hi live ih =>
    rcases List.mem_append.mp h with h | h
    · obtain ⟨p₁, p₂, rfl, before, hi₁, live₁, after⟩ := ih h
      exact ⟨p₁, p₂ ++ [m₂], by simp, before, hi₁, live₁, after.act hi live⟩
    · obtain rfl := List.mem_singleton.mp h
      exact ⟨p, [], rfl, walk, hi, live, .here⟩
  | turnTo _ hp ih =>
    obtain ⟨p₁, p₂, he, before, hi, live, after⟩ := ih h
    exact ⟨p₁, p₂, he, before, hi, live, after.turnTo hp⟩
  | launch _ hx ih =>
    obtain ⟨p₁, p₂, he, before, hi, live, after⟩ := ih h
    exact ⟨p₁, p₂, he, before, hi, live, after.launch hx⟩

/-! ## The walk of the machine itself -/

/-- The first `n` steps of the machine, with the machines in which they were taken. -/
def trace (code : G.Code) (m : Machine G) : Nat → List (Machine G) × Machine G
  | 0 => ([], m)
  | n + 1 =>
      let r := m.trace code n
      (r.1 ++ if r.2.isIdle || r.2.isAborted then [] else [r.2], r.2.step code)

theorem trace_add (code : G.Code) (m : Machine G) (n k : Nat) :
    m.trace code (n + k) = ((m.trace code n).1 ++ ((m.trace code n).2.trace code k).1,
      ((m.trace code n).2.trace code k).2) := by
  induction k with
  | zero => simp [trace]
  | succ k ih =>
    rw [← Nat.add_assoc, trace, ih]
    simp [trace]

theorem walk_trace (code : G.Code) (m : Machine G) (n : Nat) :
    Walk code m (m.trace code n).1 (m.trace code n).2 := by
  induction n with
  | zero => exact .here
  | succ n ih =>
    unfold trace
    cases hi : (m.trace code n).2.isIdle with
    | false =>
      cases live : (m.trace code n).2.isAborted with
      | false => simpa [hi, live] using ih.act hi live
      | true => simpa [hi, live, (step_of_isAborted code live).2] using ih
    | true =>
      rcases step_of_isIdle code hi with hs | hs
      · simp only [hi, hs, Bool.true_or, if_true, List.append_nil]
        unfold switch
        split
        · rename_i q others _ hq
          exact ih.turnTo (pick?_perm hq)
        · rename_i x _ hx
          exact ih.launch (mem_of_earliest hx)
        · exact ih
      · simpa [hi, hs] using ih

/-! ## Stacks are worked on from the top -/

theorem mem_parked_of_mem_strands {q : Parked G} (h : q ∈ m.strands) (hj : q.jobs ≠ []) :
    q ∈ m.parked := by
  unfold parked
  rcases List.mem_cons.mp h with rfl | h
  · have hne : m.jobs.isEmpty = false := by simpa using hj
    simp [hne]
  · exact List.mem_append_left _ h

/-- Where another thread runs instead, every stack with something on it is left as it is. -/
theorem Switched.mem_strands (switched : m.Switched m') {q : Parked G} (h : q ∈ m.strands)
    (hj : q.jobs ≠ []) : q ∈ m'.strands := by
  obtain ⟨_, fresh, _, hperm⟩ := switched
  exact hperm.mem_iff.mpr (List.mem_append_right _ (mem_parked_of_mem_strands h hj))

theorem mem_allJobs_of_suffix {q : Parked G} (hq : q ∈ m.strands) {job : Job G}
    {rest : List (Job G)} (hs : job :: rest <:+ q.jobs) : job ∈ m.allJobs := by
  rw [allJobs_eq, List.mem_flatMap]
  exact ⟨q, hq, hs.subset List.mem_cons_self⟩

/-- The stack of thread `t` ends with `jobs`. -/
def Holds (m : Machine G) (t : ThreadId) (jobs : List (Job G)) : Prop :=
  ∃ q ∈ m.strands, q.thread.id = t ∧ jobs <:+ q.jobs

/-- What stands on a stack stays there where another thread runs instead. -/
theorem Switched.holds (switched : m.Switched m') {t : ThreadId} {job : Job G}
    {rest : List (Job G)} (h : m.Holds t (job :: rest)) : m'.Holds t (job :: rest) := by
  obtain ⟨q, hq, hid, hs⟩ := h
  refine ⟨q, switched.mem_strands hq ?_, hid, hs⟩
  intro hnil
  rw [hnil] at hs
  exact absurd (List.suffix_nil.mp hs) (List.cons_ne_nil _ _)

/-- A step of the running thread leaves what is below the top of its stack, and the other stacks. -/
theorem strand_of_step (code : G.Code) (h : m.isIdle = false) (live : m.isAborted = false) :
    ∃ job rest, m.jobs = job :: rest ∧
      (rest ≠ [] → (m.step code).Holds m.world.thread.id rest) ∧
      ∀ q ∈ m.threads.parked, q.jobs ≠ [] → q ∈ (m.step code).strands := by
  obtain ⟨m₁, ⟨job, rest, hj, jobs, hj', hp, _⟩, hid, hstep⟩ := acting_of_live code h live
  have hp' : m₁.threads.parked = m.threads.parked := hp
  have hs : rest <:+ m₁.jobs := ⟨jobs, hj'.symm⟩
  refine ⟨job, rest, hj, fun hne => ⟨⟨m₁.world.thread, m₁.mode, m₁.jobs⟩, ?_, hid, hs⟩,
    fun q hq hne => ?_⟩
  · rcases hstep with rfl | switched
    · exact List.mem_cons_self
    · refine switched.mem_strands List.mem_cons_self fun he => hne ?_
      exact List.suffix_nil.mp (he ▸ hs)
  · have hq₁ : q ∈ m₁.strands := List.mem_cons_of_mem _ (hp' ▸ hq)
    rcases hstep with rfl | switched
    · exact hq₁
    · exact switched.mem_strands hq₁ hne

/-- A stack with `job :: rest` at its bottom keeps it until `job` is at the top and performed; then
`rest` is left. -/
theorem Holds.step {t : ThreadId} {job : Job G} {rest : List (Job G)}
    (hold : m.Holds t (job :: rest)) (code : G.Code) (h : m.isIdle = false)
    (live : m.isAborted = false) :
    (m.step code).Holds t (job :: rest) ∨
      m.world.thread.id = t ∧ m.jobs = job :: rest ∧ (rest ≠ [] → (m.step code).Holds t rest) := by
  obtain ⟨q, hq, rfl, hs⟩ := hold
  obtain ⟨job', rest', hj, hbelow, hothers⟩ := strand_of_step code h live
  have hne : q.jobs ≠ [] := by
    intro he
    rw [he] at hs
    exact absurd (List.suffix_nil.mp hs) (List.cons_ne_nil _ _)
  rcases List.mem_cons.mp hq with rfl | hq
  · have hs' : job :: rest <:+ job' :: rest' := hj ▸ hs
    rcases List.suffix_cons_iff.mp hs' with he | hs'
    · cases he
      exact .inr ⟨rfl, hj, hbelow⟩
    · have hne' : rest' ≠ [] := by
        rintro rfl
        exact absurd (List.suffix_nil.mp hs') (List.cons_ne_nil _ _)
      obtain ⟨q', hq', hid, hs''⟩ := hbelow hne'
      exact .inl ⟨q', hq', hid, hs'.trans hs''⟩
  · exact .inl ⟨q, hothers q hq hne, rfl, hs⟩

/-- **A stack is worked on from the top.** Whatever is put on top of it and whatever other threads
do meanwhile, the jobs `above` are performed in order, each with the same stack below it; those that
were not performed yet still stand there. -/
theorem Walk.works_down (walk : Walk code m p m') {q : Parked G} (hq : q ∈ m.strands)
    {above base : List (Job G)} (hs : above ++ base <:+ q.jobs) :
    ∃ done rest, above = done ++ rest ∧
      (stations done (rest ++ base)).Sublist (p.map (·.jobs)) ∧
      (rest = [] ∨ ∃ q' ∈ m'.strands, rest ++ base <:+ q'.jobs) := by
  suffices ∃ done rest, above = done ++ rest ∧
      (stations done (rest ++ base)).Sublist (p.map (·.jobs)) ∧
      (rest = [] ∨ m'.Holds q.thread.id (rest ++ base)) by
    obtain ⟨done, rest, he, hsub, hrest⟩ := this
    exact ⟨done, rest, he, hsub, hrest.imp_right fun ⟨q', hq', _, hs'⟩ => ⟨q', hq', hs'⟩⟩
  have another : ∀ {m₁ m₂ : Machine G} {rest : List (Job G)}, m₁.Switched m₂ →
      (rest = [] ∨ m₁.Holds q.thread.id (rest ++ base)) →
      rest = [] ∨ m₂.Holds q.thread.id (rest ++ base) := by
    intro m₁ m₂ rest switched hrest
    cases rest with
    | nil => exact .inl rfl
    | cons job rest =>
      exact .inr (switched.holds (hrest.resolve_left (List.cons_ne_nil _ _)))
  induction walk with
  | here => exact ⟨[], above, rfl, by simp, .inr ⟨q, hq, rfl, hs⟩⟩
  | @act p m₁ _ h live ih =>
    obtain ⟨done, rest, rfl, hsub, hrest⟩ := ih
    cases rest with
    | nil =>
      refine ⟨done, [], rfl, ?_, .inl rfl⟩
      rw [List.map_append]
      exact hsub.trans (List.sublist_append_left _ _)
    | cons job rest =>
      have hold := hrest.resolve_left (List.cons_ne_nil _ _)
      rcases hold.step code h live with hkept | ⟨_, hj, hbelow⟩
      · refine ⟨done, job :: rest, rfl, ?_, .inr hkept⟩
        rw [List.map_append]
        exact hsub.trans (List.sublist_append_left _ _)
      · refine ⟨done ++ [job], rest, by simp, ?_, ?_⟩
        · rw [stations_append, List.map_append]
          exact hsub.append (by simp [stations, hj])
        · by_cases hne : rest = []
          · exact .inl hne
          · exact .inr (hbelow (by simp [hne]))
  | turnTo _ h ih =>
    obtain ⟨done, rest, he, hsub, hrest⟩ := ih
    exact ⟨done, rest, he, hsub, another (switched_turnTo h) hrest⟩
  | launch _ h ih =>
    obtain ⟨done, rest, he, hsub, hrest⟩ := ih
    exact ⟨done, rest, he, hsub, another (switched_launch _) hrest⟩

/-! ## Until something happens -/

/-- What holds at first, and is kept by every step before which `Done` does not hold, holds at last,
or `Done` holds before a step. -/
theorem Walk.holds_until (Inv Done : List (Machine G) → Machine G → Prop)
    (walk : Walk code m p m') (start : Inv [] m)
    (step : ∀ q m₁, q ++ [m₁] <+: p → Walk code m q m₁ → m₁.isIdle = false →
      m₁.isAborted = false → Inv q m₁ → Inv (q ++ [m₁]) (m₁.step code) ∨ Done q m₁)
    (switch : ∀ q m₁ m₂, Inv q m₁ → m₁.Switched m₂ → Inv q m₂) :
    Inv p m' ∨ ∃ p₁ m₁ p₂, p = p₁ ++ m₁ :: p₂ ∧ Walk code m p₁ m₁ ∧ m₁.isIdle = false ∧
      m₁.isAborted = false ∧ Done p₁ m₁ ∧ Walk code (m₁.step code) p₂ m' := by
  induction walk with
  | here => exact .inl start
  | @act p m₁ walk hi live ih =>
    have ih := ih fun q m₂ hq => step q m₂ (hq.trans (List.prefix_append _ _))
    rcases ih with h | ⟨p₁, m₂, p₂, rfl, before, hi₂, live₂, hdone, after⟩
    · refine (step p m₁ (List.prefix_refl _) walk hi live h).imp_right fun hdone => ?_
      exact ⟨p, m₁, [], rfl, walk, hi, live, hdone, .here⟩
    · exact .inr ⟨p₁, m₂, p₂ ++ [m₁], by simp, before, hi₂, live₂, hdone, after.act hi live⟩
  | turnTo walk h ih =>
    refine (ih step).imp (switch _ _ _ · (switched_turnTo h)) ?_
    rintro ⟨p₁, m₁, p₂, he, before, hi, live, hdone, after⟩
    exact ⟨p₁, m₁, p₂, he, before, hi, live, hdone, after.turnTo h⟩
  | launch walk h ih =>
    refine (ih step).imp (switch _ _ _ · (switched_launch _)) ?_
    rintro ⟨p₁, m₁, p₂, he, before, hi, live, hdone, after⟩
    exact ⟨p₁, m₁, p₂, he, before, hi, live, hdone, after.launch h⟩

end Machine

end RunLoop
