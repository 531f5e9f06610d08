import Mathlib.Data.List.Flatten
import RunLoop.Proofs.Happening

/-!
# Interleavings

`Machine.step` lets another thread run only when the running one has to wait. Here threads take
turns at any moment: between any two steps another thread may take over, and a thread that waits to
be started may be started early. What is proved of every such run holds of the runs of the machine
(`history_run`), and of every other order in which the threads could have taken their steps.

* `Machine.Move` is a step under any order of the threads.
* `Machine.History` is a run made of moves, with what happened on the way.
* `Machine.Reached` says that a run from the start comes to a machine.
* `Machine.record` plays the run of the machine itself.
-/

namespace RunLoop.Machine

variable {G : Guest} {code : G.Code} {m m' : Machine G}

/-- All threads, the running one first. -/
def strands (m : Machine G) : List (Parked G) :=
  ⟨m.world.thread, m.mode, m.jobs⟩ :: m.threads.parked

/-- The jobs on all stacks. -/
def allJobs (m : Machine G) : List (Job G) :=
  m.jobs ++ m.threads.parked.flatMap (·.jobs)

/-- A step under any order of the threads, with what happens in it. -/
inductive Move (code : G.Code) (m : Machine G) : List (Happening G) → Machine G → Prop where
  /-- The running thread acts, if it need not wait. -/
  | act (h : m.isIdle = false) : Move code m m.happenings (m.step code)
  /-- Another thread takes over. -/
  | turnTo {p : Parked G} {others : List (Parked G)} (h : m.parked.Perm (p :: others)) :
      Move code m [] (m.turnTo p others)
  /-- A thread is started. -/
  | launch {x : Waiting G} (h : x ∈ m.threads.waiting) : Move code m [] (m.launch x)

/-- A run from `m`, with what happened on the way. -/
inductive History (code : G.Code) (m : Machine G) : List (Happening G) → Machine G → Prop where
  | here : History code m [] m
  | next {τ η : List (Happening G)} {m₁ m₂ : Machine G} (run : History code m τ m₁)
      (move : Move code m₁ η m₂) : History code m (τ ++ η) m₂

/-- A run that began with one thread in an empty world comes to `m`. -/
def Reached (code : G.Code) (τ : List (Happening G)) (m : Machine G) : Prop :=
  ∃ shared run, History code (start shared run) τ m

theorem Reached.next {τ η : List (Happening G)} (h : Reached code τ m)
    (move : Move code m η m') : Reached code (τ ++ η) m' := by
  obtain ⟨shared, run, h⟩ := h
  exact ⟨shared, run, h.next move⟩

theorem Reached.append {τ τ' : List (Happening G)} (h : Reached code τ m)
    (h' : History code m τ' m') : Reached code (τ ++ τ') m' := by
  induction h' with
  | here => simpa using h
  | next _ move ih =>
    rw [← List.append_assoc]
    exact ih.next move

/-! ## The machine as one of the interleavings -/

theorem pick?_perm {ps others : List (Parked G)} {p : Parked G}
    (h : m.pick? ps = some (p, others)) : ps.Perm (p :: others) := by
  induction ps generalizing p others with
  | nil => simp [pick?] at h
  | cons q rest ih =>
    unfold pick? at h
    split at h
    · obtain ⟨⟨p', others'⟩, hp, he⟩ := Option.map_eq_some_iff.mp h
      cases he
      exact ((ih hp).cons q).trans (List.Perm.swap _ _ _)
    · cases h
      exact .refl _

theorem mem_of_earliest {xs : List (Waiting G)} {x : Waiting G} (h : earliest xs = some x) :
    x ∈ xs := by
  induction xs generalizing x with
  | nil => simp [earliest] at h
  | cons y ys ih =>
    unfold earliest at h
    split at h
    · rename_i z hz
      split at h <;> cases h
      · exact List.mem_cons_of_mem _ (ih hz)
      · exact List.mem_cons_self
    · cases h
      exact List.mem_cons_self

theorem step_of_isIdle (code : G.Code) (h : m.isIdle = true) :
    m.step code = m.switch ∨ m.step code = m := by
  unfold isIdle at h
  unfold step
  split at h
  · rename_i hj
    cases hm : m.mode <;> simp [hj]
  · rename_i hj hm
    simp [hj, hm, h]
  · cases h

/-- Where the running thread has to wait, a step of the machine lets another one run, or changes
nothing. -/
theorem move_of_isIdle (code : G.Code) (h : m.isIdle = true) :
    Move code m [] (m.step code) ∨ m.step code = m := by
  rcases step_of_isIdle code h with hs | hs
  · rw [hs]
    unfold switch
    split
    · rename_i p others _ hp
      exact .inl (.turnTo (pick?_perm hp))
    · rename_i x _ hx
      exact .inl (.launch (mem_of_earliest hx))
    · exact .inr rfl
  · exact .inr hs

/-- A step of the machine is a move, unless it changes nothing. -/
theorem move_step (code : G.Code) (m : Machine G) :
    (∃ η, Move code m η (m.step code)) ∨ m.step code = m := by
  cases hi : m.isIdle with
  | false => exact .inl ⟨_, .act hi⟩
  | true => exact (move_of_isIdle code hi).imp_left fun move => ⟨_, move⟩

/-- The first `n` steps of the machine, with what happens in them. -/
def record (code : G.Code) (m : Machine G) : Nat → List (Happening G) × Machine G
  | 0 => ([], m)
  | n + 1 =>
      let r := m.record code n
      (r.1 ++ if r.2.isIdle then [] else r.2.happenings, r.2.step code)

theorem history_record (code : G.Code) (m : Machine G) (n : Nat) :
    History code m (m.record code n).1 (m.record code n).2 := by
  induction n with
  | zero => exact .here
  | succ n ih =>
    unfold record
    cases hi : (m.record code n).2.isIdle with
    | false => simpa [hi] using ih.next (.act hi)
    | true =>
      rcases move_of_isIdle code hi with move | hs
      · simpa [hi] using ih.next move
      · simpa [hi, hs] using ih

/-- What the machine does is one of the interleavings. -/
theorem history_run (n : Nat) : ∃ τ, History code m τ (m.run code n) := by
  suffices ∀ m₁ τ, History code m τ m₁ → ∃ τ', History code m τ' (m₁.run code n) from
    this m [] .here
  induction n with
  | zero => exact fun m₁ τ h => ⟨τ, h⟩
  | succ n ih =>
    intro m₁ τ h
    unfold run
    split
    · exact ⟨τ, h⟩
    · rcases move_step code m₁ with ⟨η, move⟩ | hs
      · exact ih _ _ (h.next move)
      · rw [hs]
        exact ih _ _ h

end RunLoop.Machine
