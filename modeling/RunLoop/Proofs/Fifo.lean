import Mathlib.Data.List.Basic

/-!
# A loop with one queue

The abstract loop that the real one is compared with. All its work is in one queue: what it accepts
goes to the back, what it processes comes from the front, one entry at a time. It processes entries
only while a main future runs on it, which neither takes nor puts anything in when it comes or goes.
A lossy loop may drop entries from the front when a main future panics.

* `Fifo.Step` is the loop, `Fifo.Lossy` the lossy one.
* `Fifo.Run` is a run of either with the signs that it gives.
* `Fifo.Run.balance`: what is queued at first and what is accepted is processed, in order, or still
  queued in the end, if nothing is lost.
-/

namespace RunLoop

/-- Where a loop is in its life. -/
inductive Phase where
  | unbuilt
  | idle
  | running
  | closed
  deriving DecidableEq

/-- A loop that keeps one queue. -/
structure Fifo (α : Type) where
  phase : Phase
  queue : List α

namespace Fifo

variable {α : Type}

/-- What is seen of a loop from outside. -/
inductive Sign (α : Type) where
  | built
  /-- A main future begins to run. -/
  | entered
  | accepted (a : α)
  | processed (a : α)
  /-- The main future is ready. -/
  | left
  /-- The main future panicked, and these entries are dropped. -/
  | lost (rest : List α)
  | closed

namespace Sign

/-- The entry that was accepted. -/
def accepted? : Sign α → Option α
  | accepted a => some a
  | _ => none

/-- The entry that was processed. -/
def processed? : Sign α → Option α
  | processed a => some a
  | _ => none

/-- The entries that were dropped by a panic. -/
def dropped : Sign α → List α
  | lost rest => rest
  | _ => []

end Sign

/-- A loop that was not built yet. -/
def unbuilt : Fifo α :=
  ⟨.unbuilt, []⟩

/-- What a loop with one queue does, and the sign that it gives. -/
inductive Step : Fifo α → Sign α → Fifo α → Prop where
  | build : Step unbuilt .built ⟨.idle, []⟩
  | enter {q : List α} : Step ⟨.idle, q⟩ .entered ⟨.running, q⟩
  | accept {p : Phase} {q : List α} {a : α} (h : p = .idle ∨ p = .running) :
      Step ⟨p, q⟩ (.accepted a) ⟨p, q ++ [a]⟩
  | process {q : List α} {a : α} : Step ⟨.running, a :: q⟩ (.processed a) ⟨.running, q⟩
  | leave {q : List α} : Step ⟨.running, q⟩ .left ⟨.idle, q⟩
  | close {q : List α} : Step ⟨.idle, q⟩ .closed ⟨.closed, []⟩

/-- What a lossy loop does. -/
inductive Lossy : Fifo α → Sign α → Fifo α → Prop where
  | step {f f' : Fifo α} {s : Sign α} (h : Step f s f') : Lossy f s f'
  | lose {rest q : List α} : Lossy ⟨.running, rest ++ q⟩ (.lost rest) ⟨.idle, q⟩

/-- A run of loops that take steps in `R`. -/
inductive Run (R : Fifo α → Sign α → Fifo α → Prop) (f : Fifo α) :
    List (Sign α) → Fifo α → Prop where
  | here : Run R f [] f
  | step {σ : List (Sign α)} {s : Sign α} {f₁ f₂ : Fifo α} (run : Run R f σ f₁)
      (step : R f₁ s f₂) : Run R f (σ ++ [s]) f₂

/-- One step in `R` with its sign, or nothing at all. -/
def Moves (R : Fifo α → Sign α → Fifo α → Prop) (f : Fifo α) (σ : List (Sign α))
    (f₁ : Fifo α) : Prop :=
  σ = [] ∧ f₁ = f ∨ ∃ s, σ = [s] ∧ R f s f₁

variable {R : Fifo α → Sign α → Fifo α → Prop} {f f₁ f₂ : Fifo α} {σ σ' : List (Sign α)}

theorem Run.moves (run : Run R f σ f₁) (moves : Moves R f₁ σ' f₂) : Run R f (σ ++ σ') f₂ := by
  rcases moves with ⟨rfl, rfl⟩ | ⟨s, rfl, step⟩
  · simpa using run
  · exact run.step step

theorem Run.split (run : Run R f (σ ++ σ') f₂) : ∃ f₁, Run R f σ f₁ ∧ Run R f₁ σ' f₂ := by
  generalize hs : σ ++ σ' = σ₁ at run
  induction run generalizing σ' with
  | here =>
    obtain ⟨rfl, rfl⟩ := List.append_eq_nil_iff.mp hs
    exact ⟨f, .here, .here⟩
  | @step σ₁ s f₁ f₂ run step ih =>
    rcases List.eq_nil_or_concat σ' with rfl | ⟨σ'', s', rfl⟩
    · rw [List.append_nil] at hs
      exact ⟨f₂, hs ▸ run.step step, .here⟩
    · rw [List.concat_eq_append, ← List.append_assoc] at hs
      obtain ⟨hpre, hlast⟩ := List.append_inj' hs rfl
      cases hlast
      obtain ⟨f', run₁, run₂⟩ := ih hpre
      rw [List.concat_eq_append]
      exact ⟨f', run₁, run₂.step step⟩

/-- Where nothing is lost, a lossy loop is none. -/
theorem Lossy.moves (moves : Moves Lossy f σ f₁) (h : ∀ rest, .lost rest ∉ σ) :
    Moves Step f σ f₁ := by
  rcases moves with hs | ⟨s, rfl, step⟩
  · exact .inl hs
  · cases step with
    | step hs => exact .inr ⟨s, rfl, hs⟩
    | lose => exact absurd List.mem_cons_self (h _)

theorem Run.of_lossy (run : Run Lossy f σ f₁) (h : ∀ rest, .lost rest ∉ σ) : Run Step f σ f₁ := by
  induction run with
  | here => exact .here
  | step _ step ih =>
    have := ih fun rest hr => h rest (List.mem_append_left _ hr)
    exact this.moves (Lossy.moves (.inr ⟨_, rfl, step⟩) fun rest hr =>
      h rest (List.mem_append_right _ hr))

/-- A main future that is at its end leaves the loop idle. -/
theorem Run.idle_of_left (run : Run Lossy f (σ ++ [.left]) f₁) : f₁.phase = .idle := by
  generalize hs : σ ++ [Sign.left] = σ₁ at run
  cases run with
  | here => simp at hs
  | step run step =>
    obtain ⟨_, hlast⟩ := List.append_inj' hs rfl
    cases hlast
    obtain ⟨⟨⟩⟩ := step
    rfl

/-! ## What becomes of the entries -/

/-- What is closed stays so. -/
theorem Moves.phase_ne_closed (moves : Moves Lossy f σ f₁) (h : f₁.phase ≠ .closed) :
    f.phase ≠ .closed := by
  rcases moves with ⟨_, rfl⟩ | ⟨s, _, step⟩
  · exact h
  · cases step with
    | lose => simp
    | step step => cases step <;> simp_all [unbuilt]

/-- What was built stays so. -/
theorem Moves.phase_ne_unbuilt (moves : Moves Lossy f σ f₁) (h : f.phase ≠ .unbuilt) :
    f₁.phase ≠ .unbuilt := by
  rcases moves with ⟨_, rfl⟩ | ⟨s, _, step⟩
  · exact h
  · cases step with
    | lose => simp
    | step step => cases step <;> simp_all

theorem Run.phase_ne_unbuilt (run : Run Lossy f σ f₁) (h : f.phase ≠ .unbuilt) :
    f₁.phase ≠ .unbuilt := by
  induction run with
  | here => exact h
  | step _ step ih => exact Moves.phase_ne_unbuilt (.inr ⟨_, rfl, step⟩) ih

/-- An entry that is processed was at the front. -/
theorem Moves.of_processed {a : α} (moves : Moves Lossy f [.processed a] f₁) :
    f.phase = .running ∧ f.queue = a :: f₁.queue := by
  rcases moves with ⟨hσ, _⟩ | ⟨s, hs, step⟩
  · cases hσ
  · obtain rfl := List.singleton_inj.mp hs
    obtain ⟨⟨⟩⟩ := step
    exact ⟨rfl, rfl⟩

/-- An entry stays queued until it is processed, unless it is lost or the loop is closed. -/
theorem Moves.mem_queue (moves : Moves Lossy f σ f₁) (h : f₁.phase ≠ .closed)
    (calm : ∀ rest, .lost rest ∈ σ → rest = []) {a : α} (ha : a ∈ f.queue) :
    a ∈ f₁.queue ∨ a ∈ σ.filterMap Sign.processed? := by
  rcases moves with ⟨_, rfl⟩ | ⟨s, rfl, step⟩
  · exact .inl ha
  · cases step with
    | lose =>
      obtain rfl := calm _ List.mem_cons_self
      exact .inl ha
    | step step =>
      cases step with
      | build => cases ha
      | close => exact absurd rfl h
      | process => simpa [Sign.processed?, or_comm] using ha
      | accept => exact .inl (List.mem_append_left _ ha)
      | enter | leave => exact .inl ha

/-- An entry that is accepted is queued. -/
theorem Moves.mem_queue_of_accepted (moves : Moves Lossy f σ f₁) {a : α}
    (ha : a ∈ σ.filterMap Sign.accepted?) : a ∈ f₁.queue := by
  rcases moves with ⟨rfl, _⟩ | ⟨s, rfl, step⟩
  · simp at ha
  · cases step with
    | lose => simp [Sign.accepted?] at ha
    | step step => cases step <;> simp_all [Sign.accepted?]

/-- As long as the loop is not closed and nothing is lost, what was queued at first and what was
accepted since is what was processed and what is still queued, in this order. -/
theorem Run.balance (run : Run Lossy f σ f₁) (h : f₁.phase ≠ .closed)
    (calm : ∀ rest, .lost rest ∈ σ → rest = []) :
    f.queue ++ σ.filterMap Sign.accepted? = σ.filterMap Sign.processed? ++ f₁.queue := by
  induction run with
  | here => simp
  | step run step ih =>
    have ih := fun hp => ih hp fun rest hr => calm rest (List.mem_append_left _ hr)
    rw [List.filterMap_append, List.filterMap_append, ← List.append_assoc]
    cases step with
    | lose =>
      obtain rfl := calm _ (List.mem_append_right _ List.mem_cons_self)
      rw [ih (by simp)]
      simp [List.filterMap_cons, Sign.accepted?, Sign.processed?]
    | step step =>
      cases step with
      | close => exact absurd rfl h
      | accept hp =>
        rw [ih h]
        simp [List.filterMap_cons, Sign.accepted?, Sign.processed?]
      | build | enter | process | leave =>
        rw [ih (by simp [unbuilt])]
        simp [List.filterMap_cons, Sign.accepted?, Sign.processed?, unbuilt]

/-- Nothing is counted twice: as long as the loop is not closed, whatever is not processed and not
dropped by a panic is queued. -/
theorem Run.length_eq (run : Run Lossy f σ f₁) (h : f₁.phase ≠ .closed) :
    f.queue.length + (σ.filterMap Sign.accepted?).length =
      (σ.filterMap Sign.processed?).length + (σ.flatMap Sign.dropped).length + f₁.queue.length := by
  induction run with
  | here => simp
  | step run step ih =>
    simp only [List.filterMap_append, List.flatMap_append, List.length_append]
    cases step with
    | lose =>
      have ih := ih (by simp)
      simp_all [List.filterMap_cons, Sign.accepted?, Sign.processed?, Sign.dropped]
      omega
    | step step =>
      cases step with
      | close => exact absurd rfl h
      | build | enter | leave =>
        simp_all [List.filterMap_cons, Sign.accepted?, Sign.processed?, Sign.dropped, unbuilt]
      | accept | process =>
        have ih := ih h
        simp_all [List.filterMap_cons, Sign.accepted?, Sign.processed?, Sign.dropped]
        omega

/-- What is accepted is processed or queued exactly if nothing is dropped by a panic. -/
theorem Run.balance_iff (run : Run Lossy f σ f₁) (h : f₁.phase ≠ .closed) :
    f.queue ++ σ.filterMap Sign.accepted? = σ.filterMap Sign.processed? ++ f₁.queue ↔
      ∀ rest, .lost rest ∈ σ → rest = [] := by
  refine ⟨fun hb rest hr => ?_, run.balance h⟩
  have hlen := congrArg List.length hb
  have hall := run.length_eq h
  simp only [List.length_append] at hlen
  have hnone : σ.flatMap Sign.dropped = [] := List.length_eq_zero_iff.mp (by omega)
  exact List.flatMap_eq_nil_iff.mp hnone _ hr

/-- What is processed is a prefix of what was queued at first, followed by what is accepted. -/
theorem Run.processed_prefix (run : Run Lossy f σ f₁)
    (calm : ∀ rest, .lost rest ∈ σ → rest = []) :
    σ.filterMap Sign.processed? <+: f.queue ++ σ.filterMap Sign.accepted? := by
  induction run with
  | here => simp
  | step run step ih =>
    have ih := ih fun rest hr => calm rest (List.mem_append_left _ hr)
    cases step with
    | step step =>
      cases step with
      | process => exact ⟨_, ((run.step (.step .process)).balance (by simp) calm).symm⟩
      | _ =>
        rw [List.filterMap_append, List.filterMap_append, ← List.append_assoc]
        simp only [List.filterMap_cons, Sign.processed?, List.filterMap_nil, List.append_nil]
        exact ih.trans (List.prefix_append _ _)
    | lose =>
      rw [List.filterMap_append, List.filterMap_append, ← List.append_assoc]
      simp only [List.filterMap_cons, Sign.processed?, List.filterMap_nil, List.append_nil]
      exact ih.trans (List.prefix_append _ _)

/-- An entry with others ahead of it is processed after exactly those. -/
theorem Run.processed_after (run : Run Lossy f σ f₁)
    (calm : ∀ rest, .lost rest ∈ σ → rest = []) {ahead behind : List α} {a : α}
    (h : f.queue = ahead ++ a :: behind) :
    σ.filterMap Sign.processed? <+: ahead ∨ ahead ++ [a] <+: σ.filterMap Sign.processed? := by
  have hp := run.processed_prefix calm
  have ha : ahead ++ [a] <+: f.queue ++ σ.filterMap Sign.accepted? := by
    rw [h]
    exact ⟨behind ++ σ.filterMap Sign.accepted?, by simp⟩
  rcases List.prefix_or_prefix_of_prefix hp ha with hle | hge
  · rcases List.prefix_concat_iff.mp hle with he | hle
    · exact .inr (he ▸ List.prefix_refl _)
    · exact .inl hle
  · exact .inr hge

/-- Whatever is lost, nothing is processed or queued more often than it was accepted. -/
theorem Run.countP_le (run : Run Lossy f σ f₁) (p : α → Bool) :
    (σ.filterMap Sign.processed?).countP p + f₁.queue.countP p ≤
      f.queue.countP p + (σ.filterMap Sign.accepted?).countP p := by
  induction run with
  | here => simp
  | step run step ih =>
    rw [List.filterMap_append, List.filterMap_append, List.countP_append, List.countP_append]
    cases step with
    | step step =>
      cases step <;>
        simp_all [List.filterMap_cons, Sign.accepted?, Sign.processed?, unbuilt, List.countP_cons]
      all_goals omega
    | lose =>
      simp_all [List.filterMap_cons, Sign.accepted?, Sign.processed?]
      omega

/-- Whatever is queued was queued at first or accepted. -/
theorem Run.mem_queue (run : Run Lossy f σ f₁) {a : α} (h : a ∈ f₁.queue) :
    a ∈ f.queue ∨ a ∈ σ.filterMap Sign.accepted? := by
  induction run with
  | here => exact .inl h
  | step run step ih =>
    rw [List.filterMap_append, List.mem_append]
    cases step with
    | step step => cases step <;> simp_all [List.filterMap_cons, Sign.accepted?, unbuilt]; grind
    | lose => grind

/-- Whatever is processed was queued at first or accepted. -/
theorem Run.mem_processed (run : Run Lossy f σ f₁) {a : α} (h : a ∈ σ.filterMap Sign.processed?) :
    a ∈ f.queue ∨ a ∈ σ.filterMap Sign.accepted? := by
  induction run with
  | here => simp at h
  | @step σ s f₁ f₂ run step ih =>
    rw [List.filterMap_append, List.mem_append] at h ⊢
    rcases h with h | h
    · exact (ih h).imp_right .inl
    · have hq : a ∈ f₁.queue := by
        cases step with
        | step step => cases step <;> simp_all [List.filterMap_cons, Sign.processed?]
        | lose => simp [List.filterMap_cons, Sign.processed?] at h
      exact (run.mem_queue hq).imp_right .inl

/-- Where no main future runs, nothing is processed or lost until one begins to run, and what is
accepted goes behind what is queued. -/
theorem Run.waiting (run : Run Lossy f σ f₁) (h : f.phase ≠ .running) (he : .entered ∉ σ) :
    σ.filterMap Sign.processed? = [] ∧ f₁.phase ≠ .running ∧
      (f₁.phase ≠ .closed → f₁.queue = f.queue ++ σ.filterMap Sign.accepted?) := by
  induction run with
  | here => exact ⟨rfl, h, by simp⟩
  | step run step ih =>
    obtain ⟨hn, hp, hq⟩ := ih fun hm => he (List.mem_append_left _ hm)
    cases step with
    | lose => exact absurd rfl hp
    | step step =>
      cases step with
      | enter => simp at he
      | process | leave => exact absurd rfl hp
      | build | close => simp_all [Sign.accepted?, Sign.processed?, unbuilt]
      | accept => simp_all [Sign.accepted?, Sign.processed?]

/-! ## What is closed -/

/-- A loop that is closed has nothing queued. -/
theorem Run.queue_of_closed (run : Run Lossy unbuilt σ f) (h : f.phase = .closed) :
    f.queue = [] := by
  cases run with
  | here => cases h
  | step _ step =>
    cases step with
    | lose => cases h
    | step step =>
      cases step with
      | accept hp => rcases hp with rfl | rfl <;> cases h
      | close => rfl
      | build | enter | process | leave => cases h

/-- Nothing more is seen of a loop that is closed. -/
theorem Run.of_closed (run : Run Lossy f σ f₁) (h : f.phase = .closed) : σ = [] ∧ f₁ = f := by
  induction run with
  | here => exact ⟨rfl, rfl⟩
  | step _ step ih =>
    obtain ⟨rfl, rfl⟩ := ih
    cases step with
    | lose => cases h
    | step step =>
      cases step with
      | accept hp => rcases hp with rfl | rfl <;> cases h
      | build | enter | process | leave | close => cases h

theorem Run.phase_of_closed_mem (run : Run Lossy f σ f₁) (h : .closed ∈ σ) :
    f₁.phase = .closed := by
  induction run with
  | here => cases h
  | step run step ih =>
    rcases List.mem_append.mp h with h | h
    · have hstep := Run.step .here step
      obtain ⟨_, rfl⟩ := hstep.of_closed (ih h)
      exact ih h
    · cases List.mem_singleton.mp h
      obtain ⟨⟨⟩⟩ := step
      rfl

end Fifo

end RunLoop
