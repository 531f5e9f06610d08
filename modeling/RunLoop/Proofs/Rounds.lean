/-!
# Rounds

Everybody in a queue has a turn, and who is to have further ones goes to its back. Who is served in
this way is served in rounds: in each of them everybody who is to have that many turns has one, in
the order in which they stood in the queue at first.

* `rota` is the order in which a queue serves, `roundRobin` that of the rounds.
* `rota_eq_roundRobin`: they are the same.
-/

namespace RunLoop

variable {α : Type}

/-! ## Rounds -/

/-- Who has a turn in a round, the first of them being round 0: everybody with that many further
turns at least. -/
def round (q : List (α × Nat)) (r : Nat) : List α :=
  (q.filter (r ≤ ·.2)).map Prod.fst

/-- The number of rounds. -/
def rounds (q : List (α × Nat)) : Nat :=
  (q.map (·.2 + 1)).foldr max 0

/-- The rounds, one after the other. -/
def roundRobin (q : List (α × Nat)) : List α :=
  (List.range (rounds q)).flatMap (round q)

/-! ## Serving a queue -/

/-- How many turns there are for those in a queue. -/
def turns : List (α × Nat) → Nat
  | [] => 0
  | (_, n) :: q => n + 1 + turns q

theorem turns_append (q q' : List (α × Nat)) : turns (q ++ q') = turns q + turns q' := by
  induction q with
  | nil => simp [turns]
  | cons x q ih =>
    rw [List.cons_append, turns, turns, ih]
    omega

/-- Serves a queue: who has had a turn goes to the back, unless it was the last one. -/
def rota : List (α × Nat) → List α
  | [] => []
  | (x, 0) :: q => x :: rota q
  | (x, n + 1) :: q => x :: rota (q ++ [(x, n)])
termination_by q => turns q
decreasing_by
  · simp [turns]
  · simp only [turns_append, turns]
    omega

/-- What is left of a queue after everybody has had a turn. -/
def afterRound : List (α × Nat) → List (α × Nat)
  | [] => []
  | (_, 0) :: q => afterRound q
  | (x, n + 1) :: q => (x, n) :: afterRound q

/-- Those at the front have a turn each before those behind them. -/
theorem rota_append (q q' : List (α × Nat)) :
    rota (q ++ q') = q.map Prod.fst ++ rota (q' ++ afterRound q) := by
  induction q generalizing q' with
  | nil => simp [afterRound]
  | cons x q ih =>
    obtain ⟨x, _ | n⟩ := x
    · simp [rota, afterRound, ih]
    · simp [rota, afterRound, ih]

theorem rota_eq_append (q : List (α × Nat)) :
    rota q = q.map Prod.fst ++ rota (afterRound q) := by
  simpa using rota_append q []

/-! ## A queue serves in rounds -/

@[simp] theorem round_zero (q : List (α × Nat)) : round q 0 = q.map Prod.fst := by
  rw [round, List.filter_eq_self.mpr (by simp)]

theorem round_succ (q : List (α × Nat)) (r : Nat) : round q (r + 1) = round (afterRound q) r := by
  induction q with
  | nil => rfl
  | cons x q ih =>
    obtain ⟨x, _ | n⟩ := x
    · simpa [round, afterRound] using ih
    · by_cases h : r ≤ n
      · simpa [round, afterRound, h] using ih
      · simpa [round, afterRound, h] using ih

theorem rounds_cons (x : α × Nat) (q : List (α × Nat)) :
    rounds (x :: q) = max (x.2 + 1) (rounds q) :=
  rfl

theorem rounds_afterRound (q : List (α × Nat)) : rounds (afterRound q) = rounds q - 1 := by
  induction q with
  | nil => rfl
  | cons x q ih =>
    obtain ⟨x, _ | n⟩ := x
    · rw [afterRound, ih, rounds_cons]
      omega
    · rw [afterRound, rounds_cons, ih, rounds_cons]
      omega

theorem rounds_pos {q : List (α × Nat)} (h : q ≠ []) : 0 < rounds q := by
  cases q with
  | nil => exact absurd rfl h
  | cons x q =>
    rw [rounds_cons]
    omega

theorem roundRobin_eq_append {q : List (α × Nat)} (h : q ≠ []) :
    roundRobin q = q.map Prod.fst ++ roundRobin (afterRound q) := by
  obtain ⟨n, hn⟩ : ∃ n, rounds q = n + 1 := ⟨rounds q - 1, by have := rounds_pos h; omega⟩
  rw [roundRobin, roundRobin, rounds_afterRound, hn, List.range_succ_eq_map, List.flatMap_cons,
    round_zero, List.flatMap_map]
  simp only [Nat.succ_eq_add_one, round_succ, Nat.add_sub_cancel]

/-- What those in the queue are called does not matter. -/
theorem roundRobin_map {β : Type} (f : α → β) (q : List (α × Nat)) :
    roundRobin (q.map (Prod.map f id)) = (roundRobin q).map f := by
  have hround : round (q.map (Prod.map f id)) = fun r => (round q r).map f := by
    funext r
    simp [round, List.filter_map, Function.comp_def]
  have hrounds : rounds (q.map (Prod.map f id)) = rounds q := by
    simp [rounds, Function.comp_def]
  simp only [roundRobin, hrounds, hround, List.map_flatMap]

/-- **A queue serves in rounds.** -/
theorem rota_eq_roundRobin (q : List (α × Nat)) : rota q = roundRobin q := by
  -- every round leaves fewer of them
  induction hn : rounds q generalizing q with
  | zero =>
    cases q with
    | nil => simp [rota, roundRobin, rounds]
    | cons x q => exact absurd hn (Nat.ne_of_gt (rounds_pos (List.cons_ne_nil _ _)))
  | succ n ih =>
    have hne : q ≠ [] := by
      rintro rfl
      cases hn
    rw [rota_eq_append, roundRobin_eq_append hne, ih _ (by rw [rounds_afterRound, hn]; rfl)]

example : roundRobin [("a", 1), ("b", 0), ("c", 2)] = ["a", "b", "c", "a", "c", "c"] := by decide

end RunLoop
