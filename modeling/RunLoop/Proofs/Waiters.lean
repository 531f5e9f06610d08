import RunLoop.Proofs.Cells
import RunLoop.Proofs.Sources

/-!
# Who waits for a cell

What a run makes of a cell is what the calls make of it that the history tells of: the wakers put
down at it, and its assignment. So the wakers that an assignment finds stand in the order in which
they were first put down, each of them once.

* `callsOn` picks the calls on a cell out of a history.
* `Machine.Reached.waiters` says who waits for a cell that is pending.
* `Machine.Reached.outcome?_of_settled`: the first assignment counts.
-/

namespace RunLoop

variable {G : Guest} {c : CellId} {k : WakerId}

/-- The call on cell `c` that a happening tells of. -/
def Happening.callOn? (c : CellId) : Happening G → Option Cell.Call
  | awaited c' k => if c' = c then some (.poll k) else none
  | settled c' o => if c' = c then some (.settle o) else none
  | _ => none

/-- The calls on cell `c` that a history tells of. -/
def callsOn (c : CellId) (τ : List (Happening G)) : List Cell.Call :=
  τ.filterMap (Happening.callOn? c)

@[simp] theorem callsOn_nil : callsOn c ([] : List (Happening G)) = [] :=
  rfl

@[simp] theorem callsOn_cons (h : Happening G) (τ : List (Happening G)) :
    callsOn c (h :: τ) = (h.callOn? c).toList ++ callsOn c τ :=
  filterMap_cons_eq _ h τ

@[simp] theorem callsOn_append (τ τ' : List (Happening G)) :
    callsOn c (τ ++ τ') = callsOn c τ ++ callsOn c τ' :=
  List.filterMap_append

section

variable {w w' : World G} {D others before after : List (Job G)} {τ η : List (Happening G)}

/-- A cell is what the history tells of it; one that is not there yet counts as new. -/
def Told (τ : List (Happening G)) (w : World G) (c : CellId) : Prop :=
  (w.cell? c).getD .new = Cell.new.after (callsOn c τ)

theorem Told.frame (h : Told τ w c) (hc : (w'.cell? c).getD .new = (w.cell? c).getD .new)
    (hη : callsOn c η = []) : Told (τ ++ η) w' c := by
  unfold Told
  rw [hc, callsOn_append, hη, List.append_nil]
  exact h

/-- A call on a cell that is there. -/
theorem Told.call {c' : CellId} {x : Cell} (call : Cell.Call) (h : Told τ w c)
    (hx : w.cell? c' = some x) (hη : callsOn c η = if c' = c then [call] else []) :
    Told (τ ++ η) (w.setCell c' (x.call call).1) c := by
  unfold Told at h ⊢
  rw [World.cell?_setCell hx, callsOn_append, hη]
  by_cases hc : c' = c
  · subst hc
    rw [hx, Option.getD_some] at h
    rw [if_pos rfl, if_pos rfl, Option.getD_some, Cell.after_concat, ← h]
  · rw [if_neg hc, if_neg hc, List.append_nil]
    exact h

theorem Effect.told (effect : Effect w others before η w' after) (h : Told τ w c) :
    Told (τ ++ η) w' c := by
  cases effect with
  | newSource l =>
    refine h.frame ?_ rfl
    rw [World.cell?, World.newSource, Array.getElem?_push]
    split
    · rename_i hc
      simp [World.cell?, hc]
    · rfl
  | @awaitCell c' k ws hx =>
    refine h.call (.poll k) hx ?_
    by_cases hc : c' = c <;> simp [Happening.callOn?, hc]
  | @processSettle _ _ _ c' o _ ws _ hx =>
    refine h.call (.settle o) hx ?_
    by_cases hc : c' = c <;> simp [Happening.callOn?, hc]
  | _ => exact h.frame rfl (by simp [Happening.callOn?])

theorem Trail.told (trail : Trail .empty [] τ w D) (c : CellId) : Told τ w c := by
  induction trail with
  | here => simp [Told, World.cell?, World.empty, Cell.after]
  | same _ hw _ ih =>
    unfold Told at ih ⊢
    rwa [World.cell?, hw.cells]
  | step _ effect ih => exact effect.told ih

end

/-! ## Waiters -/

namespace Machine

variable {code : G.Code} {m : Machine G} {τ : List (Happening G)} {o : Outcome}

/-- A pending cell was not assigned, and the wakers at it are those that were put down, in the order
in which they first were. -/
theorem Reached.waiters (hm : Reached code τ m) {ws : List WakerId}
    (hc : m.world.cell? c = some (.pending ws)) :
    Cell.firstOutcome? (callsOn c τ) = none ∧ ws = Cell.askers (callsOn c τ) := by
  have htold := hm.trail.told c
  rw [Told, hc, Option.getD_some, Cell.after_new] at htold
  split at htold <;> cases htold
  exact ⟨‹_›, rfl⟩

/-- The outcome of a cell is that of the first assignment. -/
theorem Reached.outcome?_of_settled (hm : Reached code τ m)
    (h : Cell.firstOutcome? (callsOn c τ) = some o) : m.world.outcome? c = some o := by
  have htold := hm.trail.told c
  rw [Told, Cell.after_new, h] at htold
  cases hc : m.world.cell? c with
  | none => simp [hc, Cell.new] at htold
  | some x =>
    rw [hc, Option.getD_some] at htold
    simp [World.outcome?, hc, htold, Cell.outcome?]

end Machine

end RunLoop
