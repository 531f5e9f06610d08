import Mathlib.Data.List.Basic
import Mathlib.Data.List.Induction
import RunLoop.Cell

/-!
# Cells are assigned once

Whoever asks a cell gets the outcome of its first assignment, however late, and whoever asks before
that is put down. The first assignment wakes those who asked, each of them once and in the order in
which they first asked; a later one is refused. Nothing else wakes anybody.

* `Cell.Call` is what is asked of a cell, `Cell.Reply` what it answers.
* `Cell.lawful` is the reply that the calls before a call determine.
* `Cell.after_new`: a cell is its first outcome, or the list of those who asked.
* `Cell.replies_lawful`: every reply is the lawful one.
-/

namespace RunLoop.Cell

/-! ## Calls -/

/-- What is asked of a cell. -/
inductive Call where
  /-- Its outcome, by somebody who has a waker. -/
  | poll (w : WakerId)
  /-- To be assigned. -/
  | settle (o : Outcome)

/-- What a cell answers. -/
inductive Reply where
  | pending
  | ready (r : Result)
  /-- The cell was assigned; `woken` are woken, in this order. -/
  | settled (woken : List WakerId)
  | refused

/-- Asks a cell. -/
def call (c : Cell) : Call → Cell × Reply
  | .poll w =>
      match c.poll w with
      | (c, none) => (c, .pending)
      | (c, some o) => (c, .ready o.toResult)
  | .settle o =>
      match c.settle? o with
      | some (c, woken) => (c, .settled woken)
      | none => (c, .refused)

/-- The replies to calls, in order. -/
def replies (c : Cell) : List Call → List Reply
  | [] => []
  | call :: calls => (c.call call).2 :: (c.call call).1.replies calls

/-- The cell that calls leave. -/
def after (c : Cell) (calls : List Call) : Cell :=
  calls.foldl (fun c call => (c.call call).1) c

/-! ## The law -/

/-- The outcome that a call would assign. -/
def Call.outcome? : Call → Option Outcome
  | poll _ => none
  | settle o => some o

/-- The waker of whoever asks for the outcome. -/
def Call.waker? : Call → Option WakerId
  | poll w => some w
  | settle _ => none

/-- The outcome of the first assignment. -/
def firstOutcome? (calls : List Call) : Option Outcome :=
  calls.findSome? Call.outcome?

/-- The wakers of those who asked for the outcome, each of them once and in the order in which they
first asked. -/
def askers (calls : List Call) : List WakerId :=
  (calls.filterMap Call.waker?).eraseDups

/-- The reply to a call after others. -/
def lawful (before : List Call) : Call → Reply
  | .poll _ =>
      match firstOutcome? before with
      | none => .pending
      | some o => .ready o.toResult
  | .settle _ =>
      match firstOutcome? before with
      | none => .settled (askers before)
      | some _ => .refused

/-! ## Askers -/

theorem eraseDups_concat (ws : List WakerId) (w : WakerId) :
    (ws ++ [w]).eraseDups = enlist ws.eraseDups w := by
  rw [List.eraseDups_append, enlist]
  by_cases hw : w ∈ ws
  · simp [hw, List.removeAll]
  · simp [hw, List.removeAll, List.eraseDups_cons]

theorem askers_concat_poll (calls : List Call) (w : WakerId) :
    askers (calls ++ [.poll w]) = enlist (askers calls) w := by
  rw [askers, List.filterMap_append, askers]
  exact eraseDups_concat _ w

theorem mem_askers {calls : List Call} {w : WakerId} : w ∈ askers calls ↔ .poll w ∈ calls := by
  rw [askers, List.mem_eraseDups, List.mem_filterMap]
  constructor
  · rintro ⟨call, hm, hw⟩
    cases call with
    | poll w' =>
      cases hw
      exact hm
    | settle o => cases hw
  · exact fun hm => ⟨_, hm, rfl⟩

/-- Who asked first stands first. -/
theorem pairwise_eraseDups (ws : List WakerId) :
    ws.eraseDups.Pairwise (fun a b => ws.idxOf a < ws.idxOf b) := by
  induction ws using List.reverseRecOn with
  | nil => exact .nil
  | append_singleton ws w ih =>
    have hsame : ∀ {a}, a ∈ ws → (ws ++ [w]).idxOf a = ws.idxOf a :=
      fun ha => List.idxOf_append_of_mem ha
    have hold : ws.eraseDups.Pairwise
        (fun a b => (ws ++ [w]).idxOf a < (ws ++ [w]).idxOf b) := by
      refine ih.imp_of_mem fun {a b} ha hb hlt => ?_
      rwa [hsame (List.mem_eraseDups.mp ha), hsame (List.mem_eraseDups.mp hb)]
    rw [eraseDups_concat, enlist]
    split
    · exact hold
    · rename_i hw
      rw [List.mem_eraseDups] at hw
      refine List.pairwise_append.mpr ⟨hold, List.pairwise_singleton _ _, fun a ha b hb => ?_⟩
      have ha' := List.mem_eraseDups.mp ha
      obtain rfl := List.mem_singleton.mp hb
      rw [hsame ha', List.idxOf_append_of_notMem hw]
      exact Nat.lt_of_lt_of_le (List.idxOf_lt_length_of_mem ha') (Nat.le_add_right _ _)

theorem nodup_askers (calls : List Call) : (askers calls).Nodup := by
  refine (pairwise_eraseDups _).imp fun hlt he => ?_
  rw [he] at hlt
  exact Nat.lt_irrefl _ hlt

/-! ## Cells keep the law -/

theorem after_concat (c : Cell) (calls : List Call) (call : Call) :
    c.after (calls ++ [call]) = ((c.after calls).call call).1 := by
  simp [after]

/-- A cell is its first outcome, or the list of those who asked. -/
theorem after_new (calls : List Call) :
    new.after calls =
      match firstOutcome? calls with
      | some o => .settled o
      | none => .pending (askers calls) := by
  induction calls using List.reverseRecOn with
  | nil => rfl
  | append_singleton calls call ih =>
    have hfirst : firstOutcome? (calls ++ [call]) = (firstOutcome? calls).or call.outcome? := by
      simp [firstOutcome?, List.findSome?_append]
    rw [after_concat, ih, hfirst]
    cases ho : firstOutcome? calls with
    | some o => cases call <;> rfl
    | none =>
      cases call with
      | poll w =>
        rw [askers_concat_poll]
        rfl
      | settle o => rfl

/-- A call gets the lawful reply. -/
theorem reply_after_new (before : List Call) (call : Call) :
    ((new.after before).call call).2 = lawful before call := by
  rw [after_new]
  cases ho : firstOutcome? before <;> cases call <;> simp [lawful, ho] <;> rfl

theorem getElem?_replies (c : Cell) (before : List Call) (call : Call) (later : List Call) :
    (c.replies (before ++ call :: later))[before.length]? =
      some ((c.after before).call call).2 := by
  induction before generalizing c with
  | nil => rfl
  | cons first before ih => exact ih (c.call first).1

/-- **A cell is assigned once, and wakes each of those who asked once.** Whatever is asked of a new
cell, every call gets the reply which the calls before it determine: whoever asks gets the outcome
of the first assignment, or is put down if there was none; the first assignment is made and wakes
those who asked before it, each of them once and in the order in which they first asked; every later
one is refused and changes nothing. -/
theorem replies_lawful (before : List Call) (call : Call) (later : List Call) :
    (new.replies (before ++ call :: later))[before.length]? = some (lawful before call) ∧
      (new.after before =
        match firstOutcome? before with
        | some o => .settled o
        | none => .pending (askers before)) ∧
      (askers before).Nodup ∧
      (∀ w, w ∈ askers before ↔ .poll w ∈ before) ∧
      (askers before).Pairwise (fun a b =>
        (before.filterMap Call.waker?).idxOf a < (before.filterMap Call.waker?).idxOf b) := by
  refine ⟨?_, after_new before, nodup_askers before, fun w => mem_askers, pairwise_eraseDups _⟩
  rw [getElem?_replies, reply_after_new]

end RunLoop.Cell
