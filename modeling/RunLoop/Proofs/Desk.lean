import Mathlib.Logic.Function.Basic
import RunLoop.Proofs.Census

/-!
# The desk of a loop

What a running loop works with, besides its queue, is on its desk: its task table, the wakers and
the join slots. An operation on the world changes the desk in few places and leaves the rest alone.

* `Desk` is what is on a desk, `World.desk` that of a loop.
* `World.desk_mark`, `World.desk_addTask` and the like say what an operation changes.
-/

namespace RunLoop

variable {G : Guest}

/-! ## Desks -/

/-- What a running loop works with. -/
structure Desk (G : Guest) where
  task : Nat → Option (Task G.Coroutine)
  waker : WakerId → Option Waker
  join : JoinId → Option JoinSlot

namespace Desk

variable (d : Desk G)

/-- Puts a task into a slot, or leaves the slot free. -/
def setTask (slot : Nat) (t : Option (Task G.Coroutine)) : Desk G :=
  { d with task := Function.update d.task slot t }

/-- Gives a waker a new state. -/
def setWaker (k : WakerId) (x : Waker) : Desk G :=
  { d with waker := Function.update d.waker k (some x) }

/-- Gives a join slot a new state. -/
def setJoin (j : JoinId) (x : JoinSlot) : Desk G :=
  { d with join := Function.update d.join j (some x) }

variable {d}

section

variable (slot : Nat) (t : Option (Task G.Coroutine)) (k : WakerId) (x : Waker) (j : JoinId)
  (y : JoinSlot)

@[simp] theorem task_setTask_self : (d.setTask slot t).task slot = t := by
  simp [setTask]

theorem task_setTask (slot' : Nat) :
    (d.setTask slot t).task slot' = if slot' = slot then t else d.task slot' := by
  simp [setTask, Function.update_apply]

@[simp] theorem waker_setWaker_self : (d.setWaker k x).waker k = some x := by
  simp [setWaker]

theorem waker_setWaker (k' : WakerId) :
    (d.setWaker k x).waker k' = if k' = k then some x else d.waker k' := by
  simp [setWaker, Function.update_apply]

@[simp] theorem join_setJoin_self : (d.setJoin j y).join j = some y := by
  simp [setJoin]

theorem join_setJoin (j' : JoinId) :
    (d.setJoin j y).join j' = if j' = j then some y else d.join j' := by
  simp [setJoin, Function.update_apply]

theorem setTask_setWaker : (d.setWaker k x).setTask slot t = (d.setTask slot t).setWaker k x := rfl

theorem setTask_setJoin : (d.setJoin j y).setTask slot t = (d.setTask slot t).setJoin j y := rfl

/-- What was set before is overwritten. -/
@[simp] theorem setTask_setTask (t' : Option (Task G.Coroutine)) :
    (d.setTask slot t).setTask slot t' = d.setTask slot t' := by
  simp [setTask]

@[simp] theorem setWaker_setWaker (x' : Waker) :
    (d.setWaker k x).setWaker k x' = d.setWaker k x' := by
  simp [setWaker]

variable {k x}

/-- To set a waker to what it is changes nothing. -/
theorem setWaker_eq_self (h : d.waker k = some x) : d.setWaker k x = d := by
  simp [setWaker, ← h]

end

end Desk

/-! ## The desk in the world -/

namespace World

variable {w w' : World G} {l l' : LoopId}

/-- The desk of a loop. -/
def desk (w : World G) (l : LoopId) : Desk G :=
  ⟨w.task? l, w.waker?, w.join?⟩

theorem Agrees.queued (h : w.Agrees w') (l : LoopId) : w'.queued l = w.queued l := by
  rw [World.queued, World.queue?, World.loop?, h.loops]
  rfl

theorem Agrees.desk (h : w.Agrees w') (l : LoopId) : w'.desk l = w.desk l := by
  have htask : w'.task? l = w.task? l := by
    funext slot
    rw [World.task?, World.loop?, h.loops]
    rfl
  have hwaker : w'.waker? = w.waker? := by
    funext k
    rw [World.waker?, h.wakers]
    rfl
  have hjoin : w'.join? = w.join? := by
    funext j
    rw [World.join?, h.joins]
    rfl
  rw [World.desk, htask, hwaker, hjoin]
  rfl

/-- What a waker is marked with is changed by an operation that changes no other waker. -/
theorem desk_of_waker {k : WakerId} {x : Waker} {f : Waker → Waker}
    (h : ∀ k', w'.waker? k' = if k = k' then (w.waker? k').map f else w.waker? k')
    (htask : w'.task? l = w.task? l) (hjoin : w'.join? = w.join?) (hx : w.waker? k = some x) :
    w'.desk l = (w.desk l).setWaker k (f x) := by
  have hwaker : w'.waker? = Function.update w.waker? k (some (f x)) := by
    funext k'
    rw [h, Function.update_apply]
    by_cases hk : k = k'
    · simp [← hk, hx]
    · simp [hk, Ne.symm hk]
  rw [desk, htask, hwaker, hjoin]
  rfl

theorem desk_rearm {k : WakerId} {t : Target} {b : Bool} (h : w.waker? k = some ⟨l', t, b⟩) :
    (w.rearm k).desk l = (w.desk l).setWaker k ⟨l', t, false⟩ :=
  desk_of_waker (waker?_rearm k) rfl rfl h

theorem desk_mark {k : WakerId} {t : Target} {b : Bool} (h : w.waker? k = some ⟨l', t, b⟩) :
    (w.mark k).1.desk l = (w.desk l).setWaker k ⟨l', t, true⟩ :=
  desk_of_waker (waker?_mark k) rfl rfl h

theorem queued_congr (h : w'.queue? l = w.queue? l) : w'.queued l = w.queued l := by
  rw [queued, queued, h]

theorem queued_modifyQueue {q : Queue (Entry G)} (h : w.queue? l = some q)
    (f : Queue (Entry G) → Queue (Entry G)) : (w.modifyQueue l f).queued l = (f q).entries := by
  rw [queued, queue?_modifyQueue, if_pos rfl, h]
  rfl

theorem desk_modifyQueue (f : Queue (Entry G) → Queue (Entry G)) :
    (w.modifyQueue l f).desk l = w.desk l := by
  have htask : (w.modifyQueue l f).task? l = w.task? l := by
    funext slot
    exact task?_modifyQueue f slot
  rw [desk, htask]
  rfl

theorem desk_modifyTasks {f : Slab (Task G.Coroutine) → Slab (Task G.Coroutine)} {slot : Nat}
    {t : Option (Task G.Coroutine)}
    (h : ∀ slot', (w.modifyTasks l f).task? l slot' = if slot' = slot then t else w.task? l slot') :
    (w.modifyTasks l f).desk l = (w.desk l).setTask slot t := by
  have htask : (w.modifyTasks l f).task? l = Function.update (w.task? l) slot t := by
    funext slot'
    rw [h, Function.update_apply]
  rw [desk, htask]
  rfl

theorem desk_modify {slot : Nat} {t : Task G.Coroutine} (h : w.task? l slot = some t)
    (f : Task G.Coroutine → Task G.Coroutine) :
    (w.modifyTasks l (·.modify slot f)).desk l = (w.desk l).setTask slot (some (f t)) := by
  refine desk_modifyTasks fun slot' => ?_
  rw [task?_modify]
  by_cases hs : slot = slot'
  · subst hs
    simp [h]
  · simp [hs, Ne.symm hs]

theorem desk_removeTask (slot : Nat) :
    (w.removeTask l slot).desk l = (w.desk l).setTask slot none := by
  refine desk_modifyTasks fun slot' => ?_
  have h : (w.removeTask l slot).task? l slot' = _ := task?_removeTask
  rw [removeTask] at h
  rw [h]
  by_cases hs : slot = slot'
  · simp [hs]
  · simp [hs, Ne.symm hs]

theorem desk_setJoin {j : JoinId} {y : JoinSlot} (h : w.join? j = some y) (x : JoinSlot) :
    (w.setJoin j x).desk l = (w.desk l).setJoin j x := by
  have hjoin : (w.setJoin j x).join? = Function.update w.join? j (some x) := by
    funext j'
    rw [join?_setJoin h, Function.update_apply]
    by_cases hj : j = j'
    · simp [hj]
    · simp [hj, Ne.symm hj]
  rw [desk, hjoin]
  rfl

theorem desk_newWaker (w : World G) (l l' : LoopId) (t : Target) :
    (w.newWaker l' t).1.desk l = (w.desk l).setWaker ⟨w.wakers.size⟩ ⟨l', t, false⟩ := by
  have hwaker : (w.newWaker l' t).1.waker? =
      Function.update w.waker? ⟨w.wakers.size⟩ (some ⟨l', t, false⟩) := by
    funext k
    rw [waker?_newWaker, Function.update_apply]
  rw [desk, hwaker]
  rfl

theorem desk_newJoin (w : World G) (l : LoopId) :
    w.newJoin.1.desk l = (w.desk l).setJoin ⟨w.joins.size⟩ .new := by
  have hjoin : w.newJoin.1.join? = Function.update w.join? ⟨w.joins.size⟩ (some .new) := by
    funext ⟨j⟩
    simp only [join?, newJoin, Array.getElem?_push, Function.update_apply, JoinId.mk.injEq]
  rw [desk, hjoin]
  rfl

theorem desk_addTask (hv : w.TablesValid) (hl : ∃ s, w.tasks? l = some s) (kind : Kind)
    (f : Future G.Coroutine) : (w.addTask l kind f).1.desk l =
      ((w.desk l).setWaker ⟨w.wakers.size⟩ ⟨l, .task (w.nextSlot l), false⟩).setTask (w.nextSlot l)
        (some ⟨⟨w.wakers.size⟩, some ⟨kind, false, f⟩⟩) := by
  have htask : (w.addTask l kind f).1.task? l = Function.update (w.task? l) (w.nextSlot l)
      (some ⟨⟨w.wakers.size⟩, some ⟨kind, false, f⟩⟩) := by
    funext slot
    rw [hv.task?_addTask hl, Function.update_apply]
    by_cases hs : slot = w.nextSlot l
    · simp [hs]
    · simp [hs, Ne.symm hs]
  have hwaker : (w.addTask l kind f).1.waker? =
      Function.update w.waker? ⟨w.wakers.size⟩ (some ⟨l, .task (w.nextSlot l), false⟩) := by
    funext k
    rw [waker?_addTask, Function.update_apply]
  have hjoin : (w.addTask l kind f).1.join? = w.join? := by
    funext j
    rw [join?, join?, (size_addTask w l kind f).2]
  rw [desk, htask, hwaker, hjoin]
  rfl

end World

end RunLoop
