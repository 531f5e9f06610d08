import RunLoop.Debug
import RunLoop.Machine.Run

/-!
# Reading the world after a change

The operations on a loop change its queue or its task table and nothing else: they are brought into
the forms `World.modifyQueue` and `World.modifyTasks`. What is read of other objects is unchanged by
definition.

* `World.queue?` and `World.tasks?` are the two parts of a loop that change.
* `World.push?_eq_some_iff`, `World.takeBatch_eq`, `World.closeQueue_eq`, `World.drainTasks_eq` and
  `World.takeWork_eq_some_iff` bring operations into those forms.
-/

namespace RunLoop

/-- The outcome of a cell; none as long as it is pending. -/
def Cell.outcome? : Cell → Option Outcome
  | pending _ => none
  | settled o => some o

namespace Slab

variable {α : Type}

theorem get?_of_remove {s : Slab α} {i j : Nat} {v : α} (h : (s.remove i).1.get? j = some v) :
    s.get? j = some v := by
  rw [get?_remove] at h
  split at h
  · cases h
  · exact h

theorem get?_of_removeAll {s : Slab α} {is : List Nat} {j : Nat} {v : α}
    (h : (s.removeAll is).1.get? j = some v) : s.get? j = some v := by
  induction is generalizing s with
  | nil => exact h
  | cons i is ih => exact get?_of_remove (ih h)

theorem get?_of_drain {s : Slab α} {j : Nat} {v : α} (h : s.drain.1.get? j = some v) :
    s.get? j = some v :=
  get?_of_removeAll h

/-- A value that is found after an insertion is the new one or was there before. -/
theorem get?_of_insert {s : Slab α} {j : Nat} {v v' : α} (h : (s.insert v).1.get? j = some v') :
    j = s.vacant ∧ v' = v ∨ s.get? j = some v' := by
  rw [insert_fst] at h
  by_cases hj : s.vacant = j
  · subst hj
    obtain ⟨_, hcell⟩ : _ ∧ (s.allot.1.occupy s.vacant v).cell? s.vacant = some v' := by
      simpa [get?] using h
    refine .inl ⟨rfl, ?_⟩
    simp only [cell?, occupy, Array.getElem?_setIfInBounds, if_true] at hcell
    split at hcell <;> simp_all
  · rw [get?_occupy_of_ne _ _ hj, get?_allot] at h
    exact .inr h

end Slab

namespace World

variable {G : Guest} {w w' : World G} {l l' : LoopId}

/-- The queue of a loop. -/
def queue? (w : World G) (l : LoopId) : Option (Queue (Entry G)) :=
  (w.loop? l).map (·.queue)

/-- The task table of a loop. -/
def tasks? (w : World G) (l : LoopId) : Option (Slab (Task G.Coroutine)) :=
  (w.loop? l).map (·.tasks)

/-- Changes the queue of a loop. -/
def modifyQueue (w : World G) (l : LoopId) (f : Queue (Entry G) → Queue (Entry G)) : World G :=
  w.modifyLoop l (fun e => { e with queue := f e.queue })

/-- What is queued on a loop; nothing if there is no such loop. -/
def queued (w : World G) (l : LoopId) : List (Entry G) :=
  ((w.queue? l).map (·.entries)).getD []

theorem isClosed_eq (w : World G) (l : LoopId) :
    w.isClosed l = ((w.queue? l).map (·.closed)).getD true := by
  simp [isClosed, queue?, Function.comp_def]

theorem task?_eq (w : World G) (l : LoopId) (slot : Nat) :
    w.task? l slot = (w.tasks? l).bind (·.get? slot) := by
  unfold task? tasks?
  cases w.loop? l <;> rfl

/-! ## Changing one loop -/

theorem loop?_modifyLoop (f : EventLoop G → EventLoop G) :
    (w.modifyLoop l f).loop? l' = if l = l' then (w.loop? l').map f else w.loop? l' := by
  obtain ⟨i⟩ := l
  obtain ⟨j⟩ := l'
  simp [loop?, modifyLoop, Array.getElem?_modify]

theorem modifyLoop_of_none {f : EventLoop G → EventLoop G} (h : w.loop? l = none) :
    w.modifyLoop l f = w := by
  have hl : ¬l.index < w.loops.size := by simpa [loop?] using h
  simp [modifyLoop, Array.modify, Array.modifyM, hl]

theorem modifyLoop_congr {f g : EventLoop G → EventLoop G} {e : EventLoop G}
    (h : w.loop? l = some e) (hfg : f e = g e) : w.modifyLoop l f = w.modifyLoop l g := by
  have hl : l.index < w.loops.size := (Array.getElem?_eq_some_iff.mp h).1
  have he : w.loops[l.index] = e := (Array.getElem?_eq_some_iff.mp h).2
  simp [modifyLoop, Array.modify, Array.modifyM, hl, he, hfg]

theorem queue?_modifyQueue (f : Queue (Entry G) → Queue (Entry G)) :
    (w.modifyQueue l f).queue? l' = if l = l' then (w.queue? l').map f else w.queue? l' := by
  unfold queue? modifyQueue
  rw [loop?_modifyLoop]
  split
  · cases w.loop? l' <;> rfl
  · rfl

@[simp] theorem tasks?_modifyQueue (f : Queue (Entry G) → Queue (Entry G)) :
    (w.modifyQueue l f).tasks? l' = w.tasks? l' := by
  unfold tasks? modifyQueue
  rw [loop?_modifyLoop]
  split
  · cases w.loop? l' <;> rfl
  · rfl

theorem tasks?_modifyTasks (f : Slab (Task G.Coroutine) → Slab (Task G.Coroutine)) :
    (w.modifyTasks l f).tasks? l' = if l = l' then (w.tasks? l').map f else w.tasks? l' := by
  unfold tasks? modifyTasks
  rw [loop?_modifyLoop]
  split
  · cases w.loop? l' <;> rfl
  · rfl

@[simp] theorem queue?_modifyTasks (f : Slab (Task G.Coroutine) → Slab (Task G.Coroutine)) :
    (w.modifyTasks l f).queue? l' = w.queue? l' := by
  unfold queue? modifyTasks
  rw [loop?_modifyLoop]
  split
  · cases w.loop? l' <;> rfl
  · rfl

/-- The slot of the table that the next task of a loop gets. -/
def nextSlot (w : World G) (l : LoopId) : Nat :=
  ((w.tasks? l).map (·.vacant)).getD 0

theorem addTask_eq (w : World G) (l : LoopId) (kind : Kind) (f : Future G.Coroutine) :
    ∃ e, w.addTask l kind f =
      (((w.newWaker l (.task (w.nextSlot l))).1.modifyTasks l
        (fun t => (t.insert ⟨⟨w.wakers.size⟩, some ⟨kind, false, f⟩⟩).1)).emit e,
      ⟨w.wakers.size⟩) := by
  have hslot : ((w.loop? l).map (·.tasks.vacant)).getD 0 = w.nextSlot l := by
    cases h : w.loop? l <;> simp [nextSlot, tasks?, h]
  unfold addTask
  rw [hslot]
  exact ⟨_, rfl⟩

/-! ### Operations on other objects -/

@[simp] theorem queue?_emit (e : Event) : (w.emit e).queue? l = w.queue? l :=
  rfl

@[simp] theorem tasks?_emit (e : Event) : (w.emit e).tasks? l = w.tasks? l :=
  rfl

@[simp] theorem queue?_mark (k : WakerId) : (w.mark k).1.queue? l = w.queue? l :=
  rfl

@[simp] theorem queue?_rearm (k : WakerId) : (w.rearm k).queue? l = w.queue? l :=
  rfl

@[simp] theorem queue?_claim (s : SourceId) : (w.claim s).1.queue? l = w.queue? l :=
  rfl

@[simp] theorem queue?_newSource : (w.newSource l').1.queue? l = w.queue? l :=
  rfl

@[simp] theorem queue?_newWaker (t : Target) : (w.newWaker l' t).1.queue? l = w.queue? l :=
  rfl

@[simp] theorem queue?_newJoin : w.newJoin.1.queue? l = w.queue? l :=
  rfl

@[simp] theorem queue?_setCell (c : CellId) (x : Cell) : (w.setCell c x).queue? l = w.queue? l :=
  rfl

@[simp] theorem queue?_setJoin (j : JoinId) (x : JoinSlot) :
    (w.setJoin j x).queue? l = w.queue? l :=
  rfl

@[simp] theorem queue?_removeTask (slot : Nat) : (w.removeTask l' slot).queue? l = w.queue? l :=
  queue?_modifyTasks _

@[simp] theorem queue?_addTask (kind : Kind) (f : Future G.Coroutine) :
    (w.addTask l' kind f).1.queue? l = w.queue? l := by
  obtain ⟨e, he⟩ := addTask_eq w l' kind f
  simp [he]

theorem tasks?_addTask (kind : Kind) (f : Future G.Coroutine) :
    (w.addTask l kind f).1.tasks? l' =
      if l = l' then
        (w.tasks? l').map (fun s => (s.insert ⟨⟨w.wakers.size⟩, some ⟨kind, false, f⟩⟩).1)
      else w.tasks? l' := by
  obtain ⟨e, he⟩ := addTask_eq w l kind f
  rw [he, tasks?_emit, tasks?_modifyTasks]
  rfl

theorem queue?_build (c : Config G) :
    (w.build c).1.queue? l = if l = ⟨w.loops.size⟩ then some .empty else w.queue? l := by
  obtain ⟨i⟩ := l
  by_cases h : i = w.loops.size
  · simp [queue?, loop?, build, emit, write, h, Config.build]
  · simp [queue?, loop?, build, emit, write, Array.getElem?_push, h]

theorem tasks?_build (c : Config G) :
    (w.build c).1.tasks? l =
      if l = ⟨w.loops.size⟩ then some (.new Config.initialSlots) else w.tasks? l := by
  obtain ⟨i⟩ := l
  by_cases h : i = w.loops.size
  · simp [tasks?, loop?, build, emit, write, h, Config.build]
  · simp [tasks?, loop?, build, emit, write, Array.getElem?_push, h]

/-- The loop built next does not exist yet. -/
theorem queue?_size (w : World G) : w.queue? ⟨w.loops.size⟩ = none := by
  simp [queue?, loop?]

theorem tasks?_size (w : World G) : w.tasks? ⟨w.loops.size⟩ = none := by
  simp [tasks?, loop?]

/-! ## Cells and join slots -/

/-- The outcome behind a reference to a cell; none as long as the cell is pending. -/
def outcome? (w : World G) (c : CellId) : Option Outcome :=
  (w.cell? c).bind Cell.outcome?

theorem cell?_setCell {c c' : CellId} {x y : Cell} (h : w.cell? c = some y) :
    (w.setCell c x).cell? c' = if c = c' then some x else w.cell? c' := by
  obtain ⟨i⟩ := c
  obtain ⟨j⟩ := c'
  obtain ⟨hi, _⟩ := Array.getElem?_eq_some_iff.mp h
  simp only [cell?, setCell, Array.getElem?_setIfInBounds, CellId.mk.injEq]
  split <;> simp_all

theorem join?_setJoin {j j' : JoinId} {x y : JoinSlot} (h : w.join? j = some y) :
    (w.setJoin j x).join? j' = if j = j' then some x else w.join? j' := by
  obtain ⟨i⟩ := j
  obtain ⟨i'⟩ := j'
  obtain ⟨hi, _⟩ := Array.getElem?_eq_some_iff.mp h
  simp only [join?, setJoin, Array.getElem?_setIfInBounds, JoinId.mk.injEq]
  split <;> simp_all

theorem isSettled_eq (w : World G) (c : CellId) : w.isSettled c = (w.outcome? c).isSome := by
  unfold isSettled outcome?
  cases w.cell? c with
  | none => rfl
  | some x => cases x <;> rfl

theorem outcome?_setCell {c c' : CellId} {x y : Cell} (h : w.cell? c = some y) :
    (w.setCell c x).outcome? c' =
      if c = c' then x.outcome? else w.outcome? c' := by
  unfold outcome?
  rw [cell?_setCell h]
  split <;> rfl

theorem source?_claim (s s' : SourceId) :
    (w.claim s).1.source? s' =
      if s = s' then (w.source? s').map (fun x => { x with settled := true })
      else w.source? s' := by
  obtain ⟨i⟩ := s
  obtain ⟨j⟩ := s'
  simp [source?, claim, Array.getElem?_modify]

@[simp] theorem outcome?_claim (s : SourceId) (c : CellId) :
    (w.claim s).1.outcome? c = w.outcome? c :=
  rfl

theorem source?_newSource (s : SourceId) :
    (w.newSource l).1.source? s =
      if s = ⟨w.sources.size⟩ then some ⟨l, ⟨w.cells.size⟩, false⟩ else w.source? s := by
  obtain ⟨i⟩ := s
  simp only [source?, newSource, Array.getElem?_push, SourceId.mk.injEq]

theorem cell?_of_newSource {c : CellId} {x : Cell} (h : w.cell? c = some x) :
    (w.newSource l).1.cell? c = some x := by
  have hlt := (Array.getElem?_eq_some_iff.mp h).1
  simp only [cell?, newSource, Array.getElem?_push_lt hlt]
  rw [← Array.getElem?_eq_getElem hlt]
  exact h

theorem join?_of_push {j : JoinId} {x y : JoinSlot} (h : w.join? j = some x) :
    { w with joins := w.joins.push y }.join? j = some x := by
  have hlt := (Array.getElem?_eq_some_iff.mp h).1
  simp only [join?, Array.getElem?_push_lt hlt]
  rw [← Array.getElem?_eq_getElem hlt]
  exact h

theorem outcome?_newSource (c : CellId) : (w.newSource l).1.outcome? c = w.outcome? c := by
  obtain ⟨i⟩ := c
  simp only [outcome?, cell?, newSource, Array.getElem?_push]
  split
  · rename_i h
    simp [h, Cell.new, Cell.outcome?]
  · rfl

/-! ## Wakers -/

/-- Whether a waker is marked. -/
def notified (w : World G) (k : WakerId) : Bool :=
  (w.waker? k).any (·.notified)

theorem waker?_mark (k k' : WakerId) :
    (w.mark k).1.waker? k' =
      if k = k' then (w.waker? k').map (fun x => { x with notified := true })
      else w.waker? k' := by
  obtain ⟨i⟩ := k
  obtain ⟨j⟩ := k'
  simp [waker?, mark, Array.getElem?_modify]

theorem waker?_rearm (k k' : WakerId) :
    (w.rearm k).waker? k' =
      if k = k' then (w.waker? k').map (fun x => { x with notified := false })
      else w.waker? k' := by
  obtain ⟨i⟩ := k
  obtain ⟨j⟩ := k'
  simp [waker?, rearm, Array.getElem?_modify]

theorem waker?_newWaker (t : Target) (k : WakerId) :
    (w.newWaker l t).1.waker? k =
      if k = ⟨w.wakers.size⟩ then some ⟨l, t, false⟩ else w.waker? k := by
  obtain ⟨i⟩ := k
  simp only [waker?, newWaker, Array.getElem?_push, WakerId.mk.injEq]

theorem waker?_addTask (kind : Kind) (f : Future G.Coroutine) (k : WakerId) :
    (w.addTask l kind f).1.waker? k =
      if k = ⟨w.wakers.size⟩ then some ⟨l, .task (w.nextSlot l), false⟩ else w.waker? k := by
  obtain ⟨e, he⟩ := addTask_eq w l kind f
  rw [he]
  exact waker?_newWaker _ k

/-- The waker made next does not exist yet. -/
theorem waker?_size (w : World G) : w.waker? ⟨w.wakers.size⟩ = none := by
  simp [waker?]

theorem notified_eq_false {k : WakerId} {x : Waker} (h : w.waker? k = some x)
    (hx : x.notified = false) : w.notified k = false := by
  simp [notified, h, hx]

theorem notified_mark (k k' : WakerId) :
    (w.mark k).1.notified k' = if k = k' then (w.waker? k').isSome else w.notified k' := by
  unfold notified
  rw [waker?_mark]
  split
  · cases w.waker? k' <;> rfl
  · rfl

theorem notified_rearm (k k' : WakerId) :
    (w.rearm k).notified k' = if k = k' then false else w.notified k' := by
  unfold notified
  rw [waker?_rearm]
  split
  · cases w.waker? k' <;> rfl
  · rfl

/-- A waker that is made is not marked. -/
theorem notified_of_made {x : Waker} (hx : x.notified = false)
    (h : ∀ k, w'.waker? k = if k = ⟨w.wakers.size⟩ then some x else w.waker? k) (k : WakerId) :
    w'.notified k = w.notified k := by
  unfold notified
  rw [h]
  split
  · rename_i hk
    rw [hk, waker?_size, Option.any_some, hx]
    rfl
  · rfl

@[simp] theorem notified_newWaker (t : Target) (k : WakerId) :
    (w.newWaker l t).1.notified k = w.notified k :=
  notified_of_made rfl (waker?_newWaker t) k

@[simp] theorem notified_addTask (kind : Kind) (f : Future G.Coroutine) (k : WakerId) :
    (w.addTask l kind f).1.notified k = w.notified k :=
  notified_of_made rfl (waker?_addTask kind f) k

/-! ## Tasks -/

@[simp] theorem task?_modifyQueue (f : Queue (Entry G) → Queue (Entry G)) (slot : Nat) :
    (w.modifyQueue l f).task? l' slot = w.task? l' slot := by
  rw [task?_eq, task?_eq, tasks?_modifyQueue]

theorem task?_modify {slot slot' : Nat} (f : Task G.Coroutine → Task G.Coroutine) :
    (w.modifyTasks l (·.modify slot f)).task? l' slot' =
      if l = l' ∧ slot = slot' then (w.task? l' slot').map f else w.task? l' slot' := by
  rw [task?_eq, task?_eq, tasks?_modifyTasks]
  by_cases hl : l = l'
  · cases w.tasks? l' <;> simp [hl]
  · simp [hl]

theorem task?_removeTask {slot slot' : Nat} :
    (w.removeTask l slot).task? l' slot' =
      if l = l' ∧ slot = slot' then none else w.task? l' slot' := by
  rw [removeTask, task?_eq, task?_eq, tasks?_modifyTasks]
  by_cases hl : l = l'
  · cases w.tasks? l' <;> simp [hl]
  · simp [hl]

/-- What is left after a table was emptied was there before. -/
theorem task?_of_drain {slot : Nat} {t : Task G.Coroutine}
    (h : (w.modifyTasks l (·.drain.1)).task? l' slot = some t) : w.task? l' slot = some t := by
  rw [task?_eq, tasks?_modifyTasks] at h
  rw [task?_eq]
  split at h
  · cases hs : w.tasks? l' with
    | none => simp [hs] at h
    | some s =>
      rw [hs] at h
      exact Slab.get?_of_drain h
  · exact h

@[simp] theorem task?_emit (e : Event) (slot : Nat) : (w.emit e).task? l slot = w.task? l slot :=
  rfl

@[simp] theorem task?_rearm (k : WakerId) (slot : Nat) :
    (w.rearm k).task? l slot = w.task? l slot :=
  rfl

/-- A task that is found after one was added is the new one or was there before. -/
theorem task?_of_addTask {slot : Nat} {t : Task G.Coroutine} {kind : Kind}
    {f : Future G.Coroutine} (h : (w.addTask l kind f).1.task? l' slot = some t) :
    l' = l ∧ slot = w.nextSlot l ∧ t = ⟨⟨w.wakers.size⟩, some ⟨kind, false, f⟩⟩ ∨
      w.task? l' slot = some t := by
  obtain ⟨e, he⟩ := addTask_eq w l kind f
  rw [he, task?_emit, task?_eq, tasks?_modifyTasks] at h
  rw [task?_eq]
  split at h
  · rename_i hl
    cases hs : w.tasks? l' with
    | none =>
      have hs' : (w.newWaker l (.task (w.nextSlot l))).1.tasks? l' = none := hs
      simp [hs'] at h
    | some s =>
      have hs' : (w.newWaker l (.task (w.nextSlot l))).1.tasks? l' = some s := hs
      rw [hs'] at h
      refine (Slab.get?_of_insert h).imp_left fun ⟨hslot, ht⟩ => ⟨hl.symm, ?_, ht⟩
      simp [nextSlot, hl, hs, hslot]
  · exact .inr h

theorem task?_build (c : Config G) (slot : Nat) :
    (w.build c).1.task? l slot = if l = ⟨w.loops.size⟩ then none else w.task? l slot := by
  obtain ⟨i⟩ := l
  by_cases h : i = w.loops.size
  · simp [task?, loop?, build, emit, write, h, Config.build]
  · simp [task?, loop?, build, emit, write, Array.getElem?_push, h]

/-! ## Operations on one loop -/

/-- Exactly an open loop accepts an entry, at the back of its queue. -/
theorem push?_eq_some_iff {e : Entry G} : w.push? l e = some w' ↔
    w.isClosed l = false ∧ w' = w.modifyQueue l (fun q => ⟨q.entries ++ [e], q.closed⟩) := by
  unfold push? isClosed Queue.push?
  cases h : w.loop? l with
  | none => simp
  | some x =>
    cases hc : x.queue.closed with
    | true => simp [hc]
    | false =>
      have hl : w.modifyLoop l (fun y => { y with queue := ⟨x.queue.entries ++ [e], false⟩ }) =
          w.modifyQueue l (fun q => ⟨q.entries ++ [e], q.closed⟩) :=
        modifyLoop_congr h (by simp [hc])
      rw [← hl]
      simp only [Option.bind_some, hc, Bool.false_eq_true, if_false, Option.map_some,
        Option.getD_some, true_and, Option.some.injEq]
      exact eq_comm

theorem takeBatch_eq (w : World G) (l : LoopId) :
    w.takeBatch l = (w.modifyQueue l (·.takeBatch.1), w.queued l) := by
  unfold takeBatch queued queue? modifyQueue
  cases h : w.loop? l with
  | none => rw [modifyLoop_of_none h]; rfl
  | some e => exact Prod.ext (modifyLoop_congr h rfl) rfl

theorem closeQueue_eq (w : World G) (l : LoopId) :
    w.closeQueue l = (w.modifyQueue l (·.close.1), w.queued l) := by
  unfold closeQueue queued queue? modifyQueue
  cases h : w.loop? l with
  | none => rw [modifyLoop_of_none h]; rfl
  | some e => exact Prod.ext (modifyLoop_congr h rfl) rfl

theorem drainTasks_eq (w : World G) (l : LoopId) :
    w.drainTasks l =
      (w.modifyTasks l (·.drain.1), ((w.tasks? l).map (·.drain.2)).getD []) := by
  unfold drainTasks tasks? modifyTasks
  cases h : w.loop? l with
  | none => rw [modifyLoop_of_none h]; rfl
  | some e => exact Prod.ext (modifyLoop_congr h rfl) rfl

theorem takeWork_eq_some_iff {slot : Nat} {k : WakerId} {work : Work G.Coroutine} :
    w.takeWork l slot = some (w', k, work) ↔
      w.task? l slot = some ⟨k, some work⟩ ∧
        w' = (w.modifyTasks l (·.modify slot (fun t => { t with work := none }))).rearm k := by
  unfold takeWork
  split
  · rename_i k' work' h
    constructor
    · rintro ⟨⟩
      exact ⟨h, rfl⟩
    · rintro ⟨h', rfl⟩
      cases h.symm.trans h'
      rfl
  · rename_i h
    exact ⟨nofun, fun h' => absurd h'.1 (h k work)⟩

theorem takeWork_eq_none_iff {slot : Nat} :
    w.takeWork l slot = none ↔ ∀ k work, w.task? l slot ≠ some ⟨k, some work⟩ := by
  rw [Option.eq_none_iff_forall_ne_some]
  constructor
  · intro h k work ht
    exact h _ (takeWork_eq_some_iff.mpr ⟨ht, rfl⟩)
  · rintro h ⟨w', k, work⟩ ht
    exact h k work (takeWork_eq_some_iff.mp ht).1

end World

end RunLoop
