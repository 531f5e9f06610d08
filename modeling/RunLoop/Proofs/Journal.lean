import RunLoop.Proofs.Milestones

/-!
# What was written before

The journal is written, and never read: no operation of the world depends on what it holds. Here
this is said by equations. An operation on a world before which `J` was written comes to what it
would come to without `J`, and writes the same lines.

* `World.after` is a world before which something was written.
* `World.eq_after` takes what was written out of a world.
-/

namespace RunLoop.World

variable {G : Guest} (J : Array (Line G)) (w : World G)

/-- The world `w` with the lines `J` written before. -/
def after (J : Array (Line G)) (w : World G) : World G :=
  { w with journal := J ++ w.journal }

theorem eq_after (w : World G) : w = w.view.after w.journal := by
  simp [after, view]

/-! ## Reading -/

@[simp] theorem loop?_after (l : LoopId) : (w.after J).loop? l = w.loop? l :=
  rfl

@[simp] theorem loopName_after (l : LoopId) : (w.after J).loopName l = w.loopName l :=
  rfl

@[simp] theorem isClosed_after (l : LoopId) : (w.after J).isClosed l = w.isClosed l :=
  rfl

@[simp] theorem hasWork_after (l : LoopId) : (w.after J).hasWork l = w.hasWork l :=
  rfl

@[simp] theorem waker?_after (k : WakerId) : (w.after J).waker? k = w.waker? k :=
  rfl

@[simp] theorem cell?_after (c : CellId) : (w.after J).cell? c = w.cell? c :=
  rfl

@[simp] theorem source?_after (s : SourceId) : (w.after J).source? s = w.source? s :=
  rfl

@[simp] theorem join?_after (j : JoinId) : (w.after J).join? j = w.join? j :=
  rfl

@[simp] theorem task?_after (l : LoopId) (slot : Nat) : (w.after J).task? l slot = w.task? l slot :=
  rfl

/-! ## Writing -/

@[simp] theorem write_after (item : Item G) : (w.after J).write item = (w.write item).after J := by
  simp [after, write]

@[simp] theorem emit_after (e : Event) : (w.after J).emit e = (w.emit e).after J :=
  write_after J w _

@[simp] theorem note_after (notes : List G.Note) :
    (w.after J).note notes = (w.note notes).after J := by
  unfold note
  induction notes generalizing w with
  | nil => rfl
  | cons n notes ih =>
    rw [List.foldl_cons, write_after]
    exact ih _

/-! ## Changing objects -/

@[simp] theorem modifyTasks_after (l : LoopId)
    (f : Slab (Task G.Coroutine) → Slab (Task G.Coroutine)) :
    (w.after J).modifyTasks l f = (w.modifyTasks l f).after J :=
  rfl

@[simp] theorem enter_after (l : Option LoopId) : (w.after J).enter l = (w.enter l).after J :=
  rfl

@[simp] theorem build_after (c : Config G) :
    (w.after J).build c = ((w.build c).1.after J, (w.build c).2) := by
  simp only [build, emit_after]
  rfl

@[simp] theorem newWaker_after (l : LoopId) (t : Target) :
    (w.after J).newWaker l t = ((w.newWaker l t).1.after J, (w.newWaker l t).2) :=
  rfl

@[simp] theorem newJoin_after : (w.after J).newJoin = (w.newJoin.1.after J, w.newJoin.2) :=
  rfl

@[simp] theorem newSource_after (l : LoopId) :
    (w.after J).newSource l = ((w.newSource l).1.after J, (w.newSource l).2) :=
  rfl

@[simp] theorem reserve_after (n : Nat) :
    (w.after J).reserve n = ((w.reserve n).1.after J, (w.reserve n).2) :=
  rfl

@[simp] theorem push?_after (l : LoopId) (e : Entry G) :
    (w.after J).push? l e = (w.push? l e).map (after J) := by
  unfold push?
  rw [loop?_after]
  cases (w.loop? l).bind (·.queue.push? e) <;> rfl

@[simp] theorem mark_after (k : WakerId) :
    (w.after J).mark k = ((w.mark k).1.after J, (w.mark k).2) :=
  rfl

@[simp] theorem rearm_after (k : WakerId) : (w.after J).rearm k = (w.rearm k).after J :=
  rfl

@[simp] theorem notify_after (k : WakerId) : (w.after J).notify k = (w.notify k).after J := by
  unfold notify
  rw [waker?_after]
  cases w.waker? k with
  | none => rfl
  | some x =>
    simp only [push?_after, emit_after]
    cases w.push? x.loop x.target.entry <;> rfl

@[simp] theorem takeBatch_after (l : LoopId) :
    (w.after J).takeBatch l = ((w.takeBatch l).1.after J, (w.takeBatch l).2) := by
  simp only [takeBatch_eq]
  rfl

@[simp] theorem putBackBatch_after (l : LoopId) (rest : List (Entry G)) :
    (w.after J).putBackBatch l rest = (w.putBackBatch l rest).after J :=
  rfl

@[simp] theorem closeQueue_after (l : LoopId) :
    (w.after J).closeQueue l = ((w.closeQueue l).1.after J, (w.closeQueue l).2) := by
  simp only [closeQueue_eq]
  rfl

@[simp] theorem pollCell_after (c : CellId) (k : WakerId) :
    (w.after J).pollCell c k = ((w.pollCell c k).1.after J, (w.pollCell c k).2) := by
  unfold pollCell
  rw [cell?_after]
  cases w.cell? c <;> rfl

@[simp] theorem settle?_after (c : CellId) (o : Outcome) :
    (w.after J).settle? c o = (w.settle? c o).map (fun x => (x.1.after J, x.2)) := by
  unfold settle?
  rw [Option.map_map]
  rfl

@[simp] theorem claim_after (s : SourceId) :
    (w.after J).claim s = ((w.claim s).1.after J, (w.claim s).2) :=
  rfl

@[simp] theorem pollJoin_after (j : JoinId) (k : WakerId) :
    (w.after J).pollJoin j k = ((w.pollJoin j k).1.after J, (w.pollJoin j k).2) := by
  unfold pollJoin
  rw [join?_after]
  cases w.join? j <;> rfl

@[simp] theorem fill_after (j : JoinId) (o : Joined) :
    (w.after J).fill j o = ((w.fill j o).1.after J, (w.fill j o).2) := by
  unfold fill
  rw [join?_after]
  cases w.join? j <;> rfl

/-! ## Tasks -/

@[simp] theorem addTask_after (l : LoopId) (kind : Kind) (f : Future G.Coroutine) :
    (w.after J).addTask l kind f = ((w.addTask l kind f).1.after J, (w.addTask l kind f).2) := by
  simp only [addTask, newWaker_after, modifyTasks_after, emit_after, loop?_after, loopName_after]

@[simp] theorem takeWork_after (l : LoopId) (slot : Nat) :
    (w.after J).takeWork l slot = (w.takeWork l slot).map (fun x => (x.1.after J, x.2)) := by
  unfold takeWork
  rw [task?_after]
  split <;> rfl

@[simp] theorem putBackWork_after (l : LoopId) (slot : Nat) (work : Work G.Coroutine) :
    (w.after J).putBackWork l slot work = (w.putBackWork l slot work).after J :=
  rfl

@[simp] theorem removeTask_after (l : LoopId) (slot : Nat) :
    (w.after J).removeTask l slot = (w.removeTask l slot).after J :=
  rfl

@[simp] theorem finishTask_after (l : LoopId) (slot : Nat) :
    (w.after J).finishTask l slot = (w.finishTask l slot).after J :=
  emit_after J (w.removeTask l slot) _

@[simp] theorem drainTasks_after (l : LoopId) :
    (w.after J).drainTasks l = ((w.drainTasks l).1.after J, (w.drainTasks l).2) := by
  simp only [drainTasks_eq]
  rfl

/-! ## Milestones -/

@[simp] theorem told_after (a : Answer G) (job : Job G) :
    (w.after J).told a job = w.told a job := by
  cases job with
  | serve q => cases q <;> rfl
  | _ => rfl

@[simp] theorem toldOfPanic_after (p : Payload) (job : Job G) :
    (w.after J).toldOfPanic p job = w.toldOfPanic p job := by
  cases job <;> rfl

end RunLoop.World
