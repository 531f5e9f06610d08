import RunLoop.Proofs.Closed
import RunLoop.Proofs.Slots
import RunLoop.Proofs.Walk

/-!
# Milestones of tasks

The life of a task is told by its milestones: it is spawned into a slot of the table of a loop,
polled, comes to its end or is dropped with its loop, and its outcome goes through a join slot to
whoever awaits it. As with what happens to the loops (`Machine.happenings`), `Machine.milestones`
reads them off the job that is about to be performed.

* `Milestone` lists them.
* `Machine.milestones` says which ones the next step of the running thread reaches.
* `Milestone.Origin` and `Machine.origin_of_milestone`: which job reaches a milestone, and how.
-/

namespace RunLoop

/-- A milestone in the life of a task. -/
inductive Milestone where
  /-- A task was put into a slot, with a waker of its own. -/
  | spawned (loop : LoopId) (slot : Nat) (waker : WakerId) (kind : Kind)
  /-- A poll of a task began. -/
  | begun (loop : LoopId) (slot : Nat) (waker : WakerId)
  /-- The future of a task was ready, or panicked. -/
  | ended (loop : LoopId) (slot : Nat) (kind : Kind) (outcome : Joined)
  /-- The future of a task that came to its end panicked when it was dropped. -/
  | spoilt (loop : LoopId) (slot : Nat) (kind : Kind)
  /-- A task that came to its end left its slot. -/
  | finished (loop : LoopId) (slot : Nat) (waker : WakerId)
  /-- A task that did not come to its end was taken out of its slot, with its loop. -/
  | dropped (loop : LoopId) (slot : Nat) (waker : WakerId) (kind : Option Kind)
  /-- A waker was left at a join slot. -/
  | awaited (slot : JoinId) (waker : WakerId)
  /-- An outcome was put into a join slot. -/
  | filled (slot : JoinId) (outcome : Joined)
  /-- An outcome was taken out of a join slot. -/
  | taken (slot : JoinId) (outcome : Joined)

/-- The join slot that is told of the outcome of a task, if there is one. -/
def Kind.slots : Kind → List JoinId
  | joined j => [j]
  | detached => []

namespace World

variable {G : Guest}

/-- The tasks in the table of a loop, with their slots. -/
def tenants (w : World G) (l : LoopId) : List (Nat × Task G.Coroutine) :=
  ((w.tasks? l).map (·.entries)).getD []

/-- The tasks that are taken out of a table are those that were in it, by slot. -/
theorem drainTasks_eq_tenants (w : World G) (l : LoopId) :
    w.drainTasks l = (w.modifyTasks l (·.drain.1), (w.tenants l).map Prod.snd) := by
  rw [drainTasks_eq]
  unfold tenants
  cases w.tasks? l with
  | none => rfl
  | some s => simp [Slab.drain_snd]

/-- The tasks of a loop are dropped. -/
def toldOfDrop (w : World G) (l : LoopId) : List Milestone :=
  (w.tenants l).map (fun e => .dropped l e.1 e.2.waker (e.2.work.map (·.kind)))

/-- A task is removed from its slot. -/
def toldOfEnd (w : World G) (l : LoopId) (slot : Nat) : List Milestone :=
  (w.task? l slot).toList.map (fun t => .finished l slot t.waker)

/-- A join slot is read. -/
def toldOfRead (w : World G) (j : JoinId) (k : WakerId) : List Milestone :=
  match w.join? j with
  | some ⟨none, _⟩ => [.awaited j k]
  | some ⟨some o, _⟩ => [.taken j o]
  | none => []

/-- A task is spawned on the current loop, if there is one. -/
def toldOfSpawn (w : World G) (kind : Kind) : List Milestone :=
  match w.thread.current with
  | some l => [.spawned l (w.nextSlot l) ⟨w.wakers.size⟩ kind]
  | none => []

/-- A task is polled, if one is in the slot. -/
def toldOfPoll (w : World G) (l : LoopId) (slot : Nat) : List Milestone :=
  match w.task? l slot with
  | some ⟨k, some _⟩ => [.begun l slot k]
  | _ => []

/-- A job is performed in order, given the answer left last. -/
def told (w : World G) (a : Answer G) : Job G → List Milestone
  | .serve (.spawn _) => w.toldOfSpawn (.joined ⟨w.joins.size⟩)
  | .serve (.poll (.nested _) _) => w.toldOfSpawn (.joined ⟨w.joins.size⟩)
  | .serve (.start _) => w.toldOfSpawn .detached
  | .serve (.poll (.forwarding j) k) => w.toldOfRead j k
  | .serve (.pollJoin j k) => w.toldOfRead j k
  | .turn l _ _ (.wake slot :: _) => w.toldOfPoll l slot
  | .turn _ _ _ (.call (.start _) :: _) => w.toldOfSpawn .detached
  | .taskPolled l slot kind =>
      match a.toPoll with
      | .ready r _ => [.ended l slot kind (.ok r)]
      | .pending _ => []
  | .taskFinished l slot => w.toldOfEnd l slot
  | .taskPanicked l slot _ => w.toldOfEnd l slot
  | .drain l _ => w.toldOfDrop l
  | .fill j o => if (w.join? j).isSome then [.filled j o] else []
  | _ => []

/-- A job is taken off the stack by a panic. -/
def toldOfPanic (w : World G) (p : Payload) : Job G → List Milestone
  | .taskPolled l slot kind => [.ended l slot kind (.error p.toError)]
  | .taskEnded l slot kind _ => [.spoilt l slot kind]
  | .drain l _ => w.toldOfDrop l
  | _ => []

end World

/-- The milestones of the next step of the running thread, unless it has to wait. -/
def Machine.milestones {G : Guest} (m : Machine G) : List Milestone :=
  match m.jobs, m.mode with
  | job :: _, .going a => m.world.told a job
  | job :: _, .unwinding p _ => m.world.toldOfPanic p job
  | _, _ => []

/-! ## Where milestones come from -/

variable {G : Guest} {w : World G} {a : Answer G} {p : Payload} {job : Job G} {kind : Kind}
  {e : Milestone}

/-- Performed in order, the job spawns a task on the loop that is current. -/
def Job.spawns : Job G → Bool
  | serve (.spawn _) | serve (.start _) | serve (.poll (.nested _) _)
  | turn _ _ _ (.call (.start _) :: _) => true
  | _ => false

/-- A milestone is reached by a job that is performed in some mode. -/
inductive Milestone.Origin (w : World G) : Mode G → Job G → Milestone → Prop where
  | spawned {a job l kind} (hj : job.spawns = true) (hl : w.thread.current = some l) :
      Origin w (.going a) job (.spawned l (w.nextSlot l) ⟨w.wakers.size⟩ kind)
  | begun {a l k' f slot batch k work} (ht : w.task? l slot = some ⟨k, some work⟩) :
      Origin w (.going a) (.turn l k' f (.wake slot :: batch)) (.begun l slot k)
  | ready {a l slot kind r f} (hr : a.toPoll = .ready r f) :
      Origin w (.going a) (.taskPolled l slot kind) (.ended l slot kind (.ok r))
  | panicked {p r l slot kind} :
      Origin w (.unwinding p r) (.taskPolled l slot kind) (.ended l slot kind (.error p.toError))
  | spoilt {p r l slot kind o} :
      Origin w (.unwinding p r) (.taskEnded l slot kind o) (.spoilt l slot kind)
  | finished {mode job l slot t} (ht : w.task? l slot = some t) :
      Origin w mode job (.finished l slot t.waker)
  | dropped {mode l n slot t} (ht : (slot, t) ∈ w.tenants l) :
      Origin w mode (.drain l n) (.dropped l slot t.waker (t.work.map (·.kind)))
  | awaited {a job j k} : Origin w (.going a) job (.awaited j k)
  | taken {a job j o} : Origin w (.going a) job (.taken j o)
  | filled {a j o} : Origin w (.going a) (.fill j o) (.filled j o)

namespace World

theorem origin_of_toldOfSpawn (hj : job.spawns = true) (h : e ∈ w.toldOfSpawn kind) :
    e.Origin w (.going a) job := by
  unfold toldOfSpawn at h
  split at h
  · rename_i l hl
    cases List.mem_singleton.mp h
    exact .spawned hj hl
  · cases h

theorem origin_of_toldOfRead {j : JoinId} {k : WakerId} (h : e ∈ w.toldOfRead j k) :
    e.Origin w (.going a) job := by
  unfold toldOfRead at h
  split at h
  · cases List.mem_singleton.mp h
    exact .awaited
  · cases List.mem_singleton.mp h
    exact .taken
  · cases h

theorem origin_of_toldOfEnd {l : LoopId} {slot : Nat} {mode : Mode G}
    (h : e ∈ w.toldOfEnd l slot) : e.Origin w mode job := by
  obtain ⟨t, ht, rfl⟩ := List.mem_map.mp h
  exact .finished (Option.mem_toList.mp ht)

theorem origin_of_toldOfDrop {l : LoopId} {n : Nat} {mode : Mode G} (h : e ∈ w.toldOfDrop l) :
    e.Origin w mode (.drain l n) := by
  obtain ⟨⟨slot, t⟩, ht, rfl⟩ := List.mem_map.mp h
  exact .dropped ht

theorem origin_of_told (h : e ∈ w.told a job) : e.Origin w (.going a) job := by
  unfold told at h
  split at h
  case h_1 | h_2 | h_3 | h_7 => exact origin_of_toldOfSpawn rfl h
  case h_4 | h_5 => exact origin_of_toldOfRead h
  case h_6 =>
    unfold toldOfPoll at h
    split at h
    · rename_i ht
      cases List.mem_singleton.mp h
      exact .begun ht
    · cases h
  case h_8 =>
    split at h
    · rename_i hr
      cases List.mem_singleton.mp h
      exact .ready hr
    · cases h
  case h_9 | h_10 => exact origin_of_toldOfEnd h
  case h_11 => exact origin_of_toldOfDrop h
  case h_12 =>
    split at h
    · cases List.mem_singleton.mp h
      exact .filled
    · cases h
  case h_13 => cases h

theorem origin_of_toldOfPanic {r : Option (Future G.Coroutine)} (h : e ∈ w.toldOfPanic p job) :
    e.Origin w (.unwinding p r) job := by
  unfold toldOfPanic at h
  split at h
  · cases List.mem_singleton.mp h
    exact .panicked
  · cases List.mem_singleton.mp h
    exact .spoilt
  · exact origin_of_toldOfDrop h
  · cases h

end World

/-- A milestone is reached by the job on top of the stack. -/
theorem Machine.origin_of_milestone {m : Machine G} (h : e ∈ m.milestones) : ∃ job rest mode,
    m.jobs = job :: rest ∧ m.mode = mode ∧ e.Origin m.world mode job := by
  unfold milestones at h
  split at h
  · rename_i hj hmode
    exact ⟨_, _, _, hj, hmode, World.origin_of_told h⟩
  · rename_i hj hmode
    exact ⟨_, _, _, hj, hmode, World.origin_of_toldOfPanic h⟩
  · cases h

end RunLoop
