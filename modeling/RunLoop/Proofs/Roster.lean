import Mathlib.Data.List.Nodup
import Mathlib.Data.List.Perm.Subperm
import RunLoop.Proofs.Follows

/-!
# Threads and their names

A thread is named when it is requested, and keeps its name for as long as it has something on its
stack. No two threads share a name, so that a stack is known by the name of its thread.

* `Machine.SameThreads` says that a step left the threads alone; all jobs but two kinds do.
  `Machine.SameSetting` says that it gave out no fault identities either.
* `Machine.Reached.named`: names are given once, so that `Machine.Named.eq` finds one stack by the
  name of its thread.
-/

namespace RunLoop

variable {G : Guest}

namespace World

variable {w w' : World G}

/-- The same thread runs in both worlds, and as many identities were given out. -/
structure SameSetting (w w' : World G) : Prop where
  thread : w'.thread = w.thread
  identities : w'.identities = w.identities

theorem sameSetting_note (notes : List G.Note) : w.SameSetting (w.note notes) := by
  refine ⟨(note_eq w notes).2, ?_⟩
  unfold note
  induction notes generalizing w with
  | nil => rfl
  | cons n notes ih => exact ih

theorem sameSetting_push? {l : LoopId} {e : Entry G} (h : w.push? l e = some w') :
    w.SameSetting w' := by
  unfold push? at h
  split at h
  · cases h
    exact ⟨rfl, rfl⟩
  · cases h

theorem sameSetting_notify (k : WakerId) : w.SameSetting (w.notify k) := by
  unfold notify
  split
  · exact ⟨rfl, rfl⟩
  · rename_i x _
    cases h : w.push? x.loop x.target.entry with
    | none => exact ⟨rfl, rfl⟩
    | some w' => exact sameSetting_push? h

theorem sameSetting_takeBatch (l : LoopId) : w.SameSetting (w.takeBatch l).1 := by
  unfold takeBatch
  split <;> exact ⟨rfl, rfl⟩

theorem sameSetting_closeQueue (l : LoopId) : w.SameSetting (w.closeQueue l).1 := by
  unfold closeQueue
  split <;> exact ⟨rfl, rfl⟩

theorem sameSetting_pollCell (c : CellId) (k : WakerId) : w.SameSetting (w.pollCell c k).1 := by
  unfold pollCell
  split <;> exact ⟨rfl, rfl⟩

theorem sameSetting_pollJoin (j : JoinId) (k : WakerId) : w.SameSetting (w.pollJoin j k).1 := by
  unfold pollJoin
  split <;> exact ⟨rfl, rfl⟩

theorem sameSetting_fill (j : JoinId) (o : Joined) : w.SameSetting (w.fill j o).1 := by
  unfold fill
  split <;> exact ⟨rfl, rfl⟩

theorem sameSetting_settle? {c : CellId} {o : Outcome} {ks : List WakerId}
    (h : w.settle? c o = some (w', ks)) : w.SameSetting w' := by
  obtain ⟨x, _, he⟩ := Option.map_eq_some_iff.mp h
  cases he
  exact ⟨rfl, rfl⟩

theorem sameSetting_takeWork {l : LoopId} {slot : Nat} {k : WakerId} {work : Work G.Coroutine}
    (h : w.takeWork l slot = some (w', k, work)) : w.SameSetting w' := by
  unfold takeWork at h
  split at h
  · cases h
    exact ⟨rfl, rfl⟩
  · cases h

theorem sameSetting_drainTasks (l : LoopId) : w.SameSetting (w.drainTasks l).1 := by
  unfold drainTasks
  split <;> exact ⟨rfl, rfl⟩

end World

/-- Whether a request is for a thread. -/
def Request.isForThread : Request G → Bool
  | .thread _ | .background _ _ => true
  | _ => false

/-- Whether a job is a request for a thread. -/
def Job.isForThread : Job G → Bool
  | .serve q => q.isForThread
  | _ => false

namespace Machine

variable {code : G.Code} {m m' m₁ : Machine G} {a : Answer G} {τ η : List (Happening G)}

/-! ## Jobs that leave the threads alone -/

/-- The same thread runs, and the same ones do not. -/
structure SameThreads (m m' : Machine G) : Prop where
  id : m'.world.thread.id = m.world.thread.id
  parked : m'.threads.parked = m.threads.parked
  waiting : m'.threads.waiting = m.threads.waiting
  count : m'.threads.count = m.threads.count

/-- The threads are the same, and as many identities were given out. -/
structure SameSetting (m m' : Machine G) : Prop extends m.SameThreads m' where
  identities : m'.world.identities = m.world.identities

theorem SameSetting.of_world (hw : m.world.SameSetting m'.world) (ht : m'.threads = m.threads) :
    m.SameSetting m' :=
  ⟨⟨by rw [hw.thread], by rw [ht], by rw [ht], by rw [ht]⟩, hw.identities⟩

theorem sameSetting_poll (f : Future G.Coroutine) (k : WakerId) :
    m.SameSetting (m.poll code k f) := by
  cases f with
  | nested inner =>
    simp only [poll]
    split <;> exact ⟨⟨rfl, rfl, rfl, rfl⟩, rfl⟩
  | forwarding j =>
    have hw := m.world.sameSetting_pollJoin j k
    simp only [poll, forward]
    split
    all_goals
      rename_i h
      rw [h] at hw
      exact .of_world hw rfl
  | _ => exact ⟨⟨rfl, rfl, rfl, rfl⟩, rfl⟩

theorem sameSetting_handOff (l : LoopId) (c : HandOff G) : m.SameSetting (m.handOff l c) := by
  unfold handOff
  split
  · rename_i h
    exact .of_world (World.sameSetting_push? h) rfl
  · exact ⟨⟨rfl, rfl, rfl, rfl⟩, rfl⟩

theorem sameSetting_settle (s : SourceId) (o : Outcome) : m.SameSetting (m.settle s o) := by
  unfold settle
  split
  · exact ⟨⟨rfl, rfl, rfl, rfl⟩, rfl⟩
  · exact ⟨⟨rfl, rfl, rfl, rfl⟩, rfl⟩
  · rename_i w _ h
    obtain rfl : (m.world.claim s).1 = w := by rw [h]
    exact ⟨⟨rfl, rfl, rfl, rfl⟩, rfl⟩

theorem sameSetting_pollCell (c : CellId) (k : WakerId) :
    m.SameSetting (m.pollCell code c k) := by
  have hw := m.world.sameSetting_pollCell c k
  unfold pollCell
  split
  · rename_i h
    rw [h] at hw
    split <;> exact .of_world hw rfl
  · rename_i h
    rw [h] at hw
    exact .of_world hw rfl

/-- A request that is neither for a thread nor for identities leaves the setting as it is. -/
theorem sameSetting_serve (q : Request G) (hq : q.isForThread = false)
    (hids : ∀ n, q ≠ .identities n) : m.SameSetting (m.serve code q) := by
  cases q with
  | thread | background => cases hq
  | identities n => exact absurd rfl (hids n)
  | close l =>
    simp only [serve, close]
    split
    · exact ⟨⟨rfl, rfl, rfl, rfl⟩, rfl⟩
    · exact .of_world (m.world.sameSetting_closeQueue l) rfl
  | blockOn l f =>
    simp only [serve, blockOn]
    split
    · exact ⟨⟨rfl, rfl, rfl, rfl⟩, rfl⟩
    · split <;> exact ⟨⟨rfl, rfl, rfl, rfl⟩, rfl⟩
  | getResult f =>
    simp only [serve, getResult]
    split <;> exact ⟨⟨rfl, rfl, rfl, rfl⟩, rfl⟩
  | spawn f =>
    simp only [serve, spawn]
    split <;> exact ⟨⟨rfl, rfl, rfl, rfl⟩, rfl⟩
  | start f =>
    simp only [serve, startTask]
    split <;> exact ⟨⟨rfl, rfl, rfl, rfl⟩, rfl⟩
  | startOn l f | callSoon l c => exact sameSetting_handOff l _
  | source l =>
    simp only [serve, newSource]
    split <;> exact ⟨⟨rfl, rfl, rfl, rfl⟩, rfl⟩
  | settle s o => exact sameSetting_settle s o
  | poll f k => exact sameSetting_poll f k
  | drop f => cases f <;> exact ⟨⟨rfl, rfl, rfl, rfl⟩, rfl⟩
  | pollCell c k => exact sameSetting_pollCell c k
  | pollJoin j k => exact .of_world (m.world.sameSetting_pollJoin j k) rfl
  | _ => exact ⟨⟨rfl, rfl, rfl, rfl⟩, rfl⟩

theorem sameSetting_advance (run : G.Run) : m.SameSetting (m.advance code run a) := by
  have hw := m.world.sameSetting_note (code.step m.scene m.shared run a).notes
  simp only [advance]
  split <;> exact .of_world hw rfl

theorem sameSetting_call (l : LoopId) (c : HandOff G) : m.SameSetting (m.call code l c) := by
  cases c with
  | own c => exact ⟨⟨rfl, rfl, rfl, rfl⟩, rfl⟩
  | settle c o =>
    simp only [call]
    split
    · rename_i h
      exact .of_world (World.sameSetting_settle? h) rfl
    · exact ⟨⟨rfl, rfl, rfl, rfl⟩, rfl⟩
  | start f =>
    simp only [call]
    split <;> exact ⟨⟨rfl, rfl, rfl, rfl⟩, rfl⟩

theorem sameSetting_turn (l : LoopId) (k : WakerId) (f : Future G.Coroutine)
    (batch : List (Entry G)) : m.SameSetting (m.turn code l k f batch) := by
  cases batch with
  | nil => exact .of_world (m.world.sameSetting_takeBatch l) rfl
  | cons e rest =>
    cases e with
    | main => exact ⟨⟨rfl, rfl, rfl, rfl⟩, rfl⟩
    | wake slot =>
      simp only [turn, process, pollTask]
      split
      · exact ⟨⟨rfl, rfl, rfl, rfl⟩, rfl⟩
      · rename_i h
        exact .of_world (World.sameSetting_takeWork h) rfl
    | call c =>
      have same : SameSetting (m.push [.turn l k f rest])
          ((m.push [.turn l k f rest]).call code l c) := sameSetting_call l c
      exact ⟨⟨same.id, same.parked, same.waiting, same.count⟩, same.identities⟩

/-- A job that is performed leaves the setting as it is, unless it is a request for a thread or for
identities. -/
theorem sameSetting_perform (job : Job G) (hj : job.isForThread = false)
    (hids : ∀ n, job ≠ .serve (.identities n)) : m.SameSetting (m.perform code a job) := by
  cases job with
  | serve q => exact sameSetting_serve q hj fun n h => hids n (h ▸ rfl)
  | resume run => exact sameSetting_advance run
  | drop f => cases f <;> exact ⟨⟨rfl, rfl, rfl, rfl⟩, rfl⟩
  | discard e =>
    cases e with
    | call c => cases c <;> exact ⟨⟨rfl, rfl, rfl, rfl⟩, rfl⟩
    | _ => exact ⟨⟨rfl, rfl, rfl, rfl⟩, rfl⟩
  | abandon work =>
    simp only [perform, abandon]
    split <;> exact ⟨⟨rfl, rfl, rfl, rfl⟩, rfl⟩
  | wake k =>
    simp only [perform, wake]
    split
    all_goals
      rename_i w h
      obtain rfl : (m.world.mark k).1 = w := by rw [h]
      exact ⟨⟨rfl, rfl, rfl, rfl⟩, rfl⟩
  | notify k => exact .of_world (m.world.sameSetting_notify k) rfl
  | fill j o => exact .of_world (m.world.sameSetting_fill j o) rfl
  | handOff l c => exact sameSetting_handOff l c
  | mainPolled l k batch =>
    simp only [perform, mainPolled]
    split <;> exact ⟨⟨rfl, rfl, rfl, rfl⟩, rfl⟩
  | turn l k f batch => exact sameSetting_turn l k f batch
  | taskPolled l slot kind =>
    simp only [perform, taskPolled]
    split <;> exact ⟨⟨rfl, rfl, rfl, rfl⟩, rfl⟩
  | taskEnded l slot kind o =>
    cases kind with
    | joined j => exact ⟨⟨rfl, rfl, rfl, rfl⟩, rfl⟩
    | detached =>
      simp only [perform, taskEnded]
      split <;> exact ⟨⟨rfl, rfl, rfl, rfl⟩, rfl⟩
  | report l e =>
    simp only [perform, report]
    split <;> exact ⟨⟨rfl, rfl, rfl, rfl⟩, rfl⟩
  | drain l n => exact .of_world (m.world.sameSetting_drainTasks l) rfl
  | _ => exact ⟨⟨rfl, rfl, rfl, rfl⟩, rfl⟩

/-- A job that is performed leaves the threads alone, unless it is a request for one. -/
theorem sameThreads_perform (job : Job G) (hj : job.isForThread = false) :
    m.SameThreads (m.perform code a job) := by
  by_cases hids : ∃ n, job = .serve (.identities n)
  · obtain ⟨n, rfl⟩ := hids
    exact ⟨rfl, rfl, rfl, rfl⟩
  · exact (sameSetting_perform job hj fun n h => hids ⟨n, h⟩).toSameThreads

/-- Only where a thread is started another one runs then. -/
theorem thread_perform (job : Job G) (hthread : ∀ run, job ≠ .serve (.thread run)) :
    (m.perform code a job).world.thread.id = m.world.thread.id := by
  cases hj : job.isForThread with
  | false => exact (sameThreads_perform job hj).id
  | true =>
    cases job with
    | serve q =>
      cases q with
      | thread run => exact absurd rfl (hthread run)
      | background => rfl
      | _ => cases hj
    | _ => cases hj

/-- A panic leaves the setting as it is. -/
theorem sameSetting_unwind (panic : Payload) (r : Option (Future G.Coroutine)) (job : Job G) :
    m.SameSetting (m.unwind code panic r job) := by
  cases job with
  | taskEnded l slot kind o => cases kind <;> exact ⟨⟨rfl, rfl, rfl, rfl⟩, rfl⟩
  | drain l n => exact .of_world (m.world.sameSetting_drainTasks l) rfl
  | _ => exact ⟨⟨rfl, rfl, rfl, rfl⟩, rfl⟩

theorem sameThreads_unwind (panic : Payload) (r : Option (Future G.Coroutine)) (job : Job G) :
    m.SameThreads (m.unwind code panic r job) :=
  (sameSetting_unwind panic r job).toSameThreads

/-! ## Names -/

/-- The names of the threads, the running one first and those that wait to be started last. -/
def names (m : Machine G) : List ThreadId :=
  (m.world.thread.id :: m.threads.parked.map (·.thread.id)) ++ m.threads.waiting.map (·.thread)

/-- Names are given once, and none is left out. -/
structure Named (m : Machine G) : Prop where
  nodup : m.names.Nodup
  known : ∀ t ∈ m.names, t.index < m.threads.count

theorem SameThreads.named (same : m.SameThreads m') (h : m.Named) : m'.Named := by
  have hnames : m'.names = m.names := by
    simp only [names, same.id, same.parked, same.waiting]
  exact ⟨hnames ▸ h.nodup, hnames ▸ same.count ▸ h.known⟩

/-- Threads that were there before keep their names. -/
theorem Named.of_subperm (h : m.Named) (hn : m'.names.Subperm m.names)
    (hc : m'.threads.count = m.threads.count) : m'.Named := by
  obtain ⟨ts, hperm, hsub⟩ := hn
  refine ⟨hperm.nodup_iff.mp (h.nodup.sublist hsub), fun t ht => ?_⟩
  rw [hc]
  exact h.known t (hsub.subset (hperm.mem_iff.mpr ht))

/-- A thread that is requested gets a name of its own. -/
theorem Named.fresh (h : m.Named) (hn : m'.names.Perm (⟨m.threads.count⟩ :: m.names))
    (hc : m'.threads.count = m.threads.count + 1) : m'.Named := by
  refine ⟨hn.nodup_iff.mpr (List.nodup_cons.mpr ⟨fun hmem => ?_, h.nodup⟩), fun t ht => ?_⟩
  · exact Nat.lt_irrefl _ (h.known _ hmem)
  · rw [hc]
    rcases List.mem_cons.mp (hn.mem_iff.mp ht) with rfl | ht
    · exact Nat.lt_succ_self _
    · exact Nat.lt_succ_of_lt (h.known t ht)

theorem names_parked :
    (m.parked.map (·.thread.id)).Subperm
      (m.world.thread.id :: m.threads.parked.map (·.thread.id)) := by
  refine List.Subperm.trans (List.Sublist.subperm ?_) (List.perm_append_singleton _ _).subperm
  rw [parked, List.map_append]
  refine List.Sublist.append_left ?_ _
  split <;> simp

theorem Named.turnTo (h : m.Named) {q : Parked G} {others : List (Parked G)}
    (hp : m.parked.Perm (q :: others)) : (m.turnTo q others).Named := by
  have hnames : (m.turnTo q others).names =
      (q :: others).map (·.thread.id) ++ m.threads.waiting.map (·.thread) := rfl
  refine h.of_subperm ?_ rfl
  rw [hnames]
  exact ((hp.map _).symm.subperm.trans names_parked).append (.refl _)

/-- A thread that was waiting keeps its name when it is started. -/
theorem Named.launch (h : m.Named) {x : Waiting G} (hx : x ∈ m.threads.waiting) :
    (m.launch x).Named := by
  have hwaiting : (x.thread :: (m.threads.waiting.filter (fun y => y.thread ≠ x.thread)).map
      (·.thread)).Subperm (m.threads.waiting.map (·.thread)) := by
    refine List.cons_subperm_of_not_mem_of_mem ?_ (List.mem_map_of_mem hx)
      (List.filter_sublist.map _).subperm
    simp
  refine h.of_subperm ?_ rfl
  have hnames : (m.launch x).names = (x.thread :: m.parked.map (·.thread.id)) ++
      (m.threads.waiting.filter (fun y => y.thread ≠ x.thread)).map (·.thread) := rfl
  rw [hnames]
  exact List.perm_middle.symm.subperm.trans (names_parked.append hwaiting)

/-- A thread is started at once; the running one waits for it. -/
theorem Named.thread (h : m.Named) (run : G.Run) : (m.thread run).Named := by
  refine h.fresh ?_ rfl
  have hnames : (m.thread run).names = (⟨m.threads.count⟩ ::
      (m.threads.parked.map (·.thread.id) ++ [m.world.thread.id])) ++
        m.threads.waiting.map (·.thread) := by
    simp [names, Machine.thread, startThread, Machine.turnTo, parked, push, insert, go]
  rw [hnames]
  exact ((List.perm_append_singleton _ _).append_right _).cons _

theorem Named.background (h : m.Named) (run : G.Run) (delay : Nat) :
    (m.background run delay).Named := by
  refine h.fresh ?_ rfl
  have hnames : (m.background run delay).names = m.names ++ [⟨m.threads.count⟩] := by
    simp [names, Machine.background, go]
  rw [hnames]
  exact List.perm_append_singleton _ _

theorem Named.step (h : m.Named) (code : G.Code) (hi : m.isIdle = false) :
    (m.step code).Named := by
  obtain ⟨job, rest, htop⟩ := exists_job hi
  have h' : Named { m with jobs := rest } := ⟨h.nodup, h.known⟩
  cases hmode : m.mode with
  | aborted =>
    have hs : m.step code = m := by
      unfold Machine.step
      simp only [htop, hmode]
    rwa [hs]
  | unwinding panic r =>
    rw [step_of_unwinding htop hmode]
    exact (sameThreads_unwind panic r job).named h'
  | going a =>
    rw [step_of_going htop hmode ((isIdle_of_going htop hmode).symm.trans hi)]
    cases hj : job.isForThread with
    | false => exact (sameThreads_perform job hj).named h'
    | true =>
      cases job with
      | serve q =>
        cases q with
        | thread run => exact h'.thread run
        | background run delay => exact h'.background run delay
        | _ => cases hj
      | _ => cases hj

theorem Reached.named (h : Reached code τ m) : m.Named := by
  obtain ⟨shared, run, h⟩ := h
  induction h with
  | here => exact ⟨by simp [names, start], by simp [names, start, World.empty]⟩
  | next _ move ih =>
    cases move with
    | act hi => exact ih.step code hi
    | turnTo hp => exact ih.turnTo hp
    | launch hx => exact ih.launch hx

/-- A stack is known by the name of its thread. -/
theorem Named.eq (h : m.Named) {q q' : Parked G} (hq : q ∈ m.strands) (hq' : q' ∈ m.strands)
    (he : q.thread.id = q'.thread.id) : q = q' := by
  have hn : (m.strands.map (·.thread.id)).Nodup := h.nodup.sublist (List.sublist_append_left _ _)
  exact List.inj_on_of_nodup_map hn hq hq' he

end Machine

end RunLoop
