import RunLoop.Proofs.Veil

/-!
# Two runs side by side

Two runs come to machines that the public cannot tell apart: they hold the same objects, and the
threads have the same to do, up to the outcome of one task that is not reported yet, and to what
goes on unseen. Such machines stay alike: whatever the running thread does in one of them it does in
the other.

* `Issue` is what two runs disagree about.
* `Alike` threads show the public the same, `Twins` are machines whose threads are alike.
* `Akin` machines are twins of which the running threads are about to take the same step.
* `Akin.step`: after that step they are twins.
-/

namespace RunLoop

variable {G : Guest}

/-- What two runs disagree about: what the task in a slot of a loop came to, in either run, as long
as it is not reported there. -/
structure Issue where
  loop : LoopId
  slot : Nat
  left : Option Joined
  right : Option Joined

/-- Two jobs are the same but for the outcome at issue. -/
inductive Like (i : Issue) : Job G → Job G → Prop where
  | same (job) : Like i job job
  | ended {o o'} (h : i.left = some o) (h' : i.right = some o') :
      Like i (.taskEnded i.loop i.slot .detached o) (.taskEnded i.loop i.slot .detached o')

/-- Two threads show the public the same. -/
structure Alike {code : G.Code} (veil : Veil code) (i : Issue) (q q' : Parked G) : Prop where
  thread : q.thread = q'.thread
  shown : ∃ μ jobs jobs', Shows veil i.loop i.left μ jobs q.mode q.jobs ∧
    Shows veil i.loop i.right μ jobs' q'.mode q'.jobs ∧ List.Forall₂ (Like i) jobs jobs' ∧
    ∀ job ∈ jobs, veil.Open job

/-- What two machines have in common while their running threads may be at different points; `J` and
`J'` were written before. -/
structure Kin {code : G.Code} (veil : Veil code) (i : Issue) (J J' : Array (Line G))
    (m m' : Machine G) : Prop where
  world : ∃ w : World G, m.world = w.after J ∧ m'.world = w.after J'
  shared : veil.Same m.shared m'.shared
  count : m.threads.count = m'.threads.count
  waiting : m.threads.waiting = m'.threads.waiting
  ended : m.threads.ended = m'.threads.ended
  clock : m.threads.clock = m'.threads.clock
  fresh : ∀ x ∈ m.threads.waiting, veil.Public x.run
  parked : List.Forall₂ (Alike veil i) m.threads.parked m'.threads.parked

/-- Two machines that the public cannot tell apart. -/
structure Twins {code : G.Code} (veil : Veil code) (i : Issue) (J J' : Array (Line G))
    (m m' : Machine G) : Prop extends Kin veil i J J' m m' where
  running : Alike veil i ⟨m.world.thread, m.mode, m.jobs⟩ ⟨m'.world.thread, m'.mode, m'.jobs⟩

/-- Two machines of which the running threads are at the same point. -/
structure Akin {code : G.Code} (veil : Veil code) (i : Issue) (J J' : Array (Line G))
    (m m' : Machine G) : Prop extends Kin veil i J J' m m' where
  mode : m.mode = m'.mode
  jobs : List.Forall₂ (Like i) m.jobs m'.jobs
  isOpen : ∀ job ∈ m.jobs, veil.Open job

/-! ## What jobs and stacks have in common -/

section

variable {code : G.Code} {veil : Veil code} {i : Issue} {q q' : Parked G}

theorem any_eq_of_forall₂ {α : Type} {R : α → α → Prop} {p : α → Bool}
    (hp : ∀ a b, R a b → p a = p b) {as bs : List α} (h : List.Forall₂ R as bs) :
    as.any p = bs.any p := by
  induction h with
  | nil => rfl
  | cons hab _ ih => rw [List.any_cons, List.any_cons, hp _ _ hab, ih]

theorem forall₂_like (i : Issue) (jobs : List (Job G)) : List.Forall₂ (Like i) jobs jobs :=
  List.forall₂_same.mpr fun job _ => .same job

theorem Like.isLeave {job job' : Job G} (h : Like i job job') (l : LoopId) :
    job.isLeave l = job'.isLeave l := by
  cases h <;> rfl

theorem Like.isPropagate {job job' : Job G} (h : Like i job job') :
    job.isPropagate = job'.isPropagate := by
  cases h <;> rfl

theorem Alike.isLeave (h : Alike veil i q q') (l : LoopId) :
    q.jobs.any (Job.isLeave l) = q'.jobs.any (Job.isLeave l) := by
  obtain ⟨μ, jobs, jobs', shows, shows', hlike, _⟩ := h.shown
  obtain ⟨hidden, hj, hcalm⟩ := shows.exists_append
  obtain ⟨hidden', hj', hcalm'⟩ := shows'.exists_append
  rw [hj, hj', List.any_append, List.any_append, hcalm, hcalm']
  exact congrArg _ (any_eq_of_forall₂ (fun _ _ h => h.isLeave l) hlike)

theorem Alike.eq_nil_iff (h : Alike veil i q q') : q.jobs = [] ↔ q'.jobs = [] := by
  obtain ⟨μ, jobs, jobs', shows, shows', hlike, _⟩ := h.shown
  rw [shows.eq_nil_iff, shows'.eq_nil_iff]
  cases hlike <;> simp

end

/-! ## What machines have in common -/

section

variable {code : G.Code} {veil : Veil code} {i : Issue} {J J' : Array (Line G)} {m m' : Machine G}

theorem Kin.view (h : Kin veil i J J' m m') : m.world.view = m'.world.view := by
  obtain ⟨w, hw, hw'⟩ := h.world
  rw [hw, hw']
  rfl

theorem Kin.thread (h : Kin veil i J J' m m') : m.world.thread = m'.world.thread := by
  obtain ⟨w, hw, hw'⟩ := h.world
  rw [hw, hw']
  rfl

theorem Kin.listener? (h : Kin veil i J J' m m') (l : LoopId) :
    m'.world.listener? l = m.world.listener? l := by
  obtain ⟨w, hw, hw'⟩ := h.world
  rw [hw, hw']
  rfl

theorem Twins.rebase (h : Twins veil i J J' m m') :
    Twins veil i m.world.journal m'.world.journal m m' :=
  { h with world := ⟨m.world.view, World.eq_after _, h.view ▸ World.eq_after _⟩ }

theorem Akin.exists_cons (h : Akin veil i J J' m m') {job : Job G} {rest : List (Job G)}
    (hj : m.jobs = job :: rest) : ∃ job' rest', Like i job job' ∧
      List.Forall₂ (Like i) rest rest' ∧ m'.jobs = job' :: rest' := by
  have hjobs := h.jobs
  rw [hj] at hjobs
  exact List.forall₂_cons_left_iff.mp hjobs

theorem Akin.twins (h : Akin veil i J J' m m') : Twins veil i J J' m m' := by
  refine { h with running := ⟨h.thread, m.mode, m.jobs, m'.jobs, .plain, ?_, h.jobs, h.isOpen⟩ }
  rw [h.mode]
  exact .plain

end

/-! ## Small changes -/

namespace Akin

variable {code : G.Code} {veil : Veil code} {i : Issue} {J J' : Array (Line G)} {m m' : Machine G}

theorem set (h : Akin veil i J J' m m') (w : World G) :
    Akin veil i J J' (m.set (w.after J)) (m'.set (w.after J')) :=
  { h with world := ⟨w, rfl, rfl⟩ }

theorem go (h : Akin veil i J J' m m') (a : Answer G) : Akin veil i J J' (m.go a) (m'.go a) :=
  { h with mode := rfl }

theorem insert (h : Akin veil i J J' m m') {jobs : List (Job G)}
    (ho : ∀ job ∈ jobs, veil.Open job) : Akin veil i J J' (m.insert jobs) (m'.insert jobs) :=
  { h with
    jobs := List.rel_append (forall₂_like i jobs) h.jobs
    isOpen := List.forall_mem_append.mpr ⟨ho, h.isOpen⟩ }

theorem push (h : Akin veil i J J' m m') {jobs : List (Job G)} (ho : ∀ job ∈ jobs, veil.Open job) :
    Akin veil i J J' (m.push jobs) (m'.push jobs) :=
  (h.insert ho).go .nothing

theorem raise (h : Akin veil i J J' m m') (panic : Payload) :
    Akin veil i J J' (m.raise panic) (m'.raise panic) :=
  { h with mode := rfl }

theorem cleanUp (h : Akin veil i J J' m m') (panic : Payload) {jobs : List (Job G)}
    (ho : ∀ job ∈ jobs, veil.Open job) :
    Akin veil i J J' (m.cleanUp panic jobs) (m'.cleanUp panic jobs) := by
  refine h.push (List.forall_mem_append.mpr ⟨ho, ?_⟩)
  simp

theorem emit (h : Akin veil i J J' m m') (e : Event) :
    Akin veil i J J' (m.emit e) (m'.emit e) := by
  obtain ⟨w, hw, hw'⟩ := h.world
  simp only [Machine.emit, hw, hw', World.emit_after]
  exact h.set _

/-! ### What is there to see -/

theorem current (h : Akin veil i J J' m m') : m'.current = m.current := by
  obtain ⟨w, hw, hw'⟩ := h.world
  rw [Machine.current, Machine.current, hw, hw']
  rfl

theorem isRunning (h : Akin veil i J J' m m') (l : LoopId) : m'.isRunning l = m.isRunning l := by
  unfold Machine.isRunning
  rw [any_eq_of_forall₂ (fun _ _ h => h.isLeave l) h.jobs,
    any_eq_of_forall₂ (fun _ _ h => h.isLeave l) h.parked]

theorem scene (h : Akin veil i J J' m m') : m'.scene = m.scene := by
  obtain ⟨w, hw, hw'⟩ := h.world
  unfold Machine.scene
  rw [hw, hw', any_eq_of_forall₂ (fun _ _ h => h.isPropagate) h.jobs]
  rfl

theorem ended? (h : Akin veil i J J' m m') (t : ThreadId) : m'.ended? t = m.ended? t := by
  rw [Machine.ended?, Machine.ended?, h.ended]

/-! ### Requests -/

theorem dropFuture (h : Akin veil i J J' m m') (f : Future G.Coroutine) :
    Akin veil i J J' (m.dropFuture code f) (m'.dropFuture code f) := by
  cases f with
  | own c => exact h.push (by simp [veil.drop])
  | nested inner => exact h.push (by simp)
  | forwarding | spent => exact h.go _

theorem forward (h : Akin veil i J J' m m') (j : JoinId) (k : WakerId) :
    Akin veil i J J' (m.forward j k) (m'.forward j k) := by
  obtain ⟨w, hw, hw'⟩ := h.world
  unfold Machine.forward
  rw [hw, hw', World.pollJoin_after, World.pollJoin_after]
  cases (w.pollJoin j k).2 <;> exact (h.set _).go _

theorem poll (h : Akin veil i J J' m m') (k : WakerId) (f : Future G.Coroutine) :
    Akin veil i J J' (m.poll code k f) (m'.poll code k f) := by
  obtain ⟨w, hw, hw'⟩ := h.world
  cases f with
  | own c => exact h.push (by simp [veil.poll])
  | nested inner =>
    unfold Machine.poll
    rw [h.current]
    cases m.current with
    | none => exact h.push (by simp)
    | some l =>
      simp only [hw, hw', World.newJoin_after, World.addTask_after]
      exact (h.set _).push (by simp)
  | forwarding j => exact h.forward j k
  | spent => exact h.go _

theorem close (h : Akin veil i J J' m m') (l : LoopId) :
    Akin veil i J J' (m.close l) (m'.close l) := by
  obtain ⟨w, hw, hw'⟩ := h.world
  unfold Machine.close
  simp only [h.isRunning, hw, hw', World.isClosed_after, World.closeQueue_after]
  split
  · exact h.go _
  · refine (h.set _).push (List.forall_mem_append.mpr ⟨List.forall_mem_map.mpr ?_, ?_⟩)
    · intro e _
      simp
    · simp

theorem blockOn (h : Akin veil i J J' m m') (l : LoopId) (f : Future G.Coroutine) :
    Akin veil i J J' (m.blockOn code l f) (m'.blockOn code l f) := by
  obtain ⟨w, hw, hw'⟩ := h.world
  unfold Machine.blockOn
  simp only [h.isRunning, h.current, hw, hw', World.isClosed_after, World.loopName_after]
  split
  · exact (h.emit _).push (by simp)
  split
  · exact h.push (by simp)
  · obtain ⟨v, hv, hv'⟩ := (h.emit (.entering (w.loopName l))).world
    simp only [hv, hv', World.newWaker_after, World.enter_after]
    exact ((h.emit _).set _).push (by simp)

theorem getResult (h : Akin veil i J J' m m') (f : Future G.Coroutine) :
    Akin veil i J J' (m.getResult f) (m'.getResult f) := by
  obtain ⟨w, hw, hw'⟩ := h.world
  unfold Machine.getResult
  simp only [h.current, hw, hw', World.build_after]
  split
  · exact (h.emit _).push (by simp)
  · exact (h.set _).push (by simp)

theorem handOff (h : Akin veil i J J' m m') (l : LoopId) (c : HandOff G) :
    Akin veil i J J' (m.handOff l c) (m'.handOff l c) := by
  obtain ⟨w, hw, hw'⟩ := h.world
  unfold Machine.handOff
  simp only [hw, hw', World.push?_after, World.loopName_after]
  cases w.push? l (.call c) with
  | none => exact h.push (by simp)
  | some w' => exact (h.set _).go _

theorem spawn (h : Akin veil i J J' m m') (f : Future G.Coroutine) :
    Akin veil i J J' (m.spawn code f) (m'.spawn code f) := by
  obtain ⟨w, hw, hw'⟩ := h.world
  unfold Machine.spawn
  rw [h.current]
  cases m.current with
  | none => exact h.push (by simp)
  | some l =>
    simp only [hw, hw', World.newJoin_after, World.addTask_after]
    exact (h.set _).push (by simp)

theorem startTask (h : Akin veil i J J' m m') (f : Future G.Coroutine) :
    Akin veil i J J' (m.startTask code f) (m'.startTask code f) := by
  obtain ⟨w, hw, hw'⟩ := h.world
  unfold Machine.startTask
  rw [h.current]
  cases m.current with
  | none => exact h.push (by simp)
  | some l =>
    simp only [hw, hw', World.addTask_after]
    exact (h.set _).push (by simp)

theorem settle (h : Akin veil i J J' m m') (s : SourceId) (o : Outcome) :
    Akin veil i J J' (m.settle s o) (m'.settle s o) := by
  obtain ⟨w, hw, hw'⟩ := h.world
  unfold Machine.settle
  simp only [hw, hw', World.source?_after, World.claim_after]
  cases w.source? s with
  | none => exact h.go _
  | some x =>
    cases (w.claim s).2 with
    | true => exact (h.emit _).go _
    | false => exact (h.set _).push (by simp)

theorem newSource (h : Akin veil i J J' m m') (l : Option LoopId) :
    Akin veil i J J' (m.newSource l) (m'.newSource l) := by
  obtain ⟨w, hw, hw'⟩ := h.world
  unfold Machine.newSource
  rw [h.current]
  cases l <|> m.current with
  | none => exact h.go _
  | some l =>
    simp only [hw, hw', World.newSource_after]
    exact (h.set _).go _

theorem pollCell (h : Akin veil i J J' m m') (c : CellId) (k : WakerId) :
    Akin veil i J J' (m.pollCell code c k) (m'.pollCell code c k) := by
  obtain ⟨w, hw, hw'⟩ := h.world
  unfold Machine.pollCell
  simp only [hw, hw', World.pollCell_after]
  cases (w.pollCell c k).2 with
  | none => exact (h.set _).go _
  | some o =>
    cases o with
    | completed v =>
      cases hp : code.copyPanic v with
      | none =>
        simp only [hp]
        exact (h.set _).go _
      | some panic =>
        simp only [hp]
        exact (h.set _).raise panic
    | cancelled | faulted => exact (h.set _).go _

theorem background (h : Akin veil i J J' m m') {run : G.Run} (hr : veil.Public run) (delay : Nat) :
    Akin veil i J J' (m.background run delay) (m'.background run delay) := by
  unfold Machine.background
  simp only [← h.count, ← h.waiting, ← h.clock]
  refine Akin.go ?_ _
  exact { h with
    count := rfl
    waiting := rfl
    clock := rfl
    fresh := List.forall_mem_append.mpr ⟨h.fresh, by simpa using hr⟩ }

/-! ### Jobs -/

theorem advance (h : Akin veil i J J' m m') {run : G.Run} (hr : veil.Public run) (a : Answer G) :
    Akin veil i J J' (m.advance code run a) (m'.advance code run a) := by
  obtain ⟨w, hw, hw'⟩ := h.world
  obtain ⟨hact, hnotes, hsame⟩ := veil.blind m.scene a hr h.shared
  have hclosed := veil.closed m.scene m.shared a hr
  unfold Machine.advance
  simp only [h.scene, ← hact, ← hnotes, hw, hw', World.note_after]
  have next : Akin veil i J J'
      { m with
        world := (w.note (code.step m.scene m.shared run a).notes).after J
        shared := (code.step m.scene m.shared run a).shared }
      { m' with
        world := (w.note (code.step m.scene m.shared run a).notes).after J'
        shared := (code.step m.scene m'.shared run a).shared } :=
    { h with world := ⟨_, rfl, rfl⟩, shared := hsame }
  generalize (code.step m.scene m.shared run a).act = act at hclosed
  cases act with
  | request q run => exact next.push (by simpa [and_comm] using hclosed)
  | proceed run => exact next.push (by simpa using hclosed)
  | finish b => exact next.go b
  | raise panic run =>
    have hrun : veil.Public run := by simpa using hclosed
    exact next.cleanUp panic (by simpa using veil.unwind none hrun)

theorem wake (h : Akin veil i J J' m m') (k : WakerId) :
    Akin veil i J J' (m.wake k) (m'.wake k) := by
  obtain ⟨w, hw, hw'⟩ := h.world
  unfold Machine.wake
  simp only [hw, hw', World.mark_after]
  cases (w.mark k).2 with
  | true => exact h.set _
  | false => exact (h.set _).insert (by simp)

theorem fill (h : Akin veil i J J' m m') (j : JoinId) (o : Joined) :
    Akin veil i J J' (m.fill j o) (m'.fill j o) := by
  obtain ⟨w, hw, hw'⟩ := h.world
  unfold Machine.fill
  simp only [hw, hw', World.fill_after]
  exact (h.set _).insert (by simp)

theorem call (h : Akin veil i J J' m m') (l : LoopId) (c : HandOff G) :
    Akin veil i J J' (m.call code l c) (m'.call code l c) := by
  obtain ⟨w, hw, hw'⟩ := h.world
  cases c with
  | own c => exact h.push (by simp [veil.call])
  | settle c o =>
    simp only [Machine.call, hw, hw', World.settle?_after]
    cases w.settle? c o with
    | none => exact h.go _
    | some x => exact (h.set _).push (by simp [or_imp, forall_and])
  | start f =>
    unfold Machine.call
    rw [h.current]
    cases m.current with
    | none => exact (h.emit _).push (by simp)
    | some l =>
      simp only [hw, hw', World.addTask_after]
      exact (h.set _).push (by simp)

theorem pollTask (h : Akin veil i J J' m m') (l : LoopId) (slot : Nat) :
    Akin veil i J J' (m.pollTask l slot) (m'.pollTask l slot) := by
  obtain ⟨w, hw, hw'⟩ := h.world
  unfold Machine.pollTask
  simp only [hw, hw', World.takeWork_after]
  cases w.takeWork l slot with
  | none => exact h.go _
  | some x => exact (h.set _).push (by simp)

theorem turn (h : Akin veil i J J' m m') (l : LoopId) (k : WakerId) (f : Future G.Coroutine)
    (batch : List (Entry G)) :
    Akin veil i J J' (m.turn code l k f batch) (m'.turn code l k f batch) := by
  obtain ⟨w, hw, hw'⟩ := h.world
  match batch with
  | [] =>
    simp only [Machine.turn, hw, hw', World.takeBatch_after]
    exact (h.set _).push (by simp)
  | .main :: rest =>
    simp only [Machine.turn, Machine.process, hw, hw', World.rearm_after]
    exact (h.set _).push (by simp)
  | .wake slot :: rest => exact (h.push (by simp)).pollTask l slot
  | .call c :: rest => exact (h.push (by simp)).call l c

theorem mainPolled (h : Akin veil i J J' m m') (l : LoopId) (k : WakerId) (batch : List (Entry G))
    (p : Poll G.Coroutine) :
    Akin veil i J J' (m.mainPolled l k batch p) (m'.mainPolled l k batch p) := by
  obtain ⟨w, hw, hw'⟩ := h.world
  cases p with
  | pending f => exact h.push (by simp)
  | ready r f =>
    simp only [Machine.mainPolled, hw, hw', World.putBackBatch_after]
    exact (h.set _).push (by simp)

theorem taskPolled (h : Akin veil i J J' m m') (l : LoopId) (slot : Nat) (kind : Kind)
    (p : Poll G.Coroutine) :
    Akin veil i J J' (m.taskPolled l slot kind p) (m'.taskPolled l slot kind p) := by
  obtain ⟨w, hw, hw'⟩ := h.world
  cases p with
  | pending f =>
    simp only [Machine.taskPolled, hw, hw', World.putBackWork_after]
    exact (h.set _).go _
  | ready r f => exact h.push (by simp)

theorem taskEnded (h : Akin veil i J J' m m') (l : LoopId) (slot : Nat) (o : Joined) (kind : Kind) :
    Akin veil i J J' (m.taskEnded l slot o kind) (m'.taskEnded l slot o kind) := by
  cases kind with
  | joined j => exact h.push (by simp)
  | detached =>
    unfold Machine.taskEnded
    cases o.flatten <;> exact h.push (by simp)

theorem discard (h : Akin veil i J J' m m') (e : Entry G) :
    Akin veil i J J' (m.discard code e) (m'.discard code e) := by
  match e with
  | .call (.own c) => exact h.push (by simp [veil.discard])
  | .call (.start f) => exact h.push (by simp)
  | .call (.settle _ _) | .wake _ | .main => exact h.go _

theorem abandon (h : Akin veil i J J' m m') (work : Work G.Coroutine) :
    Akin veil i J J' (m.abandon work) (m'.abandon work) := by
  unfold Machine.abandon
  split <;> exact h.push (by simp)

theorem drain (h : Akin veil i J J' m m') (l : LoopId) (n : Nat) :
    Akin veil i J J' (m.drain l n) (m'.drain l n) := by
  obtain ⟨w, hw, hw'⟩ := h.world
  unfold Machine.drain
  simp only [hw, hw', World.drainTasks_after, World.loopName_after]
  refine (h.set _).push (List.forall_mem_append.mpr ⟨List.forall_mem_map.mpr ?_, ?_⟩)
  · intro work _
    simp
  · simp

theorem endThread (h : Akin veil i J J' m m') (t : ThreadId) (panic : Option Payload) :
    Akin veil i J J' (m.endThread t panic) (m'.endThread t panic) := by
  unfold Machine.endThread
  rw [← h.ended]
  exact { h with ended := rfl, mode := rfl }

/-! ### Panics -/

theorem open_discard (batch : List (Entry G)) :
    ∀ job ∈ batch.map (Job.discard (G := G)), veil.Open job :=
  List.forall_mem_map.mpr fun _ _ => by simp

theorem open_drop (remains : Option (Future G.Coroutine)) :
    ∀ job ∈ remains.toList.map (Job.drop (G := G)), veil.Open job :=
  List.forall_mem_map.mpr fun _ _ => by simp

theorem unwind (h : Akin veil i J J' m m') (p : Payload) (r : Option (Future G.Coroutine))
    {job : Job G} (ho : veil.Open job) :
    Akin veil i J J' (m.unwind code p r job) (m'.unwind code p r job) := by
  obtain ⟨w, hw, hw'⟩ := h.world
  cases job with
  | resume run => exact h.cleanUp p (by simpa using veil.unwind r (ho run (by simp)))
  | drop | discard | abandon | fill | owned => exact h.cleanUp p (by simp)
  | mainPolled l k batch =>
    exact h.cleanUp p (List.forall_mem_append.mpr ⟨open_discard batch, open_drop r⟩)
  | turn l k f batch =>
    exact h.cleanUp p (List.forall_mem_append.mpr ⟨open_discard batch, by simp⟩)
  | restore previous =>
    simp only [Machine.unwind, hw, hw', World.enter_after]
    exact h.set _
  | taskPolled l slot kind => exact h.push (List.forall_mem_append.mpr ⟨open_drop r, by simp⟩)
  | taskEnded l slot kind o => cases kind <;> exact h.push (by simp)
  | called l => exact h.push (by simp)
  | reported l e =>
    simp only [Machine.unwind, hw, hw', World.loopName_after]
    exact (h.emit _).go _
  | drain l n =>
    simp only [Machine.unwind, hw, hw', World.drainTasks_after]
    refine (h.set _).cleanUp p (List.forall_mem_map.mpr fun work _ => ?_)
    simp
  | barrier => exact h.go _
  | threadEnd t => exact h.endThread t _
  | propagate => exact { h with mode := rfl }
  | _ => exact h

end Akin

/-! ## Threads -/

section

variable {code : G.Code} {veil : Veil code} {i : Issue} {J J' : Array (Line G)} {m m' : Machine G}

theorem Kin.turnTo (h : Kin veil i J J' m m') {q q' : Parked G} (hq : Alike veil i q q')
    {ps ps' : List (Parked G)} (hps : List.Forall₂ (Alike veil i) ps ps') :
    Twins veil i J J' (m.turnTo q ps) (m'.turnTo q' ps') := by
  obtain ⟨w, hw, hw'⟩ := h.world
  refine { h with world := ⟨{ w with thread := q.thread }, ?_, ?_⟩, parked := hps, running := hq }
  · simp only [Machine.turnTo, hw]
    rfl
  · simp only [Machine.turnTo, hw', ← hq.thread]
    rfl

theorem Twins.parked_alike (h : Twins veil i J J' m m') :
    List.Forall₂ (Alike veil i) m.parked m'.parked := by
  have hnil : m.jobs = [] ↔ m'.jobs = [] := h.running.eq_nil_iff
  refine List.rel_append h.parked ?_
  by_cases hj : m.jobs = []
  · simp [hj, hnil.mp hj]
  · have hj' : m'.jobs ≠ [] := fun he => hj (hnil.mpr he)
    simpa [hj, hj'] using h.running

theorem Twins.startThread (h : Twins veil i J J' m m') (t : ThreadId) {run : G.Run}
    (hr : veil.Public run) : Twins veil i J J' (m.startThread t run) (m'.startThread t run) := by
  refine h.toKin.turnTo ⟨rfl, _, _, _, .plain, .plain, forall₂_like i _, ?_⟩ h.parked_alike
  simpa using hr

theorem Twins.launch (h : Twins veil i J J' m m') {x : Waiting G} (hx : x ∈ m.threads.waiting) :
    Twins veil i J J' (m.launch x) (m'.launch x) := by
  unfold Machine.launch
  rw [← h.waiting, ← h.clock]
  refine Twins.startThread ?_ x.thread (h.fresh x hx)
  exact { h with
    waiting := rfl
    clock := rfl
    fresh := fun y hy => h.fresh y (List.mem_of_mem_filter hy) }

/-! ## One step -/

namespace Akin

theorem thread (h : Akin veil i J J' m m') {run : G.Run} (hr : veil.Public run) :
    Twins veil i J J' (m.thread run) (m'.thread run) := by
  unfold Machine.thread
  rw [← h.count]
  refine Twins.startThread ?_ _ hr
  refine (Akin.push ?_ ?_).twins
  · exact { h with count := rfl }
  · simp

theorem serve (h : Akin veil i J J' m m') {q : Request G} (hq : veil.Open (.serve q)) :
    Twins veil i J J' (m.serve code q) (m'.serve code q) := by
  obtain ⟨w, hw, hw'⟩ := h.world
  cases q with
  | build config =>
    simp only [Machine.serve, hw, hw', World.build_after]
    exact ((h.set _).go _).twins
  | close l => exact (h.close l).twins
  | blockOn l f => exact (h.blockOn l f).twins
  | getResult f => exact (h.getResult f).twins
  | spawn f => exact (h.spawn f).twins
  | start f => exact (h.startTask f).twins
  | startOn l f => exact (h.handOff l _).twins
  | callSoon l c => exact (h.handOff l _).twins
  | source l => exact (h.newSource l).twins
  | settle s o => exact (h.settle s o).twins
  | wake k => exact (h.push (by simp)).twins
  | poll f k => exact (h.poll k f).twins
  | drop f => exact (h.dropFuture f).twins
  | pollCell c k => exact (h.pollCell c k).twins
  | pollJoin j k =>
    simp only [Machine.serve, hw, hw', World.pollJoin_after]
    exact ((h.set _).go _).twins
  | identities n =>
    simp only [Machine.serve, hw, hw', World.reserve_after]
    exact ((h.set _).go _).twins
  | run run | guarded run => exact (h.push (by simpa using hq)).twins
  | thread run => exact h.thread (hq run (by simp))
  | background run delay => exact (h.background (hq run (by simp)) delay).twins
  | joinThread t => exact (h.push (by simp)).twins

/-- A handler that is told of a failure does the same, or what it does is not seen. -/
theorem report (h : Akin veil i J J' m m')
    (handlers : ∀ x, veil.Hushes x ∨ ∀ e, veil.Public (code.handle x e)) (l : LoopId) (e : Error)
    (hne : m.jobs ≠ []) : Twins veil i J J' (m.report code l e) (m'.report code l e) := by
  obtain ⟨w, hw, hw'⟩ := h.world
  unfold Machine.report
  simp only [hw, hw', World.loop?_after, World.loopName_after]
  cases (w.loop? l).bind (·.handler) with
  | none => exact ((h.emit _).go _).twins
  | some x =>
    rcases handlers x with hushes | hpublic
    · obtain ⟨job, jobs, hj⟩ := List.exists_cons_of_ne_nil hne
      obtain ⟨job', jobs', hlike, hlikes, hj'⟩ := h.exists_cons hj
      refine { h with running := ⟨h.toKin.thread, .going .nothing, job :: jobs, job' :: jobs',
        ?_, ?_, .cons hlike hlikes, hj ▸ h.isOpen⟩ }
      · simp only [Machine.push, Machine.insert, Machine.go, hj]
        exact .handler (hushes e)
      · simp only [Machine.push, Machine.insert, Machine.go, hj']
        exact .handler (hushes e)
    · exact (h.push (by simpa using hpublic e)).twins

theorem perform (h : Akin veil i J J' m m')
    (handlers : ∀ x, veil.Hushes x ∨ ∀ e, veil.Public (code.handle x e)) (a : Answer G)
    {job : Job G} (ho : veil.Open job) (hne : (∃ l e, job = .report l e) → m.jobs ≠ []) :
    Twins veil i J J' (m.perform code a job) (m'.perform code a job) := by
  obtain ⟨w, hw, hw'⟩ := h.world
  cases job with
  | resume run => exact (h.advance (ho run (by simp)) a).twins
  | serve q => exact h.serve ho
  | answer b => exact (h.go b).twins
  | emit e => exact (h.emit e).twins
  | drop f => exact (h.dropFuture f).twins
  | discard e => exact (h.discard e).twins
  | abandon work => exact (h.abandon work).twins
  | wake k => exact (h.wake k).twins
  | notify k =>
    simp only [Machine.perform, hw, hw', World.notify_after]
    exact (h.set _).twins
  | fill j o => exact (h.fill j o).twins
  | handOff l c => exact (h.handOff l c).twins
  | mainPolled l k batch => exact (h.mainPolled l k batch _).twins
  | turn l k f batch => exact (h.turn l k f batch).twins
  | restore previous =>
    simp only [Machine.perform, hw, hw', World.enter_after]
    exact (h.set _).twins
  | leave l =>
    simp only [Machine.perform, hw, hw', World.loopName_after]
    exact ((h.emit _).go _).twins
  | taskPolled l slot kind => exact (h.taskPolled l slot kind _).twins
  | taskEnded l slot kind o => exact (h.taskEnded l slot o kind).twins
  | taskFinished l slot =>
    simp only [Machine.perform, Machine.taskFinished, hw, hw', World.finishTask_after]
    exact ((h.set _).go _).twins
  | taskPanicked l slot panic =>
    simp only [Machine.perform, Machine.taskPanicked, hw, hw', World.removeTask_after]
    exact ((h.set _).push (by simp)).twins
  | called | reported | barrier => exact (h.go _).twins
  | report l e => exact h.report handlers l e (hne ⟨l, e, rfl⟩)
  | drain l n => exact (h.drain l n).twins
  | owned l => exact (h.push (by simp)).twins
  | await t =>
    simp only [Machine.perform, h.ended?]
    exact (h.go _).twins
  | threadEnd t => exact (h.endThread t _).twins
  | propagate panic => exact twins { h with mode := rfl }

/-- The task at issue hands its outcome over: where that is a failure, it is to be reported. -/
theorem taskEnded_at_issue (h : Akin veil i J J' m m') {o o' : Joined} (ho : i.left = some o)
    (ho' : i.right = some o') :
    Twins veil i J J' (m.taskEnded i.loop i.slot o .detached)
      (m'.taskEnded i.loop i.slot o' .detached) := by
  -- either machine shows that the task is finished, with a report above where there is a failure
  have shows : ∀ {due : Option Joined} {o : Joined} (m : Machine G), due = some o →
      Shows veil i.loop due (.going .nothing) (.taskFinished i.loop i.slot :: m.jobs)
        (m.taskEnded i.loop i.slot o .detached).mode
        (m.taskEnded i.loop i.slot o .detached).jobs := by
    intro due o m hd
    unfold Machine.taskEnded
    cases he : o.flatten with
    | ok => exact .plain
    | error e => exact .report hd he
  have kin : ∀ (o : Joined) (m : Machine G), ∃ mode jobs,
      m.taskEnded i.loop i.slot o .detached = { m with mode, jobs } := by
    intro o m
    unfold Machine.taskEnded
    cases o.flatten <;> exact ⟨_, _, rfl⟩
  have left := shows m ho
  have right := shows m' ho'
  obtain ⟨mode, jobs, he⟩ := kin o m
  obtain ⟨mode', jobs', he'⟩ := kin o' m'
  rw [he] at left ⊢
  rw [he'] at right ⊢
  exact { h with running := ⟨h.toKin.thread, _, _, _, left, right, .cons (.same _) h.jobs,
    List.forall_mem_cons.mpr ⟨by simp, h.isOpen⟩⟩ }

/-- The stacks with the job on top taken off. -/
theorem pop (h : Akin veil i J J' m m') {job job' : Job G} {rest rest' : List (Job G)}
    (hj : m.jobs = job :: rest) (hj' : m'.jobs = job' :: rest') :
    Like i job job' ∧ veil.Open job ∧
      Akin veil i J J' { m with jobs := rest } { m' with jobs := rest' } := by
  have hjobs := h.jobs
  have hopen := h.isOpen
  rw [hj, hj'] at hjobs
  rw [hj] at hopen
  obtain ⟨hlike, hlikes⟩ := List.forall₂_cons.mp hjobs
  obtain ⟨ho, hos⟩ := List.forall_mem_cons.mp hopen
  exact ⟨hlike, ho, { h with jobs := hlikes, isOpen := hos }⟩

theorem mustWait (h : Akin veil i J J' m m') {job job' : Job G} (hlike : Like i job job') :
    m'.mustWait job' = m.mustWait job := by
  obtain ⟨w, hw, hw'⟩ := h.world
  cases hlike with
  | ended => rfl
  | same =>
    unfold Machine.mustWait
    simp only [hw, hw', World.hasWork_after, h.ended?]

theorem isIdle (h : Akin veil i J J' m m') : m'.isIdle = m.isIdle := by
  have hjobs := h.jobs
  unfold Machine.isIdle
  rw [← h.mode]
  generalize m.jobs = jobs at hjobs
  generalize m'.jobs = jobs' at hjobs
  cases hjobs with
  | nil => rfl
  | cons hlike _ =>
    cases m.mode with
    | going a => exact h.mustWait hlike
    | unwinding | aborted => rfl

theorem isAborted (h : Akin veil i J J' m m') : m'.isAborted = m.isAborted := by
  unfold Machine.isAborted
  rw [h.mode]

theorem served (h : Akin veil i J J' m m') (q : Request G) : m'.served q = m.served q := by
  obtain ⟨w, hw, hw'⟩ := h.world
  cases q with
  | build | getResult | close | blockOn =>
    simp only [Machine.served, h.current, h.isRunning, hw, hw']
    rfl
  | startOn | callSoon => simp [Machine.served, Machine.handed, hw, hw']
  | settle => simp [Machine.served, hw, hw']
  | poll f k => cases f <;> simp [Machine.served, Machine.joinRead, hw, hw']
  | pollCell | pollJoin => simp [Machine.served, Machine.cellRead, Machine.joinRead, hw, hw']
  | _ => rfl

theorem entryProcessed (h : Akin veil i J J' m m') (l : LoopId) (k : WakerId) (e : Entry G) :
    m'.entryProcessed l k e = m.entryProcessed l k e := by
  obtain ⟨w, hw, hw'⟩ := h.world
  match e with
  | .main => rfl
  | .wake slot => simp [Machine.entryProcessed, hw, hw']
  | .call (.settle c o) => simp [Machine.entryProcessed, hw, hw']
  | .call (.own c) | .call (.start f) => rfl

theorem performed (h : Akin veil i J J' m m') (a : Answer G) (job : Job G) :
    m'.performed a job = m.performed a job := by
  obtain ⟨w, hw, hw'⟩ := h.world
  cases job with
  | serve q => exact h.served q
  | turn l k f batch =>
    cases batch with
    | nil => rfl
    | cons e rest => exact congrArg _ (h.entryProcessed l k e)
  | wake | notify | handOff | fill => simp [Machine.performed, Machine.handed, hw, hw']
  | _ => rfl

theorem happenings (h : Akin veil i J J' m m') : m'.happenings = m.happenings := by
  have hjobs := h.jobs
  have hperformed := h.performed
  unfold Machine.happenings
  rw [← h.mode]
  generalize m.jobs = jobs at hjobs
  generalize m'.jobs = jobs' at hjobs
  cases hjobs with
  | nil => rfl
  | @cons job job' _ _ hlike _ =>
    cases hlike with
    | ended => cases m.mode <;> rfl
    | same =>
      cases m.mode with
      | going a => exact hperformed a job
      | unwinding p r => cases job <;> rfl
      | aborted => cases job <;> rfl

theorem milestones (h : Akin veil i J J' m m') : m'.milestones = m.milestones := by
  obtain ⟨w, hw, hw'⟩ := h.world
  have hjobs := h.jobs
  unfold Machine.milestones
  rw [← h.mode, hw, hw']
  generalize m.jobs = jobs at hjobs
  generalize m'.jobs = jobs' at hjobs
  cases hjobs with
  | nil => rfl
  | @cons job job' _ _ hlike _ =>
    cases hlike with
    | ended => cases m.mode <;> rfl
    | same =>
      cases m.mode with
      | going a => simp only [World.told_after]
      | unwinding p r => simp only [World.toldOfPanic_after]
      | aborted => rfl

/-- **Machines that are about to take the same step are alike after it.** -/
theorem step (h : Akin veil i J J' m m')
    (handlers : ∀ x, veil.Hushes x ∨ ∀ e, veil.Public (code.handle x e)) (hs : m.Sound)
    (hi : m.isIdle = false) (live : m.isAborted = false) :
    Twins veil i J J' (m.step code) (m'.step code) := by
  obtain ⟨job, rest, hj⟩ := Machine.exists_job hi
  obtain ⟨job', rest', -, -, hj'⟩ := h.exists_cons hj
  obtain ⟨hlike, ho, below⟩ := h.pop hj hj'
  cases hmode : m.mode with
  | aborted => simp [Machine.isAborted, hmode] at live
  | unwinding p r =>
    rw [Machine.step_of_unwinding hj hmode, Machine.step_of_unwinding hj' (h.mode ▸ hmode)]
    cases hlike with
    | same => exact (below.unwind p r ho).twins
    | ended => exact (below.unwind p r ho).twins
  | going a =>
    have hw : m.mustWait job = false := (Machine.isIdle_of_going hj hmode).symm.trans hi
    have hw' : m'.mustWait job' = false := (h.mustWait hlike).trans hw
    rw [Machine.step_of_going hj hmode hw, Machine.step_of_going hj' (h.mode ▸ hmode) hw']
    cases hlike with
    | ended h₁ h₂ => exact below.taskEnded_at_issue h₁ h₂
    | same =>
      refine below.perform handlers a ho ?_
      -- below a report there is the turn of the loop, or the end of the task
      rintro ⟨l, e, rfl⟩ hnil
      have hbelow := (hs.strands _ List.mem_cons_self).stacked
      simp only [hj] at hbelow
      obtain ⟨k, f, batch, rest, rfl⟩ | ⟨slot, rest, rfl⟩ := hbelow.1 <;> cases hnil

end Akin

/-! ## Exchanging the two runs -/

/-- The issue as it is with the two runs exchanged. -/
def Issue.swap (i : Issue) : Issue :=
  ⟨i.loop, i.slot, i.right, i.left⟩

theorem Like.swap {job job' : Job G} (h : Like i job job') : Like i.swap job' job := by
  cases h with
  | same => exact .same _
  | ended h h' => exact .ended (i := i.swap) h' h

theorem forall₂_swap {α : Type} {R S : α → α → Prop} (hr : ∀ a b, R a b → S b a) {as bs : List α}
    (h : List.Forall₂ R as bs) : List.Forall₂ S bs as :=
  (h.imp (S := flip S) hr).flip

theorem Like.isOpen {job job' : Job G} (h : Like i job job') (ho : veil.Open job) :
    veil.Open job' := by
  cases h with
  | same => exact ho
  | ended => simp

theorem forall₂_isOpen {jobs jobs' : List (Job G)} (h : List.Forall₂ (Like i) jobs jobs')
    (ho : ∀ job ∈ jobs, veil.Open job) : ∀ job ∈ jobs', veil.Open job := by
  induction h with
  | nil => exact ho
  | cons hlike _ ih =>
    obtain ⟨hjob, hjobs⟩ := List.forall_mem_cons.mp ho
    exact List.forall_mem_cons.mpr ⟨hlike.isOpen hjob, ih hjobs⟩

theorem Alike.swap {q q' : Parked G} (h : Alike veil i q q') : Alike veil i.swap q' q := by
  obtain ⟨μ, jobs, jobs', shows, shows', hlike, ho⟩ := h.shown
  exact ⟨h.thread.symm, μ, jobs', jobs, shows', shows, forall₂_swap (fun _ _ h => h.swap) hlike,
    forall₂_isOpen hlike ho⟩

theorem Kin.swap (h : Kin veil i J J' m m') : Kin veil i.swap J' J m' m := by
  obtain ⟨w, hw, hw'⟩ := h.world
  exact {
    world := ⟨w, hw', hw⟩
    shared := veil.same.symm h.shared
    count := h.count.symm
    waiting := h.waiting.symm
    ended := h.ended.symm
    clock := h.clock.symm
    fresh := h.waiting ▸ h.fresh
    parked := forall₂_swap (fun _ _ h => h.swap) h.parked }

/-! ## Reports -/

/-- Where something that loop `l` has under way is at the top, there is nothing else of it. -/
theorem Machine.Sound.not_isOpen_below {l : LoopId} (hs : m.Sound) {job : Job G}
    {rest : List (Job G)} (hj : m.jobs = job :: rest) (ho : job.isOpen l = true) :
    (∀ i ∈ rest, i.isOpen l = false) ∧
      ∀ q ∈ m.threads.parked, ∀ i ∈ q.jobs, i.isOpen l = false := by
  have hone := hs.length_underWay l
  rw [Machine.underWay, Machine.allJobs_of_top hj, List.filter_cons_of_pos ho] at hone
  have hone := List.length_eq_zero_iff.mp (Nat.le_zero.mp (Nat.le_of_succ_le_succ hone))
  rw [List.filter_eq_nil_iff] at hone
  refine ⟨fun i hi => ?_, fun q hq i hi => ?_⟩
  · simpa using hone i (List.mem_append_left _ hi)
  · simpa using hone i (List.mem_append_right _ (List.mem_flatMap.mpr ⟨q, hq, hi⟩))

theorem Like.tell {jobs jobs' : List (Job G)} (h : List.Forall₂ (Like i) jobs jobs')
    (hn : ∀ job ∈ jobs, job.isOpen i.loop = false) :
    List.Forall₂ (Like { i with left := none }) jobs jobs' := by
  induction h with
  | nil => exact .nil
  | cons hlike _ ih =>
    obtain ⟨hjob, hjobs⟩ := List.forall_mem_cons.mp hn
    refine .cons ?_ (ih hjobs)
    cases hlike with
    | same => exact .same _
    | ended => simp [Job.isOpen] at hjob

theorem Alike.tell {q q' : Parked G} (h : Alike veil i q q')
    (hn : ∀ job ∈ q.jobs, job.isOpen i.loop = false) : Alike veil { i with left := none } q q' := by
  obtain ⟨μ, jobs, jobs', shows, shows', hlike, ho⟩ := h.shown
  obtain ⟨hidden, hj, -⟩ := shows.exists_append
  have hlike := Like.tell hlike fun job hmem => hn job (hj ▸ List.mem_append_right _ hmem)
  refine ⟨h.thread, μ, jobs, jobs', ?_, shows', hlike, ho⟩
  generalize q.mode = mode at shows
  generalize q.jobs = above at shows hn
  cases shows with
  | plain => exact .plain
  | spent => exact .spent
  | report => simp [Job.isOpen] at hn
  | handling h => exact .handling h

/-- Where one of two machines goes on unseen, it has the same in common with the other, but for a
failure of which it tells. -/
theorem Kin.aside (h : Kin veil i J J' m m') (hs : m.Sound) {jobs jobs' : List (Job G)}
    (hlike : List.Forall₂ (Like i) jobs jobs') {m₁ : Machine G} {d : Option Joined}
    (tells : Tells i.loop i.left m jobs d) (hview : m₁.world.view = m.world.view)
    (hsame : veil.Same m.shared m₁.shared) (hthreads : m₁.threads = m.threads) :
    Kin veil { i with left := d } m₁.world.journal m'.world.journal m₁ m' ∧
      List.Forall₂ (Like { i with left := d }) jobs jobs' := by
  have hworld : m₁.world.view = m'.world.view := hview.trans h.view
  have hkin : List.Forall₂ (Alike veil { i with left := d }) m.threads.parked m'.threads.parked ∧
      List.Forall₂ (Like { i with left := d }) jobs jobs' := by
    rcases tells with rfl | ⟨rfl, e, hj⟩
    · exact ⟨h.parked, hlike⟩
    · -- the report is all that the loop has under way, so that the outcome at issue is nowhere
      obtain ⟨hbelow, hothers⟩ := hs.not_isOpen_below hj (l := i.loop) (by simp [Job.isOpen])
      have hparked := (List.forall₂_and_left
        (p := fun q : Parked G => ∀ job ∈ q.jobs, job.isOpen i.loop = false) _ _).mpr
          ⟨hothers, h.parked⟩
      exact ⟨hparked.imp fun q q' hq => hq.2.tell hq.1, Like.tell hlike hbelow⟩
  exact ⟨{
    world := ⟨m₁.world.view, World.eq_after _, hworld ▸ World.eq_after _⟩
    shared := veil.same.trans (veil.same.symm hsame) h.shared
    count := hthreads ▸ h.count
    waiting := hthreads ▸ h.waiting
    ended := hthreads ▸ h.ended
    clock := hthreads ▸ h.clock
    fresh := hthreads ▸ h.fresh
    parked := hthreads ▸ hkin.1 }, hkin.2⟩

end

end RunLoop
