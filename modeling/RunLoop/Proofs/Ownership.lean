import RunLoop.Proofs.Teardown

/-!
# Claims on a loop, and what touches it

A loop is run and dropped by those who have it. A stack has a claim on a loop if it runs it, is
about to run or to drop it, or holds it for as long as one request takes. No step makes further
claims, except that code may ask for a loop it knows of; so a loop that no code asks for belongs to
the one request that built it. Everybody else can only reach it through its queue and through the
thread that it is current on.

* `Machine.claimsOn` counts the claims on a loop, and `Machine.claimsOn_step` says that they do not
  become more.
* `Machine.touches` says that the job on top of the stack may change the queue or the table of a
  loop, and `Machine.Walk.untouched` that nothing else does.
-/

namespace RunLoop

variable {G : Guest} {l : LoopId}

/-! ## Claims -/

/-- Whether a request is to run or to drop loop `l`. -/
def Request.takes (l : LoopId) : Request G → Bool
  | blockOn l' _ | close l' => l' = l
  | _ => false

/-- Whether a job is a claim on loop `l`: to run it, to drop it or to hold it, or that it runs. -/
def Job.claims (l : LoopId) : Job G → Bool
  | serve q => q.takes l
  | owned l' | leave l' => l' = l
  | _ => false

/-- The number of claims on loop `l` among jobs. -/
def claimsIn (l : LoopId) (jobs : List (Job G)) : Nat :=
  jobs.countP (Job.claims l)

@[simp] theorem claimsIn_nil : claimsIn l ([] : List (Job G)) = 0 :=
  rfl

theorem claimsIn_cons (job : Job G) (jobs : List (Job G)) :
    claimsIn l (job :: jobs) = claimsIn l jobs + if job.claims l then 1 else 0 := by
  simp [claimsIn, List.countP_cons]

@[simp] theorem claimsIn_append (jobs jobs' : List (Job G)) :
    claimsIn l (jobs ++ jobs') = claimsIn l jobs + claimsIn l jobs' :=
  List.countP_append

theorem claimsIn_le_of_sublist {jobs jobs' : List (Job G)} (h : jobs.Sublist jobs') :
    claimsIn l jobs ≤ claimsIn l jobs' :=
  h.countP_le

/-- What is only to be woken, dropped or abandoned claims nothing. -/
theorem claimsIn_map {α : Type} {f : α → Job G} (h : ∀ x, (f x).claims l = false) (xs : List α) :
    claimsIn l (xs.map f) = 0 := by
  simp [claimsIn, List.countP_eq_zero, h]

@[simp] theorem claimsIn_wakes (ks : List WakerId) :
    claimsIn l (ks.map (Job.wake (G := G))) = 0 :=
  claimsIn_map (fun _ => rfl) ks

@[simp] theorem claimsIn_drops (fs : List (Future G.Coroutine)) :
    claimsIn l (fs.map Job.drop) = 0 :=
  claimsIn_map (fun _ => rfl) fs

@[simp] theorem claimsIn_discards (es : List (Entry G)) : claimsIn l (es.map Job.discard) = 0 :=
  claimsIn_map (fun _ => rfl) es

@[simp] theorem claimsIn_abandons (works : List (Work G.Coroutine)) :
    claimsIn l (works.map Job.abandon) = 0 :=
  claimsIn_map (fun _ => rfl) works

namespace Machine

variable {code : G.Code} {m m' : Machine G} {p : List (Machine G)} {a : Answer G} {job : Job G}
  {jobs rest : List (Job G)}

@[simp] theorem jobs_push : (m.push jobs).jobs = jobs ++ m.jobs :=
  rfl

@[simp] theorem jobs_insert : (m.insert jobs).jobs = jobs ++ m.jobs :=
  rfl

@[simp] theorem jobs_cleanUp (panic : Payload) :
    (m.cleanUp panic jobs).jobs = jobs ++ .propagate panic :: m.jobs := by
  simp [cleanUp]

@[simp] theorem jobs_go : (m.go a).jobs = m.jobs :=
  rfl

@[simp] theorem jobs_set (w : World G) : (m.set w).jobs = m.jobs :=
  rfl

@[simp] theorem jobs_emit (e : Event) : (m.emit e).jobs = m.jobs :=
  rfl

@[simp] theorem jobs_raise (panic : Payload) : (m.raise panic).jobs = m.jobs :=
  rfl

/-- The request that the code on top of the stack is about to make. -/
def asked? (code : G.Code) (m : Machine G) : Option (Request G) :=
  match m.jobs, m.mode with
  | .resume run :: rest, .going a =>
      match (code.step { m with jobs := rest }.scene m.shared run a).act with
      | .request q _ => some q
      | _ => none
  | _, _ => none

theorem asked?_of_act {run run' : G.Run} {q : Request G} (hj : m.jobs = .resume run :: rest)
    (hmode : m.mode = .going a)
    (hact : (code.step { m with jobs := rest }.scene m.shared run a).act = .request q run') :
    m.asked? code = some q := by
  obtain ⟨w, shared, threads, mode, jobs⟩ := m
  cases hj
  cases hmode
  simp only [asked?]
  simp only [hact]

theorem claimsIn_advance (run : G.Run)
    (hask : ∀ q run', (code.step m.scene m.shared run a).act = .request q run' →
      q.takes l = false) : claimsIn l (m.advance code run a).jobs ≤ claimsIn l m.jobs := by
  simp only [advance]
  cases hact : (code.step m.scene m.shared run a).act with
  | request q run' => simp [claimsIn_cons, Job.claims, hask q run' hact]
  | _ => simp [claimsIn_cons, Job.claims]

theorem claimsIn_serve (q : Request G) (hq : ∀ run, q ≠ .thread run)
    (hnew : l ≠ ⟨m.world.loops.size⟩) :
    claimsIn l (m.serve code q).jobs ≤ claimsIn l (.serve q :: m.jobs) := by
  cases q with
  | thread run => exact absurd rfl (hq run)
  | poll f k =>
    cases f with
    | nested inner =>
      simp only [serve, poll]
      split <;> simp [claimsIn_cons, Job.claims, Request.takes]
    | forwarding j =>
      simp only [serve, poll, forward]
      split <;> simp [claimsIn_cons, Job.claims, Request.takes]
    | _ => simp [serve, poll, claimsIn_cons, Job.claims, Request.takes]
  | drop f => cases f <;> simp [serve, dropFuture, claimsIn_cons, Job.claims, Request.takes]
  | getResult f =>
    simp only [serve, getResult]
    split
    · simp [claimsIn_cons, Job.claims, Request.takes]
    · simp [World.build, World.emit, World.write, claimsIn_cons, Job.claims, Request.takes,
        hnew.symm]
  | blockOn l' f =>
    simp only [serve, blockOn]
    split
    · simp [claimsIn_cons, Job.claims, Request.takes]
    · split <;> simp [claimsIn_cons, Job.claims, Request.takes]
  | close l' =>
    simp only [serve, close]
    split <;> simp [claimsIn_cons, Job.claims, Request.takes]
  | spawn | start | source | settle | pollCell | startOn | callSoon =>
    simp only [serve, spawn, startTask, newSource, settle, pollCell, handOff]
    split <;> (try split) <;> simp [claimsIn_cons, Job.claims, Request.takes]
  | background run delay =>
    simp only [serve, background, jobs_go]
    exact claimsIn_le_of_sublist (List.sublist_cons_self _ _)
  | _ => simp [serve, claimsIn_cons, Job.claims, Request.takes]

theorem claimsIn_turn (l' : LoopId) (k : WakerId) (f : Future G.Coroutine)
    (batch : List (Entry G)) :
    claimsIn l (m.turn code l' k f batch).jobs ≤ claimsIn l m.jobs := by
  cases batch with
  | nil => simp [turn, claimsIn_cons, Job.claims]
  | cons e batch =>
    cases e with
    | main => simp [turn, process, claimsIn_cons, Job.claims, Request.takes]
    | wake slot =>
      simp only [turn, process, pollTask]
      split <;> simp [claimsIn_cons, Job.claims, Request.takes]
    | call c =>
      cases c with
      | own c => simp [turn, process, call, claimsIn_cons, Job.claims]
      | settle c o =>
        simp only [turn, process, call]
        split <;> simp [claimsIn_cons, Job.claims]
      | start f =>
        simp only [turn, process, call]
        split <;> simp [claimsIn_cons, Job.claims]

/-- What is performed in order makes no further claims, unless code asks for a loop. -/
theorem claimsIn_perform (job : Job G) (hthread : ∀ run, job ≠ .serve (.thread run))
    (hnew : l ≠ ⟨m.world.loops.size⟩)
    (hask : ∀ run q run', job = .resume run →
      (code.step m.scene m.shared run a).act = .request q run' → q.takes l = false) :
    claimsIn l (m.perform code a job).jobs ≤ claimsIn l (job :: m.jobs) := by
  cases job with
  | resume run =>
    refine Nat.le_trans (claimsIn_advance run fun q run' => hask run q run' rfl) ?_
    exact claimsIn_le_of_sublist (List.sublist_cons_self _ _)
  | serve q => exact claimsIn_serve q (fun run e => hthread run (e ▸ rfl)) hnew
  | turn l' k f batch =>
    refine Nat.le_trans (claimsIn_turn l' k f batch) ?_
    exact claimsIn_le_of_sublist (List.sublist_cons_self _ _)
  | drop f => cases f <;> simp [perform, dropFuture, claimsIn_cons, Job.claims]
  | discard e =>
    cases e with
    | call c => cases c <;> simp [perform, discard, claimsIn_cons, Job.claims]
    | _ => simp [perform, discard, claimsIn_cons, Job.claims]
  | abandon | wake | handOff | report =>
    simp only [perform, abandon, wake, handOff, report]
    split <;> simp [claimsIn_cons, Job.claims]
  | mainPolled | taskPolled =>
    simp only [perform, mainPolled, taskPolled]
    cases a.toPoll <;> simp [claimsIn_cons, Job.claims]
  | taskEnded l' slot kind o =>
    cases kind with
    | joined j => simp [perform, taskEnded, claimsIn_cons, Job.claims]
    | detached =>
      simp only [perform, taskEnded]
      cases o.flatten <;> simp [claimsIn_cons, Job.claims]
  | threadEnd t =>
    simp only [perform, endThread, jobs_go]
    exact claimsIn_le_of_sublist (List.sublist_cons_self _ _)
  | propagate panic => exact claimsIn_le_of_sublist (List.sublist_cons_self _ _)
  | _ =>
    simp [perform, Machine.fill, drain, taskFinished, taskPanicked, claimsIn_cons, Job.claims,
      Request.takes]

/-- A panic makes no further claims. -/
theorem claimsIn_unwind (job : Job G) (panic : Payload) (r : Option (Future G.Coroutine)) :
    claimsIn l (m.unwind code panic r job).jobs ≤ claimsIn l (job :: m.jobs) := by
  have less : claimsIn l m.jobs ≤ claimsIn l (job :: m.jobs) :=
    claimsIn_le_of_sublist (List.sublist_cons_self _ _)
  cases job with
  | taskEnded l' slot kind o => cases kind <;> simp [unwind, claimsIn_cons, Job.claims]
  | threadEnd | propagate | serve | answer | emit | leave => exact less
  | _ => simp [unwind, claimsIn_cons, Job.claims, Request.takes]

/-- The number of claims on loop `l`, on all stacks. -/
def claimsOn (m : Machine G) (l : LoopId) : Nat :=
  claimsIn l m.allJobs

theorem claimsOn_eq (hj : m.jobs = jobs) :
    m.claimsOn l = claimsIn l jobs + claimsIn l (m.threads.parked.flatMap (·.jobs)) := by
  rw [claimsOn, allJobs, claimsIn_append, hj]

theorem Switched.claimsOn (switched : m.Switched m') (l : LoopId) :
    m'.claimsOn l = m.claimsOn l := by
  have hperm := switched.filter_allJobs (p := Job.claims l) (fun _ => rfl) fun _ => rfl
  rw [Machine.claimsOn, Machine.claimsOn, claimsIn, claimsIn, List.countP_eq_length_filter,
    List.countP_eq_length_filter, hperm.length_eq]

/-- A step makes no further claims on a loop that is there, unless code asks for it. -/
theorem claimsOn_step (hi : m.isIdle = false) (live : m.isAborted = false)
    (hl : l.index < m.world.loops.size)
    (hask : ∀ q, m.asked? code = some q → q.takes l = false) :
    (m.step code).claimsOn l ≤ m.claimsOn l := by
  have hnew : l ≠ ⟨m.world.loops.size⟩ := by
    rintro rfl
    exact Nat.lt_irrefl _ hl
  obtain ⟨job, rest, hj⟩ := exists_job hi
  by_cases hne : ∃ run a, job = .serve (.thread run) ∧ m.mode = .going a
  · obtain ⟨run, a, rfl, hmode⟩ := hne
    rw [step_of_going hj hmode rfl]
    refine Nat.le_of_eq (((switched_startThread _ _).claimsOn l).trans ?_)
    rw [claimsOn_eq hj, claimsOn_eq rfl]
    simp [claimsIn_cons, Job.claims, Request.takes, push, insert, go]
  · rw [claimsOn_eq rfl, claimsOn_eq hj, parked_step code hi live hj hne]
    refine Nat.add_le_add_right ?_ _
    cases hmode : m.mode with
    | aborted => simp [isAborted, hmode] at live
    | unwinding panic r =>
      rw [step_of_unwinding hj hmode]
      exact claimsIn_unwind job panic r
    | going a =>
      rw [step_of_going hj hmode ((isIdle_of_going hj hmode).symm.trans hi)]
      exact claimsIn_perform job (fun run e => hne ⟨run, a, e, hmode⟩) hnew
        fun run q run' e hact => hask q (asked?_of_act (e ▸ hj) hmode hact)

end Machine

/-! ## What touches a loop -/

/-- Whether a request may change the queue or the table of loop `l`. -/
def Request.touches (w : World G) (l : LoopId) : Request G → Bool
  | close l' | startOn l' _ | callSoon l' _ => l' = l
  | spawn _ | start _ | poll (.nested _) _ => w.thread.current = some l
  | _ => false

/-- Whether a job may change the queue or the table of loop `l`: a request that is about the loop or
made while it is current, a wake-up or a callback that is brought to it, or work of its own. -/
def Job.touches (w : World G) (l : LoopId) : Job G → Bool
  | serve q => q.touches w l
  | notify k => (w.waker? k).any (fun x => x.loop = l)
  | handOff l' _ | mainPolled l' _ _ | turn l' _ _ _ | taskPolled l' _ _ | taskFinished l' _
  | taskPanicked l' _ _ | drain l' _ => l' = l
  | _ => false

namespace World

variable {w w' : World G} {l' : LoopId}

theorem Agrees.loop? (h : w.Agrees w') (l : LoopId) : w'.loop? l = w.loop? l := by
  rw [World.loop?, h.loops, ← World.loop?]

theorem loop?_modifyLoop_of_ne {f : EventLoop G → EventLoop G} (h : l' ≠ l) :
    (w.modifyLoop l' f).loop? l = w.loop? l := by
  rw [loop?_modifyLoop, if_neg h]

theorem loop?_addTask_of_ne (h : l' ≠ l) (kind : Kind) (f : Future G.Coroutine) :
    (w.addTask l' kind f).1.loop? l = w.loop? l := by
  obtain ⟨e, he⟩ := addTask_eq w l' kind f
  rw [he]
  exact loop?_modifyLoop_of_ne h

theorem loop?_push?_of_ne {e : Entry G} (h : l' ≠ l) (hp : w.push? l' e = some w') :
    w'.loop? l = w.loop? l := by
  obtain ⟨_, rfl⟩ := push?_eq_some_iff.mp hp
  exact loop?_modifyLoop_of_ne h

theorem loop?_build (hl : l.index < w.loops.size) (c : Config G) :
    (w.build c).1.loop? l = w.loop? l := by
  simp [World.loop?, build, emit, write, Array.getElem?_push, Nat.ne_of_lt hl]

theorem loop?_pollJoin (j : JoinId) (k : WakerId) (l : LoopId) :
    (w.pollJoin j k).1.loop? l = w.loop? l := by
  unfold pollJoin
  split <;> rfl

theorem loop?_pollCell (c : CellId) (k : WakerId) (l : LoopId) :
    (w.pollCell c k).1.loop? l = w.loop? l := by
  unfold pollCell
  split <;> rfl

end World

namespace Machine

variable {code : G.Code} {m m' : Machine G} {p : List (Machine G)} {a : Answer G}
  {rest : List (Job G)}

/-- A request that does not touch a loop leaves it as it is. -/
theorem loop?_serve (q : Request G) (hq : ∀ run, q ≠ .thread run)
    (hl : l.index < m.world.loops.size) (h : q.touches m.world l = false) :
    (m.serve code q).world.loop? l = m.world.loop? l := by
  have elsewhere : ∀ {l'}, decide (m.world.thread.current = some l) = false →
      m.current = some l' → l' ≠ l := by
    rintro l' hne hl' rfl
    exact absurd hl' (of_decide_eq_false hne)
  cases q with
  | thread run => exact absurd rfl (hq run)
  | build c => exact World.loop?_build hl c
  | getResult f =>
    simp only [serve, getResult]
    split
    · rfl
    · exact World.loop?_build hl _
  | close l' =>
    simp only [serve, close, World.closeQueue_eq]
    split
    · rfl
    · exact World.loop?_modifyLoop_of_ne (of_decide_eq_false h)
  | blockOn l' f =>
    simp only [serve, blockOn]
    split
    · rfl
    · split <;> rfl
  | spawn f =>
    simp only [serve, spawn]
    split
    · rfl
    · rename_i l' hl'
      exact World.loop?_addTask_of_ne (elsewhere h hl') _ _
  | start f =>
    simp only [serve, startTask]
    split
    · rfl
    · rename_i l' hl'
      exact World.loop?_addTask_of_ne (elsewhere h hl') _ _
  | startOn l' f | callSoon l' c =>
    simp only [serve, handOff]
    split
    · rename_i w hw
      exact World.loop?_push?_of_ne (of_decide_eq_false h) hw
    · rfl
  | source l' =>
    simp only [serve, newSource]
    split <;> rfl
  | settle s o =>
    simp only [serve, settle]
    split
    · rfl
    · rfl
    · rename_i w _ hs
      obtain rfl : (m.world.claim s).1 = w := by rw [hs]
      rfl
  | poll f k =>
    cases f with
    | nested inner =>
      simp only [serve, poll]
      split
      · rfl
      · rename_i l' hl'
        exact World.loop?_addTask_of_ne (elsewhere h hl') _ _
    | forwarding j =>
      have hread := m.world.loop?_pollJoin j k l
      simp only [serve, poll, forward]
      split
      all_goals
        rename_i hw
        rw [hw] at hread
        exact hread
    | _ => rfl
  | drop f => cases f <;> rfl
  | pollCell c k =>
    have hread := m.world.loop?_pollCell c k l
    simp only [serve, pollCell]
    split
    · rename_i hw
      rw [hw] at hread
      split <;> exact hread
    · rename_i hw
      rw [hw] at hread
      exact hread
  | pollJoin j k => exact m.world.loop?_pollJoin j k l
  | _ => rfl

end Machine

/-- A job that does not touch a loop leaves it as it is. -/
theorem Rule.loop? {busy : LoopId → Prop} {w w' : World G} {mode mode' : Mode G} {job : Job G}
    {η : List (Happening G)} {jobs rest : List (Job G)}
    (rule : Rule busy w mode job η w' mode' jobs)
    (ho : Orderly w.thread.current mode (job :: rest)) (hq : ∀ q, job ≠ .serve q)
    (h : job.touches w l = false) : w'.loop? l = w.loop? l := by
  cases rule with
  | astray ha => exact absurd ha ho.astray
  | build | close | enter | spawn | start | newSource | claim | refuse | askWake | awaitCell
  | awaitJoin | takeJoin | submit => exact absurd rfl (hq _)
  | plain _ _ _ hw | ended _ hw | caught _ hw | dropWake _ hw | leave hw => exact hw.loop? l
  | handOver hp => exact World.loop?_push?_of_ne (of_decide_eq_false h) hp
  | notify hx hp =>
    refine World.loop?_push?_of_ne ?_ hp
    simpa [Job.touches, hx] using h
  | drain =>
    rw [World.drainTasks_eq]
    exact World.loop?_modifyLoop_of_ne (of_decide_eq_false h)
  | take =>
    rw [World.takeBatch_eq]
    exact World.loop?_modifyLoop_of_ne (of_decide_eq_false h)
  | processTask ht =>
    obtain ⟨_, rfl⟩ := World.takeWork_eq_some_iff.mp ht
    exact World.loop?_modifyLoop_of_ne (of_decide_eq_false h)
  | processStart hl =>
    -- the loop that is current is the one whose turn it is
    obtain ⟨below, rfl⟩ := ho.stacked.1
    have hcurrent := ho.current
    rw [hl] at hcurrent
    cases hcurrent
    exact World.loop?_addTask_of_ne (of_decide_eq_false h) _ _
  | mainReady => exact World.loop?_modifyLoop_of_ne (of_decide_eq_false h)
  | taskPending => exact World.loop?_modifyLoop_of_ne (of_decide_eq_false h)
  | taskFinished => exact World.loop?_modifyLoop_of_ne (of_decide_eq_false h)
  | taskPanicked => exact World.loop?_modifyLoop_of_ne (of_decide_eq_false h)
  | _ => rfl

namespace Machine

variable {code : G.Code} {m m' : Machine G} {p : List (Machine G)} {a : Answer G}
  {rest : List (Job G)}

/-- Whether the job on top of the stack may change the queue or the table of loop `l`. -/
def touches (m : Machine G) (l : LoopId) : Bool :=
  m.jobs.head?.any (Job.touches m.world l)

/-- A step that does not touch a loop leaves it as it is. -/
theorem Sound.loop?_step (hs : m.Sound) (code : G.Code) (hi : m.isIdle = false)
    (live : m.isAborted = false) (hl : l.index < m.world.loops.size)
    (h : m.touches l = false) : (m.step code).world.loop? l = m.world.loop? l := by
  obtain ⟨job, rest, hj⟩ := exists_job hi
  have htop : job.touches m.world l = false := by simpa [touches, hj] using h
  have acting : ∀ {η m₁}, m.Acts η m₁ → (∀ q, job ≠ .serve q) →
      m₁.world.loop? l = m.world.loop? l := by
    rintro η m₁ ⟨job', rest', hj', jobs, _, _, rule⟩ hq
    obtain ⟨rfl, rfl⟩ := List.cons.inj (hj.symm.trans hj')
    have ho := hs.strands _ List.mem_cons_self
    simp only [hj] at ho
    exact rule.loop? ho hq htop
  by_cases hq : ∃ q a, job = .serve q ∧ m.mode = .going a
  · obtain ⟨q, a, rfl, hmode⟩ := hq
    rw [step_of_going hj hmode rfl]
    by_cases hthread : ∃ run, q = .thread run
    · obtain ⟨run, rfl⟩ := hthread
      rfl
    · exact loop?_serve (m := { m with jobs := rest }) q (fun run e => hthread ⟨run, e⟩) hl htop
  · by_cases hserve : ∃ q, job = .serve q
    · -- a panic goes past a request
      obtain ⟨q, rfl⟩ := hserve
      cases hmode : m.mode with
      | going a => exact absurd ⟨q, a, rfl, hmode⟩ hq
      | unwinding panic r => rw [step_of_unwinding hj hmode]; rfl
      | aborted => simp [isAborted, hmode] at live
    · have hno : ∀ q, job ≠ .serve q := fun q e => hserve ⟨q, e⟩
      rcases acts_of_live code hi live with acts | ⟨m₁, acts, switched⟩
      · exact acting acts hno
      · exact (switched.objects.loop? l).trans (acting acts hno)

/-- **Nobody else changes a loop**: as long as no job on top of a stack touches it, it stays as it
is. -/
theorem Walk.untouched (walk : Walk code m p m') (hs : m.Sound)
    (hl : l.index < m.world.loops.size) (h : ∀ m₁ ∈ p, m₁.touches l = false) :
    m'.world.loop? l = m.world.loop? l := by
  induction walk with
  | here => rfl
  | @act p m₁ walk hi live ih =>
    have ih := ih fun m₂ hm₂ => h m₂ (List.mem_append_left _ hm₂)
    have hl₁ : l.index < m₁.world.loops.size := by
      rw [World.loop?, World.loop?, Array.getElem?_eq_getElem hl] at ih
      exact (Array.getElem?_eq_some_iff.mp ih).1
    have hs₁ : m₁.Sound := walk.history.course.sound hs
    exact (hs₁.loop?_step code hi live hl₁ (h m₁ (by simp))).trans ih
  | turnTo _ _ ih => exact ih h
  | launch _ _ ih => exact ih h

end Machine

end RunLoop
