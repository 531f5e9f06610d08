import RunLoop.Proofs.Ensures

/-!
# Tasks that run in segments

A task that yields now and then runs in segments: each poll of it runs one, and ends with the task
queued again, at the back, until the last one comes to its outcome. What the code does within a
segment is left open, as long as the loop that it runs on finds its queue and its desk as it left
them.

* `Asks` and `Ends` say that jobs on top of a stack ask for something, or end with an answer, and
  leave queue and desk alone till then.
* `Segments`: a coroutine yields a number of times before it is ready.
* `SpawnsAll`, `AwaitsAll`: tasks are spawned, and awaited in the order in which they were.
* `ensures_segment`: what a segment that is not the last does to the desk.
* `ensures_last_segment`, `ensures_awaited_segment`: what the last one does.
-/

namespace RunLoop

variable {G : Guest}

/-! ## What code does by itself -/

section

variable (code : G.Code) (l : LoopId)

/-- The jobs `above`, whatever they are on top of, ask for `q`, to go on with jobs that have
property `P`. -/
def Asks (q : Request G) (P : List (Job G) → Prop) (above : List (Job G)) (a : Answer G) : Prop :=
  ∀ es d below, Ensures code l ⟨es, d, above ++ below, a⟩ fun ts bs s => ts = [] ∧ bs = [] ∧
    ∃ above', P above' ∧ s = ⟨es, d, .serve q :: above' ++ below, .nothing⟩

/-- The jobs `above` end with an answer that has property `P`. -/
def Ends (P : Answer G → Prop) (above : List (Job G)) (a : Answer G) : Prop :=
  ∀ es d below, Ensures code l ⟨es, d, above ++ below, a⟩ fun ts bs s => ts = [] ∧ bs = [] ∧
    ∃ x, P x ∧ s = ⟨es, d, below, x⟩

/-- To drop the future is nothing to the loop. -/
def DropsQuietly (f : Future G.Coroutine) : Prop :=
  ∀ a, Ends code l (fun _ => True) [.drop f] a

/-- The jobs end a poll with a result. -/
def EndsReady (above : List (Job G)) (a : Answer G) : Prop :=
  Ends code l (fun x => ∃ r f, x = .polled (.ready r f) ∧ DropsQuietly code l f) above a

/-- The jobs end a poll with what is left of a coroutine, which has property `P`. -/
def EndsPending (P : G.Coroutine → Prop) (above : List (Job G)) (a : Answer G) : Prop :=
  Ends code l (fun x => ∃ c, x = .polled (.pending (.own c)) ∧ P c) above a

/-! ## Programs -/

/-- The coroutine yields `n` times before it is ready: a poll that is not the last asks for the
waker of the task to be woken, and is pending then. -/
def Segments : Nat → G.Coroutine → Prop
  | 0, c => ∀ k, EndsReady code l [.resume (code.poll c k)] .nothing
  | n + 1, c => ∀ k, Asks code l (.wake k)
      (fun above => EndsPending code l (Segments n) above .nothing)
      [.resume (code.poll c k)] .nothing

/-- The coroutine asks for join slot `j` when it is polled with waker `k`; having taken an outcome
it goes on with jobs that have property `P`. -/
def Resumes (k : WakerId) (j : JoinId) (P : List (Job G) → Answer G → Prop) (c : G.Coroutine) :
    Prop :=
  Asks code l (.pollJoin j k) (fun above => ∀ o, P above (.joined (some o)))
    [.resume (code.poll c k)] .nothing

/-- The jobs await the join slots `js`, one after the other, in polls with waker `k`. Where one is
found empty, the poll is pending, and the next one asks for the same slot again. -/
def AwaitsAll (k : WakerId) : List JoinId → List (Job G) → Answer G → Prop
  | [], above, a => EndsReady code l above a
  | j :: js, above, a => Asks code l (.pollJoin j k) (fun above =>
      (∀ o, AwaitsAll k js above (.joined (some o))) ∧
        EndsPending code l (Resumes code l k j (AwaitsAll k js)) above (.joined none)) above a

/-- The jobs spawn the futures `fs`, one after the other, and await their join slots then, after
those in `js`. -/
def SpawnsAll (k : WakerId) :
    List (Future G.Coroutine) → List JoinId → List (Job G) → Answer G → Prop
  | [], js, above, a => AwaitsAll code l k js above a
  | f :: fs, js, above, a => Asks code l (.spawn f)
      (fun above => ∀ j, SpawnsAll k fs (js ++ [j]) above (.join (.ok j))) above a

end

section

variable {code : G.Code} {l : LoopId} {es : List (Entry G)} {d : Desk G} {a : Answer G}
  {above below : List (Job G)} {run : G.Run} {q : Request G} {P : List (Job G) → Prop}
  {Q : List (Nat × WakerId) → List (Nat × WakerId) → Stand G → Prop} {f : Future G.Coroutine}

/-- Code that asks at once. -/
theorem asks_of_step (h : ∀ scene shared, ∃ run',
      (code.step scene shared run a).act = .request q run' ∧ P [.resume run']) :
    Asks code l q P [.resume run] a := by
  intro es d below
  refine ensures_resume fun scene shared => ?_
  obtain ⟨run', hact, hP⟩ := h scene shared
  exact ⟨_, by rw [hact]; rfl, ensures_here ⟨rfl, rfl, _, hP, rfl⟩⟩

/-- Code that ends at once. -/
theorem ends_of_step {P : Answer G → Prop} (h : ∀ scene shared, ∃ x,
      (code.step scene shared run a).act = .finish x ∧ P x) : Ends code l P [.resume run] a := by
  intro es d below
  refine ensures_resume fun scene shared => ?_
  obtain ⟨x, hact, hP⟩ := h scene shared
  exact ⟨_, by rw [hact]; rfl, ensures_here ⟨rfl, rfl, x, hP, rfl⟩⟩

theorem Asks.ensures (h : Asks code l q P above a) (hnext : ∀ above', P above' →
      Ensures code l ⟨es, d, .serve q :: (above' ++ below), .nothing⟩ Q) :
    Ensures code l ⟨es, d, above ++ below, a⟩ Q := by
  refine (h es d below).bind ?_
  rintro _ _ _ ⟨rfl, rfl, above', hP, rfl⟩
  exact hnext above' hP

theorem Ends.ensures {P : Answer G → Prop} (h : Ends code l P above a)
    (hnext : ∀ x, P x → Ensures code l ⟨es, d, below, x⟩ Q) :
    Ensures code l ⟨es, d, above ++ below, a⟩ Q := by
  refine (h es d below).bind ?_
  rintro _ _ _ ⟨rfl, rfl, x, hP, rfl⟩
  exact hnext x hP

theorem EndsReady.ensures (h : EndsReady code l above a)
    (hnext : ∀ r f, DropsQuietly code l f →
      Ensures code l ⟨es, d, below, .polled (.ready r f)⟩ Q) :
    Ensures code l ⟨es, d, above ++ below, a⟩ Q := by
  refine Ends.ensures h ?_
  rintro _ ⟨r, f, rfl, hf⟩
  exact hnext r f hf

theorem EndsPending.ensures {P : G.Coroutine → Prop} (h : EndsPending code l P above a)
    (hnext : ∀ c, P c → Ensures code l ⟨es, d, below, .polled (.pending (.own c))⟩ Q) :
    Ensures code l ⟨es, d, above ++ below, a⟩ Q := by
  refine Ends.ensures h ?_
  rintro _ ⟨c, rfl, hc⟩
  exact hnext c hc

theorem DropsQuietly.ensures (h : DropsQuietly code l f)
    (hnext : ∀ x, Ensures code l ⟨es, d, below, x⟩ Q) :
    Ensures code l ⟨es, d, .drop f :: below, a⟩ Q :=
  Ends.ensures (h a) fun x _ => hnext x

end

/-! ## Segments -/

/-- A task that is awaited: its slot in the table, its waker and its join slot. -/
structure Seat where
  slot : Nat
  waker : WakerId
  join : JoinId

/-- The task as it is told of. -/
def Seat.key (T : Seat) : Nat × WakerId :=
  (T.slot, T.waker)

/-- The task is queued, with `n` segments to run before its last one; `waiter` is to be woken when
its outcome is there. -/
structure Posted (code : G.Code) (l : LoopId) (d : Desk G) (T : Seat) (n : Nat)
    (waiter : Option WakerId) : Prop where
  task : ∃ started c, d.task T.slot = some ⟨T.waker, some ⟨.joined T.join, started, .own c⟩⟩ ∧
    Segments code l n c
  waker : d.waker T.waker = some ⟨l, .task T.slot, true⟩
  join : d.join T.join = some ⟨none, waiter⟩

/-- The desk after a task has left it with the outcome `o`. -/
def Desk.left (d : Desk G) (l : LoopId) (T : Seat) (o : Joined) : Desk G :=
  ((d.setWaker T.waker ⟨l, .task T.slot, false⟩).setJoin T.join ⟨some o, none⟩).setTask T.slot none

namespace Desk

variable {d : Desk G} {l : LoopId} {T : Seat} {o : Joined}

theorem task_left (slot : Nat) :
    (d.left l T o).task slot = if slot = T.slot then none else d.task slot :=
  task_setTask ..

theorem waker_left_of_ne {k : WakerId} (h : k ≠ T.waker) : (d.left l T o).waker k = d.waker k :=
  (waker_setWaker ..).trans (if_neg h)

theorem join_left_self : (d.left l T o).join T.join = some ⟨some o, none⟩ :=
  join_setJoin_self ..

theorem join_left_of_ne {j : JoinId} (h : j ≠ T.join) : (d.left l T o).join j = d.join j :=
  (join_setJoin ..).trans (if_neg h)

end Desk

/-- The desk after a task was spawned. -/
def Desk.seated (d : Desk G) (l : LoopId) (T : Seat) (f : Future G.Coroutine) : Desk G :=
  ((d.setJoin T.join .new).setWaker T.waker ⟨l, .task T.slot, true⟩).setTask T.slot
    (some ⟨T.waker, some ⟨.joined T.join, false, f⟩⟩)

section

variable {code : G.Code} {l : LoopId} {es batch : List (Entry G)} {d : Desk G} {a : Answer G}
  {rest : List (Job G)} {f : Future G.Coroutine} {k : WakerId} {T : Seat} {n : Nat}
  {waiter : Option WakerId}
  {Q : List (Nat × WakerId) → List (Nat × WakerId) → Stand G → Prop}

/-- A spawned task is queued at once. -/
theorem ensures_spawned (h : ∀ T : Seat, d.task T.slot = none → d.waker T.waker = none →
      d.join T.join = none → Ensures code l ⟨es ++ [.wake T.slot],
        d.seated l T (f.map code.accept), rest, .join (.ok T.join)⟩ (fun ts => Q (T.key :: ts))) :
    Ensures code l ⟨es, d, .serve (.spawn f) :: rest, a⟩ Q := by
  refine ensures_spawn fun slot k j hslot hk hj => ?_
  refine ensures_wake (Desk.waker_setWaker_self ..) ?_
  refine ensures_notify (Desk.waker_setWaker_self ..) (ensures_answer ?_)
  rw [Desk.setTask_setWaker, Desk.setWaker_setWaker, ← Desk.setTask_setWaker]
  exact h ⟨slot, k, j⟩ hslot hk hj

/-- **A segment that is not the last** puts the task at the back of the queue. -/
theorem ensures_segment (hp : Posted code l d T (n + 1) waiter)
    (h : ∀ c, Segments code l n c → Ensures code l ⟨es ++ [.wake T.slot],
      d.setTask T.slot (some ⟨T.waker, some ⟨.joined T.join, true, .own c⟩⟩),
      .turn l k f batch :: rest, .nothing⟩ (fun ts bs => Q ts (T.key :: bs))) :
    Ensures code l ⟨es, d, .turn l k f (.wake T.slot :: batch) :: rest, a⟩ Q := by
  obtain ⟨⟨started, c, ht, hc⟩, hw, hj⟩ := hp
  refine ensures_turn_wake ht hw (ensures_poll ((hc T.waker).ensures fun run hrun => ?_))
  refine ensures_serve_wake (ensures_wake (Desk.waker_setWaker_self ..) ?_)
  refine ensures_notify (Desk.waker_setWaker_self ..) (hrun.ensures fun c' hc' => ?_)
  refine ensures_taskPolled_pending (Desk.task_setTask_self ..) ?_
  -- the waker is marked again, as it was before
  have hdesk : ((((d.setTask T.slot (some ⟨T.waker, none⟩)).setWaker T.waker
      ⟨l, .task T.slot, false⟩).setWaker T.waker ⟨l, .task T.slot, true⟩).setTask T.slot
        (some ⟨T.waker, some ⟨.joined T.join, true, .own c'⟩⟩)) =
      d.setTask T.slot (some ⟨T.waker, some ⟨.joined T.join, true, .own c'⟩⟩) := by
    rw [Desk.setWaker_setWaker, Desk.setTask_setWaker, Desk.setTask_setTask]
    exact Desk.setWaker_eq_self hw
  rw [hdesk]
  exact h c' hc'

/-- A last segment up to where its outcome was handed over. -/
theorem ensures_outcome (hp : Posted code l d T 0 waiter)
    (h : ∀ o a, Ensures code l ⟨es, ((d.setTask T.slot (some ⟨T.waker, none⟩)).setWaker T.waker
        ⟨l, .task T.slot, false⟩).setJoin T.join ⟨some o, none⟩, waiter.toList.map .wake ++
        .taskFinished l T.slot :: .turn l k f batch :: rest, a⟩ (fun ts bs => Q ts (T.key :: bs))) :
    Ensures code l ⟨es, d, .turn l k f (.wake T.slot :: batch) :: rest, a⟩ Q := by
  obtain ⟨⟨started, c, ht, hc⟩, hw, hj⟩ := hp
  refine ensures_turn_wake ht hw (ensures_poll ((hc T.waker).ensures fun r f hf => ?_))
  refine ensures_taskPolled_ready (hf.ensures fun x => ensures_taskEnded ?_)
  exact ensures_fill hj (h (.ok r) .nothing)

/-- **The last segment** of a task that nobody waits for yet frees its slot. -/
theorem ensures_last_segment (hp : Posted code l d T 0 none)
    (h : ∀ o, Ensures code l ⟨es, d.left l T o, .turn l k f batch :: rest, .nothing⟩
      (fun ts bs => Q ts (T.key :: bs))) :
    Ensures code l ⟨es, d, .turn l k f (.wake T.slot :: batch) :: rest, a⟩ Q := by
  refine ensures_outcome hp fun o a => ensures_taskFinished ?_
  rw [Desk.setTask_setJoin, Desk.setTask_setWaker, Desk.setTask_setTask]
  exact h o

/-- **The last segment** of the task that the main future waits for queues the main future, too. -/
theorem ensures_awaited_segment {k' : WakerId} (hp : Posted code l d T 0 (some k'))
    (hk : d.waker k' = some ⟨l, .main, false⟩)
    (h : ∀ o, Ensures code l ⟨es ++ [.main], (d.left l T o).setWaker k' ⟨l, .main, true⟩,
      .turn l k f batch :: rest, .nothing⟩ (fun ts bs => Q ts (T.key :: bs))) :
    Ensures code l ⟨es, d, .turn l k f (.wake T.slot :: batch) :: rest, a⟩ Q := by
  have hne : k' ≠ T.waker := by
    rintro rfl
    cases hk.symm.trans hp.waker
  refine ensures_outcome hp fun o a => ?_
  refine ensures_wake ((Desk.waker_setWaker ..).trans ((if_neg hne).trans hk)) ?_
  refine ensures_notify (Desk.waker_setWaker_self ..) (ensures_taskFinished ?_)
  rw [Desk.setTask_setWaker, Desk.setTask_setJoin, Desk.setTask_setWaker, Desk.setTask_setTask]
  exact h o

end

end RunLoop
