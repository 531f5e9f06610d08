import RunLoop.Proofs.CurrentLoop
import RunLoop.Proofs.Desk
import RunLoop.Proofs.Roster

/-!
# What the thread of a loop ensures

As long as the thread of a loop need not wait, it goes on by itself, and where it comes to can be
told in advance, from the desk of the loop and the stack.

* `Stand` is a desk with the stack of the thread and its last answer, `Machine.At` says that a
  machine stands there.
* `Ensures` says that the thread comes from a stand, by steps of the machine itself, to one with a
  given property; which tasks are spawned and polled on the way is part of it.
* `ensures_turn_wake`, `ensures_fill` and the like: what the single jobs ensure.
-/

namespace RunLoop

variable {G : Guest}

/-! ## Where a thread stands -/

/-- What is queued on a loop and what is on its desk, the stack of the thread that runs it, and the
answer left last. -/
structure Stand (G : Guest) where
  entries : List (Entry G)
  desk : Desk G
  jobs : List (Job G)
  answer : Answer G

namespace Machine

variable {code : G.Code} {l : LoopId} {m m' m₁ : Machine G}
  {ts ts' bs bs' : List (Nat × WakerId)}

/-- The machine's thread runs loop `l` and stands at `s`. -/
structure StandsAt (l : LoopId) (m : Machine G) (s : Stand G) : Prop where
  current : m.current = some l
  queued : m.world.queued l = s.entries
  desk : m.world.desk l = s.desk
  jobs : m.jobs = s.jobs
  mode : m.mode = .going s.answer

/-- A run came to a machine whose thread runs loop `l` and stands at `s`. -/
structure At (code : G.Code) (l : LoopId) (m : Machine G) (s : Stand G) : Prop extends
    StandsAt l m s where
  walked : ∃ p, Walked code p m

namespace StandsAt

variable {s : Stand G} (h : m.StandsAt l s)

include h

theorem task? (slot : Nat) : m.world.task? l slot = s.desk.task slot :=
  congrFun (congrArg Desk.task h.desk) slot

theorem waker? (k : WakerId) : m.world.waker? k = s.desk.waker k :=
  congrFun (congrArg Desk.waker h.desk) k

theorem join? (j : JoinId) : m.world.join? j = s.desk.join j :=
  congrFun (congrArg Desk.join h.desk) j

end StandsAt

theorem At.isClosed {s : Stand G} (h : m.At code l s) : m.world.isClosed l = false := by
  obtain ⟨p, hm⟩ := h.walked
  exact hm.reached.opened_of_current h.current

theorem At.exists_queue {s : Stand G} (h : m.At code l s) :
    ∃ q, m.world.queue? l = some q ∧ q.entries = s.entries := by
  obtain ⟨q, hq, -⟩ := isClosed_eq_false h.isClosed
  exact ⟨q, hq, by simpa [World.queued, hq] using h.queued⟩

/-- The machine comes from `m` to `m'` by steps of its own, in which the tasks `ts` are spawned on
loop `l` and polls of the tasks `bs` of it begin. -/
def Arrives (code : G.Code) (l : LoopId) (m : Machine G) (ts bs : List (Nat × WakerId))
    (m' : Machine G) : Prop :=
  ∃ n, (m.trace code n).2 = m' ∧ spawnedOn l (story (m.trace code n).1) = ts ∧
    begunOn l (story (m.trace code n).1) = bs

theorem Arrives.refl (code : G.Code) (l : LoopId) (m : Machine G) : Arrives code l m [] [] m :=
  ⟨0, rfl, rfl, rfl⟩

theorem Arrives.trans (h : Arrives code l m ts bs m₁) (h' : Arrives code l m₁ ts' bs' m') :
    Arrives code l m (ts ++ ts') (bs ++ bs') m' := by
  obtain ⟨n, rfl, rfl, rfl⟩ := h
  obtain ⟨k, rfl, rfl, rfl⟩ := h'
  refine ⟨n + k, ?_, ?_, ?_⟩
  · rw [trace_add]
  · rw [trace_add, story, List.flatMap_append, spawnedOn, List.filterMap_append]
    rfl
  · rw [trace_add, story, List.flatMap_append, begunOn, List.filterMap_append]
    rfl

theorem arrives_step (hi : m.isIdle = false) (live : m.isAborted = false) :
    Arrives code l m (spawnedOn l m.milestones) (begunOn l m.milestones) (m.step code) := by
  have htrace : m.trace code 1 = ([m], m.step code) := by simp [trace, hi, live]
  refine ⟨1, ?_, ?_, ?_⟩ <;> simp [htrace, story]

theorem Arrives.walk (h : Arrives code l m ts bs m') : ∃ p, Walk code m p m' := by
  obtain ⟨n, rfl, -, -⟩ := h
  exact ⟨_, walk_trace code m n⟩

end Machine

open Machine

/-! ## What is ensured -/

section

variable {code : G.Code} {l : LoopId} {s s' : Stand G} {es : List (Entry G)} {d : Desk G}
  {a x : Answer G} {job : Job G} {rest jobs : List (Job G)}
  {Q R : List (Nat × WakerId) → List (Nat × WakerId) → Stand G → Prop}

/-- The thread comes from `s`, by steps of the machine itself, to a stand with property `Q`, which
is also about the tasks that are spawned on the way and about those of which a poll begins. -/
def Ensures (code : G.Code) (l : LoopId) (s : Stand G)
    (Q : List (Nat × WakerId) → List (Nat × WakerId) → Stand G → Prop) : Prop :=
  ∀ m : Machine G, m.At code l s →
    ∃ m' ts bs s', Arrives code l m ts bs m' ∧ m'.At code l s' ∧ Q ts bs s'

theorem ensures_here (h : Q [] [] s) : Ensures code l s Q :=
  fun m hm => ⟨m, [], [], s, .refl code l m, hm, h⟩

theorem Ensures.bind (h : Ensures code l s Q)
    (hnext : ∀ ts bs s', Q ts bs s' →
      Ensures code l s' (fun ts' bs' => R (ts ++ ts') (bs ++ bs'))) : Ensures code l s R := by
  intro m hm
  obtain ⟨m₁, ts, bs, s₁, arrives, hm₁, hQ⟩ := h m hm
  obtain ⟨m', ts', bs', s', arrives', hm', hR⟩ := hnext ts bs s₁ hQ m₁ hm₁
  exact ⟨m', _, _, s', arrives.trans arrives', hm', hR⟩

theorem Ensures.mono (h : Ensures code l s Q) (hQ : ∀ ts bs s', Q ts bs s' → R ts bs s') :
    Ensures code l s R :=
  h.bind fun ts bs _ h' => ensures_here (by simpa using hQ ts bs _ h')

/-- A job is performed. -/
theorem ensures_of_step (h : ∀ m : Machine G, m.At code l ⟨es, d, job :: rest, a⟩ →
      m.mustWait job = false ∧ ∃ s', ({ m with jobs := rest }.perform code a job).StandsAt l s' ∧
        Ensures code l s' (fun ts bs => Q (spawnedOn l (m.world.told a job) ++ ts)
          (begunOn l (m.world.told a job) ++ bs))) :
    Ensures code l ⟨es, d, job :: rest, a⟩ Q := by
  intro m hm
  obtain ⟨hwait, s', stands, hnext⟩ := h m hm
  obtain ⟨p, hwalked⟩ := hm.walked
  have hj : m.jobs = job :: rest := hm.jobs
  have hmode : m.mode = .going a := hm.mode
  obtain ⟨hi, live⟩ := live_of_going hj hmode hwait
  have arrives : Arrives code l m _ _ _ := arrives_step hi live
  rw [step_of_going hj hmode hwait, show m.milestones = m.world.told a job by
    simp only [milestones, hj, hmode]] at arrives
  have hwalked' := hwalked.next hi live
  rw [step_of_going hj hmode hwait] at hwalked'
  obtain ⟨m', ts, bs, s'', arrives', hm', hQ⟩ := hnext _ ⟨stands, _, hwalked'⟩
  exact ⟨m', _, _, s'', arrives.trans arrives', hm', hQ⟩

/-- A job is performed that spawns and polls no task. -/
theorem ensures_of_quiet (hnext : Ensures code l s' Q)
    (hquiet : ∀ w : World G, spawnedOn l (w.told a job) = [] ∧ begunOn l (w.told a job) = [])
    (h : ∀ m : Machine G, m.At code l ⟨es, d, job :: rest, a⟩ →
      m.mustWait job = false ∧ ({ m with jobs := rest }.perform code a job).StandsAt l s') :
    Ensures code l ⟨es, d, job :: rest, a⟩ Q := by
  refine ensures_of_step fun m hm => ?_
  obtain ⟨hwait, stands⟩ := h m hm
  obtain ⟨hs, hb⟩ := hquiet m.world
  refine ⟨hwait, s', stands, ?_⟩
  rw [hs, hb]
  exact hnext

/-- A job is performed that changes nothing but the stack and the answer. -/
theorem ensures_of_still (hnext : Ensures code l ⟨es, d, jobs, x⟩ Q)
    (hquiet : ∀ w : World G, spawnedOn l (w.told a job) = [] ∧ begunOn l (w.told a job) = [])
    (h : ∀ m : Machine G, m.mustWait job = false ∧
      { m with jobs := rest }.perform code a job = { m with jobs, mode := .going x }) :
    Ensures code l ⟨es, d, job :: rest, a⟩ Q := by
  refine ensures_of_quiet hnext hquiet fun m hm => ⟨(h m).1, ?_⟩
  rw [(h m).2]
  exact ⟨hm.current, hm.queued, hm.desk, rfl, rfl⟩

end

/-! ## Single jobs -/

section

variable {code : G.Code} {l l' : LoopId} {es : List (Entry G)} {d : Desk G} {a : Answer G}
  {rest : List (Job G)} {f : Future G.Coroutine} {k : WakerId} {t : Target} {b : Bool} {j : JoinId}
  {slot : Nat} {batch : List (Entry G)}
  {Q : List (Nat × WakerId) → List (Nat × WakerId) → Stand G → Prop}

/-- Where the thread stands when user code has taken a step, if that was not a panic. -/
def Act.stand? (es : List (Entry G)) (d : Desk G) (rest : List (Job G)) : Act G → Option (Stand G)
  | .request q run => some ⟨es, d, .serve q :: .resume run :: rest, .nothing⟩
  | .proceed run => some ⟨es, d, .resume run :: rest, .nothing⟩
  | .finish x => some ⟨es, d, rest, x⟩
  | .raise _ _ => none

/-- User code takes a step, whatever it sees. -/
theorem ensures_resume {run : G.Run} (h : ∀ scene shared, ∃ s,
      (code.step scene shared run a).act.stand? es d rest = some s ∧ Ensures code l s Q) :
    Ensures code l ⟨es, d, .resume run :: rest, a⟩ Q := by
  refine ensures_of_step fun m hm => ⟨rfl, ?_⟩
  obtain ⟨s, hs, hnext⟩ := h ({ m with jobs := rest } : Machine G).scene m.shared
  refine ⟨s, ?_, hnext⟩
  simp only [perform, advance]
  generalize code.step ({ m with jobs := rest } : Machine G).scene m.shared run a = step at hs
  obtain ⟨shared, notes, act⟩ := step
  obtain ⟨agrees, hthread⟩ := World.note_eq m.world notes
  have hcur : (m.world.note notes).thread.current = some l :=
    (congrArg Thread.current hthread).trans hm.current
  have hes : (m.world.note notes).queued l = es := (agrees.queued l).trans hm.queued
  have hd : (m.world.note notes).desk l = d := (agrees.desk l).trans hm.desk
  cases act with
  | request q run' =>
    cases hs
    exact ⟨hcur, hes, hd, rfl, rfl⟩
  | proceed run' =>
    cases hs
    exact ⟨hcur, hes, hd, rfl, rfl⟩
  | finish x =>
    cases hs
    exact ⟨hcur, hes, hd, rfl, rfl⟩
  | raise panic run' => cases hs

theorem ensures_poll {c : G.Coroutine}
    (h : Ensures code l ⟨es, d, .resume (code.poll c k) :: rest, .nothing⟩ Q) :
    Ensures code l ⟨es, d, .serve (.poll (.own c) k) :: rest, a⟩ Q :=
  ensures_of_still h (fun _ => ⟨rfl, rfl⟩) fun _ => ⟨rfl, rfl⟩

theorem ensures_serve_wake (h : Ensures code l ⟨es, d, .wake k :: rest, .nothing⟩ Q) :
    Ensures code l ⟨es, d, .serve (.wake k) :: rest, a⟩ Q :=
  ensures_of_still h (fun _ => ⟨rfl, rfl⟩) fun _ => ⟨rfl, rfl⟩

theorem ensures_answer {x : Answer G} (h : Ensures code l ⟨es, d, rest, x⟩ Q) :
    Ensures code l ⟨es, d, .answer x :: rest, a⟩ Q :=
  ensures_of_still h (fun _ => ⟨rfl, rfl⟩) fun _ => ⟨rfl, rfl⟩

/-- A waker that was not marked is marked, and its target queued next. -/
theorem ensures_wake (hk : d.waker k = some ⟨l', t, false⟩)
    (h : Ensures code l ⟨es, d.setWaker k ⟨l', t, true⟩, .notify k :: rest, a⟩ Q) :
    Ensures code l ⟨es, d, .wake k :: rest, a⟩ Q := by
  refine ensures_of_quiet h (fun _ => ⟨rfl, rfl⟩) fun m hm => ⟨rfl, ?_⟩
  have hw : m.world.waker? k = some ⟨l', t, false⟩ := (hm.waker? k).trans hk
  have hwake : ({ m with jobs := rest } : Machine G).perform code a (.wake k) =
      { m with world := (m.world.mark k).1, jobs := .notify k :: rest } := by
    have hmark : m.world.mark k = ((m.world.mark k).1, false) := by simp [World.mark, hw]
    simp only [perform, wake]
    rw [hmark]
    rfl
  rw [hwake]
  exact ⟨hm.current, hm.queued, (World.desk_mark hw).trans (by rw [hm.desk]), rfl, hm.mode⟩

/-- A target of the loop is queued at the back. -/
theorem ensures_notify (hk : d.waker k = some ⟨l, t, b⟩)
    (h : Ensures code l ⟨es ++ [t.entry], d, rest, a⟩ Q) :
    Ensures code l ⟨es, d, .notify k :: rest, a⟩ Q := by
  refine ensures_of_quiet h (fun _ => ⟨rfl, rfl⟩) fun m hm => ⟨rfl, ?_⟩
  have hw : m.world.waker? k = some ⟨l, t, b⟩ := (hm.waker? k).trans hk
  obtain ⟨q, hq, hes⟩ := hm.exists_queue
  have hpush : m.world.push? l t.entry =
      some (m.world.modifyQueue l (fun q => ⟨q.entries ++ [t.entry], q.closed⟩)) :=
    World.push?_eq_some_iff.mpr ⟨hm.isClosed, rfl⟩
  have hnotify : m.world.notify k =
      m.world.modifyQueue l (fun q => ⟨q.entries ++ [t.entry], q.closed⟩) := by
    simp only [World.notify, hw, hpush, Option.getD_some]
  simp only [perform, hnotify]
  refine ⟨hm.current, (World.queued_modifyQueue hq _).trans ?_,
    (World.desk_modifyQueue _).trans hm.desk, rfl, hm.mode⟩
  rw [hes]

/-- A reader of a join slot takes the outcome, or leaves its waker. -/
theorem ensures_pollJoin {x : JoinSlot} (hj : d.join j = some x)
    (h : Ensures code l ⟨es, d.setJoin j (x.poll k).1, rest, .joined (x.poll k).2⟩ Q) :
    Ensures code l ⟨es, d, .serve (.pollJoin j k) :: rest, a⟩ Q := by
  refine ensures_of_quiet h ?_ fun m hm => ⟨rfl, ?_⟩
  · intro w
    simp only [World.told, World.toldOfRead]
    split <;> exact ⟨rfl, rfl⟩
  · have hw : m.world.join? j = some x := (hm.join? j).trans hj
    have hpoll : m.world.pollJoin j k = (m.world.setJoin j (x.poll k).1, (x.poll k).2) := by
      simp only [World.pollJoin, hw]
    simp only [perform, serve, hpoll]
    exact ⟨hm.current, hm.queued, (World.desk_setJoin hw _).trans (by rw [hm.desk]), rfl, rfl⟩

/-- A spawned task gets a slot, a waker and a join slot that were free before. -/
theorem ensures_spawn (h : ∀ slot k j, d.task slot = none → d.waker k = none → d.join j = none →
      Ensures code l ⟨es, ((d.setJoin j .new).setWaker k ⟨l, .task slot, false⟩).setTask slot
          (some ⟨k, some ⟨.joined j, false, f.map code.accept⟩⟩),
        .wake k :: .answer (.join (.ok j)) :: rest, .nothing⟩ (fun ts => Q ((slot, k) :: ts))) :
    Ensures code l ⟨es, d, .serve (.spawn f) :: rest, a⟩ Q := by
  refine ensures_of_step fun m hm => ⟨rfl, ?_⟩
  obtain ⟨p, hwalked⟩ := hm.walked
  have hcur : ({ m with jobs := rest } : Machine G).current = some l := hm.current
  have hl : ∃ s, m.world.tasks? l = some s := World.tasks?_of_isClosed hm.isClosed
  have hv : m.world.TablesValid := hwalked.census.valid
  have stands : StandsAt l
      (({ m with jobs := rest } : Machine G).perform code a (.serve (.spawn f)))
      ⟨es, ((d.setJoin ⟨m.world.joins.size⟩ .new).setWaker ⟨m.world.wakers.size⟩
          ⟨l, .task (m.world.nextSlot l), false⟩).setTask (m.world.nextSlot l)
        (some ⟨⟨m.world.wakers.size⟩,
          some ⟨.joined ⟨m.world.joins.size⟩, false, f.map code.accept⟩⟩),
        .wake ⟨m.world.wakers.size⟩ :: .answer (.join (.ok ⟨m.world.joins.size⟩)) :: rest,
        .nothing⟩ := by
    have hv' : m.world.newJoin.1.TablesValid := hv
    simp only [perform, serve, Machine.spawn, hcur]
    refine ⟨hm.current, ?_, (World.desk_addTask hv' hl _ _).trans ?_, rfl, rfl⟩
    · exact (World.queued_congr (World.queue?_addTask _ _)).trans hm.queued
    · rw [World.desk_newJoin, hm.desk]
      rfl
  have htold : m.world.told a (.serve (.spawn f)) =
      [.spawned l (m.world.nextSlot l) ⟨m.world.wakers.size⟩ (.joined ⟨m.world.joins.size⟩)] := by
    have hcur' : m.world.thread.current = some l := hm.current
    simp only [World.told, World.toldOfSpawn, hcur']
  have hspawned : spawnedOn l (m.world.told a (.serve (.spawn f))) =
      [(m.world.nextSlot l, ⟨m.world.wakers.size⟩)] := by
    simp [htold, spawnedOn, Milestone.spawned?]
  have hbegun : begunOn l (m.world.told a (.serve (.spawn f))) = [] := by
    rw [htold]
    rfl
  refine ⟨_, stands, ?_⟩
  rw [hspawned, hbegun]
  exact h _ _ _ ((hm.task? _).symm.trans (hv.task?_nextSlot l))
    ((hm.waker? _).symm.trans m.world.waker?_size)
    ((hm.join? _).symm.trans (by simp [World.join?]))

/-- The work of a task that is not ready goes back into its slot. -/
theorem ensures_taskPolled_pending {kind : Kind} (ht : d.task slot = some ⟨k, none⟩)
    (h : Ensures code l ⟨es, d.setTask slot (some ⟨k, some ⟨kind, true, f⟩⟩), rest, .nothing⟩ Q) :
    Ensures code l ⟨es, d, .taskPolled l slot kind :: rest, .polled (.pending f)⟩ Q := by
  refine ensures_of_quiet h (fun _ => ⟨rfl, rfl⟩) fun m hm => ⟨rfl, ?_⟩
  have hw : m.world.task? l slot = some ⟨k, none⟩ := (hm.task? slot).trans ht
  refine ⟨hm.current, ?_, (World.desk_modify hw _).trans (by rw [hm.desk]), rfl, rfl⟩
  exact (World.queued_congr (World.queue?_modifyTasks _)).trans hm.queued

theorem ensures_taskPolled_ready {kind : Kind} {r : Result}
    (h : Ensures code l ⟨es, d, .drop f :: .taskEnded l slot kind (.ok r) :: rest, .nothing⟩ Q) :
    Ensures code l ⟨es, d, .taskPolled l slot kind :: rest, .polled (.ready r f)⟩ Q :=
  ensures_of_still h (fun _ => ⟨rfl, rfl⟩) fun _ => ⟨rfl, rfl⟩

theorem ensures_taskEnded {o : Joined}
    (h : Ensures code l ⟨es, d, .fill j o :: .taskFinished l slot :: rest, .nothing⟩ Q) :
    Ensures code l ⟨es, d, .taskEnded l slot (.joined j) o :: rest, a⟩ Q :=
  ensures_of_still h (fun _ => ⟨rfl, rfl⟩) fun _ => ⟨rfl, rfl⟩

/-- Whoever waits for an outcome is woken when it is handed over. -/
theorem ensures_fill {o : Joined} {o' : Option Joined} {x : Option WakerId}
    (hj : d.join j = some ⟨o', x⟩)
    (h : Ensures code l ⟨es, d.setJoin j ⟨some o, none⟩, x.toList.map .wake ++ rest, a⟩ Q) :
    Ensures code l ⟨es, d, .fill j o :: rest, a⟩ Q := by
  refine ensures_of_quiet h ?_ fun m hm => ⟨rfl, ?_⟩
  · intro w
    simp only [World.told]
    split <;> exact ⟨rfl, rfl⟩
  · have hw : m.world.join? j = some ⟨o', x⟩ := (hm.join? j).trans hj
    have hfill : m.world.fill j o = (m.world.setJoin j ⟨some o, none⟩, x) := by
      simp only [World.fill, hw, JoinSlot.fill]
    simp only [perform, fill, hfill]
    exact ⟨hm.current, hm.queued, (World.desk_setJoin hw _).trans (by rw [hm.desk]), rfl, hm.mode⟩

theorem ensures_taskFinished (h : Ensures code l ⟨es, d.setTask slot none, rest, .nothing⟩ Q) :
    Ensures code l ⟨es, d, .taskFinished l slot :: rest, a⟩ Q := by
  refine ensures_of_quiet h ?_ fun m hm => ⟨rfl, hm.current, ?_, ?_, rfl, rfl⟩
  · intro w
    simp only [World.told, World.toldOfEnd]
    cases w.task? l slot <;> exact ⟨rfl, rfl⟩
  · exact (World.queued_congr (World.queue?_removeTask slot)).trans hm.queued
  · exact (World.desk_removeTask slot).trans (by rw [hm.desk])

/-- The task of an entry is taken out of its slot, its waker is armed again, and its poll begins. -/
theorem ensures_turn_wake {k' : WakerId} {work : Work G.Coroutine}
    (ht : d.task slot = some ⟨k', some work⟩) (hk : d.waker k' = some ⟨l', t, b⟩)
    (h : Ensures code l ⟨es, (d.setTask slot (some ⟨k', none⟩)).setWaker k' ⟨l', t, false⟩,
        .serve (.poll work.future k') :: .taskPolled l slot work.kind :: .turn l k f batch :: rest,
        .nothing⟩ (fun ts bs => Q ts ((slot, k') :: bs))) :
    Ensures code l ⟨es, d, .turn l k f (.wake slot :: batch) :: rest, a⟩ Q := by
  refine ensures_of_step fun m hm => ⟨rfl, ?_⟩
  have hw : m.world.task? l slot = some ⟨k', some work⟩ := (hm.task? slot).trans ht
  have stands : (({ m with jobs := rest } : Machine G).perform code a
      (.turn l k f (.wake slot :: batch))).StandsAt l
      ⟨es, (d.setTask slot (some ⟨k', none⟩)).setWaker k' ⟨l', t, false⟩,
        .serve (.poll work.future k') :: .taskPolled l slot work.kind :: .turn l k f batch :: rest,
        .nothing⟩ := by
    have hk' : (m.world.modifyTasks l (·.modify slot (fun t => { t with work := none }))).waker?
        k' = some ⟨l', t, b⟩ := (hm.waker? k').trans hk
    have htake : (({ m with jobs := rest } : Machine G).push [.turn l k f batch]).world.takeWork l
        slot = _ := World.takeWork_eq_some_iff.mpr ⟨hw, rfl⟩
    simp only [perform, turn, process, pollTask, htake]
    refine ⟨hm.current, ?_, (World.desk_rearm hk').trans ?_, rfl, rfl⟩
    · exact (World.queued_congr (World.queue?_rearm k')).trans
        ((World.queued_congr (World.queue?_modifyTasks _)).trans hm.queued)
    · rw [World.desk_modify hw, hm.desk]
  have htold : m.world.told a (.turn l k f (.wake slot :: batch)) = [.begun l slot k'] := by
    simp only [World.told, World.toldOfPoll, hw]
  have hspawned : spawnedOn l (m.world.told a (.turn l k f (.wake slot :: batch))) = [] := by
    rw [htold]
    rfl
  have hbegun : begunOn l (m.world.told a (.turn l k f (.wake slot :: batch))) = [(slot, k')] := by
    simp [htold, begunOn, Milestone.begun?]
  refine ⟨_, stands, ?_⟩
  rw [hspawned, hbegun]
  exact h

/-- The main future is polled, its waker is armed again. -/
theorem ensures_turn_main (hk : d.waker k = some ⟨l', t, b⟩)
    (h : Ensures code l ⟨es, d.setWaker k ⟨l', t, false⟩,
      .serve (.poll f k) :: .mainPolled l k batch :: rest, .nothing⟩ Q) :
    Ensures code l ⟨es, d, .turn l k f (.main :: batch) :: rest, a⟩ Q := by
  refine ensures_of_quiet h (fun _ => ⟨rfl, rfl⟩) fun m hm =>
    ⟨rfl, hm.current, hm.queued, ?_, rfl, rfl⟩
  have hw : m.world.waker? k = some ⟨l', t, b⟩ := (hm.waker? k).trans hk
  exact (World.desk_rearm hw).trans (by rw [hm.desk])

/-- After a batch, what was queued meanwhile is the next. -/
theorem ensures_turn_nil (hne : es ≠ [])
    (h : Ensures code l ⟨[], d, .turn l k f es :: rest, .nothing⟩ Q) :
    Ensures code l ⟨es, d, .turn l k f [] :: rest, a⟩ Q := by
  refine ensures_of_quiet h (fun _ => ⟨rfl, rfl⟩) fun m hm => ⟨?_, ?_⟩
  · obtain ⟨q, hq, hes⟩ := hm.exists_queue
    obtain ⟨e, he, rfl⟩ := Option.map_eq_some_iff.mp hq
    simp only at hes
    simp [mustWait, World.hasWork, he, hes, hne]
  · have hbatch : m.world.takeBatch l = (m.world.modifyQueue l (·.takeBatch.1), es) := by
      rw [World.takeBatch_eq, hm.queued]
    obtain ⟨q, hq, -⟩ := hm.exists_queue
    simp only [perform, turn, hbatch]
    exact ⟨hm.current, World.queued_modifyQueue hq _, (World.desk_modifyQueue _).trans hm.desk,
      rfl, rfl⟩

theorem ensures_mainPolled_pending
    (h : Ensures code l ⟨es, d, .turn l k f batch :: rest, .nothing⟩ Q) :
    Ensures code l ⟨es, d, .mainPolled l k batch :: rest, .polled (.pending f)⟩ Q :=
  ensures_of_still h (fun _ => ⟨rfl, rfl⟩) fun _ => ⟨rfl, rfl⟩

/-- What is left of a batch is queued again when the main future is ready. -/
theorem ensures_mainPolled_ready {r : Result}
    (h : Ensures code l ⟨batch ++ es, d, .drop f :: .answer (.result r) :: rest, .nothing⟩ Q) :
    Ensures code l ⟨es, d, .mainPolled l k batch :: rest, .polled (.ready r f)⟩ Q := by
  refine ensures_of_quiet h (fun _ => ⟨rfl, rfl⟩) fun m hm =>
    ⟨rfl, hm.current, ?_, (World.desk_modifyQueue (·.putBack batch)).trans hm.desk, rfl, rfl⟩
  obtain ⟨q, hq, hes⟩ := hm.exists_queue
  exact (World.queued_modifyQueue hq (·.putBack batch)).trans (congrArg (batch ++ ·) hes)

end

/-! ## Entering and leaving -/

namespace Machine

variable {code : G.Code} {l : LoopId} {m : Machine G} {p : List (Machine G)} {a : Answer G}
  {rest : List (Job G)} {f : Future G.Coroutine} {es : List (Entry G)} {d : Desk G} {r : Result}

theorem arrives_of_quiet {job : Job G} (hj : m.jobs = job :: rest) (hmode : m.mode = .going a)
    (hwait : m.mustWait job = false) (hquiet : m.world.told a job = []) :
    Arrives code l m [] [] (({ m with jobs := rest } : Machine G).perform code a job) := by
  obtain ⟨hi, live⟩ := live_of_going hj hmode hwait
  have hnone : m.milestones = [] := by simp only [milestones, hj, hmode, hquiet]
  have arrives : Arrives code l m _ _ _ := arrives_step hi live
  rwa [hnone, step_of_going hj hmode hwait] at arrives

/-- A thread that enters a loop polls the main future first. -/
theorem Walked.enters (hm : Walked code p m) (hj : m.jobs = .serve (.blockOn l f) :: rest)
    (hmode : m.mode = .going a) (hnone : m.current = none) (hidle : m.isRunning l = false)
    (hopen : m.world.isClosed l = false) :
    ∃ m', Arrives code l m [] [] m' ∧ m'.At code l ⟨m.world.queued l,
      (m.world.desk l).setWaker ⟨m.world.wakers.size⟩ ⟨l, .main, false⟩,
      .serve (.poll (f.map code.accept) ⟨m.world.wakers.size⟩) ::
        .mainPolled l ⟨m.world.wakers.size⟩ [] :: .restore none :: .leave l :: rest, .nothing⟩ := by
  have hidle' : isRunning { m with jobs := rest } l = false := by
    simpa [isRunning, hj, Job.isLeave] using hidle
  have hnone' : ({ m with jobs := rest } : Machine G).current = none := hnone
  have arrives : Arrives code l m _ _ _ := arrives_of_quiet hj hmode rfl rfl
  obtain ⟨p', walk⟩ := arrives.walk
  refine ⟨_, arrives, ?_, _, hm.trans walk⟩
  simp only [perform, serve, blockOn, hnone', hidle', hopen]
  exact ⟨rfl, rfl, World.desk_newWaker m.world l l .main, rfl, rfl⟩

/-- A thread that leaves a loop answers with the result of the main future. -/
theorem At.leaves (h : m.At code l ⟨es, d, .restore none :: .leave l :: rest, .result r⟩) :
    ∃ m', Arrives code l m [] [] m' ∧ m'.jobs = rest ∧ m'.mode = .going (.blocked (.ok r)) ∧
      m'.world.pendingTasks l = m.world.pendingTasks l := by
  have restores : Arrives code l m _ _ _ := arrives_of_quiet h.jobs h.mode rfl rfl
  have leaves : Arrives code l { m with jobs := .leave l :: rest, world := m.world.enter none }
      _ _ _ := arrives_of_quiet rfl h.mode rfl rfl
  exact ⟨_, restores.trans leaves, rfl, rfl, rfl⟩

end Machine

end RunLoop
