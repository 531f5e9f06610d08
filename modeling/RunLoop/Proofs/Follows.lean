import RunLoop.Proofs.Rule
import RunLoop.Proofs.View

/-!
# Every job follows a rule

For each function of the machine the rule is found that it follows, and what happens by that rule is
what `Machine.happenings` reads off beforehand. Nothing else is proved by looking into the functions
of the machine.

* `Machine.serve_follows` is about requests, all but one: a thread that is started at once runs
  only after the rule.
* `Machine.perform_follows` is about jobs that are performed in order.
* `Machine.unwind_follows` is about jobs that a panic takes off the stack.
* `Machine.step_of_going` and `Machine.step_of_unwinding` say that a step does the one or the other.
-/

namespace RunLoop

variable {G : Guest}

namespace World

theorem setCell_of_cell? {w : World G} {c : CellId} {x : Cell} (h : w.cell? c = some x) :
    w.setCell c x = w := by
  obtain ⟨hc, hx⟩ := Array.getElem?_eq_some_iff.mp h
  simp [setCell, Array.setIfInBounds, hc, ← hx]

theorem mark_of_none {w : World G} {k : WakerId} (h : w.waker? k = none) :
    w.mark k = (w, true) := by
  have hk : ¬k.index < w.wakers.size := by simpa [waker?] using h
  simp [mark, h, Array.modify, Array.modifyM, hk]

/-- What an unsuccessful reader of a cell leaves behind. -/
theorem pollCell_agrees {w : World G} {c : CellId} {k : WakerId}
    (h : ∀ ws, w.cell? c ≠ some (.pending ws)) : (w.pollCell c k).1 = w := by
  unfold pollCell
  split
  · rfl
  · rename_i x hx
    cases x with
    | pending ws => exact absurd hx (h ws)
    | settled o => exact setCell_of_cell? hx

theorem settle?_of_pending {w : World G} {c : CellId} {ws : List WakerId}
    (h : w.cell? c = some (.pending ws)) (o : Outcome) :
    w.settle? c o = some (w.setCell c (.settled o), ws) := by
  simp [settle?, h, Cell.settle?]

/-- Only a cell that is pending can be assigned. -/
theorem settle?_eq_none {w : World G} {c : CellId}
    (h : ∀ ws, w.cell? c ≠ some (.pending ws)) (o : Outcome) : w.settle? c o = none := by
  unfold settle?
  cases hc : w.cell? c with
  | none => rfl
  | some x =>
    have hx : x.isSettled = true := by
      cases x with
      | pending ws => exact absurd hc (h ws)
      | settled o => rfl
    simp [Cell.settle?_eq_none_iff.mpr hx]

/-- Exactly a closed loop refuses an entry. -/
theorem isClosed_eq_isNone_push? (w : World G) (l : LoopId) (e : Entry G) :
    w.isClosed l = (w.push? l e).isNone := by
  unfold isClosed push? Queue.push?
  cases w.loop? l with
  | none => rfl
  | some x => cases h : x.queue.closed <;> simp [h]

end World

namespace Machine

variable {code : G.Code} {m : Machine G} {a : Answer G}

theorem handed_of_some {l : LoopId} {e : Entry G} {w : World G} (h : m.world.push? l e = some w) :
    m.handed l e = [.accepted l e] := by
  have hc := World.isClosed_eq_isNone_push? m.world l e
  simp [handed, hc, h]

theorem handed_of_none {l : LoopId} {e : Entry G} (h : m.world.push? l e = none) :
    m.handed l e = [] := by
  have hc := World.isClosed_eq_isNone_push? m.world l e
  simp [handed, hc, h]

/-! ## Requests -/

theorem dropFuture_follows (f : Future G.Coroutine) {job : Job G} (hj : job.isPlain = true)
    (hc : job.isCalm = false) : m.Follows (.going a) job [] (m.dropFuture code f) := by
  cases f with
  | own c => exact ⟨_, rfl, rfl, .plain hj hc (List.all_eq_true.mp rfl) (.refl _) rfl⟩
  | nested inner => exact ⟨_, rfl, rfl, .plain hj hc (List.all_eq_true.mp rfl) (.refl _) rfl⟩
  | forwarding j => exact ⟨[], rfl, rfl, .ended hj (.refl _) rfl⟩
  | spent => exact ⟨[], rfl, rfl, .ended hj (.refl _) rfl⟩

/-- A join slot is read; the reader is answered in one way or another. -/
theorem pollJoin_rule (m : Machine G) (busy : LoopId → Prop) (a : Answer G) {q : Request G}
    (hq : q.touchesTasks = true) (j : JoinId) (k : WakerId) (b : Answer G) :
    Rule busy m.world (.going a) (.serve q) (m.joinRead j k) (m.world.pollJoin j k).1 (.going b)
      [] := by
  cases hj : m.world.join? j with
  | none =>
    simp only [joinRead, World.pollJoin, hj]
    exact .ended rfl (.refl _) rfl
  | some x =>
    obtain ⟨o, waiter⟩ := x
    cases o with
    | none =>
      simp only [joinRead, World.pollJoin, hj]
      exact .awaitJoin hj hq
    | some o =>
      simp only [joinRead, World.pollJoin, hj]
      exact .takeJoin hj hq

theorem forward_follows (j : JoinId) (k : WakerId) :
    m.Follows (.going a) (.serve (.poll (.forwarding j) k)) (m.joinRead j k) (m.forward j k) := by
  have rule := pollJoin_rule m (fun l => m.isRunning l = true) a
    (q := .poll (.forwarding j) k) rfl j k
  unfold forward
  split
  · rename_i w o h
    rw [h] at rule
    exact ⟨[], rfl, rfl, rule _⟩
  · rename_i w h
    rw [h] at rule
    exact ⟨[], rfl, rfl, rule _⟩

theorem poll_follows (f : Future G.Coroutine) (k : WakerId) :
    m.Follows (.going a) (.serve (.poll f k)) (m.served (.poll f k)) (m.poll code k f) := by
  cases f with
  | own c => exact ⟨_, rfl, rfl, .plain rfl rfl (List.all_eq_true.mp rfl) (.refl _) rfl⟩
  | nested inner =>
    simp only [poll]
    split
    · exact ⟨_, rfl, rfl, .plain rfl rfl (List.all_eq_true.mp rfl) (.refl _) rfl⟩
    · rename_i l hl
      exact ⟨_, rfl, rfl, .spawn hl (List.all_eq_true.mp rfl) rfl⟩
  | forwarding j => exact forward_follows j k
  | spent => exact ⟨[], rfl, rfl, .ended rfl (.refl _) rfl⟩

theorem close_follows (l : LoopId) :
    m.Follows (.going a) (.serve (.close l)) (m.served (.close l)) (m.close l) := by
  show m.Follows _ _ (if m.isRunning l || m.world.isClosed l then [] else [.closed l]) _
  unfold close
  split
  · exact ⟨[], rfl, rfl, .ended rfl (.refl _) rfl⟩
  · rename_i h
    obtain ⟨hr, hc⟩ : m.isRunning l = false ∧ m.world.isClosed l = false := by simpa using h
    exact ⟨_, rfl, rfl, .close (by simp [hr]) hc⟩

theorem blockOn_follows (l : LoopId) (f : Future G.Coroutine) :
    m.Follows (.going a) (.serve (.blockOn l f)) (m.served (.blockOn l f))
      (m.blockOn code l f) := by
  show m.Follows _ _ (if m.current.isSome || m.isRunning l || m.world.isClosed l then []
    else [.entered l ⟨m.world.wakers.size⟩, .polled ⟨m.world.wakers.size⟩]) _
  unfold blockOn
  by_cases hr : (m.current.isSome || m.isRunning l) = true
  · rw [if_pos hr, if_pos (by simp [hr])]
    exact ⟨_, rfl, rfl, .plain rfl rfl (List.all_eq_true.mp rfl) (World.agrees_emit _ _) rfl⟩
  rw [if_neg hr]
  by_cases hc : m.world.isClosed l = true
  · rw [if_pos hc, if_pos (by simp [hc])]
    exact ⟨_, rfl, rfl, .plain rfl rfl (List.all_eq_true.mp rfl) (.refl _) rfl⟩
  · obtain ⟨hcur, hbusy⟩ : m.current = none ∧ m.isRunning l = false := by simpa using hr
    rw [if_neg hc, if_neg (by simp [hcur, hbusy, hc])]
    exact ⟨_, rfl, rfl, .enter (by simp [hbusy]) (by simpa using hc) hcur⟩

theorem getResult_follows (f : Future G.Coroutine) :
    m.Follows (.going a) (.serve (.getResult f)) (m.served (.getResult f)) (m.getResult f) := by
  show m.Follows _ _ (if m.current.isSome then [] else [.built ⟨m.world.loops.size⟩]) _
  unfold getResult
  split
  · exact ⟨_, rfl, rfl, .plain rfl rfl (List.all_eq_true.mp rfl) (World.agrees_emit _ _) rfl⟩
  · exact ⟨_, rfl, rfl, .build _ (List.all_eq_true.mp rfl)⟩

theorem spawn_follows (f : Future G.Coroutine) :
    m.Follows (.going a) (.serve (.spawn f)) [] (m.spawn code f) := by
  unfold spawn
  split
  · exact ⟨_, rfl, rfl, .plain rfl rfl (List.all_eq_true.mp rfl) (.refl _) rfl⟩
  · rename_i l hl
    exact ⟨_, rfl, rfl, .spawn hl (List.all_eq_true.mp rfl) rfl⟩

theorem startTask_follows (f : Future G.Coroutine) :
    m.Follows (.going a) (.serve (.start f)) [] (m.startTask code f) := by
  unfold startTask
  split
  · exact ⟨_, rfl, rfl, .plain rfl rfl (List.all_eq_true.mp rfl) (.refl _) rfl⟩
  · rename_i l hl
    exact ⟨_, rfl, rfl, .start hl (List.all_eq_true.mp rfl) rfl⟩

/-- A callback is brought to a loop by a request. -/
theorem submit_follows (q : Request G) (l : LoopId) (c : HandOff G)
    (hc : ∀ cell o, c ≠ .settle cell o) :
    m.Follows (.going a) (.serve q) (m.handed l (.call c)) (m.handOff l c) := by
  unfold handOff
  cases hp : m.world.push? l (.call c) with
  | some w =>
    rw [handed_of_some hp]
    exact ⟨[], rfl, rfl, .submit hc hp⟩
  | none =>
    rw [handed_of_none hp]
    exact ⟨_, rfl, rfl, .plain rfl rfl (List.all_eq_true.mp rfl) (.refl _) rfl⟩

theorem settle_follows (s : SourceId) (o : Outcome) :
    m.Follows (.going a) (.serve (.settle s o)) (m.served (.settle s o)) (m.settle s o) := by
  simp only [settle, served]
  cases hs : m.world.source? s with
  | none => exact ⟨[], rfl, rfl, .ended rfl (.refl _) rfl⟩
  | some x =>
    have hclaim : m.world.claim s = ((m.world.claim s).1, x.settled) := by
      simp [World.claim, hs]
    rw [hclaim]
    cases hx : x.settled with
    | false =>
      simp only [hx]
      exact ⟨_, rfl, rfl, .claim hs hx⟩
    | true =>
      simp only [hx]
      exact ⟨[], rfl, rfl, .refuse hs hx⟩

theorem newSource_follows (l : Option LoopId) :
    m.Follows (.going a) (.serve (.source l)) [] (m.newSource l) := by
  unfold newSource
  split
  · exact ⟨[], rfl, rfl, .ended rfl (.refl _) rfl⟩
  · exact ⟨[], rfl, rfl, .newSource _⟩

theorem pollCell_follows (c : CellId) (k : WakerId) :
    m.Follows (.going a) (.serve (.pollCell c k)) (m.cellRead c k) (m.pollCell code c k) := by
  by_cases h : ∃ ws, m.world.cell? c = some (.pending ws)
  · obtain ⟨ws, hws⟩ := h
    have hread : m.cellRead c k = [.awaited c k] := by
      simp [cellRead, hws]
    have hpoll :
        m.world.pollCell c k = (m.world.setCell c (.pending (Cell.enlist ws k)), none) := by
      simp [World.pollCell, hws, Cell.poll]
    rw [hread]
    unfold pollCell
    rw [hpoll]
    exact ⟨[], rfl, rfl, .awaitCell hws⟩
  · have hread : m.cellRead c k = [] := by
      unfold cellRead
      split
      · rename_i ws hws
        exact absurd ⟨ws, hws⟩ h
      · rfl
    have hw : (m.world.pollCell c k).1 = m.world :=
      World.pollCell_agrees fun ws hws => h ⟨ws, hws⟩
    rw [hread]
    unfold pollCell
    split
    · rename_i w v hv
      rw [hv] at hw
      subst hw
      split
      · exact ⟨[], rfl, rfl, .plain rfl rfl (by simp) (.refl _) rfl⟩
      · exact ⟨[], rfl, rfl, .ended rfl (.refl _) rfl⟩
    · rename_i w o _ ho
      rw [ho] at hw
      subst hw
      exact ⟨[], rfl, rfl, .ended rfl (.refl _) rfl⟩

/-- Every request follows a rule, but one: a thread that is started at once comes after it. -/
theorem serve_follows (q : Request G) (hq : ∀ run, q ≠ .thread run) :
    m.Follows (.going a) (.serve q) (m.served q) (m.serve code q) := by
  cases q with
  | build config => exact ⟨[], rfl, rfl, .build config (by simp)⟩
  | close l => exact close_follows l
  | blockOn l f => exact blockOn_follows l f
  | getResult f => exact getResult_follows f
  | spawn f => exact spawn_follows f
  | start f => exact startTask_follows f
  | startOn l f => exact submit_follows _ l _ (by simp)
  | callSoon l c => exact submit_follows _ l _ (by simp)
  | source l => exact newSource_follows l
  | settle s o => exact settle_follows s o
  | wake k => exact ⟨_, rfl, rfl, .askWake⟩
  | poll f k => exact poll_follows f k
  | drop f => exact dropFuture_follows f rfl rfl
  | pollCell c k => exact pollCell_follows c k
  | pollJoin j k => exact ⟨[], rfl, rfl, pollJoin_rule _ _ _ rfl j k _⟩
  | identities n => exact ⟨[], rfl, rfl, .ended rfl ⟨rfl, rfl, rfl, rfl, rfl⟩ rfl⟩
  | run run => exact ⟨_, rfl, rfl, .plain rfl rfl (List.all_eq_true.mp rfl) (.refl _) rfl⟩
  | guarded run => exact ⟨_, rfl, rfl, .plain rfl rfl (List.all_eq_true.mp rfl) (.refl _) rfl⟩
  | thread run => exact absurd rfl (hq run)
  | background run delay => exact ⟨[], rfl, rfl, .ended rfl (.refl _) rfl⟩
  | joinThread t => exact ⟨_, rfl, rfl, .plain rfl rfl (List.all_eq_true.mp rfl) (.refl _) rfl⟩

/-! ## Jobs in order -/

theorem advance_follows (run : G.Run) :
    m.Follows (.going a) (.resume run) [] (m.advance code run a) := by
  have hw := World.note_eq m.world (code.step m.scene m.shared run a).notes
  simp only [advance]
  split
  · exact ⟨_, rfl, rfl, .plain rfl rfl (List.all_eq_true.mp rfl) hw.1 hw.2⟩
  · exact ⟨_, rfl, rfl, .plain rfl rfl (List.all_eq_true.mp rfl) hw.1 hw.2⟩
  · exact ⟨[], rfl, rfl, .ended rfl hw.1 hw.2⟩
  · exact ⟨_, rfl, rfl, .plain rfl rfl (List.all_eq_true.mp rfl) hw.1 hw.2⟩

theorem discard_follows (e : Entry G) :
    m.Follows (.going a) (.discard e) [] (m.discard code e) := by
  cases e with
  | wake slot => exact ⟨[], rfl, rfl, .ended rfl (.refl _) rfl⟩
  | main => exact ⟨[], rfl, rfl, .ended rfl (.refl _) rfl⟩
  | call c =>
    cases c with
    | own c => exact ⟨_, rfl, rfl, .plain rfl rfl (List.all_eq_true.mp rfl) (.refl _) rfl⟩
    | settle c o => exact ⟨[], rfl, rfl, .ended rfl (.refl _) rfl⟩
    | start f => exact ⟨_, rfl, rfl, .plain rfl rfl (List.all_eq_true.mp rfl) (.refl _) rfl⟩

theorem abandon_follows (work : Work G.Coroutine) :
    m.Follows (.going a) (.abandon work) [] (m.abandon work) := by
  unfold abandon
  split
  all_goals exact ⟨_, rfl, rfl, .abandon (by simp [Job.isPlain])⟩

theorem wake_follows (k : WakerId) (hm : m.mode = .going a) :
    m.Follows (.going a) (.wake k) (m.performed a (.wake k)) (m.wake k) := by
  obtain ⟨w, shared, threads, mode, jobs⟩ := m
  cases hm
  show Follows _ _ _ (if (w.waker? k).isSome then [.woken k] else []) _
  unfold wake
  cases hk : w.waker? k with
  | none =>
    rw [World.mark_of_none hk]
    exact ⟨[], rfl, rfl, .wakeNobody hk⟩
  | some x =>
    have hmark : w.mark k = ((w.mark k).1, x.notified) := by
      simp [World.mark, hk]
    rw [hmark]
    cases hx : x.notified with
    | false => exact ⟨_, rfl, rfl, .mark hk hx⟩
    | true => exact ⟨[], rfl, rfl, .marked hk hx⟩

theorem notify_follows (k : WakerId) (hm : m.mode = .going a) :
    m.Follows (.going a) (.notify k) (m.performed a (.notify k)) (m.set (m.world.notify k)) := by
  obtain ⟨w, shared, threads, mode, jobs⟩ := m
  cases hm
  simp only [World.notify, performed]
  cases hk : w.waker? k with
  | none => exact ⟨[], rfl, rfl, .dropWake (by simp [hk]) (.refl _) rfl⟩
  | some x =>
    cases hp : w.push? x.loop x.target.entry with
    | some w' =>
      simp only [hp, Option.getD_some]
      rw [handed_of_some hp]
      exact ⟨[], rfl, rfl, .notify hk hp⟩
    | none =>
      simp only [hp, Option.getD_none]
      rw [handed_of_none hp]
      refine ⟨[], rfl, rfl, .dropWake ?_ (World.agrees_emit _ _) rfl⟩
      intro y hy
      rw [hk] at hy
      cases hy
      rw [World.isClosed_eq_isNone_push?, hp]
      rfl

theorem fill_follows (j : JoinId) (o : Joined) (hm : m.mode = .going a) :
    m.Follows (.going a) (.fill j o) (m.performed a (.fill j o)) (m.fill j o) := by
  obtain ⟨w, shared, threads, mode, jobs⟩ := m
  cases hm
  show Follows _ _ _ (if (w.join? j).isSome then [.filled j o] else []) _
  simp only [fill, World.fill]
  cases hj : w.join? j with
  | none => exact ⟨[], rfl, rfl, .fillNothing hj⟩
  | some x => exact ⟨_, rfl, rfl, .fill hj⟩

theorem handOff_follows (l : LoopId) (c : HandOff G) :
    m.Follows (.going a) (.handOff l c) (m.performed a (.handOff l c)) (m.handOff l c) := by
  show m.Follows _ _ (m.handed l (.call c)) _
  unfold handOff
  cases hp : m.world.push? l (.call c) with
  | some w =>
    rw [handed_of_some hp]
    exact ⟨[], rfl, rfl, .handOver hp⟩
  | none =>
    rw [handed_of_none hp]
    exact ⟨_, rfl, rfl, .handBack hp⟩

theorem mainPolled_follows (l : LoopId) (k : WakerId) (batch : List (Entry G)) :
    m.Follows (.going a) (.mainPolled l k batch) (m.performed a (.mainPolled l k batch))
      (m.mainPolled l k batch a.toPoll) := by
  simp only [performed]
  cases a.toPoll with
  | pending f => exact ⟨_, rfl, rfl, .mainPending⟩
  | ready r f => exact ⟨_, rfl, rfl, .mainReady⟩

/-! ### The turns of a loop -/

theorem pollTask_follows (l : LoopId) (k : WakerId) (f : Future G.Coroutine) (slot : Nat)
    (rest : List (Entry G)) :
    m.Follows (.going a) (.turn l k f (.wake slot :: rest))
      (.processed l (.wake slot) :: m.entryProcessed l k (.wake slot))
      ((m.push [.turn l k f rest]).pollTask l slot) := by
  unfold pollTask
  cases hw : m.world.takeWork l slot with
  | none =>
    have hη : m.entryProcessed l k (.wake slot) = [] := by
      rcases ht : m.world.task? l slot with _ | ⟨k', _ | work⟩
      · simp only [entryProcessed, ht]
      · simp only [entryProcessed, ht]
      · exact absurd ht (World.takeWork_eq_none_iff.mp hw k' work)
    rw [hη]
    simp only [push, insert, go, hw]
    exact ⟨_, rfl, rfl, .processNobody hw⟩
  | some x =>
    obtain ⟨w', k', work⟩ := x
    have hη : m.entryProcessed l k (.wake slot) = [.polled k'] := by
      simp only [entryProcessed, (World.takeWork_eq_some_iff.mp hw).1]
    rw [hη]
    simp only [push, insert, go, hw]
    exact ⟨_, rfl, rfl, .processTask hw⟩

theorem call_follows (l : LoopId) (k : WakerId) (f : Future G.Coroutine) (c : HandOff G)
    (rest : List (Entry G)) :
    m.Follows (.going a) (.turn l k f (.call c :: rest))
      (.processed l (.call c) :: m.entryProcessed l k (.call c))
      ((m.push [.turn l k f rest]).call code l c) := by
  cases c with
  | own c => exact ⟨_, rfl, rfl, .processCall⟩
  | settle c o =>
    by_cases h : ∃ ws, m.world.cell? c = some (.pending ws)
    · obtain ⟨ws, hws⟩ := h
      simp only [call, entryProcessed, push, insert, go, World.settle?_of_pending hws]
      refine ⟨ws.map .wake ++ [.emit (.settled o.transition), .turn l k f rest], ?_, rfl,
        .processSettle hws⟩
      simp [Machine.set]
    · have hs := World.settle?_eq_none (fun ws hws => h ⟨ws, hws⟩) o
      simp only [call, entryProcessed, push, insert, go, hs]
      exact ⟨_, rfl, rfl, .processSettled hs⟩
  | start g =>
    simp only [call, entryProcessed]
    cases hl : m.current with
    | some l' =>
      have hl' : (m.push [.turn l k f rest]).current = some l' := hl
      rw [hl']
      exact ⟨_, rfl, rfl, .processStart hl⟩
    | none =>
      have hl' : (m.push [.turn l k f rest]).current = none := hl
      rw [hl']
      exact ⟨[.drop g, .turn l k f rest], rfl, rfl, .astray (.inr ⟨hl, l, k, f, g, rest, rfl⟩)⟩

theorem turn_follows (l : LoopId) (k : WakerId) (f : Future G.Coroutine) (batch : List (Entry G)) :
    m.Follows (.going a) (.turn l k f batch) (m.performed a (.turn l k f batch))
      (m.turn code l k f batch) := by
  cases batch with
  | nil => exact ⟨_, rfl, rfl, .take⟩
  | cons e rest =>
    cases e with
    | main => exact ⟨_, rfl, rfl, .processMain⟩
    | wake slot => exact pollTask_follows l k f slot rest
    | call c => exact call_follows l k f c rest

/-! ### Tasks -/

theorem taskPolled_follows (l : LoopId) (slot : Nat) (kind : Kind) :
    m.Follows (.going a) (.taskPolled l slot kind) [] (m.taskPolled l slot kind a.toPoll) := by
  cases h : a.toPoll with
  | pending f => exact ⟨[], rfl, rfl, .taskPending (by simp [Mode.outcome?, h])⟩
  | ready r f =>
    exact ⟨_, rfl, rfl,
      .taskEnding [.drop f] (List.all_eq_true.mp rfl) (by simp [Mode.outcome?, h])⟩

theorem taskEnded_follows (l : LoopId) (slot : Nat) (kind : Kind) (o : Joined) :
    m.Follows (.going a) (.taskEnded l slot kind o) [] (m.taskEnded l slot o kind) := by
  cases kind with
  | joined j => exact ⟨_, rfl, rfl, .taskEnded [.fill j o] (.inl ⟨j, o, rfl, rfl⟩)⟩
  | detached =>
    simp only [taskEnded]
    split
    · rename_i v hv
      exact ⟨_, rfl, rfl, .taskEnded [] (.inr ⟨rfl, .inl ⟨v, hv, rfl⟩⟩)⟩
    · rename_i e he
      exact ⟨_, rfl, rfl, .taskEnded [.report l e] (.inr ⟨rfl, .inr ⟨e, he, rfl⟩⟩)⟩

theorem report_follows (l : LoopId) (e : Error) :
    m.Follows (.going a) (.report l e) [] (m.report code l e) := by
  unfold report
  split
  · exact ⟨_, rfl, rfl, .report⟩
  · exact ⟨[], rfl, rfl, .unheard⟩

/-- Every job that is performed in order follows a rule. -/
theorem perform_follows (job : Job G) (hm : m.mode = .going a)
    (hj : ∀ run, job ≠ .serve (.thread run)) :
    m.Follows (.going a) job (m.performed a job) (m.perform code a job) := by
  obtain ⟨w, shared, threads, mode, jobs⟩ := m
  cases hm
  cases job with
  | resume run => exact advance_follows run
  | serve q => exact serve_follows q fun run h => hj run (h ▸ rfl)
  | answer b => exact ⟨[], rfl, rfl, .ended rfl (.refl _) rfl⟩
  | emit e => exact ⟨[], rfl, rfl, .ended rfl (World.agrees_emit _ e) rfl⟩
  | drop f => exact dropFuture_follows f rfl rfl
  | discard e => exact discard_follows e
  | abandon work => exact abandon_follows work
  | wake k => exact wake_follows k rfl
  | notify k => exact notify_follows k rfl
  | fill j o => exact fill_follows j o rfl
  | handOff l c => exact handOff_follows l c
  | mainPolled l k batch => exact mainPolled_follows l k batch
  | turn l k f batch => exact turn_follows l k f batch
  | restore previous => exact ⟨[], rfl, rfl, .restore⟩
  | leave l => exact ⟨[], rfl, rfl, .leave (World.agrees_emit _ _) rfl (by simp [perform, go])⟩
  | taskPolled l slot kind => exact taskPolled_follows l slot kind
  | taskEnded l slot kind o => exact taskEnded_follows l slot kind o
  | taskFinished l slot => exact ⟨[], rfl, rfl, .taskFinished⟩
  | taskPanicked l slot panic => exact ⟨_, rfl, rfl, .taskPanicked⟩
  | called l => exact ⟨[], rfl, rfl, .called⟩
  | report l e => exact report_follows l e
  | reported l e => exact ⟨[], rfl, rfl, .reported⟩
  | drain l n => exact ⟨_, rfl, rfl, .drain (List.all_eq_true.mp rfl)⟩
  | owned l => exact ⟨_, rfl, rfl, .plain rfl rfl (List.all_eq_true.mp rfl) (.refl _) rfl⟩
  | barrier => exact ⟨[], rfl, rfl, .ended rfl (.refl _) rfl⟩
  | await t => exact ⟨[], rfl, rfl, .ended rfl (.refl _) rfl⟩
  | threadEnd t => exact ⟨[], rfl, rfl, .ended rfl (.refl _) rfl⟩
  | propagate panic => exact ⟨[], rfl, rfl, .plain rfl rfl (by simp) (.refl _) rfl⟩

/-! ## Jobs in a panic -/

/-- What happens when a panic takes a job off the stack. -/
def torn : Job G → List (Happening G)
  | .mainPolled l _ rest => [.panicked l rest]
  | _ => []

/-- Every job that a panic takes off the stack follows a rule. -/
theorem unwind_follows (job : Job G) (p : Payload) (r : Option (Future G.Coroutine))
    (hm : m.mode = .unwinding p r) :
    m.Follows (.unwinding p r) job (torn job) (m.unwind code p r job) := by
  obtain ⟨w, shared, threads, mode, jobs⟩ := m
  cases hm
  cases job with
  | resume run => exact ⟨_, rfl, rfl, .plain rfl rfl (List.all_eq_true.mp rfl) (.refl _) rfl⟩
  | drop f => exact ⟨_, rfl, rfl, .plain rfl rfl (List.all_eq_true.mp rfl) (.refl _) rfl⟩
  | discard e => exact ⟨_, rfl, rfl, .plain rfl rfl (List.all_eq_true.mp rfl) (.refl _) rfl⟩
  | abandon work => exact ⟨_, rfl, rfl, .again (.inl ⟨work, rfl⟩)⟩
  | fill j o => exact ⟨_, rfl, rfl, .again (.inr ⟨j, o, rfl⟩)⟩
  | mainPolled l k batch => exact ⟨_, rfl, rfl, .mainPanicked⟩
  | restore previous => exact ⟨[], rfl, rfl, .restore⟩
  | leave l => exact ⟨[], rfl, rfl, .leave (.refl _) rfl fun _ _ h => h⟩
  | taskPolled l slot kind =>
    exact ⟨r.toList.map .drop ++ [.taskEnded l slot kind (.error p.toError)], rfl, rfl,
      .taskEnding _ (by simp [Job.isPlain]) rfl⟩
  | taskEnded l slot kind o =>
    cases kind with
    | joined j => exact ⟨_, rfl, rfl, .taskEndPanicked [.fill j _] (.inr ⟨j, _, rfl⟩)⟩
    | detached => exact ⟨_, rfl, rfl, .taskEndPanicked [] (.inl rfl)⟩
  | called l => exact ⟨_, rfl, rfl, .calledPanicked⟩
  | reported l e => exact ⟨[], rfl, rfl, .reportedPanicked⟩
  | drain l n => exact ⟨_, rfl, rfl, .drain (List.all_eq_true.mp rfl)⟩
  | owned l => exact ⟨_, rfl, rfl, .plain rfl rfl (List.all_eq_true.mp rfl) (.refl _) rfl⟩
  | barrier => exact ⟨[], rfl, rfl, .caught rfl (.refl _) rfl⟩
  | threadEnd t => exact ⟨[], rfl, rfl, .caught rfl (.refl _) rfl⟩
  | propagate q => exact ⟨[], rfl, rfl, .plain rfl rfl (by simp) (.refl _) rfl⟩
  | serve q => exact ⟨[], rfl, rfl, .past rfl rfl⟩
  | answer b => exact ⟨[], rfl, rfl, .past rfl rfl⟩
  | emit e => exact ⟨[], rfl, rfl, .past rfl rfl⟩
  | await t => exact ⟨[], rfl, rfl, .past rfl rfl⟩
  | wake k => exact ⟨[], rfl, rfl, .astray (.inl ⟨rfl, p, r, rfl⟩)⟩
  | notify k => exact ⟨[], rfl, rfl, .astray (.inl ⟨rfl, p, r, rfl⟩)⟩
  | handOff l c => exact ⟨[], rfl, rfl, .astray (.inl ⟨rfl, p, r, rfl⟩)⟩
  | turn l k f batch =>
    exact ⟨batch.map .discard ++ [.drop f] ++ [.propagate p], rfl, rfl,
      .astray (.inl ⟨rfl, p, r, rfl⟩)⟩
  | taskFinished l slot => exact ⟨[], rfl, rfl, .astray (.inl ⟨rfl, p, r, rfl⟩)⟩
  | taskPanicked l slot q => exact ⟨[], rfl, rfl, .astray (.inl ⟨rfl, p, r, rfl⟩)⟩
  | report l e => exact ⟨[], rfl, rfl, .astray (.inl ⟨rfl, p, r, rfl⟩)⟩

/-! ## Steps -/

section Steps

variable {job : Job G} {rest : List (Job G)}

/-- Who need not wait has something to do. -/
theorem exists_job (hi : m.isIdle = false) : ∃ job rest, m.jobs = job :: rest := by
  cases hj : m.jobs with
  | nil => simp [isIdle, hj] at hi
  | cons job rest => exact ⟨job, rest, rfl⟩

/-- Outside of a panic the job on top says whether there is nothing to do but to wait. -/
theorem isIdle_of_going (hj : m.jobs = job :: rest) (hmode : m.mode = .going a) :
    m.isIdle = m.mustWait job := by
  simp only [isIdle, hj, hmode]

/-- A job that need not wait is performed. -/
theorem step_of_going (hj : m.jobs = job :: rest) (hmode : m.mode = .going a)
    (hw : m.mustWait job = false) : m.step code = { m with jobs := rest }.perform code a job := by
  unfold step
  simp only [hj, hmode, hw]
  rfl

/-- A panic takes the job on top off the stack. -/
theorem step_of_unwinding {p : Payload} {r : Option (Future G.Coroutine)}
    (hj : m.jobs = job :: rest) (hmode : m.mode = .unwinding p r) :
    m.step code = { m with jobs := rest }.unwind code p r job := by
  unfold step
  simp only [hj, hmode]

end Steps

end Machine

end RunLoop
