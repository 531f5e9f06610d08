import RunLoop.Proofs.Lineup
import RunLoop.Proofs.Play
import RunLoop.Proofs.Rounds

/-!
# Yielding tasks take turns

On a new loop the main future spawns tasks, each of which yields a number of times, and awaits them
in the order in which it spawned them. Every task is queued once as long as it is not ready, and
goes to the back with each of its segments but the last; the main future is queued when the task
that it waits for has come to its end. So the segments run in rounds.

* `Queued` says whose entries are in the queue, `Standby` where the main future is.
* `Standby.ensures`: the tasks are served as their queue demands, and the main future comes to its
  end.
* `Machine.segments_run_in_rounds`: the rounds.
-/

namespace RunLoop

variable {G : Guest}

/-! ## Between two segments -/

/-- The entries of a queue are those of the tasks `ts`, in this order, and `n` of the main
future. -/
inductive Queued : List (Entry G) → List (Seat × Nat) → Nat → Prop where
  | nil : Queued [] [] 0
  | main {E ts n} (h : Queued E ts n) : Queued (.main :: E) ts (n + 1)
  | task {E ts n} (x : Seat × Nat) (h : Queued E ts n) : Queued (.wake x.1.slot :: E) (x :: ts) n

theorem Queued.push_task {E : List (Entry G)} {ts : List (Seat × Nat)} {n : Nat}
    (h : Queued E ts n) (x : Seat × Nat) : Queued (E ++ [.wake x.1.slot]) (ts ++ [x]) n := by
  induction h with
  | nil => exact .task x .nil
  | main _ ih => exact .main ih
  | task y _ ih => exact .task y ih

theorem Queued.push_main {E : List (Entry G)} {ts : List (Seat × Nat)} {n : Nat}
    (h : Queued E ts n) : Queued (E ++ [.main]) ts (n + 1) := by
  induction h with
  | nil => exact .main .nil
  | main _ ih => exact .main ih
  | task y _ ih => exact .task y ih

/-- Where the main coroutine `c` is between two segments, and how often it is queued. -/
inductive Standby (code : G.Code) (l : LoopId) (k : WakerId) (d : Desk G) (ts : List (Seat × Nat))
    (c : G.Coroutine) : Nat → Prop where
  /-- It waits for a task that is in line. -/
  | waiting {j js} (lined : Lined code l k d ts (some j) (j :: js)) (hj : j ∈ ts.map (·.1.join))
      (hk : d.waker k = some ⟨l, .main, false⟩)
      (hc : Resumes code l k j (AwaitsAll code l k js) c) :
      Standby code l k d ts c 0
  /-- The outcome that it waits for is there. -/
  | due {j js o} (lined : Lined code l k d ts none (j :: js))
      (hj : d.join j = some ⟨some o, none⟩) (hk : d.waker k = some ⟨l, .main, true⟩)
      (hc : Resumes code l k j (AwaitsAll code l k js) c) : Standby code l k d ts c 1

/-- All tasks of the line `ts` were served, in turn, and no task is left; the main future came to a
result. -/
def Served (below : List (Job G)) (ts : List (Seat × Nat)) (spawned begun : List (Nat × WakerId))
    (s : Stand G) : Prop :=
  spawned = [] ∧ begun = (rota ts).map Seat.key ∧
    ∃ es d r, s = ⟨es, d, below, .result r⟩ ∧ ∀ slot, d.task slot = none

section

variable {code : G.Code} {l : LoopId} {k : WakerId} {d : Desk G} {ts : List (Seat × Nat)}
  {es batch E : List (Entry G)} {js : List JoinId} {c : G.Coroutine} {a : Answer G}
  {above rest below : List (Job G)} {f : Future G.Coroutine} {e : Entry G} {T : Seat} {n i : Nat}
  {Q : List (Nat × WakerId) → List (Nat × WakerId) → Stand G → Prop}

/-- The next entry is processed, be it of this batch or of the next one. -/
theorem ensures_next (hE : batch ++ es = e :: E)
    (h : ∀ batch es a, batch ++ es = E →
      Ensures code l ⟨es, d, .turn l k f (e :: batch) :: rest, a⟩ Q) :
    Ensures code l ⟨es, d, .turn l k f batch :: rest, a⟩ Q := by
  cases batch with
  | nil =>
    obtain rfl : es = e :: E := hE
    exact ensures_turn_nil (List.cons_ne_nil _ _) (h E [] .nothing (List.append_nil E))
  | cons e' batch =>
    obtain ⟨rfl, rfl⟩ := List.cons.inj hE
    exact h batch es a rfl

/-- The main future takes outcomes until it has to wait, or to its end. -/
theorem ensures_reads (lined : Lined code l k d ts none js)
    (hk : d.waker k = some ⟨l, .main, false⟩) (h : AwaitsAll code l k js above a)
    (hwait : ∀ d c, Standby code l k d ts c 0 →
      Ensures code l ⟨es, d, .turn l k (.own c) batch :: below, .nothing⟩ (Served below ts)) :
    Ensures code l ⟨es, d, above ++ .mainPolled l k batch :: below, a⟩ (Served below ts) := by
  induction js generalizing d above a with
  | nil =>
    obtain rfl : ts = [] := by simpa using lined.known
    refine EndsReady.ensures h fun r f hf => ?_
    refine ensures_mainPolled_ready (hf.ensures fun x => ensures_answer (ensures_here ?_))
    refine ⟨rfl, by simp [rota], _, d, r, rfl, fun slot => ?_⟩
    by_contra hne
    obtain ⟨t, ht⟩ := Option.ne_none_iff_exists'.mp hne
    simpa using lined.alone slot t ht
  | cons j js ih =>
    refine Asks.ensures h fun above hasks => ?_
    obtain ⟨hsome, hnone⟩ := hasks
    rcases lined.filled j List.mem_cons_self with hj | ⟨o, ho⟩
    · obtain ⟨x, hx, rfl⟩ := List.mem_map.mp hj
      refine ensures_pollJoin (lined.posted x hx).join (hnone.ensures fun c hc => ?_)
      exact ensures_mainPolled_pending (hwait _ c (.waiting (lined.asked hj) hj hk hc))
    · exact ensures_pollJoin ho (ih (lined.taken ho) hk (hsome o))

theorem Standby.posted (h : Standby code l k d ts c i) {x : Seat × Nat} (hx : x ∈ ts) :
    ∃ waiter, Posted code l d x.1 x.2 waiter := by
  cases h with
  | waiting lined => exact ⟨_, lined.posted x hx⟩
  | due lined => exact ⟨_, lined.posted x hx⟩

/-- A segment that is not the last. -/
theorem Standby.segment (h : Standby code l k d ((T, n + 1) :: ts) c i) {c' : G.Coroutine}
    (hc' : Segments code l n c') :
    Standby code l k (d.setTask T.slot (some ⟨T.waker, some ⟨.joined T.join, true, .own c'⟩⟩))
      (ts ++ [(T, n)]) c i := by
  have hperm : ((T, n) :: ts).Perm (ts ++ [(T, n)]) := (List.perm_append_singleton _ _).symm
  cases h with
  | waiting lined hj hk hc =>
    exact .waiting ((lined.segment hc').perm hperm) ((hperm.map _).mem_iff.mp hj) hk hc
  | due lined hj hk hc => exact .due ((lined.segment hc').perm hperm) hj hk hc

theorem Served.segment {ss bs : List (Nat × WakerId)} {s : Stand G}
    (h : Served below (ts ++ [(T, n)]) ss bs s) :
    Served below ((T, n + 1) :: ts) ss (T.key :: bs) s := by
  obtain ⟨hs, rfl, hend⟩ := h
  exact ⟨hs, by simp [rota], hend⟩

theorem Served.last {ss bs : List (Nat × WakerId)} {s : Stand G} (h : Served below ts ss bs s) :
    Served below ((T, 0) :: ts) ss (T.key :: bs) s := by
  obtain ⟨hs, rfl, hend⟩ := h
  exact ⟨hs, by simp [rota], hend⟩

theorem Standby.le_one (h : Standby code l k d ts c i) : i ≤ 1 := by
  cases h <;> decide

/-- The last segment of the task in front; the main future is queued if it waits for that one. -/
theorem Standby.ensures_last (h : Standby code l k d ((T, 0) :: ts) c i)
    (hq : Queued (batch ++ es) ts i)
    (hnext : ∀ d es i, Standby code l k d ts c i → Queued (batch ++ es) ts i →
      Ensures code l ⟨es, d, .turn l k (.own c) batch :: below, .nothing⟩ (Served below ts)) :
    Ensures code l ⟨es, d, .turn l k (.own c) (.wake T.slot :: batch) :: below, a⟩
      (Served below ((T, 0) :: ts)) := by
  have next : ∀ {d es} i, Standby code l k d ts c i → Queued (batch ++ es) ts i →
      Ensures code l ⟨es, d, .turn l k (.own c) batch :: below, .nothing⟩
        (fun ss bs => Served below ((T, 0) :: ts) ss (T.key :: bs)) :=
    fun _ h hq => (hnext _ _ _ h hq).mono fun _ _ _ h => h.last
  cases h with
  | @waiting j js lined hj hk hc =>
    have hp := lined.posted _ List.mem_cons_self
    have hkey : k ≠ T.waker := by
      rintro rfl
      cases hk.symm.trans hp.waker
    by_cases hT : j = T.join
    · subst hT
      rw [if_pos rfl] at hp
      refine ensures_awaited_segment hp hk fun o => next 1 ?_ ?_
      · have hleft : (d.left l T o).waker k = some ⟨l, .main, false⟩ :=
          (Desk.waker_left_of_ne hkey).trans hk
        have lined' := lined.left o
        rw [if_pos rfl] at lined'
        exact .due (lined'.setMain hleft true) Desk.join_left_self (Desk.waker_setWaker_self ..) hc
      · rw [← List.append_assoc]
        exact hq.push_main
    · have hne : some j ≠ some T.join := fun he => hT (Option.some.inj he)
      rw [if_neg hne] at hp
      refine ensures_last_segment hp fun o => next 0 ?_ hq
      have lined' := lined.left o
      rw [if_neg hne] at lined'
      exact .waiting lined' ((List.mem_cons.mp hj).resolve_left hT)
        ((Desk.waker_left_of_ne hkey).trans hk) hc
  | @due j js o' lined hj hk hc =>
    have hp := lined.posted _ List.mem_cons_self
    have hkey : k ≠ T.waker := by
      rintro rfl
      cases hk.symm.trans hp.waker
    have hT : j ≠ T.join := by
      rintro rfl
      cases hj.symm.trans hp.join
    rw [if_neg nofun] at hp
    refine ensures_last_segment hp fun o => next 1 ?_ hq
    have lined' := lined.left o
    rw [if_neg nofun] at lined'
    exact .due lined' ((Desk.join_left_of_ne hT).trans hj) ((Desk.waker_left_of_ne hkey).trans hk)
      hc

/-- **The tasks are served in turn**, and the main future comes to its end. -/
theorem Standby.ensures (h : Standby code l k d ts c i) (hq : Queued (batch ++ es) ts i) :
    Ensures code l ⟨es, d, .turn l k (.own c) batch :: below, a⟩ (Served below ts) := by
  -- every segment and every poll of the main future takes something off
  induction hn : (ts.map (·.2 + 2)).sum + i using Nat.strong_induction_on
    generalizing d ts c i es batch a with
  | _ n ih =>
    generalize hE : batch ++ es = E at hq
    cases hq with
    | nil =>
      cases h with
      | waiting _ hj => cases hj
    | main hq =>
      cases h with
      | due lined hj hk hc =>
        refine ensures_next hE fun batch es a hE' => ensures_turn_main hk (ensures_poll ?_)
        refine hc.ensures fun above habove => ensures_pollJoin hj ?_
        refine ensures_reads ((lined.setMain hk false).taken hj) (Desk.waker_setWaker_self ..)
          (habove _) fun d c h => ?_
        exact ih _ (by omega) h (hE' ▸ hq) rfl
    | @task E ts _ x hq =>
      obtain ⟨T, _ | r⟩ := x
      · refine ensures_next hE fun batch es a hE' => ?_
        refine h.ensures_last (hE' ▸ hq) fun d es i h' hq' => ?_
        have hle := h'.le_one
        refine ih _ ?_ h' hq' rfl
        rw [List.map_cons, List.sum_cons] at hn
        omega
      · obtain ⟨waiter, hp⟩ := h.posted List.mem_cons_self
        refine ensures_next hE fun batch es a hE' => ensures_segment hp fun c' hc' => ?_
        refine (ih _ ?_ (h.segment hc') ?_ rfl).mono fun _ _ _ h => h.segment
        · rw [List.map_cons, List.sum_cons] at hn
          rw [List.map_append, List.sum_append, List.map_singleton, List.sum_singleton]
          omega
        · rw [← List.append_assoc, hE']
          exact hq.push_task (T, r)

/-- The main future spawns tasks, and takes their outcomes. -/
theorem ensures_spawns {fs : List (Future G.Coroutine)} {ns : List Nat}
    (hfs : List.Forall₂ (fun f n => ∃ c, f = .own c ∧ Segments code l n (code.accept c)) fs ns)
    (lined : Lined code l k d ts none js) (hk : d.waker k = some ⟨l, .main, false⟩)
    (hq : Queued es ts 0) (h : SpawnsAll code l k fs js above a) :
    Ensures code l ⟨es, d, above ++ .mainPolled l k [] :: below, a⟩ fun ss bs s =>
      ∃ new : List (Seat × Nat), new.map Prod.snd = ns ∧ ss = new.map (·.1.key) ∧
        Served below (ts ++ new) [] bs s := by
  induction hfs generalizing es d ts js above a with
  | nil =>
    refine (ensures_reads lined hk h fun d c h => h.ensures (List.nil_append es ▸ hq)).mono ?_
    rintro ss bs s ⟨rfl, served⟩
    exact ⟨[], rfl, rfl, rfl, by simpa using served⟩
  | @cons f n fs ns hf _ ih =>
    obtain ⟨c, rfl, hc⟩ := hf
    refine Asks.ensures h fun above habove => ensures_spawned fun T hslot hwaker hjoin => ?_
    have hne : k ≠ T.waker := by
      rintro rfl
      cases hk.symm.trans hwaker
    refine (ih (lined.spawned hslot hwaker hjoin hc)
      ((Desk.waker_setWaker ..).trans ((if_neg hne).trans hk)) (hq.push_task (T, n))
      (habove T.join)).mono ?_
    rintro ss bs s ⟨new, rfl, rfl, served⟩
    exact ⟨(T, n) :: new, rfl, rfl, by simpa using served⟩

end

/-! ## Guests whose tasks yield -/

/-- Nothing is done about a future that gave its outcome away. -/
theorem dropsQuietly_spent (code : G.Code) (l : LoopId) : DropsQuietly code l .spent :=
  fun _ _ _ _ => ensures_of_still (ensures_here ⟨rfl, rfl, .nothing, trivial, rfl⟩)
    (fun _ => ⟨rfl, rfl⟩) fun _ => ⟨rfl, rfl⟩

namespace Script

variable {l : LoopId}

theorem segments_yields_asked (n : Nat) : Segments code l n (.yields (n + 1) true) := by
  induction n with
  | zero =>
    exact fun k => ends_of_step fun _ _ => ⟨_, rfl, _, _, rfl, dropsQuietly_spent code l⟩
  | succ n ih =>
    refine fun k => asks_of_step fun _ _ => ⟨.putOff (n + 1), rfl, ?_⟩
    exact ends_of_step fun _ _ => ⟨_, rfl, _, rfl, ih⟩

/-- The awaitable of scripts that yields does so as often as it says. -/
theorem segments_yields (n : Nat) : Segments code l n (.yields n false) := by
  cases n with
  | zero =>
    exact fun k => ends_of_step fun _ _ => ⟨_, rfl, _, _, rfl, dropsQuietly_spent code l⟩
  | succ n =>
    refine fun k => asks_of_step fun _ _ => ⟨.putOff (n + 1), by cases n <;> rfl, ?_⟩
    exact ends_of_step fun _ _ => ⟨_, rfl, _, rfl, segments_yields_asked n⟩

end Script

namespace Workers

/-- The coroutines of a guest whose tasks yield. -/
inductive Worker where
  /-- A task that yields `left` times. -/
  | task (left : Nat)
  /-- A main future that spawns one task for each of `counts`, and awaits them. -/
  | main (counts : List Nat)
  | awaiting (slot : JoinId) (slots : List JoinId)

/-- Running code of it. -/
inductive Run where
  /-- Runs a main future on a new loop. -/
  | host (counts : List Nat)
  | building (counts : List Nat)
  | poll (c : Worker) (waker : WakerId)
  | putOff (left : Nat)
  | spawning (waker : WakerId) (counts : List Nat) (slots : List JoinId)
  | reading (waker : WakerId) (slot : JoinId) (slots : List JoinId)
  | done

/-- A guest whose tasks yield. -/
abbrev guest : Guest where
  Coroutine := Worker
  Callback := Unit
  Handler := Unit
  Run := Run
  Shared := Unit
  Note := Unit

/-- Reads the next join slot. -/
def read (k : WakerId) : List JoinId → Act guest
  | [] => .finish (.polled (.ready (.ok .null) .spent))
  | j :: js => .request (.pollJoin j k) (.reading k j js)

/-- Spawns the next task. -/
def spawn (k : WakerId) (js : List JoinId) : List Nat → Act guest
  | [] => read k js
  | n :: counts => .request (.spawn (.own (.task n))) (.spawning k counts js)

/-- What running code does next. -/
def act : Run → Answer guest → Act guest
  | .host counts, _ => .request (.build .default) (.building counts)
  | .building counts, .loop l => .request (.blockOn l (.own (.main counts))) .done
  | .poll (.task 0) _, _ => .finish (.polled (.ready (.ok .null) .spent))
  | .poll (.task (n + 1)) k, _ => .request (.wake k) (.putOff n)
  | .poll (.main counts) k, _ => spawn k [] counts
  | .poll (.awaiting j js) k, _ => .request (.pollJoin j k) (.reading k j js)
  | .putOff n, _ => .finish (.polled (.pending (.own (.task n))))
  | .spawning k counts js, .join (.ok j) => spawn k (js ++ [j]) counts
  | .reading k _ js, .joined (some _) => read k js
  | .reading _ j js, .joined none => .finish (.polled (.pending (.own (.awaiting j js))))
  | _, a => .finish a

/-- The behaviour of the guest. -/
def code : Guest.Code guest where
  accept := id
  poll := .poll
  drop _ := .done
  call _ := .done
  discard _ := .done
  handle _ _ := .done
  unwind _ _ := .done
  copyPanic _ := none
  step _ shared run a := ⟨shared, [], act run a⟩

variable {l : LoopId} {k : WakerId} {run : Run} {a : Answer guest}

theorem segments_task (n : Nat) : Segments code l n (.task n) := by
  induction n with
  | zero =>
    exact fun k => ends_of_step fun _ _ => ⟨_, rfl, _, _, rfl, dropsQuietly_spent code l⟩
  | succ n ih =>
    refine fun k => asks_of_step fun _ _ => ⟨.putOff n, rfl, ?_⟩
    exact ends_of_step fun _ _ => ⟨_, rfl, _, rfl, ih⟩

theorem awaitsAll_read {js : List JoinId} (h : act run a = read k js) :
    AwaitsAll code l k js [.resume run] a := by
  induction js generalizing run a with
  | nil =>
    exact ends_of_step fun _ _ => ⟨_, h, _, _, rfl, dropsQuietly_spent code l⟩
  | cons j js ih =>
    refine asks_of_step fun _ _ => ⟨.reading k j js, h, fun o => ih rfl, ?_⟩
    refine ends_of_step fun _ _ => ⟨_, rfl, _, rfl, ?_⟩
    exact asks_of_step fun _ _ => ⟨.reading k j js, rfl, fun o => ih rfl⟩

theorem spawnsAll_spawn {counts : List Nat} {js : List JoinId} (h : act run a = spawn k js counts) :
    SpawnsAll code l k (counts.map (fun n => .own (.task n))) js [.resume run] a := by
  induction counts generalizing js run a with
  | nil => exact awaitsAll_read h
  | cons n counts ih =>
    exact asks_of_step fun _ _ => ⟨.spawning k counts js, h, fun j => ih rfl⟩

theorem forall₂_segments (counts : List Nat) :
    List.Forall₂ (fun f n => ∃ c, f = .own c ∧ Segments code l n (code.accept c))
      (counts.map (fun n => Future.own (Worker.task n))) counts := by
  induction counts with
  | nil => exact .nil
  | cons n counts ih => exact .cons ⟨_, rfl, segments_task n⟩ ih

/-- The machine of a host whose main future is to be run next. -/
def hosted (counts : List Nat) : Machine guest :=
  ((Machine.start (G := guest) () (.host counts)).trace code 3).2

/-- What it does in the next `n` steps, and where it comes to. -/
def work (counts : List Nat) (n : Nat) : List (Machine guest) × Machine guest :=
  (hosted counts).trace code n

end Workers

/-! ## The rounds -/

namespace Machine

variable {code : G.Code} {m : Machine G} {p : List (Machine G)} {l : LoopId} {c : G.Coroutine}
  {a : Answer G} {rest : List (Job G)} {fs : List (Future G.Coroutine)} {counts : List Nat}
  {config : Config G}

/-- **Yielding tasks take turns.** A new loop is to run a main future whose first poll spawns the
tasks `fs`, one after the other; then it awaits them in the same order. Of the tasks, each yields as
often as `counts` says, which makes one segment more, and a poll runs a segment. Then the machine
comes by its own steps to where

* the thread has got the result of the main future, and no task of the loop is left;
* one task was spawned for each of `counts`, and all of them are different;
* the polls of tasks that began on the loop are those of the rounds: round `0` polls every task, in
  the order in which they were spawned, round `r` those that yield `r` times at least, in the same
  order, and each round comes after the whole of the one before. -/
theorem segments_run_in_rounds (hm : Walked code p m)
    (hj : m.jobs = .serve (.blockOn l (.own c)) :: rest) (hmode : m.mode = .going a)
    (hnone : m.current = none) (hfresh : m.world.loop? l = some config.build)
    (hidle : m.isRunning l = false)
    (htasks : List.Forall₂ (fun f n => ∃ c, f = .own c ∧ Segments code l n (code.accept c)) fs
      counts)
    (hmain : ∀ k, SpawnsAll code l k fs [] [.resume (code.poll (code.accept c) k)] .nothing) :
    ∃ n r tasks,
      (m.trace code n).2.jobs = rest ∧ (m.trace code n).2.mode = .going (.blocked (.ok r)) ∧
      (m.trace code n).2.world.pendingTasks l = 0 ∧
      spawnedOn l (story (m.trace code n).1) = tasks.map Prod.fst ∧
      (tasks.map Prod.fst).Nodup ∧ tasks.map Prod.snd = counts ∧
      begunOn l (story (m.trace code n).1) = roundRobin tasks := by
  have hopen : m.world.isClosed l = false := by
    rw [World.isClosed, hfresh]
    rfl
  have hqueued : m.world.queued l = [] := by
    rw [World.queued, World.queue?, hfresh]
    rfl
  have hfree : ∀ slot, m.world.task? l slot = none := by
    intro slot
    rw [World.task?, hfresh]
    exact Slab.get?_new _ slot
  obtain ⟨m₁, enters, hm₁⟩ := hm.enters hj hmode hnone hidle hopen
  rw [hqueued] at hm₁
  have lined : Lined code l ⟨m.world.wakers.size⟩
      ((m.world.desk l).setWaker ⟨m.world.wakers.size⟩ ⟨l, .main, false⟩) [] none [] :=
    .nobody hfree
  obtain ⟨m₂, ss, bs, s, serves, hm₂, new, rfl, rfl, -, rfl, es, d, r, rfl, hnone₂⟩ :=
    ensures_poll (ensures_spawns htasks lined (Desk.waker_setWaker_self ..) .nil (hmain _)) m₁ hm₁
  obtain ⟨m₃, leaves, hjobs, hgoing, hpending⟩ := hm₂.leaves
  obtain ⟨n, rfl, hspawned, hbegun⟩ := (enters.trans serves).trans leaves
  refine ⟨n, r, new.map (Prod.map Seat.key id), hjobs, hgoing, ?_, ?_, ?_, ?_, ?_⟩
  · obtain ⟨p₂, hw₂⟩ := hm₂.walked
    have hseats := World.seats_eq_nil fun slot => (hm₂.task? slot).trans (hnone₂ slot)
    rw [hpending, hw₂.pendingTasks_eq, hseats]
    rfl
  · rw [hspawned]
    simp [Function.comp_def, Seat.key]
  · have hnodup := (hm.trans (walk_trace code m n)).census.nodup_spawnedOn l
    rw [story, List.flatMap_append, spawnedOn, List.filterMap_append, List.map_append] at hnodup
    have hlater := (List.nodup_append.mp hnodup).2.1.of_map
    have hkeys : (new.map (Prod.map Seat.key id)).map Prod.fst =
        spawnedOn l (story (m.trace code n).1) := by
      rw [hspawned]
      simp [Function.comp_def, Seat.key]
    rw [hkeys]
    exact hlater
  · simp [Function.comp_def]
  · rw [hbegun, roundRobin_map, ← rota_eq_roundRobin]
    simp

theorem segments_run_in_rounds_of_workers :
    ∃ n r t₁ t₂ t₃, [t₁, t₂, t₃].Nodup ∧
      (Workers.work [1, 0, 2] n).2.mode = .going (.blocked (.ok r)) ∧
      (Workers.work [1, 0, 2] n).2.world.pendingTasks ⟨0⟩ = 0 ∧
      spawnedOn ⟨0⟩ (story (Workers.work [1, 0, 2] n).1) = [t₁, t₂, t₃] ∧
      begunOn ⟨0⟩ (story (Workers.work [1, 0, 2] n).1) = [t₁, t₂, t₃, t₁, t₃, t₃] := by
  have hm : Walked Workers.code _ (Workers.hosted [1, 0, 2]) :=
    ⟨(), .host [1, 0, 2], walk_trace Workers.code _ 3⟩
  have hj : (Workers.hosted [1, 0, 2]).jobs =
      .serve (.blockOn ⟨0⟩ (.own (.main [1, 0, 2]))) :: [.resume .done] := rfl
  have hmode : (Workers.hosted [1, 0, 2]).mode = .going .nothing := rfl
  have hfresh : (Workers.hosted [1, 0, 2]).world.loop? ⟨0⟩ = some (Config.build .default) := rfl
  obtain ⟨n, r, tasks, -, hblocked, hpending, hspawned, hnodup, hcounts, hbegun⟩ :=
    segments_run_in_rounds hm hj hmode rfl hfresh rfl (Workers.forall₂_segments [1, 0, 2])
      fun k => Workers.spawnsAll_spawn rfl
  obtain ⟨t₁, t₂, t₃, rfl⟩ : ∃ t₁ t₂ t₃, tasks = [(t₁, 1), (t₂, 0), (t₃, 2)] :=
    match tasks, hcounts with
    | [(t₁, _), (t₂, _), (t₃, _)], rfl => ⟨t₁, t₂, t₃, rfl⟩
  exact ⟨n, r, t₁, t₂, t₃, hnodup, hblocked, hpending, hspawned, hbegun⟩

end Machine

end RunLoop
