import RunLoop.Proofs.Abreast
import RunLoop.Proofs.Names
import RunLoop.Proofs.Play

/-!
# Failures are isolated

Nobody waits for a task that was started. If it fails, the handler of its loop is told, and that is
all that comes of it: the program goes on as it would have gone on if the task had been ready with a
value, or had failed in another way.

* `Machine.withMode`: a machine whose last step ended in another way.
* `Akin.twins_of_outcomes`: after the last poll of a started task, however it ends, the machines are
  twins.
* `Machine.started_failure_isolated`: so the runs from there on agree about everything but what is
  told of the task.
-/

namespace RunLoop

variable {G : Guest}

section

variable {code : G.Code} {veil : Veil code} {i : Issue} {m : Machine G} {l : LoopId}
  {p : List (Machine G)}

open Machine

/-! ## Runs from the start -/

theorem twins_start (shared : G.Shared) {run : G.Run} (hrun : veil.Public run) :
    Twins veil i #[] #[] (start shared run) (start shared run) where
  world := ⟨.empty, World.eq_after _, World.eq_after _⟩
  shared := veil.same.refl _
  count := rfl
  waiting := rfl
  ended := rfl
  clock := rfl
  fresh := nofun
  parked := .nil
  running := ⟨rfl, _, _, _, .plain, .plain, .cons (.same _) .nil,
    List.forall_mem_singleton.mpr (by simpa using hrun)⟩

/-- Where nothing is at issue, a thread is like itself, whatever is at issue next. -/
theorem Alike.self {q q' : Parked G} (h : Alike veil i q q') (hi : i.left = none) (i' : Issue) :
    Alike veil i' q q := by
  obtain ⟨μ, jobs, _, shows, _, _, ho⟩ := h.shown
  rw [hi] at shows
  exact ⟨rfl, μ, jobs, jobs, shows.of_none _, shows.of_none _, forall₂_like i' jobs, ho⟩

theorem forall₂_self {α : Type} {R S : α → α → Prop} (hr : ∀ a b, R a b → S a a) {as bs : List α}
    (h : List.Forall₂ R as bs) : List.Forall₂ S as as := by
  induction h with
  | nil => exact .nil
  | cons hab _ ih => exact .cons (hr _ _ hab) ih

/-- A machine in which the public sees something happen next is its own twin, and its running thread
does nothing unseen. -/
theorem Machine.Walk.akin_self {shared : G.Shared} {run : G.Run} (hrun : veil.Public run)
    (handlers : ∀ x, veil.Hushes x ∨ ∀ e, veil.Public (code.handle x e))
    (walk : Walk code (start shared run) p m) (hσ : m.milestones ≠ []) (i : Issue) :
    Akin veil i m.world.journal m.world.journal m m := by
  have hstart := sound_start shared run
  -- compare the run with itself while nothing is at issue
  have hself : Twins veil ⟨i.loop, i.slot, none, none⟩ #[] #[] (start shared run)
      (start shared run) := twins_start shared hrun
  obtain ⟨p', i₁, m', goes⟩ := Twins.walk hself hstart hstart handlers
    (fun hdue => absurd rfl (hdue.elim id id)) walk
  have twins := goes.twins
  obtain ⟨-, -, hleft, -⟩ := (goes.abreast _ [] [] .here).issue
  have hleft : i₁.left = none := hleft.elim id id
  obtain ⟨μ, jobs, _, shows, _, _, ho⟩ := twins.running.shown
  rw [hleft] at shows
  -- with anything unseen on top of the stack, nothing would be seen to happen next
  rcases shows.next (fun hne => absurd rfl hne) with ⟨-, hj⟩ | ⟨_, -, unseen, -⟩
  · exact {
      world := ⟨m.world.view, World.eq_after _, World.eq_after _⟩
      shared := veil.same.refl _
      count := rfl
      waiting := rfl
      ended := rfl
      clock := rfl
      fresh := twins.fresh
      parked := forall₂_self (fun q q' h => h.self hleft i) twins.parked
      mode := rfl
      jobs := forall₂_like i m.jobs
      isOpen := hj ▸ ho }
  · exact absurd unseen.milestones hσ

/-! ## The last poll of a task -/

/-- Whether nothing is left of a future. -/
def Future.isSpent {C : Type} : Future C → Bool
  | spent => true
  | _ => false

/-- The machine as it would be, had the last step left its stack in another mode. -/
def Machine.withMode (m : Machine G) (mode : Mode G) : Machine G :=
  { m with mode }

/-- What there is to be dropped after the last poll of a task. -/
def Machine.remnant (m : Machine G) : List (Future G.Coroutine) :=
  m.leftover.filter (!·.isSpent)

/-- What the last poll left is dropped next, and then its outcome is handed over. -/
theorem step_of_outcome (code : G.Code) {slot : Nat} {kind : Kind} {o : Joined}
    {rest : List (Job G)} (hj : m.jobs = .taskPolled l slot kind :: rest)
    (ho : m.mode.outcome? = some o) :
    m.step code = { m with
      mode := .going .nothing
      jobs := m.leftover.map .drop ++ .taskEnded l slot kind o :: rest } ∧
    m.leftover.length ≤ 1 := by
  unfold leftover
  cases hmode : m.mode with
  | aborted => simp [hmode, Mode.outcome?] at ho
  | unwinding p r =>
    rw [hmode] at ho
    obtain rfl := Option.some.inj ho
    rw [step_of_unwinding hj hmode]
    refine ⟨?_, ?_⟩
    · simp [unwind, push, Machine.insert, Machine.go]
    · cases r <;> simp
  | going a =>
    rw [hmode] at ho
    have hw : m.mustWait (.taskPolled l slot kind) = false := rfl
    rw [step_of_going hj hmode hw]
    cases hp : a.toPoll with
    | pending f => simp [Mode.outcome?, hp] at ho
    | ready r f =>
      obtain rfl : .ok r = o := by simpa [Mode.outcome?, hp] using ho
      simp [perform, taskPolled, hp, push, Machine.insert, Machine.go]

/-- What is left of a future that is spent is dropped unseen. -/
theorem shows_leftover (veil : Veil code) {d : Option Joined} {fs : List (Future G.Coroutine)}
    (hlen : fs.length ≤ 1) (job : Job G) (jobs : List (Job G)) :
    Shows veil l d (.going .nothing) ((fs.filter (!·.isSpent)).map .drop ++ job :: jobs)
      (.going .nothing) (fs.map .drop ++ job :: jobs) := by
  match fs, hlen with
  | [], _ => exact .plain
  | [.spent], _ => exact .spent
  | [.own _], _ | [.nested _], _ | [.forwarding _], _ => exact .plain

theorem sound_of_outcome (code : G.Code) {slot : Nat} {kind : Kind} {o : Joined} {μ : Mode G}
    {rest : List (Job G)} (hs : m.Sound) (hj : m.jobs = .taskPolled l slot kind :: rest)
    (ho : μ.outcome? = some o) : ((m.withMode μ).step code).Sound := by
  -- a panic is no danger to the stack here: the end of a poll stops it
  have hs' : (m.withMode μ).Sound := by
    refine ⟨fun q hq => ?_, hs.once⟩
    rcases List.mem_cons.mp hq with rfl | hq
    · have h := hs.strands _ List.mem_cons_self
      refine ⟨h.stacked, fun p r _ => ?_, h.current⟩
      simp only [withMode, hj]
      rfl
    · exact hs.strands q (List.mem_cons_of_mem _ hq)
  have hi : (m.withMode μ).isIdle = false := by
    cases μ <;> simp [withMode, isIdle, hj, mustWait]
  have live : (m.withMode μ).isAborted = false := by
    cases μ with
    | aborted => cases ho
    | going | unwinding => rfl
  exact (Walk.here.act hi live).sound hs'

/-- However the last poll of a task ends, the machines are twins after it. -/
theorem Akin.twins_of_outcomes {slot : Nat} {o o' : Joined} {μ μ' : Mode G}
    {J : Array (Line G)} (h : Akin veil ⟨l, slot, some o, some o'⟩ J J m m) {rest : List (Job G)}
    (hj : m.jobs = .taskPolled l slot .detached :: rest) (ho : μ.outcome? = some o)
    (ho' : μ'.outcome? = some o')
    (hleft : (m.withMode μ).remnant = (m.withMode μ').remnant) :
    Twins veil ⟨l, slot, some o, some o'⟩ J J ((m.withMode μ).step code)
      ((m.withMode μ').step code) := by
  obtain ⟨hstep, hlen⟩ := step_of_outcome code (m := m.withMode μ) hj ho
  obtain ⟨hstep', hlen'⟩ := step_of_outcome code (m := m.withMode μ') hj ho'
  rw [hstep, hstep']
  have shows := shows_leftover veil (l := l) (d := some o) hlen
    (.taskEnded l slot .detached o) rest
  have shows' := shows_leftover veil (l := l) (d := some o') hlen'
    (.taskEnded l slot .detached o') rest
  rw [remnant, remnant] at hleft
  rw [← hleft] at shows'
  obtain ⟨-, hrest⟩ := List.forall_mem_cons.mp (hj ▸ h.isOpen)
  refine { h with running := ⟨rfl, _, _, _, shows, shows', ?_, ?_⟩ }
  · refine List.rel_append (forall₂_like _ _) (.cons ?_ (forall₂_like _ rest))
    exact .ended (i := ⟨l, slot, some o, some o'⟩) rfl rfl
  · refine List.forall_mem_append.mpr ⟨List.forall_mem_map.mpr fun f _ => ?_, ?_⟩
    · simp
    · exact List.forall_mem_cons.mpr ⟨by simp, hrest⟩

end

namespace Machine

variable {code : G.Code} {veil : Veil code} {m : Machine G} {before : List (Machine G)} {l : LoopId}
  {slot : Nat}

/-- **The failure of a started task is isolated.** A run from the start comes to `m`, where the last
poll of a started task has just ended. How it ended is replaced by `μ` in one run and by `μ'` in
another: the task was ready with a value or with an error, or it panicked, and the same is left of
its future to be dropped. The public does not notice the handler of the task's loop, even where that
panics; any other handler is not noticed either, or is public. Then

* whatever run there is from here on in one case, with the threads taking turns in any way, there is
  one in the other case that agrees with it;
* the runs in which the threads take the turns that the machine gives them agree as well.

To agree is to take the same steps in the same order, each with the same effect and with the same
answer to the code that runs, but for the report of this failure and for handlers at work: the same
entries are processed, every other task has the same polls and comes to the same, every main future
has the same result, and the same objects are left, with every queue and table, and what the guest
shares but for what is hidden. As the same is left to be done on all threads, neither a panic of the
task nor one of the handler gets any further. The two cases may be exchanged. -/
theorem started_failure_isolated {shared : G.Shared} {run : G.Run} (hrun : veil.Public run)
    (handlers : ∀ x, veil.Hushes x ∨ ∀ e, veil.Public (code.handle x e))
    (hm : Walk code (start shared run) before m) {last : Joined}
    (hlast : .ended l slot .detached last ∈ m.milestones) (discreet : m.Discreet veil l)
    {μ μ' : Mode G} {o o' : Joined} (ho : μ.outcome? = some o) (ho' : μ'.outcome? = some o')
    (hleft : (m.withMode μ).remnant = (m.withMode μ').remnant) :
    (∀ p m₁, Walk code ((m.withMode μ).step code) p m₁ →
      ∃ p' m₁', Walk code ((m.withMode μ').step code) p' m₁' ∧
        Agree veil ⟨l, slot, some o, some o'⟩ p p' m₁ m₁') ∧
    ∀ n, ∃ n', Agree veil ⟨l, slot, some o, some o'⟩
      (((m.withMode μ).step code).trace code n).1
      (((m.withMode μ').step code).trace code n').1
      (((m.withMode μ).step code).trace code n).2
      (((m.withMode μ').step code).trace code n').2 := by
  have hσ : m.milestones ≠ [] := List.ne_nil_of_mem hlast
  obtain ⟨rest, hj, -⟩ := polled_of_ended hlast
  have hsound := hm.sound (sound_start shared run)
  have akin := hm.akin_self hrun handlers hσ ⟨l, slot, some o, some o'⟩
  have twins := (akin.twins_of_outcomes hj ho ho' hleft).rebase
  have hstep := (step_of_outcome code (m := m.withMode μ) hj ho).1
  have hstep' := (step_of_outcome code (m := m.withMode μ') hj ho').1
  have discreet' : ((m.withMode μ).step code).Discreet veil l := by
    rw [hstep]
    exact discreet
  have hwaits : WaitAlike ((m.withMode μ).step code) ((m.withMode μ').step code) := by
    rw [hstep, hstep']
    exact List.forall₂_same.mpr fun _ _ => rfl
  have hs := sound_of_outcome code hsound hj ho
  have hs' := sound_of_outcome code hsound hj ho'
  constructor
  · intro p m₁ walk
    obtain ⟨p', i, m₁', goes⟩ := twins.walk hs hs' handlers (fun _ => discreet') walk
    exact ⟨p', m₁', goes.walk, goes.agree⟩
  · intro n
    obtain ⟨n', i, goes, -⟩ := twins.trace hwaits hs hs' handlers (fun _ => discreet') n
    exact ⟨n', goes.agree⟩

/-- A task of which the end is told came to an end. -/
theorem exists_ended {σ : List Milestone} {kind : Kind}
    (h : (slot, kind) ∈ (σ.filterMap (Milestone.ended? l)).map fun e => (e.1, e.2.1)) :
    ∃ o, .ended l slot kind o ∈ σ := by
  obtain ⟨⟨_, _, o⟩, hmem, ⟨⟩⟩ := List.mem_map.mp h
  obtain ⟨e, he, heq⟩ := List.mem_filterMap.mp hmem
  cases e with
  | ended l' =>
    obtain ⟨rfl, rfl, rfl, rfl⟩ : l' = l ∧ _ := by simpa [Milestone.ended?] using heq
    exact ⟨_, he⟩
  | _ => cases heq

end Machine

/-! ## Scripts -/

namespace Script

/-- What is hidden from scripts is in what order a registry keeps the names. -/
def veil : Veil code where
  Same := Registry.Same
  Public _ := True
  same := Registry.same_equivalence
  poll _ _ := trivial
  drop _ := trivial
  call _ := trivial
  discard _ := trivial
  unwind _ _ := trivial
  closed _ _ _ _ _ _ := trivial
  blind scene a _ h := step_same h scene _ a

/-- A handler that does nothing but panic is not noticed. -/
theorem hushes_of_panic (who : String) (heading : Heading) (panic : Payload) :
    veil.Hushes ⟨who, [.single heading (.panic panic)]⟩ := by
  have same : ∀ (scene : Scene guest) (r : Registry), r.Same (r.turnTo scene.world.thread.id) :=
    fun scene r => r.same_turnTo scene.world.thread.id
  intro e
  refine .proceed (by simp) same (fun _ _ => rfl) ?_
  refine .raise (by simp) same (fun _ _ => rfl) ?_
  refine .finish ?_ same (fun _ _ => rfl) ?_
  · simp [Job.isLeave]
  · exact .propagate (by simp) (.finished (by simp))

/-- Whether a handler does nothing but panic. -/
def Handler.panics (h : Handler) : Bool :=
  match h.body with
  | [.single _ (.panic _)] => true
  | _ => false

theorem Handler.hushes {h : Handler} (hh : h.panics = true) : veil.Hushes h := by
  obtain ⟨who, body⟩ := h
  match body, hh with
  | [.single heading (.panic panic)], _ => exact hushes_of_panic who heading panic

/-- A script whose tasks fail, on a loop whose handler panics, up to the last poll of its first
task. -/
def lastPoll : List (Machine guest) × Machine guest :=
  follow Machine.failingWork 65

/-- The first `n` steps after that poll, had it ended in `mode`. -/
def afterLastPoll (mode : Mode guest) (n : Nat) : List (Machine guest) × Machine guest :=
  ((lastPoll.2.withMode mode).step code).trace code n

end Script

namespace Machine

open Script

/-- Had the first task been ready where it panicked, the main future would have come to its end
after the same steps. The handler is told of two failures here; the other one is that of another
task. -/
theorem started_failure_isolated_of_script : ∃ n,
    Agree Script.veil
      ⟨⟨0⟩, 0, some (.error Payload.other.toError), some (.ok (.ok .null))⟩
      (afterLastPoll (.unwinding .other none) 60).1
      (afterLastPoll (.going (.polled (.ready (.ok .null) .spent))) n).1
      (afterLastPoll (.unwinding .other none) 60).2
      (afterLastPoll (.going (.polled (.ready (.ok .null) .spent))) n).2 ∧
    ((afterLastPoll (.unwinding .other none) 60).1.filterMap (result? ⟨0⟩)).length = 1 ∧
    ((afterLastPoll (.unwinding .other none) 60).1.flatMap (calls · ⟨0⟩)).length = 2 := by
  have hlast : (lastPoll.2.milestones.filterMap (Milestone.ended? ⟨0⟩)).map
      (fun e => (e.1, e.2.1)) = [(0, .detached)] := by decide +kernel
  have hsome : (lastPoll.2.world.handler? ⟨0⟩).join.any Handler.panics = true := by decide +kernel
  obtain ⟨o, hmem⟩ := exists_ended (hlast ▸ List.mem_singleton_self _)
  obtain ⟨h, hh, hpanics⟩ := (Option.any_eq_true _ _).mp hsome
  have discreet : lastPoll.2.Discreet Script.veil ⟨0⟩ := by
    refine ⟨some h, Option.join_eq_some_iff.mp hh, ?_⟩
    rintro _ ⟨⟩
    exact Handler.hushes hpanics
  have before : Walk code (start Registry.empty (Run.script failingWork)) lastPoll.1
      lastPoll.2 := walk_trace code _ 65
  have panicked : (Mode.unwinding .other none : Mode guest).outcome? =
      some (.error Payload.other.toError) := rfl
  have ready : (Mode.going (.polled (.ready (.ok .null) .spent)) : Mode guest).outcome? =
      some (.ok (.ok .null)) := rfl
  have hrun : Script.veil.Public (Run.script failingWork) := trivial
  obtain ⟨n, hn⟩ := (started_failure_isolated hrun (fun _ => .inr fun _ => trivial) before hmem
    discreet panicked ready rfl).2 60
  exact ⟨n, hn, by decide +kernel, by decide +kernel⟩

end Machine

end RunLoop
