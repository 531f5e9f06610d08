import RunLoop.Proofs.Failures
import RunLoop.Proofs.Journal

/-!
# What nobody sees

Code may do things that no other code sees: it looks around, computes, writes into the journal, and
keeps notes for itself. A handler of failures that does nothing else can be told of a failure more
or less, and the rest of the program does not learn of it.

* `Veil` says what is hidden of what the guest shares, and from which code.
* `Veil.Hushed` code comes to its end, or panics, without anything that the public sees.
* `Shows` says what is seen of a stack, while a report goes on at its top.
* `Shows.next` and `Shows.settle`: what is not seen comes to its end.
-/

namespace RunLoop

variable {G : Guest}

/-! ## Public code -/

/-- The code that a request brings. -/
@[simp]
def Request.runs : Request G → List G.Run
  | run r | guarded r | thread r | background r _ => [r]
  | _ => []

/-- The code that waits on a stack. -/
@[simp]
def Job.runs : Job G → List G.Run
  | resume r => [r]
  | serve q => q.runs
  | _ => []

/-- The code that goes on after a step. -/
@[simp]
def Act.runs : Act G → List G.Run
  | request q r => r :: q.runs
  | proceed r | raise _ r => [r]
  | finish _ => []

/-- A part of what the guest shares is hidden: code that is `Public` does the same whatever is
there, and all code that it brings about is public. -/
structure Veil (code : G.Code) where
  /-- States that differ in the hidden part only. -/
  Same : G.Shared → G.Shared → Prop
  Public : G.Run → Prop
  same : Equivalence Same
  poll (c : G.Coroutine) (k : WakerId) : Public (code.poll c k)
  drop (c : G.Coroutine) : Public (code.drop c)
  call (c : G.Callback) : Public (code.call c)
  discard (c : G.Callback) : Public (code.discard c)
  unwind {run : G.Run} (f : Option (Future G.Coroutine)) (h : Public run) :
    Public (code.unwind run f)
  closed {run : G.Run} (scene : Scene G) (s : G.Shared) (a : Answer G) (h : Public run) :
    ∀ r ∈ (code.step scene s run a).act.runs, Public r
  blind {run : G.Run} {s s' : G.Shared} (scene : Scene G) (a : Answer G) (h : Public run)
    (hs : Same s s') :
    (code.step scene s run a).act = (code.step scene s' run a).act ∧
      (code.step scene s run a).notes = (code.step scene s' run a).notes ∧
      Same (code.step scene s run a).shared (code.step scene s' run a).shared

namespace Veil

variable {code : G.Code} (veil : Veil code)

/-- All code that waits in a job is public. -/
@[simp]
def Open (job : Job G) : Prop :=
  ∀ r ∈ job.runs, veil.Public r

/-! ## Hushed code -/

/-- In the next step of `m` the public sees nothing happen. -/
structure Unseen (m : Machine G) : Prop where
  awake : m.isIdle = false
  live : m.isAborted = false
  happenings : m.happenings = []
  milestones : m.milestones = []
  view : (m.step code).world.view = m.world.view
  shared : veil.Same m.shared (m.step code).shared
  threads : (m.step code).threads = m.threads

/-- With `jobs` on top of a stack that is worked on in `mode`, the public sees nothing happen, in
any circumstances, until they are done, or a panic has taken them away. -/
inductive Hushed : Mode G → List (Job G) → Prop where
  | finished {mode} (h : mode ≠ .aborted) : Hushed mode []
  | step {mode jobs} (hl : ∀ i ∈ jobs, ∀ l, i.isLeave l = false)
      (unseen : ∀ (m : Machine G) rest, m.mode = mode → m.jobs = jobs ++ rest →
        veil.Unseen m ∧ ∃ jobs', (m.step code).jobs = jobs' ++ rest)
      (later : ∀ (m : Machine G) rest jobs', m.mode = mode → m.jobs = jobs ++ rest →
        (m.step code).jobs = jobs' ++ rest → Hushed (m.step code).mode jobs') :
      Hushed mode jobs

/-- A handler that the public does not notice, whatever it is told; it may panic. -/
def Hushes (h : G.Handler) : Prop :=
  ∀ e, veil.Hushed (.going .nothing) [.resume (code.handle h e)]

variable {veil}

theorem Hushed.isLeave_eq_false {mode : Mode G} {jobs : List (Job G)} (h : veil.Hushed mode jobs) :
    ∀ i ∈ jobs, ∀ l, i.isLeave l = false := by
  cases h with
  | finished => simp
  | step hl => exact hl

end Veil

/-- Who is told of the failures of a loop. -/
def World.listener? (w : World G) (l : LoopId) : Option G.Handler :=
  (w.handler? l).join

/-! ## What is seen of a stack -/

/-- `Shows veil l due μ jobs mode jobs'`: of a stack `jobs'` that is worked on in `mode` the public
sees `jobs`, worked on in `μ`. Above that a handler may be at work, or about to be told of the
failure of loop `l` that is due. -/
inductive Shows {code : G.Code} (veil : Veil code) (l : LoopId) (due : Option Joined) :
    Mode G → List (Job G) → Mode G → List (Job G) → Prop where
  | plain {mode jobs} : Shows veil l due mode jobs mode jobs
  /-- What is left of a future that came to its end is dropped. -/
  | spent {job jobs} :
      Shows veil l due (.going .nothing) (job :: jobs) (.going .nothing)
        (.drop .spent :: job :: jobs)
  | report {o e job jobs} (hd : due = some o) (he : o.flatten = .error e) :
      Shows veil l due (.going .nothing) (job :: jobs) (.going .nothing)
        (.report l e :: job :: jobs)
  | handling {mode above l' e job jobs} (h : veil.Hushed mode above) :
      Shows veil l due (.going .nothing) (job :: jobs) mode (above ++ .reported l' e :: job :: jobs)

/-- `Sidestep l d m d'`: the next step of `m` is one aside from the public, after which `d'` is left
of what is due to be reported on loop `l`, of `d` before. -/
inductive Sidestep (l : LoopId) : Option Joined → Machine G → Option Joined → Prop where
  | spent {d m rest} (hj : m.jobs = .drop .spent :: rest) : Sidestep l d m d
  | report {o e m rest} (he : o.flatten = .error e) (hj : m.jobs = .report l e :: rest) :
      Sidestep l (some o) m none
  /-- A handler is at work. -/
  | handling {d m above l' e rest} (hl : ∀ i ∈ above, ∀ l, i.isLeave l = false)
      (hj : m.jobs = above ++ .reported l' e :: rest) : Sidestep l d m d

/-- `Sideways veil l m d p d' m'`: steps aside from the public, taken in the machines `p`, lead from
`m` to `m'`. -/
inductive Sideways {code : G.Code} (veil : Veil code) (l : LoopId) :
    Machine G → Option Joined → List (Machine G) → Option Joined → Machine G → Prop where
  | here {m d} : Sideways veil l m d [] d m
  | step {m d d' d'' p m'} (unseen : veil.Unseen m) (side : Sidestep l d m d')
      (rest : Sideways veil l (m.step code) d' p d'' m') : Sideways veil l m d (m :: p) d'' m'

/-- Of what is due on loop `l` the machine `m` leaves `d'` of `d`: a handler is told of the rest,
above `jobs`. -/
def Tells (l : LoopId) (d : Option Joined) (m : Machine G) (jobs : List (Job G))
    (d' : Option Joined) : Prop :=
  d' = d ∨ d' = none ∧ ∃ e, m.jobs = .report l e :: jobs

section

variable {code : G.Code} {veil : Veil code} {l : LoopId} {d d' : Option Joined} {m m' : Machine G}
  {μ mode : Mode G} {job : Job G} {jobs rest above : List (Job G)} {p : List (Machine G)}

open Machine

theorem Shows.exists_append (shows : Shows veil l d μ jobs mode above) :
    ∃ hidden, above = hidden ++ jobs ∧ ∀ l, hidden.any (Job.isLeave l) = false := by
  cases shows with
  | plain => exact ⟨[], rfl, fun _ => rfl⟩
  | spent => exact ⟨[.drop .spent], rfl, fun _ => rfl⟩
  | @report o e => exact ⟨[.report l e], rfl, fun _ => rfl⟩
  | @handling _ above l' e _ _ h =>
    refine ⟨above ++ [.reported l' e], by simp, fun l => ?_⟩
    rw [List.any_append, Bool.or_eq_false_iff]
    exact ⟨List.any_eq_false.mpr fun i hi => by simp [h.isLeave_eq_false i hi l], rfl⟩

theorem Shows.of_none (shows : Shows veil l none μ jobs mode above) (l' : LoopId) :
    Shows veil l' d μ jobs mode above := by
  cases shows with
  | plain => exact .plain
  | spent => exact .spent
  | report hd => cases hd
  | handling h => exact .handling h

/-- A handler that is not noticed begins. -/
theorem Shows.handler {l' : LoopId} {e : Error} {run : G.Run}
    (h : veil.Hushed (.going .nothing) [.resume run]) :
    Shows veil l d (.going .nothing) (job :: jobs) (.going .nothing)
      (.resume run :: .reported l' e :: job :: jobs) :=
  .handling h

theorem Shows.eq_nil_iff (shows : Shows veil l d μ jobs mode above) : above = [] ↔ jobs = [] := by
  cases shows <;> simp

/-! ### Steps aside -/

theorem unseen_of_going {a : Answer G} {w : World G} {s : G.Shared} (hmode : m.mode = .going a)
    (hj : m.jobs = job :: rest) (hw : m.mustWait job = false) (hη : m.performed a job = [])
    (hσ : m.world.told a job = [])
    (hp : { m with jobs := rest }.perform code a job = ⟨w, s, m.threads, mode, jobs⟩)
    (hview : w.view = m.world.view) (hs : veil.Same m.shared s) :
    veil.Unseen m ∧ (m.step code).mode = mode ∧ (m.step code).jobs = jobs := by
  have hstep : m.step code = _ := (step_of_going hj hmode hw).trans hp
  have hη' : m.happenings = [] := by
    unfold happenings
    simp only [hj, hmode]
    exact hη
  refine ⟨⟨?_, ?_, hη', ?_, ?_, ?_, ?_⟩, ?_, ?_⟩
  · simpa [isIdle, hj, hmode] using hw
  · simp [isAborted, hmode]
  · simpa [milestones, hj, hmode] using hσ
  · rw [hstep]
    exact hview
  · rw [hstep]
    exact hs
  all_goals rw [hstep]

theorem unseen_of_unwinding {panic : Payload} {r : Option (Future G.Coroutine)} {w : World G}
    (hmode : m.mode = .unwinding panic r) (hj : m.jobs = job :: rest) (hη : m.happenings = [])
    (hσ : m.world.toldOfPanic panic job = [])
    (hp : { m with jobs := rest }.unwind code panic r job = ⟨w, m.shared, m.threads, mode, jobs⟩)
    (hview : w.view = m.world.view) :
    veil.Unseen m ∧ (m.step code).mode = mode ∧ (m.step code).jobs = jobs := by
  have hstep : m.step code = _ := (step_of_unwinding hj hmode).trans hp
  refine ⟨⟨?_, ?_, hη, ?_, ?_, ?_, ?_⟩, ?_, ?_⟩
  · simp [isIdle, hj, hmode]
  · simp [isAborted, hmode]
  · simpa [milestones, hj, hmode] using hσ
  · rw [hstep]
    exact hview
  · rw [hstep]
    exact veil.same.refl _
  all_goals rw [hstep]

/-! ### Code that is hushed -/

/-- A job is hushed of which the public sees nothing, if what comes of it is hushed. -/
theorem Veil.Hushed.of_perform (above : List (Job G)) {a : Answer G}
    (hw : ∀ m : Machine G, m.mustWait job = false)
    (hη : ∀ m : Machine G, m.performed a job = []) (hσ : ∀ w : World G, w.told a job = [])
    (hp : ∀ m : Machine G, ∃ w s, m.perform code a job = ⟨w, s, m.threads, mode, above ++ m.jobs⟩ ∧
      w.view = m.world.view ∧ veil.Same m.shared s)
    (hl : ∀ i ∈ job :: jobs, ∀ l, i.isLeave l = false)
    (later : veil.Hushed mode (above ++ jobs)) : veil.Hushed (.going a) (job :: jobs) := by
  have next : ∀ (m : Machine G) rest, m.mode = .going a → m.jobs = job :: jobs ++ rest →
      veil.Unseen m ∧ (m.step code).mode = mode ∧ (m.step code).jobs = above ++ jobs ++ rest := by
    intro m rest hmode hj
    obtain ⟨w, s, hstep, hview, hs⟩ := hp { m with jobs := jobs ++ rest }
    rw [← List.append_assoc] at hstep
    exact unseen_of_going hmode hj (hw m) (hη m) (hσ _) hstep hview hs
  refine .step hl ?_ ?_
  · intro m rest hmode hj
    obtain ⟨unseen, -, hj'⟩ := next m rest hmode hj
    exact ⟨unseen, _, hj'⟩
  · intro m rest jobs' hmode hj hj'
    obtain ⟨-, hmode', hj''⟩ := next m rest hmode hj
    rw [hmode', ← List.append_cancel_right (hj''.symm.trans hj')]
    exact later

theorem World.view_note (w : World G) (notes : List G.Note) : (w.note notes).view = w.view := by
  unfold note
  induction notes generalizing w with
  | nil => rfl
  | cons n notes ih => exact ih (w.write (.note n))

section

variable {run run' : G.Run} {a b : Answer G} (hl : ∀ i ∈ jobs, ∀ l, i.isLeave l = false)
  (hs : ∀ scene s, veil.Same s (code.step scene s run a).shared)

include hl hs

/-- Running code is hushed if it keeps to itself, and what it goes on with is hushed. -/
theorem Veil.Hushed.resume (above : List (Job G))
    (hp : ∀ m : Machine G, m.advance code run a =
      ⟨m.world.note (code.step m.scene m.shared run a).notes,
        (code.step m.scene m.shared run a).shared, m.threads, mode, above ++ m.jobs⟩)
    (later : veil.Hushed mode (above ++ jobs)) : veil.Hushed (.going a) (.resume run :: jobs) := by
  refine .of_perform above (fun _ => rfl) (fun _ => rfl) (fun _ => rfl) ?_
    (List.forall_mem_cons.mpr ⟨fun _ => rfl, hl⟩) later
  intro m
  exact ⟨_, _, hp m, World.view_note m.world _, hs m.scene m.shared⟩

theorem Veil.Hushed.proceed (hact : ∀ scene s, (code.step scene s run a).act = .proceed run')
    (later : veil.Hushed (.going .nothing) (.resume run' :: jobs)) :
    veil.Hushed (.going a) (.resume run :: jobs) := by
  refine .resume hl hs [.resume run'] (fun m => ?_) later
  simp only [advance, hact]
  rfl

theorem Veil.Hushed.finish (hact : ∀ scene s, (code.step scene s run a).act = .finish b)
    (later : veil.Hushed (.going b) jobs) : veil.Hushed (.going a) (.resume run :: jobs) := by
  refine .resume hl hs [] (fun m => ?_) later
  simp only [advance, hact]
  rfl

theorem Veil.Hushed.raise {p : Payload}
    (hact : ∀ scene s, (code.step scene s run a).act = .raise p run')
    (later : veil.Hushed (.going .nothing)
      (.resume (code.unwind run' none) :: .propagate p :: jobs)) :
    veil.Hushed (.going a) (.resume run :: jobs) := by
  refine .resume hl hs [.resume (code.unwind run' none), .propagate p] (fun m => ?_) later
  simp only [advance, hact]
  rfl

end

theorem Veil.Hushed.propagate {p : Payload} {a : Answer G}
    (hl : ∀ i ∈ jobs, ∀ l, i.isLeave l = false)
    (later : veil.Hushed (.unwinding p a.toRemains) jobs) :
    veil.Hushed (.going a) (.propagate p :: jobs) :=
  .of_perform [] (fun _ => rfl) (fun _ => rfl) (fun _ => rfl)
    (fun m => ⟨m.world, m.shared, rfl, rfl, veil.same.refl _⟩)
    (List.forall_mem_cons.mpr ⟨fun _ => rfl, hl⟩) later

/-! ### Reports -/

theorem unseen_of_reported (veil : Veil code) {l' : LoopId} {e : Error} (hmode : m.mode ≠ .aborted)
    (hj : m.jobs = .reported l' e :: rest) :
    veil.Unseen m ∧ (m.step code).mode = .going .nothing ∧ (m.step code).jobs = rest := by
  cases hm : m.mode with
  | aborted => exact absurd hm hmode
  | going a => exact unseen_of_going hm hj rfl rfl rfl rfl rfl (veil.same.refl _)
  | unwinding panic r =>
    have hη : m.happenings = [] := by
      unfold happenings
      simp only [hj, hm]
    exact unseen_of_unwinding hm hj hη rfl rfl rfl

theorem listener?_eq (w : World G) : (w.loop? l).bind (·.handler) = w.listener? l := by
  unfold World.listener? World.handler?
  cases w.loop? l <;> rfl

/-- A handler is told of a failure, or nobody is. -/
theorem unseen_of_report (veil : Veil code) {e : Error} (hmode : m.mode = .going .nothing)
    (hj : m.jobs = .report l e :: rest) :
    veil.Unseen m ∧ (m.step code).mode = .going .nothing ∧
      (m.step code).jobs = ((m.world.listener? l).toList.flatMap fun h =>
        [.resume (code.handle h e), .reported l e]) ++ rest := by
  cases hl : m.world.listener? l with
  | none =>
    refine unseen_of_going hmode hj rfl rfl rfl ?_
      (w := m.world.emit (.unhandled (m.world.loopName l) e)) rfl (veil.same.refl _)
    simp only [perform, report, listener?_eq, hl]
    rfl
  | some h =>
    refine unseen_of_going hmode hj rfl rfl rfl ?_ rfl (veil.same.refl _)
    simp only [perform, report, listener?_eq, hl]
    rfl

theorem unseen_of_spent (veil : Veil code) (hmode : m.mode = .going .nothing)
    (hj : m.jobs = .drop .spent :: rest) :
    veil.Unseen m ∧ (m.step code).mode = .going .nothing ∧ (m.step code).jobs = rest :=
  unseen_of_going hmode hj rfl rfl rfl rfl rfl (veil.same.refl _)

/-- What is not seen goes on, as long as there is any of it. -/
theorem Shows.next (shows : Shows veil l d μ jobs m.mode m.jobs)
    (hears : d ≠ none → ∀ h, m.world.listener? l = some h → veil.Hushes h) :
    (m.mode = μ ∧ m.jobs = jobs) ∨ ∃ d', Sidestep l d m d' ∧ veil.Unseen m ∧
      Shows veil l d' μ jobs (m.step code).mode (m.step code).jobs ∧ Tells l d m jobs d' := by
  generalize hmode : m.mode = mode at shows
  generalize hj : m.jobs = above at shows
  cases shows with
  | plain => exact .inl ⟨rfl, rfl⟩
  | spent =>
    obtain ⟨unseen, hmode', hj'⟩ := unseen_of_spent veil hmode hj
    rw [hmode', hj']
    exact .inr ⟨d, .spent hj, unseen, .plain, .inl rfl⟩
  | @report o e _ _ hd he =>
    subst hd
    obtain ⟨unseen, hmode', hj'⟩ := unseen_of_report veil hmode hj
    refine .inr ⟨none, .report he hj, unseen, ?_, .inr ⟨rfl, e, hj⟩⟩
    rw [hmode', hj']
    cases hl : m.world.listener? l with
    | none => exact .plain
    | some h => exact .handler (hears nofun h hl e)
  | @handling _ above l' e _ _ h =>
    have hside : Sidestep l d m d := .handling h.isLeave_eq_false hj
    cases h with
    | finished h =>
      obtain ⟨unseen, hmode', hj'⟩ := unseen_of_reported veil (hmode ▸ h) hj
      rw [hmode', hj']
      exact .inr ⟨d, hside, unseen, .plain, .inl rfl⟩
    | step hl unseen later =>
      obtain ⟨hunseen, jobs', hj'⟩ := unseen m _ hmode hj
      rw [hj']
      exact .inr ⟨d, hside, hunseen, .handling (later m _ jobs' hmode hj hj'), .inl rfl⟩

/-- A handler that is not noticed comes to its end. -/
theorem Veil.Hushed.settle {l' : LoopId} {e : Error} (h : veil.Hushed mode above)
    (hmode : m.mode = mode) (hj : m.jobs = above ++ .reported l' e :: rest) :
    ∃ p m', Sideways veil l m d p d m' ∧ m'.mode = .going .nothing ∧ m'.jobs = rest := by
  induction h generalizing m with
  | finished h =>
    obtain ⟨unseen, hmode', hj'⟩ := unseen_of_reported veil (hmode ▸ h) hj
    have hside : Sidestep l d m d := .handling (List.forall_mem_nil _) hj
    exact ⟨_, _, .step unseen hside .here, hmode', hj'⟩
  | step hl unseen later ih =>
    obtain ⟨hunseen, jobs', hj'⟩ := unseen m _ hmode hj
    obtain ⟨p, m', path, hm'⟩ := ih m _ jobs' hmode hj hj' rfl hj'
    exact ⟨_, m', .step hunseen (.handling hl hj) path, hm'⟩

/-- What is not seen comes to its end. -/
theorem Shows.settle (shows : Shows veil l d μ jobs m.mode m.jobs)
    (hears : d ≠ none → ∀ h, m.world.listener? l = some h → veil.Hushes h) :
    ∃ p d' m', Sideways veil l m d p d' m' ∧ m'.mode = μ ∧ m'.jobs = jobs ∧
      Tells l d m jobs d' := by
  generalize hmode : m.mode = mode at shows
  generalize hj : m.jobs = above at shows
  cases shows with
  | plain => exact ⟨[], d, m, .here, hmode, hj, .inl rfl⟩
  | spent =>
    obtain ⟨unseen, hmode', hj'⟩ := unseen_of_spent veil hmode hj
    exact ⟨[m], d, _, .step unseen (.spent hj) .here, hmode', hj', .inl rfl⟩
  | handling h =>
    obtain ⟨p, m', path, hmode', hj'⟩ := h.settle hmode hj
    exact ⟨p, d, m', path, hmode', hj', .inl rfl⟩
  | @report o e _ _ hd he =>
    subst hd
    obtain ⟨unseen, hmode', hj'⟩ := unseen_of_report veil hmode hj
    cases hl : m.world.listener? l with
    | none =>
      rw [hl] at hj'
      exact ⟨[m], none, _, .step unseen (.report he hj) .here, hmode', hj', .inr ⟨rfl, e, hj⟩⟩
    | some h =>
      rw [hl] at hj'
      obtain ⟨p, m', path, hmode', hj'⟩ := (hears nofun h hl e).settle hmode' hj'
      exact ⟨m :: p, none, m', .step unseen (.report he hj) path, hmode', hj', .inr ⟨rfl, e, hj⟩⟩

/-! ### Paths aside -/

theorem Sideways.walk (path : Sideways veil l m d p d' m') : Walk code m p m' := by
  induction path with
  | here => exact .here
  | step unseen _ _ ih => exact (Walk.here.act unseen.awake unseen.live).trans ih

theorem Sideways.quiet (path : Sideways veil l m d p d' m') :
    p.flatMap happenings = [] ∧ story p = [] := by
  induction path with
  | here => exact ⟨rfl, rfl⟩
  | step unseen _ _ ih =>
    rw [story, List.flatMap_cons, List.flatMap_cons, unseen.happenings, unseen.milestones]
    exact ih

theorem Sideways.unchanged (path : Sideways veil l m d p d' m') :
    m'.world.view = m.world.view ∧ veil.Same m.shared m'.shared ∧ m'.threads = m.threads := by
  induction path with
  | here => exact ⟨rfl, veil.same.refl _, rfl⟩
  | step unseen _ _ ih =>
    obtain ⟨hview, hsame, hthreads⟩ := ih
    exact ⟨hview.trans unseen.view, veil.same.trans unseen.shared hsame,
      hthreads.trans unseen.threads⟩

end

end RunLoop
