import RunLoop.Proofs.Chores
import RunLoop.Proofs.HandOffs
import RunLoop.Proofs.Ownership
import RunLoop.Proofs.Wakers

/-!
# Loops of one request

A request that brings its own loop holds it from the moment it was built until it is dropped: it
enters the loop, drives the main future, leaves, and drops the loop, before the result or the panic
is passed on. Since nobody else has a claim on the loop, there is one place on one stack where all
of this stands.

* `Standing` is a place on a stack where a request stands, `Machine.Stands` that it stands there.
* `Machine.Walked.stands_or_drops`: a request stands until its main future came to its one end and
  its loop is dropped.
* `Machine.Walked.ceased_of_close`: when what is below a loop that is dropped is gone on with, all
  tasks of the loop came to their end or were dropped and cancelled.
-/

namespace RunLoop

variable {G : Guest} {l : LoopId}

/-! ## How a main future comes to its end -/

/-- How a main future came to its end. -/
inductive Upshot where
  | result (r : Result)
  | panic (p : Payload)

/-- The job that passes an ending on to whoever asked for it. -/
def Upshot.job : Upshot → Job G
  | result r => .answer (.result r)
  | panic p => .propagate p

/-- What a poll of a main future came to, if it was the last one. -/
def Mode.upshot? : Mode G → Option Upshot
  | going a =>
      match a.toPoll with
      | .ready r _ => some (.result r)
      | .pending _ => none
  | unwinding p _ => some (.panic p)
  | aborted => none

/-- The ending that is passed on from one job to the next. -/
def Mode.passes? : Mode G → Option Upshot
  | going a => some (.result a.toResult)
  | unwinding p _ => some (.panic p)
  | aborted => none

/-- What stands below a main future that is driven on a loop of its own. -/
def frame (l : LoopId) (rest : List (Job G)) : List (Job G) :=
  .restore none :: .leave l :: .owned l :: rest

/-- A job that comes after something was dropped. -/
def Job.awaitsDrop : Job G → Bool
  | answer _ | propagate _ | drain _ _ => true
  | _ => false

/-- Where a request to run `f` on a loop of its own stands on a stack, with the upshots that its
main future came to so far, and the number of its claims on the loop. -/
inductive Standing (l : LoopId) (f : Future G.Coroutine) (rest : List (Job G)) :
    List Upshot → Nat → Parked G → Prop where
  | entering {q a} (hj : q.jobs = .serve (.blockOn l f) :: .owned l :: rest)
      (hmode : q.mode = .going a) : Standing l f rest [] 2 q
  | driving {q drive} (hd : drive.isDrive l = true) (hs : drive :: frame l rest <:+ q.jobs) :
      Standing l f rest [] 2 q
  /-- The main future came to its end, and is being dropped. -/
  | ending {q v} (hs : v.job :: frame l rest <:+ q.jobs) : Standing l f rest [v] 2 q
  | restoring {q v} (hj : q.jobs = frame l rest) (hmode : q.mode.passes? = some v) :
      Standing l f rest [v] 2 q
  | leaving {q v} (hj : q.jobs = .leave l :: .owned l :: rest) (hmode : q.mode.passes? = some v) :
      Standing l f rest [v] 2 q
  | closing {q v} (hj : q.jobs = .owned l :: rest) (hmode : q.mode.passes? = some v) :
      Standing l f rest [v] 1 q
  | dropping {q v a} (hj : q.jobs = .serve (.close l) :: v.job :: rest)
      (hmode : q.mode = .going a) : Standing l f rest [v] 1 q

section

variable {f : Future G.Coroutine} {rest : List (Job G)} {vs : List Upshot} {n : Nat} {q : Parked G}

theorem claimsIn_frame (rest : List (Job G)) : 2 ≤ claimsIn l (frame l rest) := by
  simp [frame, claimsIn_cons, Job.claims]

theorem Standing.claims_le (h : Standing l f rest vs n q) : n ≤ claimsIn l q.jobs := by
  have above : ∀ job, job :: frame l rest <:+ q.jobs → 2 ≤ claimsIn l q.jobs := fun job hs =>
    Nat.le_trans (claimsIn_frame rest)
      (claimsIn_le_of_sublist ((List.suffix_cons _ _).trans hs).sublist)
  cases h with
  | driving _ hs => exact above _ hs
  | ending hs => exact above _ hs
  | entering hj | restoring hj | leaving hj | closing hj | dropping hj =>
    rw [hj]
    simp [frame, claimsIn_cons, Job.claims, Request.takes]

theorem Standing.length_lt (h : Standing l f rest vs n q) : rest.length < q.jobs.length := by
  cases h with
  | driving _ hs | ending hs =>
    have hle := hs.length_le
    simp [frame] at hle
    omega
  | entering hj | restoring hj | leaving hj | closing hj | dropping hj =>
    simp only [hj, frame, List.length_cons]
    omega

theorem Standing.jobs_ne_nil (h : Standing l f rest vs n q) : q.jobs ≠ [] := by
  intro he
  have hlt := h.length_lt
  rw [he] at hlt
  cases hlt

/-- What a stack ends with begins on top of it or below. -/
theorem top_or_below {x : Job G} {jobs below : List (Job G)} (h : x :: below <:+ jobs) :
    jobs = x :: below ∨ ∃ job jobs', jobs = job :: jobs' ∧ x :: below <:+ jobs' := by
  cases jobs with
  | nil => exact absurd (List.suffix_nil.mp h) (List.cons_ne_nil _ _)
  | cons job jobs' =>
    exact (List.suffix_cons_iff.mp h).imp Eq.symm fun hs => ⟨job, jobs', rfl, hs⟩

/-- A main future that is driven above another frame of its loop would be a claim too many. -/
theorem isDrive_eq_false {job x : Job G} {jobs : List (Job G)} (hst : Stacked (job :: jobs))
    (hs : x :: frame l rest <:+ jobs) (hl : x.isLeave l = false)
    (hc : claimsIn l jobs ≤ 2) : job.isDrive l = false := by
  by_contra hd
  obtain ⟨below, rfl, _⟩ := framed_of_isDrive hst (by simpa using hd)
  rcases List.suffix_cons_iff.mp hs with he | hs
  · cases he
  rcases List.suffix_cons_iff.mp hs with he | hs
  · cases he
    simp [Job.isLeave] at hl
  have hbelow := claimsIn_le_of_sublist (l := l) ((List.suffix_cons _ _).trans hs).sublist
  have hframe := claimsIn_frame (l := l) rest
  simp [claimsIn_cons, Job.claims] at hc
  omega

end

/-! ## Loops stay open -/

/-- A loop that is closed in a run was closed by a sign. -/
theorem Fifo.Run.closed_mem {α : Type} {f f₁ : Fifo α} {σ : List (Fifo.Sign α)}
    (run : Fifo.Run Fifo.Lossy f σ f₁) (h : f.phase ≠ .closed) (h₁ : f₁.phase = .closed) :
    .closed ∈ σ := by
  induction run with
  | here => exact absurd h₁ h
  | @step σ s f₁ f₂ run step ih =>
    by_cases hc : f₁.phase = .closed
    · exact List.mem_append_left _ (ih hc)
    · cases step with
      | lose => cases h₁
      | step step => cases step <;> simp_all [Fifo.unbuilt]

namespace Machine

variable {code : G.Code} {m m' : Machine G} {p p' : List (Machine G)} {a : Answer G}
  {t : ThreadId} {rest : List (Job G)} {f : Future G.Coroutine} {τ τ' : List (Happening G)}

/-- A loop is open until it is dropped. -/
theorem History.stays_open (h : History code m τ' m') (hm : Reached code τ m)
    (ho : m.world.isClosed l = false) (hno : .closed l ∉ τ') : m'.world.isClosed l = false := by
  by_contra hc
  have run := h.fifo hm l
  obtain ⟨q, hq, _⟩ := isClosed_eq_false ho
  obtain ⟨e, he, _⟩ := Option.map_eq_some_iff.mp hq
  have hbuilt := run.phase_ne_unbuilt (phase_of_loop (by simp [he]))
  rw [fifo_eq] at hbuilt
  have hclosed := ((hm.append h).tidy l).phase_eq_closed hbuilt (by simpa using hc)
  rw [← fifo_eq] at hclosed
  have hmem := run.closed_mem (phase_fifo_ne_closed ho) hclosed
  obtain ⟨η, hη, hsign⟩ := List.mem_filterMap.mp hmem
  refine hno ?_
  cases η <;> simp [Happening.sign?] at hsign
  subst hsign
  exact hη

theorem index_lt_of_open (ho : m.world.isClosed l = false) : l.index < m.world.loops.size := by
  obtain ⟨q, hq, _⟩ := isClosed_eq_false ho
  obtain ⟨e, he, _⟩ := Option.map_eq_some_iff.mp hq
  exact (Array.getElem?_eq_some_iff.mp he).1

/-- The ending of the main future of loop `l` that shows in the next step. -/
def upshot? (m : Machine G) (l : LoopId) : Option Upshot :=
  match m.jobs with
  | .mainPolled l' _ _ :: _ => if l' = l then m.mode.upshot? else none
  | _ => none

/-- The upshots of main futures of loop `l`, in order. -/
def upshots (l : LoopId) (p : List (Machine G)) : List Upshot :=
  p.filterMap (·.upshot? l)

theorem upshots_append (p p' : List (Machine G)) :
    upshots l (p ++ p') = upshots l p ++ upshots l p' :=
  List.filterMap_append

/-- No code asks for loop `l` to be run or dropped. -/
def Reserved (code : G.Code) (l : LoopId) (p : List (Machine G)) : Prop :=
  ∀ m ∈ p, ∀ q, m.asked? code = some q → q.takes l = false

/-- No panic comes out of a destructor above `rest`: what is to be done after something was dropped
is not reached by a panic. -/
def Gentle (rest : List (Job G)) (p : List (Machine G)) : Prop :=
  ∀ m ∈ p, rest <:+ m.jobs → ∀ panic r, m.mode = .unwinding panic r →
    m.jobs.head?.any Job.awaitsDrop = false

theorem upshot?_of_isDrive {job : Job G} (hj : m.jobs = job :: rest)
    (h : job.isDrive l = false) : m.upshot? l = none := by
  unfold upshot?
  rw [hj]
  cases job with
  | mainPolled l' k batch =>
    have hne : l' ≠ l := by simpa [Job.isDrive] using h
    simp [hne]
  | _ => rfl

/-- The turn of a loop leaves the main future driven. -/
theorem step_turn_drive (code : G.Code) {k : WakerId} {batch : List (Entry G)}
    (hj : m.jobs = .turn l k f batch :: rest) (hmode : m.mode = .going a)
    (hw : m.mustWait (.turn l k f batch) = false) :
    ∃ above drive, (m.step code).jobs = above ++ drive :: rest ∧ drive.isDrive l = true := by
  rw [step_of_going hj hmode hw]
  cases batch with
  | nil => exact ⟨[], .turn l k f _, rfl, by simp [Job.isDrive]⟩
  | cons e batch =>
    cases e with
    | main => exact ⟨[_], .mainPolled l k batch, rfl, by simp [Job.isDrive]⟩
    | wake slot =>
      simp only [perform, turn, process, pollTask]
      split
      · exact ⟨[], .turn l k f batch, rfl, by simp [Job.isDrive]⟩
      · exact ⟨[_, _], .turn l k f batch, rfl, by simp [Job.isDrive]⟩
    | call c =>
      cases c with
      | own c => exact ⟨[_, _], .turn l k f batch, rfl, by simp [Job.isDrive]⟩
      | settle c o =>
        simp only [perform, turn, process, call]
        split
        · rename_i w ws _
          exact ⟨ws.map .wake ++ [.emit (.settled o.transition)], .turn l k f batch,
            by simp, by simp [Job.isDrive]⟩
        · exact ⟨[], .turn l k f batch, rfl, by simp [Job.isDrive]⟩
      | start g =>
        simp only [perform, turn, process, call]
        split <;> exact ⟨[_], .turn l k f batch, rfl, by simp [Job.isDrive]⟩

/-! ## A request to run a future on a loop of its own -/

/-- On the stack of thread `t` stands a request to run `f` on loop `l`, which nobody else has a
claim on; its main future came to the ends `vs`. -/
def Stands (m : Machine G) (t : ThreadId) (l : LoopId) (f : Future G.Coroutine)
    (rest : List (Job G)) (vs : List Upshot) : Prop :=
  ∃ n, ∃ q ∈ m.strands, q.thread.id = t ∧ Standing l f rest vs n q ∧ m.claimsOn l ≤ n ∧
    m.world.isClosed l = false

theorem Walked.open_step (hm : Walked code p m) (hi : m.isIdle = false)
    (live : m.isAborted = false) (ho : m.world.isClosed l = false)
    (htop : ∀ below, m.jobs ≠ .serve (.close l) :: below) :
    (m.step code).world.isClosed l = false := by
  have next : History code m m.happenings (m.step code) := History.here.next (.act hi)
  refine next.stays_open hm.reached ho fun hclosed => ?_
  obtain ⟨_, below, hj, _⟩ := hm.sound.close_of_closed code hi live hclosed
  exact htop below hj

theorem claimsIn_jobs_le (m : Machine G) (l : LoopId) : claimsIn l m.jobs ≤ m.claimsOn l := by
  rw [claimsOn_eq rfl]
  exact Nat.le_add_right _ _

theorem claimsIn_parked_le {q : Parked G} (hq : q ∈ m.threads.parked) (l : LoopId) :
    claimsIn l q.jobs ≤ claimsIn l (m.threads.parked.flatMap (·.jobs)) := by
  obtain ⟨before, after, he⟩ := List.append_of_mem hq
  rw [he, List.flatMap_append, List.flatMap_cons, claimsIn_append, claimsIn_append]
  omega

/-- A request that stands on the stack of another thread stays where it is. -/
theorem Walked.stands_elsewhere (hm : Walked code p m) (hi : m.isIdle = false)
    (live : m.isAborted = false) {vs : List Upshot} {n : Nat} {q : Parked G}
    (hask : ∀ q, m.asked? code = some q → q.takes l = false)
    (hq : q ∈ m.threads.parked) (hid : q.thread.id = t) (h : Standing l f rest vs n q)
    (hn : m.claimsOn l ≤ n) (ho : m.world.isClosed l = false) :
    (m.step code).Stands t l f rest (vs ++ (m.upshot? l).toList) := by
  have hparked := claimsIn_parked_le hq l
  have hnone : claimsIn l m.jobs = 0 := by
    have hle := h.claims_le
    rw [claimsOn_eq rfl] at hn
    omega
  obtain ⟨job, below, hj, _, hothers⟩ := strand_of_step code hi live
  have hdrive : job.isDrive l = false := by
    by_contra hd
    have hst := (hm.sound.strands _ List.mem_cons_self).stacked
    rw [hj] at hst
    obtain ⟨below', rfl, _⟩ := framed_of_isDrive hst (by simpa using hd)
    simp [hj, claimsIn_cons, Job.claims] at hnone
  rw [upshot?_of_isDrive hj hdrive, Option.toList_none, List.append_nil]
  refine ⟨n, q, hothers q hq (h.jobs_ne_nil), hid, h, ?_, ?_⟩
  · exact Nat.le_trans (claimsOn_step hi live (index_lt_of_open ho) hask) hn
  · refine hm.open_step hi live ho fun below' hj' => ?_
    simp [hj', claimsIn_cons, Job.claims, Request.takes] at hnone

/-- What the running thread has below the top of its stack stays below. -/
theorem Walked.stands_below (hm : Walked code p m) (hi : m.isIdle = false)
    (live : m.isAborted = false) {vs : List Upshot} {job x : Job G} {below : List (Job G)}
    (hask : ∀ q, m.asked? code = some q → q.takes l = false) (hj : m.jobs = job :: below)
    (hs : x :: frame l rest <:+ below) (hx : x.isLeave l = false)
    (h : ∀ q, x :: frame l rest <:+ q.jobs → Standing l f rest vs 2 q)
    (hid : m.world.thread.id = t) (hn : m.claimsOn l ≤ 2) (ho : m.world.isClosed l = false) :
    (m.step code).Stands t l f rest (vs ++ (m.upshot? l).toList) := by
  have hjobs := m.claimsIn_jobs_le l
  have hbelow : 2 ≤ claimsIn l below := Nat.le_trans (claimsIn_frame rest)
    (claimsIn_le_of_sublist ((List.suffix_cons _ _).trans hs).sublist)
  rw [hj, claimsIn_cons] at hjobs
  have hst := (hm.sound.strands _ List.mem_cons_self).stacked
  rw [hj] at hst
  have hdrive := isDrive_eq_false hst hs hx (by omega)
  rw [upshot?_of_isDrive hj hdrive, Option.toList_none, List.append_nil]
  obtain ⟨job', below', hj', hkept, _⟩ := strand_of_step code hi live
  obtain ⟨rfl, rfl⟩ := List.cons.inj (hj.symm.trans hj')
  obtain ⟨q, hq, hid', hsq⟩ := hkept (by
    rintro rfl
    exact absurd (List.suffix_nil.mp hs) (List.cons_ne_nil _ _))
  refine ⟨2, q, hq, hid'.trans hid, h q (hs.trans hsq), ?_, ?_⟩
  · exact Nat.le_trans (claimsOn_step hi live (index_lt_of_open ho) hask) hn
  · refine hm.open_step hi live ho fun below' hclose => ?_
    obtain ⟨rfl, _⟩ := List.cons.inj (hj.symm.trans hclose)
    simp [Job.claims, Request.takes] at hjobs
    omega

/-- The main future is driven on, or comes to its end and is dropped. -/
theorem Walked.stands_drive (hm : Walked code p m) (hi : m.isIdle = false)
    (live : m.isAborted = false) {drive : Job G}
    (hask : ∀ q, m.asked? code = some q → q.takes l = false)
    (hj : m.jobs = drive :: frame l rest) (hd : drive.isDrive l = true)
    (hid : m.world.thread.id = t) (hn : m.claimsOn l ≤ 2) (ho : m.world.isClosed l = false) :
    (m.step code).Stands t l f rest (m.upshot? l).toList := by
  have hclaims := Nat.le_trans (claimsOn_step hi live (index_lt_of_open ho) hask) hn
  have hopen : (m.step code).world.isClosed l = false := by
    refine hm.open_step hi live ho fun below hclose => ?_
    obtain ⟨rfl, _⟩ := List.cons.inj (hj.symm.trans hclose)
    cases hd
  have hid' : (m.step code).world.thread.id = t := by
    refine (thread_step code hi live hj ?_).trans hid
    rintro ⟨run, _, rfl, _⟩
    cases hd
  have hq : (⟨(m.step code).world.thread, (m.step code).mode, (m.step code).jobs⟩ : Parked G) ∈
      (m.step code).strands := List.mem_cons_self
  suffices Standing l f rest (m.upshot? l).toList 2
      ⟨(m.step code).world.thread, (m.step code).mode, (m.step code).jobs⟩ from
    ⟨2, _, hq, hid', this, hclaims, hopen⟩
  cases drive with
  | mainPolled l' k batch =>
    obtain rfl : l' = l := by simpa [Job.isDrive] using hd
    have hending : m.upshot? l' = m.mode.upshot? := by simp [upshot?, hj]
    rw [hending]
    cases hmode : m.mode with
    | aborted => simp [isAborted, hmode] at live
    | unwinding panic r =>
      obtain ⟨hjobs, _⟩ := hm.sound.step_panicked code hj hmode
      exact .ending (v := .panic panic) ⟨_, hjobs.symm⟩
    | going a =>
      cases hpoll : a.toPoll with
      | ready r g =>
        obtain ⟨hjobs, _⟩ := hm.sound.step_ready code hj hmode hpoll
        simp only [Mode.upshot?, hpoll]
        exact .ending (v := .result r) ⟨[.drop g], hjobs.symm⟩
      | pending g =>
        simp only [Mode.upshot?, hpoll]
        have hdrive : (Job.turn l' k g batch).isDrive l' = true := by simp [Job.isDrive]
        refine .driving hdrive ⟨[], ?_⟩
        rw [step_of_going hj hmode rfl]
        simp [perform, mainPolled, hpoll]
  | turn l' k g batch =>
    obtain rfl : l' = l := by simpa [Job.isDrive] using hd
    have hending : m.upshot? l' = none := by simp [upshot?, hj]
    rw [hending]
    cases hmode : m.mode with
    | aborted => simp [isAborted, hmode] at live
    | unwinding panic r =>
      -- no panic reaches the turn of a loop
      have hastray := (hm.sound.strands _ List.mem_cons_self).spared panic r hmode
      simp [hj, sheltered, Job.isFragile] at hastray
    | going a =>
      have hw : m.mustWait (.turn l' k g batch) = false := (isIdle_of_going hj hmode).symm.trans hi
      obtain ⟨above, drive, hjobs, hd⟩ := step_turn_drive code hj hmode hw
      exact .driving hd ⟨above, hjobs.symm⟩
  | _ => cases hd

/-- Where no panic comes out of a destructor, none reaches an ending that is to be passed on. -/
theorem going_of_ending (live : m.isAborted = false) {v : Upshot} (hj : m.jobs = v.job :: rest)
    (hgentle : ∀ panic r, m.mode = .unwinding panic r → m.jobs.head?.any Job.awaitsDrop = false) :
    ∃ a, m.mode = .going a := by
  cases hmode : m.mode with
  | aborted => simp [isAborted, hmode] at live
  | unwinding panic r =>
    have hno := hgentle panic r hmode
    cases v <;> simp [hj, Upshot.job, Job.awaitsDrop] at hno
  | going a => exact ⟨a, rfl⟩

/-- An ending that is on top of the stack is passed on. -/
theorem step_ending (code : G.Code) {v : Upshot} (hj : m.jobs = v.job :: rest)
    (hmode : m.mode = .going a) : (m.step code).mode.passes? = some v ∧
      (m.step code).jobs = rest ∧ (m.step code).world = m.world := by
  rw [step_of_going hj hmode (by cases v <;> rfl)]
  cases v <;> exact ⟨rfl, rfl, rfl⟩

/-- What is below a job that only passes an ending on. -/
theorem passes?_step_frame (code : G.Code) (live : m.isAborted = false) {v : Upshot}
    (hmode : m.mode.passes? = some v) {job : Job G} (hj : m.jobs = job :: rest)
    (hjob : job = .restore none ∨ job = .leave l) :
    (m.step code).mode.passes? = some v ∧ (m.step code).jobs = rest ∧
      (m.step code).threads = m.threads := by
  cases hm : m.mode with
  | aborted => simp [isAborted, hm] at live
  | unwinding panic r =>
    rw [step_of_unwinding hj hm]
    rw [hm] at hmode
    obtain rfl | rfl := hjob
    · exact ⟨by simpa [unwind, set, hm] using hmode, rfl, rfl⟩
    · exact ⟨by simpa [unwind, hm] using hmode, rfl, rfl⟩
  | going a =>
    rw [hm] at hmode
    obtain rfl | rfl := hjob
    · rw [step_of_going hj hm rfl]
      exact ⟨by simpa [perform, set, hm] using hmode, rfl, rfl⟩
    · rw [step_of_going hj hm rfl]
      exact ⟨hmode, rfl, rfl⟩

/-- The loop of a request is dropped, and the ending passed on after that. -/
theorem step_owned (code : G.Code) (live : m.isAborted = false) {v : Upshot}
    (hmode : m.mode.passes? = some v) (hj : m.jobs = .owned l :: rest) :
    (∃ b, (m.step code).mode = .going b) ∧
      (m.step code).jobs = .serve (.close l) :: v.job :: rest := by
  cases hm : m.mode with
  | aborted => simp [isAborted, hm] at live
  | unwinding panic r =>
    rw [hm] at hmode
    cases hmode
    rw [step_of_unwinding hj hm]
    exact ⟨⟨_, rfl⟩, rfl⟩
  | going a =>
    rw [hm] at hmode
    cases hmode
    rw [step_of_going hj hm rfl]
    exact ⟨⟨_, rfl⟩, rfl⟩

/-- Where all claims on a loop are known, and none of them is that it runs, it does not run. -/
theorem isRunning_eq_false {known others : List (Job G)} (h : m.allJobs = known ++ others)
    (hknown : ∀ i ∈ known, i.isLeave l = false) (hn : m.claimsOn l ≤ claimsIn l known) :
    m.isRunning l = false := by
  have hothers : claimsIn l others = 0 := by
    rw [claimsOn, h, claimsIn_append] at hn
    omega
  have hany : m.isRunning l = m.allJobs.any (Job.isLeave l) := by
    simp [isRunning, allJobs, List.any_append, List.any_flatMap]
  rw [hany, h, List.any_eq_false]
  intro i hi
  rcases List.mem_append.mp hi with hi | hi
  · simp [hknown i hi]
  · have hclaims := List.countP_eq_zero.mp hothers i hi
    cases i with
    | leave l' => simpa [Job.claims, Job.isLeave] using hclaims
    | _ => exact Bool.false_ne_true

/-- A request to run a future on a loop of its own goes on standing where it stands, until the loop
is dropped. -/
theorem Walked.stands_step (hm : Walked code p m) (hi : m.isIdle = false)
    (live : m.isAborted = false) (hrest : currentLoop rest = none) {vs : List Upshot}
    (hask : ∀ q, m.asked? code = some q → q.takes l = false)
    (hgentle : rest <:+ m.jobs → ∀ panic r, m.mode = .unwinding panic r →
      m.jobs.head?.any Job.awaitsDrop = false) (h : m.Stands t l f rest vs) :
    (m.step code).Stands t l f rest (vs ++ (m.upshot? l).toList) ∨
      ∃ v a, vs = [v] ∧ m.world.thread.id = t ∧ m.jobs = .serve (.close l) :: v.job :: rest ∧
        m.mode = .going a ∧ m.isRunning l = false ∧ m.world.isClosed l = false := by
  obtain ⟨n, q, hq, hid, hst, hn, ho⟩ := h
  rcases List.mem_cons.mp hq with rfl | hq
  swap
  · exact .inl (hm.stands_elsewhere hi live hask hq hid hst hn ho)
  have hid : m.world.thread.id = t := hid
  have hclaims := Nat.le_trans (claimsOn_step hi live (index_lt_of_open ho) hask) hn
  have hopen := hm.open_step hi live ho
  -- the running thread goes on with the request, which keeps its claims
  have next : ∀ {vs' : List Upshot} {job below}, m.jobs = job :: below → job.isDrive l = false →
      job.isForThread = false → (∀ below, m.jobs ≠ .serve (.close l) :: below) →
      Standing l f rest vs' n ⟨(m.step code).world.thread, (m.step code).mode,
        (m.step code).jobs⟩ → (m.step code).Stands t l f rest (vs' ++ (m.upshot? l).toList) := by
    intro vs' job below hj hd hfor htop hst'
    rw [upshot?_of_isDrive hj hd, Option.toList_none, List.append_nil]
    have hid' := thread_step code hi live hj (by rintro ⟨run, _, rfl, _⟩; cases hfor)
    exact ⟨n, _, List.mem_cons_self, hid'.trans hid, hst', hclaims, hopen htop⟩
  cases hst with
  | entering hj hmode =>
    have hj : m.jobs = .serve (.blockOn l f) :: .owned l :: rest := hj
    have hnone : m.world.thread.current = none := by
      rw [(hm.sound.strands _ List.mem_cons_self).current, hj]
      simpa [currentLoop] using hrest
    have hidle : m.isRunning l = false := by
      have hall : m.allJobs = [.serve (.blockOn l f), .owned l] ++
          (rest ++ m.threads.parked.flatMap (·.jobs)) := by simp [allJobs, hj]
      refine isRunning_eq_false hall ?_ ?_
      · simp [Job.isLeave]
      · simpa [claimsIn_cons, Job.claims, Request.takes] using hn
    have hjobs : (m.step code).jobs = _ := (step_blockOn hj hmode hnone hidle ho).2
    have hdrive : (Job.mainPolled l ⟨m.world.wakers.size⟩ [] : Job G).isDrive l = true := by
      simp [Job.isDrive]
    refine .inl (next hj rfl rfl (by simp [hj]) ?_)
    exact .driving hdrive ⟨[_], hjobs.symm⟩
  | @driving _ drive hd hs =>
    have hleave : drive.isLeave l = false := by
      cases drive <;> first | rfl | cases hd
    rcases top_or_below hs with hj | ⟨job, below, hj, hs⟩
    · exact .inl (hm.stands_drive hi live hask hj hd hid hn ho)
    · exact .inl (hm.stands_below hi live hask hj hs hleave (fun _ => .driving hd) hid hn ho)
  | @ending _ v hs =>
    rcases top_or_below hs with hj | ⟨job, below, hj, hs⟩
    · have hj : m.jobs = v.job :: frame l rest := hj
      have hsuffix : rest <:+ m.jobs := by
        rw [hj]
        exact ⟨[v.job, .restore none, .leave l, .owned l], rfl⟩
      obtain ⟨a, hgoing⟩ := going_of_ending live hj (hgentle hsuffix)
      obtain ⟨hmode, hjobs, _⟩ := step_ending code hj hgoing
      refine .inl (next hj ?_ ?_ ?_ (.restoring hjobs hmode))
      · cases v <;> rfl
      · cases v <;> rfl
      · cases v <;> simp [hj, Upshot.job]
    · refine .inl (hm.stands_below hi live hask hj hs ?_ (fun _ => .ending) hid hn ho)
      cases v <;> rfl
  | restoring hj hmode =>
    have hj : m.jobs = .restore none :: .leave l :: .owned l :: rest := hj
    obtain ⟨hmode, hjobs, _⟩ := passes?_step_frame (l := l) code live hmode hj (.inl rfl)
    exact .inl (next hj rfl rfl (by simp [hj]) (.leaving hjobs hmode))
  | @leaving _ v hj hmode =>
    have hj : m.jobs = .leave l :: .owned l :: rest := hj
    obtain ⟨hmode, hjobs, hthreads⟩ := passes?_step_frame code live hmode hj (.inr rfl)
    rw [upshot?_of_isDrive hj rfl, Option.toList_none, List.append_nil]
    have hid' := thread_step code hi live hj (by simp)
    refine .inl ⟨1, _, List.mem_cons_self, hid'.trans hid, .closing hjobs hmode, ?_,
      hopen (by simp [hj])⟩
    rw [claimsOn_eq hj] at hn
    rw [claimsOn_eq hjobs, hthreads]
    simp [claimsIn_cons, Job.claims] at hn ⊢
    omega
  | @closing _ v hj hmode =>
    have hj : m.jobs = .owned l :: rest := hj
    obtain ⟨⟨b, hgoing⟩, hjobs⟩ := step_owned code live hmode hj
    exact .inl (next hj rfl rfl (by simp [hj]) (.dropping hjobs hgoing))
  | @dropping _ v a hj hmode =>
    have hj : m.jobs = .serve (.close l) :: v.job :: rest := hj
    refine .inr ⟨v, a, rfl, hid, hj, hmode, ?_, ho⟩
    have hall : m.allJobs = [.serve (.close l)] ++
        (v.job :: (rest ++ m.threads.parked.flatMap (·.jobs))) := by simp [allJobs, hj]
    refine isRunning_eq_false hall ?_ ?_
    · simp [Job.isLeave]
    · simpa [claimsIn_cons, Job.claims, Request.takes] using hn

theorem Stands.switch {vs : List Upshot} (h : m.Stands t l f rest vs) (switched : m.Switched m') :
    m'.Stands t l f rest vs := by
  obtain ⟨n, q, hq, hid, hst, hn, ho⟩ := h
  refine ⟨n, q, switched.mem_strands hq hst.jobs_ne_nil, hid, hst, ?_, ?_⟩
  · rwa [switched.claimsOn]
  · rwa [World.isClosed, switched.objects.loop?]

/-- A request to run a future on a loop of its own stands on a stack until its loop is dropped,
after the main future came to its one end. -/
theorem Walked.stands_or_drops (hm : Walked code p m) (hrest : currentLoop rest = none)
    (hask : Reserved code l p') (hgentle : Gentle rest p') (h : m.Stands t l f rest [])
    (walk : Walk code m p' m') :
    m'.Stands t l f rest (upshots l p') ∨
      ∃ p₁ m₁ p₂ v a, p' = p₁ ++ m₁ :: p₂ ∧ Walk code m p₁ m₁ ∧ upshots l p₁ = [v] ∧
        m₁.world.thread.id = t ∧ m₁.jobs = .serve (.close l) :: v.job :: rest ∧ m₁.mode = .going a ∧
        m₁.isRunning l = false ∧ m₁.world.isClosed l = false ∧ Walk code (m₁.step code) p₂ m' := by
  have stands := walk.holds_until (fun q m₁ => m₁.Stands t l f rest (upshots l q))
    (fun q m₁ => ∃ v a, upshots l q = [v] ∧ m₁.world.thread.id = t ∧
      m₁.jobs = .serve (.close l) :: v.job :: rest ∧ m₁.mode = .going a ∧ m₁.isRunning l = false ∧
      m₁.world.isClosed l = false) h (fun q m₁ hq before hi live h => ?_) fun _ _ _ h => h.switch
  · refine stands.imp_right ?_
    rintro ⟨p₁, m₁, p₂, he, before, -, -, ⟨v, a, hends, hid, hj, hmode, hidle, ho⟩, after⟩
    exact ⟨p₁, m₁, p₂, v, a, he, before, hends, hid, hj, hmode, hidle, ho, after⟩
  · have hmem : m₁ ∈ p' := hq.subset (by simp)
    have hends : upshots l (q ++ [m₁]) = upshots l q ++ (m₁.upshot? l).toList := by
      simp [upshots, filterMap_cons_eq]
    rw [hends]
    exact (hm.trans before).stands_step hi live hrest (hask m₁ hmem) (hgentle m₁ hmem) h

/-- Where the main future comes to its end, nothing is left above the frame of its request. -/
theorem Walked.jobs_of_upshot (hm : Walked code p m) {vs : List Upshot} {v : Upshot}
    (h : m.Stands t l f rest vs) (hv : m.upshot? l = some v) :
    m.world.thread.id = t ∧ vs = [] ∧ m.mode.upshot? = some v ∧
      ∃ k batch, m.jobs = .mainPolled l k batch :: frame l rest := by
  obtain ⟨n, q, hq, hid, hst, hn, ho⟩ := h
  obtain ⟨k, batch, below, hj, hmode⟩ : ∃ k batch below, m.jobs = .mainPolled l k batch :: below ∧
      m.mode.upshot? = some v := by
    unfold upshot? at hv
    split at hv
    · rename_i l' k batch below hj
      split at hv
      · rename_i he
        exact ⟨k, batch, below, he ▸ hj, hv⟩
      · cases hv
    · cases hv
  have hdrive : (Job.mainPolled l k batch : Job G).isDrive l = true := by simp [Job.isDrive]
  have hstacked := (hm.sound.strands _ List.mem_cons_self).stacked
  simp only [hj] at hstacked
  have hjobs := m.claimsIn_jobs_le l
  have no : ∀ {x : Job G}, x :: frame l rest <:+ below → x.isLeave l = false → n = 2 → False := by
    intro x hs hx hn2
    have hfalse := isDrive_eq_false hstacked hs hx ?_
    · simp [hdrive] at hfalse
    · rw [hj, claimsIn_cons] at hjobs
      omega
  rcases List.mem_cons.mp hq with rfl | hq
  · refine ⟨hid, ?_⟩
    have top : ∀ {x : Job G}, x :: frame l rest <:+ m.jobs → x.isLeave l = false → n = 2 →
        x = .mainPolled l k batch ∧ frame l rest = below := by
      intro x hs hx hn2
      rw [hj] at hs
      rcases List.suffix_cons_iff.mp hs with he | hs
      · exact List.cons.inj he
      · exact (no hs hx hn2).elim
    cases hst with
    | @driving _ drive hd hs =>
      obtain ⟨rfl, rfl⟩ := top hs (by cases drive <;> first | rfl | cases hd) rfl
      exact ⟨rfl, hmode, k, batch, hj⟩
    | @ending _ v hs =>
      obtain ⟨he, _⟩ := top hs (by cases v <;> rfl) rfl
      cases v <;> cases he
    | entering h | restoring h | leaving h | closing h | dropping h =>
      have h' := hj.symm.trans h
      simp [frame] at h'
  · -- the loop would be claimed on another stack
    obtain ⟨below', rfl, _⟩ := framed_of_isDrive hstacked hdrive
    have hparked := claimsIn_parked_le hq l
    have hle := hst.claims_le
    rw [claimsOn_eq hj] at hn
    simp [claimsIn_cons, Job.claims] at hn
    omega

/-! ## The tasks of a loop that is dropped -/

/-- A task was taken out of the table with its loop, and its future was dropped after that. -/
def Discarded (p : List (Machine G)) (l : LoopId) (slot : Nat) (k : WakerId) (kind : Kind) : Prop :=
  ∃ m ∈ p, ∃ work, m.world.task? l slot = some ⟨k, some work⟩ ∧ work.kind = kind ∧
    .dropped l slot k (some kind) ∈ m.milestones ∧ ∃ m₁ ∈ p, m₁.Drops work.future

/-- A task came to its end, or was dropped with its loop and whoever awaits it told that it was
cancelled. -/
def Ceased (p : List (Machine G)) (l : LoopId) (slot : Nat) (k : WakerId) (kind : Kind) : Prop :=
  .finished l slot k ∈ story p ∨ Discarded p l slot k kind ∧
    ∀ j, kind = .joined j → filledInto j (story p) = [.error .cancelled]

/-- As long as a loop is open, a task that was spawned on it came to its end or is in its table. -/
theorem Walked.finished_or_seated (hm : Walked code p m) (ho : m.world.isClosed l = false)
    {slot : Nat} {k : WakerId} {kind : Kind} (hs : .spawned l slot k kind ∈ story p) :
    .finished l slot k ∈ story p ∨ ∃ work, m.world.task? l slot = some ⟨k, work⟩ := by
  refine (hm.census.left_or_seated hs).imp_left fun hleft => ?_
  refine (mem_leftFrom.mp hleft).resolve_right ?_
  rintro ⟨kind', hd⟩
  have hclosed := hm.reached.isClosed_of_closed (hm.of_dropped hd).1
  rw [ho] at hclosed
  cases hclosed

/-- What is to be done when the tasks of loop `l` are dropped: their futures are to be dropped, and
whoever awaits one of them is to be told. -/
inductive DrainChore (code : G.Code) (p : List (Machine G)) (m : Machine G) (l : LoopId) :
    Chore code p → Prop where
  | drop {slot k work} (ht : m.world.task? l slot = some ⟨k, some work⟩) :
      DrainChore code p m l (dropping code p work)
  | cancel {slot k work j} (ht : m.world.task? l slot = some ⟨k, some work⟩)
      (hkind : work.kind = .joined j) (hs : .spawned l slot k (.joined j) ∈ story p) :
      DrainChore code p m l (cancelling code hs)

theorem carries_of_drain (code : G.Code) (p : List (Machine G)) {n : Nat} {base : List (Job G)}
    (hj : m.jobs = .drain l n :: base) (hi : m.isIdle = false) (live : m.isAborted = false) :
    (m.step code).Carries (DrainChore code p m l) (p ++ [m]) m.world.thread.id base := by
  obtain ⟨_, _, last, hjobs, _⟩ := step_drain code hj live
  have hid : (m.step code).world.thread.id = m.world.thread.id :=
    thread_step code hi live hj (by simp)
  refine ⟨_, List.mem_cons_self, hid,
    ((m.world.tenants l).filterMap (·.2.work)).map .abandon ++ [last], by rw [hjobs]; simp, ?_⟩
  have carried : ∀ {slot k work}, m.world.task? l slot = some ⟨k, some work⟩ →
      Job.abandon work ∈ ((m.world.tenants l).filterMap (·.2.work)).map .abandon ++ [last] := by
    intro slot k work ht
    refine List.mem_append_left _ (List.mem_map.mpr ⟨work, ?_, rfl⟩)
    exact List.mem_filterMap.mpr ⟨_, World.mem_tenants.mpr ht, rfl⟩
  intro c hc
  cases hc with
  | drop ht => exact .inr ⟨_, carried ht, .inl rfl⟩
  | cancel ht hkind hs => exact .inr ⟨_, carried ht, by simp [cancelling, Job.owes, hkind]⟩

/-- A task that is dropped with its loop has ceased when everything was done that was to be done. -/
theorem Walked.ceased_of_drain (hm : Walked code p m) (hl : .closed l ∈ p.flatMap happenings)
    (live : m.isAborted = false) {n : Nat} {base : List (Job G)} (hj : m.jobs = .drain l n :: base)
    {slot : Nat} {k : WakerId} {kind : Kind} (hs : .spawned l slot k kind ∈ story p)
    {work : Option (Work G.Coroutine)} (ht : m.world.task? l slot = some ⟨k, work⟩)
    (hm' : Walked code (p ++ m :: p') m')
    (hdone : ∀ c, DrainChore code p m l c → c.done (p ++ m :: p')) :
    Ceased (p ++ m :: p') l slot k kind := by
  have hclosed := hm.reached.isClosed_of_closed hl
  obtain ⟨work, rfl⟩ := Option.ne_none_iff_exists'.mp
    (hm.work_of_free (hm.reached.free_of_closed hclosed) ht)
  obtain rfl : work.kind = kind :=
    (hm.census.spawned_unique (hm.census.known _ _ _ _ ht) hs).2.2
  have hdropped : .dropped l slot k (some work.kind) ∈ m.milestones := by
    obtain ⟨htold, _⟩ := step_drain code hj live
    rw [htold]
    exact List.mem_map.mpr ⟨_, World.mem_tenants.mpr ht, rfl⟩
  refine .inr ⟨⟨m, by simp, work, ht, rfl, hdropped, hdone _ (.drop ht)⟩, fun j hkind => ?_⟩
  rw [hkind] at hs hdropped
  refine hm'.filledInto_of_dropped (mem_story_append hs _) ?_ (hdone _ (.cancel ht hkind hs))
  exact List.mem_flatMap.mpr ⟨m, by simp, hdropped⟩

/-- A loop is dropped above `base`: when `base` is gone on with, its table is empty, and all its
tasks came to their end, or were dropped and cancelled. -/
theorem Walked.ceased_of_close (hm : Walked code p m) {base : List (Job G)}
    (hj : m.jobs = .serve (.close l) :: base) (hmode : m.mode = .going a)
    (hidle : m.isRunning l = false) (hopen : m.world.isClosed l = false) (hbase : base ≠ [])
    (walk : Walk code (m.step code) p' m') :
    m'.Holds m.world.thread.id base ∨
      ∃ p₁ m₁ p₂, p' = p₁ ++ m₁ :: p₂ ∧ Walk code (m.step code) p₁ m₁ ∧ m₁.isIdle = false ∧
        m₁.isAborted = false ∧ m₁.world.thread.id = m.world.thread.id ∧ m₁.jobs = base ∧
        (∀ slot, m₁.world.task? l slot = none) ∧
        (∀ slot k kind, .spawned l slot k kind ∈ story p → Ceased (p ++ m :: p₁) l slot k kind) ∧
        Walk code (m₁.step code) p₂ m' := by
  obtain ⟨hη, hw, _, hjobs⟩ := step_close code hj hmode hidle hopen
  have hm₀ : Walked code (p ++ [m]) (m.step code) := hm.next_of_going hj hmode rfl
  have hl : .closed l ∈ (p ++ [m]).flatMap happenings := by simp [hη]
  have hone := hm.countP_drain_close hj hmode hidle hopen
  have hid : (m.step code).world.thread.id = m.world.thread.id := by
    obtain ⟨hi, live⟩ := live_of_going hj hmode rfl
    exact thread_step code hi live hj (by simp)
  have due := hm₀.drain_due hl hone ⟨_, List.mem_cons_self, hid, ⟨_, hjobs.symm⟩⟩ walk
  rcases due with ⟨_, _, q, hq, hid, hs⟩ |
      ⟨p₁, m₁, p₂, rfl, before, hi₁, live₁, hid₁, hj₁, htasks, after⟩
  · exact .inl ⟨q, hq, hid, (List.suffix_cons _ _).trans hs⟩
  have hm₁ : Walked code (p ++ [m] ++ p₁) m₁ := hm₀.trans before
  have hm₂ : Walked code (p ++ [m] ++ p₁ ++ [m₁]) (m₁.step code) := hm₁.next hi₁ live₁
  have hcarries := carries_of_drain code (p ++ [m] ++ p₁) hj₁ hi₁ live₁
  obtain ⟨htold, hw₁, _⟩ := step_drain code hj₁ live₁
  rcases hm₂.carried (List.prefix_append _ _) hbase hcarries after with
    hcarried | ⟨p₃, m₃, p₄, rfl, between, hi₃, live₃, hid₃, hj₃, hdone, last⟩
  · exact .inl (hid₁ ▸ hcarried.holds)
  have hl₂ : .closed l ∈ (p ++ [m] ++ p₁ ++ [m₁]).flatMap happenings :=
    mem_happenings_append (mem_happenings_append hl p₁) [m₁]
  have hm₃ := hm₂.trans between
  refine .inr
    ⟨p₁ ++ m₁ :: p₃, m₃, p₄, by simp, ?_, hi₃, live₃, hid₃.trans hid₁, hj₃, ?_, ?_, last⟩
  · have := (before.act hi₁ live₁).trans between
    simpa using this
  · refine hm₂.task?_of_empty hl₂ (fun slot => ?_) between
    rw [hw₁, World.task?_drain, if_pos rfl]
  · intro slot k kind hs
    -- the task had left the table when the loop was dropped, or is still in it
    rcases hm.finished_or_seated hopen hs with hfinished | ⟨work, ht⟩
    · exact .inl (mem_story_append hfinished _)
    · have ht₁ : m₁.world.task? l slot = some ⟨k, work⟩ := by
        rwa [World.task?_eq, htasks, hw, World.tasks?_modifyQueue, ← World.task?_eq]
      have hs₁ : .spawned l slot k kind ∈ story (p ++ [m] ++ p₁) :=
        mem_story_append (mem_story_append hs [m]) p₁
      have happend : p ++ [m] ++ p₁ ++ [m₁] ++ p₃ = p ++ [m] ++ p₁ ++ m₁ :: p₃ :=
        List.append_assoc _ [m₁] p₃
      rw [happend] at hdone hm₃
      have hceased := hm₁.ceased_of_drain (mem_happenings_append hl p₁) live₁ hj₁ hs₁ ht₁ hm₃ hdone
      simpa using hceased

end Machine

end RunLoop
