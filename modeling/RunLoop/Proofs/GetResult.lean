import RunLoop.Proofs.CleanUp
import RunLoop.Proofs.Play
import RunLoop.Proofs.PrivateLoop

/-!
# Results without a loop

Where no loop is current, a result is waited for on a loop that lasts as long as the request. It is
proved that the request is over as soon as the main future has come to its end and everything was
dropped, and that it leaves nothing behind: what escapes it are handles, wakers and sources of a
loop that is gone for good.

* `Machine.Vanished` says that nothing is left of a loop, and `Machine.Returned` that a request is
  over.
* `Machine.Walked.returned`: when a thread is back at what was below its request, the request is
  over.
* `Machine.Walked.returns`: where destructors come to their end, a request does.
-/

namespace RunLoop

variable {G : Guest} {l : LoopId}

/-- What whoever asked for a future to be run gets to see of how it came to its end. -/
def Upshot.Shows : Upshot → Mode G → Prop
  | result r, mode => mode = .going (.result r)
  | panic q, mode => ∃ remains, mode = .unwinding q remains

theorem World.isClosed_build (w : World G) (c : Config G) :
    (w.build c).1.isClosed ⟨w.loops.size⟩ = false := by
  simp [isClosed, loop?, build, emit, write, Config.build, Queue.empty]

namespace Machine

variable {code : G.Code} {m m' : Machine G} {p p' : List (Machine G)} {a : Answer G}
  {t : ThreadId} {rest : List (Job G)} {f : Future G.Coroutine} {v : Upshot}

/-! ## The request -/

theorem step_getResult (hj : m.jobs = .serve (.getResult f) :: rest)
    (hmode : m.mode = .going a) (hnone : m.world.thread.current = none) :
    m.step code = ({ m with jobs := rest }.set (m.world.build .default).1).push
      [.serve (.blockOn ⟨m.world.loops.size⟩ f), .owned ⟨m.world.loops.size⟩] := by
  have hcurrent : ({ m with jobs := rest } : Machine G).current.isSome = false := by
    simp [current, hnone]
  rw [step_of_going hj hmode rfl]
  simp only [perform, serve, getResult, hcurrent]
  rfl

/-- A request to run a future on a loop of its own begins with a new loop. -/
theorem stands_getResult (hj : m.jobs = .serve (.getResult f) :: rest)
    (hmode : m.mode = .going a) (hnone : m.world.thread.current = none)
    (hfree : m.claimsOn ⟨m.world.loops.size⟩ = 0) :
    (m.step code).Stands m.world.thread.id ⟨m.world.loops.size⟩ f rest [] := by
  rw [step_getResult hj hmode hnone]
  refine ⟨2, _, List.mem_cons_self, rfl, .entering rfl rfl, ?_, World.isClosed_build _ _⟩
  rw [claimsOn_eq hj] at hfree
  rw [claimsOn_eq rfl]
  simp [claimsIn_cons, Job.claims, Request.takes, push, insert, go, set] at hfree ⊢
  omega

/-- Where no loop is current, none is below a request. -/
theorem Walked.currentLoop_below (hm : Walked code p m)
    (hj : m.jobs = .serve (.getResult f) :: rest) (hnone : m.world.thread.current = none) :
    currentLoop rest = none := by
  have hcurrent := (hm.sound.strands _ List.mem_cons_self).current
  simp only [hnone, hj] at hcurrent
  simpa [currentLoop] using hcurrent.symm

theorem shows_step (code : G.Code) (hj : m.jobs = v.job :: rest) (hmode : m.mode = .going a) :
    v.Shows (m.step code).mode ∧ (m.step code).jobs = rest := by
  rw [step_of_going hj hmode (by cases v <;> rfl)]
  cases v with
  | result r => exact ⟨rfl, rfl⟩
  | panic q => exact ⟨⟨_, rfl⟩, rfl⟩

/-! ## What is left of the loop -/

theorem Ceased.append {slot : Nat} {k : WakerId} {kind : Kind} (h : Ceased p l slot k kind)
    (hm : Walked code (p ++ p') m) (hs : .spawned l slot k kind ∈ story p) :
    Ceased (p ++ p') l slot k kind := by
  rcases h with hf | ⟨⟨m₁, hm₁, work, ht, hkind, hd, m₂, hm₂, hdrops⟩, hfilled⟩
  · exact .inl (mem_story_append hf p')
  · refine .inr ⟨⟨m₁, List.mem_append_left _ hm₁, work, ht, hkind, hd, m₂,
      List.mem_append_left _ hm₂, hdrops⟩, fun j hj => ?_⟩
    subst hj
    refine hm.filledInto_of_dropped (mem_story_append hs p') ?_ ?_
    · exact mem_story_append (List.mem_flatMap.mpr ⟨m₁, hm₁, hd⟩) p'
    · rw [story, List.flatMap_append, filledInto_append]
      intro he
      have hnil := (List.append_eq_nil_iff.mp he).1
      rw [show filledInto j (p.flatMap milestones) = _ from hfilled j rfl] at hnil
      cases hnil

/-- No task is spawned on a loop that was dropped. -/
theorem Walked.spawned_before (hm : Walked code p m) (hl : .closed l ∈ p.flatMap happenings)
    (walk : Walk code m p' m') {slot : Nat} {k : WakerId} {kind : Kind}
    (hs : .spawned l slot k kind ∈ story (p ++ p')) : .spawned l slot k kind ∈ story p := by
  rw [story, List.flatMap_append] at hs
  refine (List.mem_append.mp hs).resolve_right fun hlater => ?_
  have hnone := (hm.story_of_closed hl walk).1
  have hmem : (slot, k) ∈ spawnedOn l (story p') := mem_spawnedOn.mpr ⟨kind, hlater⟩
  rw [hnone] at hmem
  cases hmem

/-- Nothing is left of loop `l`: it is gone, every task that was spawned on it came to its end or
was dropped and cancelled, and a transition of one of its sources is refused, even if it is the
first one. -/
structure Vanished (code : G.Code) (p : List (Machine G)) (m : Machine G) (l : LoopId) : Prop where
  gone : Gone code p m l
  empty : ∀ slot, m.world.task? l slot = none
  pending : m.world.pendingTasks l = 0
  ceased : ∀ slot k kind, .spawned l slot k kind ∈ story p → Ceased p l slot k kind
  refused : ∀ s x o rest a, m.world.source? s = some x → x.loop = l →
    (∀ o', .claimed s o' ∉ p.flatMap happenings) → m.jobs = .serve (.settle s o) :: rest →
    m.mode = .going a → WorksDown code (m.step code) [.handOff l (.settle x.cell o)] rest ∧
      Rejected code (m.step code) (.settle x.cell o) rest

/-- What is left of a loop is settled when it was dropped with its tasks. -/
theorem Walked.vanished (hm : Walked code p m) (hl : .closed l ∈ p.flatMap happenings)
    (hempty : ∀ slot, m.world.task? l slot = none)
    (hceased : ∀ slot k kind, .spawned l slot k kind ∈ story p → Ceased p l slot k kind)
    (walk : Walk code m p' m') : Vanished code (p ++ p') m' l := by
  have hm' := hm.trans walk
  have hempty' := hm.task?_of_empty hl hempty walk
  have hgone := hm'.gone (mem_happenings_append hl p')
  refine ⟨hgone, hempty', ?_, ?_, ?_⟩
  · rw [hm'.pendingTasks_eq, World.seats_eq_nil hempty']
    rfl
  · intro slot k kind hs
    have hbefore := hm.spawned_before hl walk hs
    exact (hceased slot k kind hbefore).append hm' hbefore
  · intro s x o rest a hx hxl hfirst hj hmode
    have hs : x.settled = false := by
      cases hs : x.settled with
      | false => rfl
      | true =>
        obtain ⟨o', ho'⟩ := (hm'.reached.trail.settled_iff hx).mp hs
        exact absurd ho' (hfirst o')
    have hjobs : (m'.step code).jobs = .handOff x.loop (.settle x.cell o) :: rest :=
      (step_settle_of_unsettled hj hmode hx hs).2.2
    refine (hgone.settled s x o rest a hx hxl hj hmode).resolve_left ?_
    rintro ⟨_, hjobs'⟩
    have hlen := congrArg List.length (hjobs.symm.trans hjobs')
    simp at hlen

/-! ## The end of the request -/

/-- The request of thread `t` is over with the step from `m`: what is below it is gone on with, `v`
shows, no loop is current, and nothing is left of loop `l` any more. -/
structure Returned (code : G.Code) (p : List (Machine G)) (m : Machine G) (t : ThreadId)
    (l : LoopId) (rest : List (Job G)) (v : Upshot) : Prop where
  thread : (m.step code).world.thread.id = t
  jobs : (m.step code).jobs = rest
  shows : v.Shows (m.step code).mode
  current : (m.step code).world.thread.current = none
  vanished : ∀ p' m', Walk code (m.step code) p' m' → Vanished code (p ++ m :: p') m' l

/-- The stack of the running thread is the only one of its name. -/
theorem Walked.eq_of_thread (hm : Walked code p m) {q : Parked G} (hq : q ∈ m.strands)
    (hid : q.thread.id = m.world.thread.id) : q.jobs = m.jobs := by
  rw [hm.reached.named.eq hq List.mem_cons_self hid]

theorem Walked.upshot?_of_closed (hm : Walked code p m) (h : m.world.isClosed l = true) :
    m.upshot? l = none := by
  have hfree := hm.reached.free_of_closed h
  cases hj : m.jobs with
  | nil => simp [upshot?, hj]
  | cons job rest => exact upshot?_of_isDrive hj (hfree job (mem_allJobs_of_top hj)).2.1

theorem upshots_of_closed (hm : Walked code p m) (hl : .closed l ∈ p.flatMap happenings)
    (walk : Walk code m p' m') : upshots l p' = [] := by
  refine List.filterMap_eq_nil_iff.mpr fun m₁ hm₁ => ?_
  obtain ⟨p₁, p₂, rfl, before, _⟩ := walk.of_mem hm₁
  have hm₁ := hm.trans before
  exact hm₁.upshot?_of_closed (hm₁.reached.isClosed_of_closed (mem_happenings_append hl p₁))

/-- Where the loop of a request was dropped with its tasks, the request is over with the step that
passes its ending on. -/
theorem Walked.returned_of_ceased (hm : Walked code p m)
    (hj : m.jobs = .serve (.close l) :: v.job :: rest) (hmode : m.mode = .going a)
    (hidle : m.isRunning l = false) (ho : m.world.isClosed l = false)
    (hrest : currentLoop rest = none) (between : Walk code (m.step code) p' m')
    (hi : m'.isIdle = false) (live : m'.isAborted = false) (hj' : m'.jobs = v.job :: rest)
    {b : Answer G} (hgoing : m'.mode = .going b) (hempty : ∀ slot, m'.world.task? l slot = none)
    (hceased : ∀ slot k kind, .spawned l slot k kind ∈ story p →
      Ceased (p ++ m :: p') l slot k kind) :
    Returned code (p ++ m :: p') m' m'.world.thread.id l rest v := by
  obtain ⟨hη, _⟩ := step_close code hj hmode hidle ho
  obtain ⟨hshows, hjobs⟩ := shows_step code hj' hgoing
  obtain ⟨_, _, hworld⟩ := step_ending code hj' hgoing
  have hpath : p ++ [m] ++ p' = p ++ m :: p' := List.append_assoc p [m] p'
  have hclosed : .closed l ∈ (p ++ m :: p').flatMap happenings := by simp [hη]
  have hm₁ : Walked code (p ++ m :: p') m' := hpath ▸ (hm.next_of_going hj hmode rfl).trans between
  have hm₂ := hm₁.next hi live
  refine ⟨by rw [hworld], hjobs, hshows, ?_, fun p₂ m₂ later => ?_⟩
  · have hcurrent := (hm₂.sound.strands _ List.mem_cons_self).current
    simp only [hjobs, hrest] at hcurrent
    exact hcurrent
  · have hempty₂ := hm₁.task?_of_empty hclosed hempty (Walk.here.act hi live)
    have hvanished := hm₂.vanished (mem_happenings_append hclosed [m']) hempty₂ ?_ later
    · simpa using hvanished
    · intro slot k kind hs
      -- whatever was spawned on the loop was spawned before it was dropped
      have hstory : story (p ++ [m]) = story p := by
        have hquiet : m.milestones = [] := by simp [Machine.milestones, hj, hmode, World.told]
        simp [story, hquiet]
      have hm₀ : Walked code (p ++ [m]) (m.step code) := hm.next_of_going hj hmode rfl
      have hsplit : p ++ m :: p' ++ [m'] = p ++ [m] ++ (p' ++ [m']) := by simp
      rw [hsplit] at hs
      have hs₀ := hm₀.spawned_before (by simp [hη]) (between.act hi live) hs
      rw [hstory] at hs₀
      exact (hceased slot k kind hs₀).append hm₂ (mem_story_append hs₀ _)

/-- When the stack of a thread is back to what was below its request, the request is over. -/
theorem Walked.returned (hm : Walked code p m) (hj : m.jobs = .serve (.getResult f) :: rest)
    (hmode : m.mode = .going a) (hnone : m.world.thread.current = none)
    (hl : l = ⟨m.world.loops.size⟩) (hfree : m.claimsOn l = 0)
    (walk : Walk code (m.step code) p' m') (hask : Reserved code l p') (hgentle : Gentle rest p')
    (hid : m'.world.thread.id = m.world.thread.id) (hback : m'.jobs = rest) :
    ∃ v p₁ m₁ p₂, p' = p₁ ++ m₁ :: p₂ ∧ upshots l p' = [v] ∧ Walk code (m.step code) p₁ m₁ ∧
      Returned code (p ++ m :: p₁) m₁ m.world.thread.id l rest v ∧
      Walk code (m₁.step code) p₂ m' := by
  subst hl
  have hrest := hm.currentLoop_below hj hnone
  have hm₁ : Walked code (p ++ [m]) (m.step code) := hm.next_of_going hj hmode rfl
  have hm' := hm₁.trans walk
  rcases hm₁.stands_or_drops hrest hask hgentle (stands_getResult hj hmode hnone hfree) walk with
    ⟨n, q, hq, hqid, hst, _⟩ |
      ⟨p₁, m₁, p₂, v, b, rfl, before, hends, hid₁, hj₁, hmode₁, hidle, ho, after⟩
  · have hlt := hst.length_lt
    rw [hm'.eq_of_thread hq (hqid.trans hid.symm), hback] at hlt
    exact absurd hlt (Nat.lt_irrefl _)
  have hm₂ := hm₁.trans before
  rcases hm₂.ceased_of_close hj₁ hmode₁ hidle ho (List.cons_ne_nil _ _) after with
    ⟨q, hq, hqid, hs⟩ |
      ⟨p₃, m₃, p₄, rfl, between, hi₃, live₃, hid₃, hj₃, hempty, hceased, last⟩
  · have hle := hs.length_le
    rw [hm'.eq_of_thread hq (hqid.trans (hid₁.trans hid.symm)), hback] at hle
    exact absurd hle (by simp)
  obtain ⟨c, hgoing⟩ := going_of_ending live₃ hj₃
    (hgentle m₃ (by simp) (by rw [hj₃]; exact List.suffix_cons _ _))
  have hpath : p ++ [m] ++ p₁ ++ m₁ :: p₃ = p ++ m :: (p₁ ++ m₁ :: p₃) := by simp
  have hreturned := hm₂.returned_of_ceased hj₁ hmode₁ hidle ho hrest between hi₃ live₃ hj₃ hgoing
    hempty hceased
  rw [hpath, hid₃, hid₁] at hreturned
  obtain ⟨hi₁, live₁⟩ := live_of_going hj₁ hmode₁ rfl
  refine ⟨v, p₁ ++ m₁ :: p₃, m₃, p₄, by simp, ?_, ?_, hreturned, last⟩
  · obtain ⟨hη, _⟩ := step_close code hj₁ hmode₁ hidle ho
    have hafter := upshots_of_closed (hm₂.next hi₁ live₁) (l := ⟨m.world.loops.size⟩)
      (by simp [hη]) after
    have htop : m₁.upshot? ⟨m.world.loops.size⟩ = none := upshot?_of_isDrive hj₁ rfl
    have hsplit : p₁ ++ m₁ :: (p₃ ++ m₃ :: p₄) = p₁ ++ ([m₁] ++ (p₃ ++ m₃ :: p₄)) := rfl
    rw [hsplit, upshots_append, upshots_append, hends, hafter]
    simp [upshots, htop]
  · have hwalk := (before.act hi₁ live₁).trans between
    simpa using hwalk

/-! ## The request comes to its end -/

/-- When the main future came to its end, it is dropped, and what a panic owns with it. -/
theorem Walked.step_upshot (hm : Walked code p m) (live : m.isAborted = false) {k : WakerId}
    {batch : List (Entry G)} (hj : m.jobs = .mainPolled l k batch :: rest)
    (hv : m.mode.upshot? = some v) :
    ∃ jobs b, (m.step code).jobs = jobs ++ v.job :: rest ∧ (m.step code).mode = .going b ∧
      ∀ job ∈ jobs, job.isDrop = true := by
  cases hmode : m.mode with
  | aborted => simp [isAborted, hmode] at live
  | unwinding q r =>
    rw [hmode] at hv
    cases hv
    obtain ⟨hjobs, _⟩ := hm.sound.step_panicked code hj hmode
    refine ⟨_, .nothing, hjobs, ?_, ?_⟩
    · rw [step_of_unwinding hj hmode]
      rfl
    · intro job hjob
      rcases List.mem_append.mp hjob with h | h
      all_goals
        obtain ⟨x, _, rfl⟩ := List.mem_map.mp h
        rfl
  | going a =>
    rw [hmode] at hv
    simp only [Mode.upshot?] at hv
    split at hv
    · rename_i r g hpoll
      cases hv
      obtain ⟨hjobs, _⟩ := hm.sound.step_ready code hj hmode hpoll
      refine ⟨[.drop g], .nothing, hjobs, ?_, by simp [Job.isDrop]⟩
      rw [step_of_going hj hmode rfl]
      simp only [perform, mainPolled, hpoll]
      rfl
    · cases hv

/-- What stands below a main future that came to its end is gone through without waiting. -/
theorem leadsTo_close (code : G.Code) (hj : m.jobs = v.job :: frame l rest)
    (hmode : m.mode = .going a) : ∃ m' b, LeadsTo code m m' ∧
      m'.jobs = .serve (.close l) :: v.job :: rest ∧ m'.mode = .going b := by
  have awake : ∀ {m₁ : Machine G} {job : Job G} {below}, m₁.mode.passes? = some v →
      m₁.jobs = job :: below → (job = .restore none ∨ job = .leave l ∨ job = .owned l) →
      m₁.isAborted = false ∧ LeadsTo code m₁ (m₁.step code) := by
    intro m₁ job below hpasses hj₁ hjob
    have live : m₁.isAborted = false := by
      cases h : m₁.mode with
      | aborted => simp [h, Mode.passes?] at hpasses
      | _ => simp [isAborted, h]
    refine ⟨live, leadsTo_step code ?_ live hj₁ ?_⟩
    · obtain rfl | rfl | rfl := hjob <;> cases h : m₁.mode <;>
        simp [isIdle, hj₁, h, mustWait]
    · obtain rfl | rfl | rfl := hjob <;> simp
  obtain ⟨hi, live⟩ := live_of_going hj hmode (by cases v <;> rfl)
  have first := leadsTo_step code hi live hj (fun run => by cases v <;> simp [Upshot.job])
  obtain ⟨hpasses₁, hj₁, _⟩ := step_ending code hj hmode
  obtain ⟨live₁, second⟩ := awake hpasses₁ hj₁ (.inl rfl)
  obtain ⟨hpasses₂, hj₂, _⟩ := passes?_step_frame (l := l) code live₁ hpasses₁ hj₁ (.inl rfl)
  obtain ⟨live₂, third⟩ := awake hpasses₂ hj₂ (.inr (.inl rfl))
  obtain ⟨hpasses₃, hj₃, _⟩ := passes?_step_frame code live₂ hpasses₂ hj₂ (.inr rfl)
  obtain ⟨live₃, last⟩ := awake hpasses₃ hj₃ (.inr (.inr rfl))
  obtain ⟨⟨b, hgoing⟩, hj₄⟩ := step_owned code live₃ hpasses₃ hj₃
  exact ⟨_, b, first.trans (second.trans (third.trans last)), hj₄, hgoing⟩

/-- Where the main future comes to its end, its request still stands. -/
theorem Walked.stands_of_upshot (hm : Walked code p m)
    (hj : m.jobs = .serve (.getResult f) :: rest) (hmode : m.mode = .going a)
    (hnone : m.world.thread.current = none) (hl : l = ⟨m.world.loops.size⟩)
    (hfree : m.claimsOn l = 0) (walk : Walk code (m.step code) p' m') (hask : Reserved code l p')
    (hgentle : Gentle rest p') (hv : m'.upshot? l = some v) :
    upshots l p' = [] ∧ m'.Stands m.world.thread.id l f rest [] := by
  subst hl
  have hm₁ : Walked code (p ++ [m]) (m.step code) := hm.next_of_going hj hmode rfl
  have hm' := hm₁.trans walk
  rcases hm₁.stands_or_drops (hm.currentLoop_below hj hnone) hask hgentle
      (stands_getResult hj hmode hnone hfree) walk with
    hstands | ⟨p₁, m₁, p₂, _, _, rfl, _, _, _, hj₁, hmode₁, hidle, ho, _⟩
  · obtain ⟨_, hnil, _⟩ := hm'.jobs_of_upshot hstands hv
    exact ⟨hnil, hnil ▸ hstands⟩
  · -- a loop that was dropped has no main future
    obtain ⟨hη, _⟩ := step_close code hj₁ hmode₁ hidle ho
    have hclosed : .closed ⟨m.world.loops.size⟩ ∈
        (p ++ [m] ++ (p₁ ++ m₁ :: p₂)).flatMap happenings := by
      simp [hη]
    rw [hm'.upshot?_of_closed (hm'.reached.isClosed_of_closed hclosed)] at hv
    cases hv

/-- Where the main future came to its end, and what is dropped is dropped to the end, the request
comes to its end. -/
theorem Walked.returns (hm : Walked code p m) (h : m.Stands t l f rest [])
    (hv : m.upshot? l = some v) (hdrops : DropsEnd code m rest) :
    m.world.thread.id = t ∧ ∃ m', LeadsTo code m m' ∧ m'.jobs = rest ∧ v.Shows m'.mode := by
  obtain ⟨hid, _, hv, k, batch, hj⟩ := hm.jobs_of_upshot h hv
  refine ⟨hid, ?_⟩
  have live : m.isAborted = false := by
    cases h : m.mode with
    | aborted => simp [h, Mode.upshot?] at hv
    | _ => simp [isAborted, h]
  have hi : m.isIdle = false := by cases h : m.mode <;> simp [isIdle, hj, h, mustWait]
  have hsuffix : ∀ above, rest <:+ above ++ frame l rest := fun above =>
    ⟨above ++ [.restore none, .leave l, .owned l], by simp [frame]⟩
  -- the future is dropped
  obtain ⟨jobs, b, hjobs, hgoing, hall⟩ := hm.step_upshot live hj hv
  have first := leadsTo_step code hi live hj (by simp)
  obtain ⟨m₁, second, hj₁, b₁, hgoing₁⟩ := clears_jobs
    (fun job hjob => jobEnds_of_isDrop (hall job hjob)) (hdrops.after (Walk.here.act hi live))
    (hsuffix [v.job]) hjobs hgoing
  -- the loop is dropped
  obtain ⟨m₂, b₂, third, hj₂, hgoing₂⟩ := leadsTo_close code hj₁ hgoing₁
  obtain ⟨q, walk⟩ := (first.trans (second.trans third)).1
  obtain ⟨m₃, fourth, hj₃, b₃, hgoing₃⟩ := jobEnds_close l m₂ (v.job :: rest) b₂
    (hdrops.after walk) (List.suffix_cons _ _) hj₂ hgoing₂
  obtain ⟨hshows, hrest⟩ := shows_step code hj₃ hgoing₃
  have last : LeadsTo code m₃ (m₃.step code) := by
    obtain ⟨hi₃, live₃⟩ := live_of_going hj₃ hgoing₃ (by cases v <;> rfl)
    exact leadsTo_step code hi₃ live₃ hj₃ (fun run => by cases v <;> simp [Upshot.job])
  exact ⟨_, first.trans (second.trans (third.trans (fourth.trans last))), hrest, hshows⟩

/-- **A request that runs a future on a loop of its own is self-contained.** Whatever the main
future, its tasks and its callbacks do on the new loop, as long as no code asks for that loop to be
run or dropped, no matter what other threads do:

* when the stack of the thread is back at what was below the request, and no panic came out of a
  destructor, the main future came to its end once. Its result or its panic shows, exactly; no loop
  is current on the thread. From then on no entry of the loop is processed, its table is empty, and
  every task that was spawned on it came to its end or was dropped and whoever awaits it told that
  it was cancelled. The loop is closed for whoever has a handle, and even the first transition of a
  source that is bound to it is answered with `LoopClosed`;
* where the main future comes to its end, by a result or a panic, and destructors come to theirs,
  the request does so;
* any other loop is as it was, unless a job touches it: a request about that loop or made inside of
  it, a wake-up or a callback for it, or work of its own. -/
theorem get_result_self_contained (hm : Walked code p m)
    (hj : m.jobs = .serve (.getResult f) :: rest) (hmode : m.mode = .going a)
    (hnone : m.world.thread.current = none) (hl : l = ⟨m.world.loops.size⟩)
    (hfree : m.claimsOn l = 0) :
    (∀ p' m', Walk code (m.step code) p' m' → Reserved code l p' → Gentle rest p' →
      m'.world.thread.id = m.world.thread.id → m'.jobs = rest →
      ∃ v p₁ m₁ p₂, p' = p₁ ++ m₁ :: p₂ ∧ upshots l p' = [v] ∧ Walk code (m.step code) p₁ m₁ ∧
        Returned code (p ++ m :: p₁) m₁ m.world.thread.id l rest v ∧
        Walk code (m₁.step code) p₂ m') ∧
    (∀ p' m' v, Walk code (m.step code) p' m' → Reserved code l p' → Gentle rest p' →
      m'.upshot? l = some v → DropsEnd code m' rest → upshots l p' = [] ∧
      m'.world.thread.id = m.world.thread.id ∧
      ∃ m₁, LeadsTo code m' m₁ ∧ m₁.jobs = rest ∧ v.Shows m₁.mode) ∧
    ∀ l' p' m', l'.index < m.world.loops.size → Walk code (m.step code) p' m' →
      (∀ m₁ ∈ p', m₁.touches l' = false) → m'.world.loop? l' = m.world.loop? l' := by
  refine ⟨?_, ?_, ?_⟩
  · intro p' m' walk hask hgentle hid hback
    exact hm.returned hj hmode hnone hl hfree walk hask hgentle hid hback
  · intro p' m' v walk hask hgentle hv hdrops
    obtain ⟨hnil, hstands⟩ :=
      hm.stands_of_upshot hj hmode hnone hl hfree walk hask hgentle hv
    have hm₁ : Walked code (p ++ [m]) (m.step code) := hm.next_of_going hj hmode rfl
    exact ⟨hnil, (hm₁.trans walk).returns hstands hv hdrops⟩
  · intro l' p' m' hold walk htouch
    obtain ⟨hi, live⟩ := live_of_going hj hmode rfl
    refine ((Walk.here.act hi live).trans walk).untouched hm.sound hold fun m₁ hm₁ => ?_
    rcases List.mem_cons.mp hm₁ with rfl | hm₁
    · simp [touches, hj, Job.touches, Request.touches]
    · exact htouch m₁ hm₁

open Script

/-- Waits for a program that leaves a task and a source behind, and settles the source. -/
def leavesSource : List (String × Statement) :=
  [("get_result", line "get_result" "r" (.getResult (.program (.mk "main"
      [line "source" "s" (.source "s" none),
        line "spawn" "a" (.spawn "a" (.mk "a" [line "yield" "a" (.yield 1)] none none))]
      none none)) false)),
    ("set_result", line "set_result" "s" (.settle "s" (.completed .null)))]

/-- The future that is about to be run on a loop of its own. -/
def requested? (m : Machine G) : Option (Future G.Coroutine × List (Job G)) :=
  match m.jobs, m.mode with
  | .serve (.getResult f) :: rest, .going _ => some (f, rest)
  | _, _ => none

theorem jobs_of_requested (h : m.requested? = some (f, rest)) :
    m.jobs = .serve (.getResult f) :: rest ∧ ∃ a, m.mode = .going a := by
  unfold requested? at h
  split at h
  · rename_i hj hmode
    cases h
    exact ⟨hj, _, hmode⟩
  · cases h

/-- Whether a panic takes away a job that comes after something was dropped. -/
def isHarsh (m : Machine G) : Bool :=
  match m.mode with
  | .unwinding _ _ => m.jobs.head?.any Job.awaitsDrop
  | _ => false

theorem gentle_of_isHarsh (h : p.all (fun m => !m.isHarsh) = true) (rest : List (Job G)) :
    Gentle rest p := by
  intro m hm _ panic r hmode
  have hno := List.all_eq_true.mp h m hm
  simpa [isHarsh, hmode] using hno

/-- The task is cancelled and the source refuses its first transition. -/
theorem get_result_self_contained_of_script :
    ∃ f rest, (follow leavesSource 3).2.requested? = some (f, rest) ∧
      ∃ v p₁ m₁, Returned Script.code ((follow leavesSource 3).1 ++ (follow leavesSource 3).2 :: p₁)
          m₁ ⟨0⟩ ⟨0⟩ rest v ∧
        ∃ p₂, Vanished Script.code p₂
          ((((follow leavesSource 3).2.step Script.code).trace Script.code 28).2.trace
            Script.code 6).2 ⟨0⟩ := by
  have hsome : (follow leavesSource 3).2.requested?.isSome = true := by decide +kernel
  obtain ⟨⟨f, rest⟩, hrequest⟩ := Option.isSome_iff_exists.mp hsome
  obtain ⟨hj, a, hmode⟩ := jobs_of_requested hrequest
  have h := get_result_self_contained (l := ⟨0⟩) (walked_follow leavesSource 3) hj hmode
    (by decide +kernel) (by decide +kernel) (by decide +kernel)
  have walk := walk_trace Script.code ((follow leavesSource 3).2.step Script.code) 28
  have hback : (((follow leavesSource 3).2.step Script.code).trace Script.code 28).2.jobs =
      (follow leavesSource 3).2.jobs.tail := rfl
  have hreserved : ((((follow leavesSource 3).2.step Script.code).trace Script.code 28).1.all
      fun m => (m.asked? Script.code).all fun q => !q.takes ⟨0⟩) = true := by
    decide +kernel
  obtain ⟨v, p₁, m₁, p₂, _, _, _, hreturned, after⟩ := h.1 _ _ walk
    (fun m hm q hq => by simpa [hq] using List.all_eq_true.mp hreserved m hm)
    (gentle_of_isHarsh (by decide +kernel) rest) (by decide +kernel) (by rw [hback, hj]; rfl)
  have hid : (follow leavesSource 3).2.world.thread.id = ⟨0⟩ := by decide +kernel
  rw [hid] at hreturned
  have later := after.trans (walk_trace Script.code
    (((follow leavesSource 3).2.step Script.code).trace Script.code 28).2 6)
  exact ⟨f, rest, hrequest, v, p₁, m₁, hreturned, _, hreturned.vanished _ _ later⟩

end Machine

end RunLoop
