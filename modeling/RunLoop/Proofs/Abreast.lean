import RunLoop.Proofs.Twins

/-!
# Runs that go abreast

Two runs that begin at twins go on side by side: the steps that one of them takes the other takes
too, in the same order, but for what goes on unseen.

* `Abreast` says this of the machines in which the steps are taken.
* `Twins.next`: what one of two twins does next the other does after a few steps that nobody sees.
* `Twins.walk`: so it is in every run, if the threads take their turns alike.
* `Twins.trace`: so it is where the machine itself says whose turn it is.
-/

namespace RunLoop

variable {G : Guest}

/-- Two machines take the same step: their stacks are the same up to the outcome at issue, the code
on top sees the same and gets the same answer, and the same is written. -/
structure SameStep (code : G.Code) (i : Issue) (q q' : Machine G) : Prop where
  view : q.world.view = q'.world.view
  mode : q.mode = q'.mode
  jobs : List.Forall₂ (Like i) q.jobs q'.jobs
  ended : q.threads.ended = q'.threads.ended
  lines : ∃ lines, (q.step code).world.journal = q.world.journal ++ lines ∧
    (q'.step code).world.journal = q'.world.journal ++ lines

/-- `Abreast code i₀ i p p'`: two runs disagree about `i₀`. The steps taken in `p` and those in `p'`
are the same, one after the other, but for those that are aside from the public. Among these, the
failure at issue is reported once at most in each run; `i` is what the runs disagree about then. -/
inductive Abreast (code : G.Code) (i₀ : Issue) :
    Issue → List (Machine G) → List (Machine G) → Prop where
  | here : Abreast code i₀ i₀ [] []
  | both {i p p' q q'} (before : Abreast code i₀ i p p') (same : SameStep code i q q') :
      Abreast code i₀ i (p ++ [q]) (p' ++ [q'])
  | left {i p p' q d} (before : Abreast code i₀ i p p') (side : Sidestep i.loop i.left q d) :
      Abreast code i₀ { i with left := d } (p ++ [q]) p'
  | right {i p p' q' d} (before : Abreast code i₀ i p p') (side : Sidestep i.loop i.right q' d) :
      Abreast code i₀ { i with right := d } p (p' ++ [q'])

namespace Machine

/-- What the main future of loop `l` came to, where the loop is left. -/
def result? (l : LoopId) (m : Machine G) : Option Result :=
  match m.jobs, m.mode with
  | .leave l' :: _, .going a => if l' = l then some a.toResult else none
  | _, _ => none

/-- The public does not notice the handler of loop `l`, if it has one. -/
def Discreet {code : G.Code} (veil : Veil code) (l : LoopId) (m : Machine G) : Prop :=
  ∃ x, m.world.handler? l = some x ∧ ∀ h, x = some h → veil.Hushes h

end Machine

section

variable {code : G.Code} {veil : Veil code} {i i₀ : Issue} {m m' m₁ : Machine G} {l : LoopId}
  {p p' : List (Machine G)}

open Machine

theorem Machine.Walk.sound (walk : Walk code m p m₁) (hs : m.Sound) : m₁.Sound :=
  walk.history.course.sound hs

theorem Machine.Walk.discreet (walk : Walk code m p m₁) (hs : m.Sound) (h : m.Discreet veil l) :
    m₁.Discreet veil l := by
  obtain ⟨x, hx, hh⟩ := h
  exact ⟨x, (walk.history.course.trail hs).handler? hx, hh⟩

theorem Machine.Discreet.hushes (h : m.Discreet veil l) {x : G.Handler}
    (hx : m.world.listener? l = some x) : veil.Hushes x := by
  obtain ⟨y, hy, hh⟩ := h
  refine hh x ?_
  rw [World.listener?, hy] at hx
  exact hx

/-! ## What runs abreast have in common -/

theorem Sidestep.due {d d' : Option Joined} {q : Machine G} (side : Sidestep l d q d') :
    d' = d ∨ d' = none := by
  cases side with
  | spent | handling => exact .inl rfl
  | report => exact .inr rfl

theorem Sidestep.result? {d d' : Option Joined} {q : Machine G} (side : Sidestep l d q d')
    (l' : LoopId) : q.result? l' = none := by
  unfold Machine.result?
  cases side with
  | spent hj | report _ hj => simp only [hj]
  | @handling _ _ above _ _ _ hl hj =>
    rw [hj]
    match above, hl with
    | [], _ => rfl
    | job :: above, hl =>
      have hjob := hl job List.mem_cons_self
      cases job <;> first | rfl | simp [Job.isLeave] at hjob

theorem SameStep.result? {q q' : Machine G} (same : SameStep code i q q') (l : LoopId) :
    q'.result? l = q.result? l := by
  have hjobs := same.jobs
  unfold Machine.result?
  rw [same.mode]
  generalize q.jobs = jobs at hjobs
  generalize q'.jobs = jobs' at hjobs
  cases hjobs with
  | nil => rfl
  | @cons job _ _ _ hlike _ =>
    cases hlike with
    | ended => rfl
    | same =>
      generalize q'.mode = mode
      cases job <;> cases mode <;> rfl

/-- Every main future of one run comes to what it comes to in the other. -/
theorem Abreast.results (h : Abreast code i₀ i p p') (l : LoopId) :
    p.filterMap (Machine.result? l) = p'.filterMap (Machine.result? l) := by
  induction h with
  | here => rfl
  | both _ same ih =>
    rw [List.filterMap_append, List.filterMap_append, ih, filterMap_cons_eq, filterMap_cons_eq,
      same.result?]
  | left _ side ih =>
    rw [List.filterMap_append, ih, filterMap_cons_eq, side.result?]
    simp
  | right _ side ih =>
    rw [List.filterMap_append, ih, filterMap_cons_eq, side.result?]
    simp

/-- Runs that are abreast disagree about what they disagreed about before, or about less. -/
theorem Abreast.issue (h : Abreast code i₀ i p p') :
    i.loop = i₀.loop ∧ i.slot = i₀.slot ∧ (i.left = i₀.left ∨ i.left = none) ∧
      (i.right = i₀.right ∨ i.right = none) := by
  induction h with
  | here => exact ⟨rfl, rfl, .inl rfl, .inl rfl⟩
  | both _ _ ih => exact ih
  | left _ side ih =>
    obtain ⟨hl, hslot, hleft, hright⟩ := ih
    refine ⟨hl, hslot, ?_, hright⟩
    rcases side.due with rfl | rfl
    · exact hleft
    · exact .inr rfl
  | right _ side ih =>
    obtain ⟨hl, hslot, hleft, hright⟩ := ih
    refine ⟨hl, hslot, hleft, ?_⟩
    rcases side.due with rfl | rfl
    · exact hright
    · exact .inr rfl

theorem Sideways.abreast {d d' : Option Joined} (path : Sideways veil l m d p' d' m')
    {q : List (Machine G)} (hl : i.loop = l) (hd : i.right = d) (h : Abreast code i₀ i p q) :
    Abreast code i₀ { i with right := d' } p (q ++ p') := by
  induction path generalizing i q with
  | here =>
    subst hd
    rw [List.append_nil]
    exact h
  | @step m d d' _ _ _ _ side _ ih =>
    subst hl hd
    have h' := ih (i := { i with right := d' }) rfl rfl (h.right side)
    rwa [List.append_assoc] at h'

theorem Sideways.trace {d d' : Option Joined} (path : Sideways veil l m d p d' m') :
    m.trace code p.length = (p, m') := by
  induction path with
  | here => rfl
  | @step m _ _ _ p _ unseen _ _ ih =>
    rw [List.length_cons, Nat.add_comm, trace_add]
    simp [Machine.trace, unseen.awake, unseen.live, ih]

/-! ## Threads that wait -/

/-- The job on top of a stack, if a thread may have to wait for it. -/
def waitsAt : List (Job G) → Option (Job G)
  | .turn l k f [] :: _ => some (.turn l k f [])
  | .await t :: _ => some (.await t)
  | _ => none

/-- The threads that do not run wait for the same in two machines. -/
def WaitAlike (m m' : Machine G) : Prop :=
  List.Forall₂ (fun q q' : Parked G => waitsAt q.jobs = waitsAt q'.jobs) m.threads.parked
    m'.threads.parked

theorem any_mustWait (m : Machine G) (jobs : List (Job G)) :
    jobs.head?.any m.mustWait = (waitsAt jobs).any m.mustWait := by
  match jobs with
  | [] => rfl
  | job :: _ =>
    cases job with
    | turn _ _ _ batch => cases batch <;> rfl
    | _ => rfl

theorem Like.waitsAt {jobs jobs' : List (Job G)} (h : List.Forall₂ (Like i) jobs jobs') :
    waitsAt jobs = waitsAt jobs' := by
  cases h with
  | nil => rfl
  | @cons job _ _ _ hlike _ =>
    cases hlike with
    | ended => rfl
    | same =>
      cases job with
      | turn _ _ _ batch => cases batch <;> rfl
      | _ => rfl

theorem parked_step_of_thread {run : G.Run} {a : Answer G} {rest : List (Job G)}
    (hj : m.jobs = .serve (.thread run) :: rest) (hmode : m.mode = .going a) :
    (m.step code).threads.parked = m.threads.parked ++
      [⟨m.world.thread, .going .nothing, .await ⟨m.threads.count⟩ :: rest⟩] := by
  have hw : m.mustWait (.serve (.thread run)) = false := rfl
  rw [step_of_going hj hmode hw]
  rfl

theorem Akin.waitAlike_step {J J' : Array (Line G)} (akin : Akin veil i J J' m m')
    (h : WaitAlike m m') (hi : m.isIdle = false) (live : m.isAborted = false) :
    WaitAlike (m.step code) (m'.step code) := by
  obtain ⟨job, rest, hj⟩ := Machine.exists_job hi
  obtain ⟨job', rest', hlike, -, hj'⟩ := akin.exists_cons hj
  have hi' := akin.isIdle.trans hi
  have live' := akin.isAborted.trans live
  unfold WaitAlike
  by_cases hthread : ∃ run a, job = .serve (.thread run) ∧ m.mode = .going a
  · obtain ⟨run, a, rfl, hmode⟩ := hthread
    cases hlike
    rw [parked_step_of_thread hj hmode, parked_step_of_thread hj' (akin.mode ▸ hmode),
      akin.count]
    exact List.rel_append h (.cons rfl .nil)
  · have hthread' : ¬∃ run a, job' = .serve (.thread run) ∧ m'.mode = .going a := by
      rintro ⟨run, a, rfl, hmode⟩
      cases hlike
      exact hthread ⟨run, a, rfl, akin.mode ▸ hmode⟩
    rw [Machine.parked_step code hi live hj hthread,
      Machine.parked_step code hi' live' hj' hthread']
    exact h

theorem forall₂_and {α : Type} {R S : α → α → Prop} {as bs : List α} (h : List.Forall₂ R as bs)
    (h' : List.Forall₂ S as bs) : List.Forall₂ (fun a b => R a b ∧ S a b) as bs := by
  induction h with
  | nil => exact .nil
  | cons hab _ ih =>
    cases h' with
    | cons hab' h' => exact .cons ⟨hab, hab'⟩ (ih h')

/-- Where the same threads have to wait, the same one is picked to run. -/
theorem Akin.pick? {J J' : Array (Line G)} (akin : Akin veil i J J' m m')
    {R : Parked G → Parked G → Prop} {ps ps' : List (Parked G)}
    (h : List.Forall₂ (fun q q' => R q q' ∧ waitsAt q.jobs = waitsAt q'.jobs) ps ps') :
    (m.pick? ps = none ∧ m'.pick? ps' = none) ∨
      ∃ q q' others others', m.pick? ps = some (q, others) ∧ m'.pick? ps' = some (q', others') ∧
        R q q' ∧
        List.Forall₂ (fun q q' => R q q' ∧ waitsAt q.jobs = waitsAt q'.jobs) others others' := by
  induction h with
  | nil => exact .inl ⟨rfl, rfl⟩
  | @cons q q' ps ps' hq hps ih =>
    have hwaits : q'.jobs.head?.any m'.mustWait = q.jobs.head?.any m.mustWait := by
      rw [any_mustWait, any_mustWait, hq.2]
      cases waitsAt q'.jobs with
      | none => rfl
      | some job => exact akin.mustWait (.same job)
    unfold Machine.pick?
    rw [hwaits]
    cases q.jobs.head?.any m.mustWait with
    | false => exact .inr ⟨q, q', ps, ps', rfl, rfl, hq.1, hps⟩
    | true =>
      rcases ih with ⟨hnone, hnone'⟩ | ⟨x, x', others, others', hx, hx', hr, hothers⟩
      · exact .inl ⟨by simp [hnone], by simp [hnone']⟩
      · exact .inr ⟨x, x', q :: others, q' :: others', by simp [hx], by simp [hx'], hr,
          .cons hq hothers⟩

/-- Where two machines have to wait at the same point, they let the same thread run. -/
theorem Akin.switch {J J' : Array (Line G)} (akin : Akin veil i J J' m m') (h : WaitAlike m m') :
    Twins veil i J J' m.switch m'.switch ∧ WaitAlike m.switch m'.switch := by
  have twins := akin.twins
  have hwaits : List.Forall₂ (fun q q' : Parked G => waitsAt q.jobs = waitsAt q'.jobs) m.parked
      m'.parked := by
    have hnil : m.jobs = [] ↔ m'.jobs = [] := twins.running.eq_nil_iff
    refine List.rel_append h ?_
    by_cases hj : m.jobs = []
    · simp [hj, hnil.mp hj]
    · have hj' : m'.jobs ≠ [] := fun he => hj (hnil.mpr he)
      simpa [hj, hj'] using Like.waitsAt akin.jobs
  unfold Machine.switch
  rw [← akin.waiting]
  -- the first thread that need not wait runs; if there is none, the one that is due first starts
  rcases akin.pick? (forall₂_and twins.parked_alike hwaits) with
    ⟨hnone, hnone'⟩ | ⟨q, q', others, others', hq, hq', halike, hothers⟩
  · rw [hnone, hnone']
    cases hx : earliest m.threads.waiting with
    | none => exact ⟨twins, h⟩
    | some x => exact ⟨twins.launch (mem_of_earliest hx), hwaits⟩
  · rw [hq, hq']
    exact ⟨akin.toKin.turnTo halike (hothers.imp fun _ _ h => h.1), hothers.imp fun _ _ h => h.2⟩

theorem step_eq_switch (code : G.Code) (hi : m.isIdle = true) (live : m.isAborted = false) :
    m.step code = m.switch := by
  unfold isIdle at hi
  unfold step
  unfold isAborted at live
  split at hi
  · rename_i hj
    cases hm : m.mode with
    | aborted => simp [hm] at live
    | _ => simp [hj]
  · rename_i hj hm
    simp [hj, hm, hi]
  · cases hi

/-! ## One step, and a whole run -/

/-- The two runs go on from twins `m` and `m'` by `p` and `p'`, and come to twins again. -/
structure Goes (veil : Veil code) (i : Issue) (m m' : Machine G) (p p' : List (Machine G))
    (i₁ : Issue) (m₁ m₁' : Machine G) : Prop where
  walk : Walk code m' p' m₁'
  abreast : ∀ i₀ q q', Abreast code i₀ i q q' → Abreast code i₀ i₁ (q ++ p) (q' ++ p')
  twins : Twins veil i₁ m₁.world.journal m₁'.world.journal m₁ m₁'
  happenings : p'.flatMap happenings = p.flatMap happenings
  story : story p' = story p

/-- Of two twins the first goes on aside from the public, or the second can be led, aside from the
public, to where the first is. -/
theorem Twins.settle (h : Twins veil i m.world.journal m'.world.journal m m') (hs : m.Sound)
    (hs' : m'.Sound) (discreet : i.left ≠ none ∨ i.right ≠ none → m.Discreet veil i.loop) :
    (∃ d, Sidestep i.loop i.left m d ∧ veil.Unseen m ∧
      Twins veil { i with left := d } (m.step code).world.journal m'.world.journal (m.step code)
        m') ∨
    ∃ p' d m₂, Sideways veil i.loop m' i.right p' d m₂ ∧
      Akin veil { i with right := d } m.world.journal m₂.world.journal m m₂ := by
  obtain ⟨μ, jobs, jobs', shows, shows', hlike, ho⟩ := h.running.shown
  have hears : i.left ≠ none → ∀ x, m.world.listener? i.loop = some x → veil.Hushes x :=
    fun hleft _ hx => (discreet (.inl hleft)).hushes hx
  have hears' : i.right ≠ none → ∀ x, m'.world.listener? i.loop = some x → veil.Hushes x :=
    fun hright _ hx => (discreet (.inr hright)).hushes (h.listener? _ ▸ hx)
  rcases shows.next hears with ⟨hmode, hj⟩ | ⟨d, side, unseen, shows₁, tells⟩
  · -- nothing is unseen in the first machine: the second comes to the same point
    obtain ⟨p', d, m₂, path, hmode', hj', tells⟩ := shows'.settle hears'
    obtain ⟨hview, hsame, hthreads⟩ := path.unchanged
    obtain ⟨kin, hlike⟩ := h.toKin.swap.aside (i := i.swap) hs'
      (forall₂_swap (fun _ _ h => h.swap) hlike) tells hview hsame hthreads
    exact .inr ⟨p', d, m₂, path, { kin.swap with
      mode := hmode.trans hmode'.symm
      jobs := hj.symm ▸ hj'.symm ▸ forall₂_swap (fun _ _ h => h.swap) hlike
      isOpen := hj.symm ▸ ho }⟩
  · obtain ⟨kin, hlike⟩ := h.toKin.aside hs hlike tells unseen.view unseen.shared unseen.threads
    exact .inl ⟨d, side, unseen,
      { kin with running := ⟨kin.thread, μ, jobs, jobs', shows₁, shows', hlike, ho⟩ }⟩

/-- **One step of one of two twins.** The other does the same after some steps that nobody sees. -/
theorem Twins.next (h : Twins veil i m.world.journal m'.world.journal m m') (hs : m.Sound)
    (hs' : m'.Sound) (handlers : ∀ x, veil.Hushes x ∨ ∀ e, veil.Public (code.handle x e))
    (discreet : i.left ≠ none ∨ i.right ≠ none → m.Discreet veil i.loop) (hi : m.isIdle = false)
    (live : m.isAborted = false) : ∃ n i₁,
      Goes veil i m m' [m] (m'.trace code n).1 i₁ (m.step code) (m'.trace code n).2 ∧
      (WaitAlike m m' → WaitAlike (m.step code) (m'.trace code n).2) := by
  rcases h.settle hs hs' discreet with ⟨d, side, unseen, twins⟩ | ⟨p', d, m₂, path, akin⟩
  · refine ⟨0, { i with left := d }, ⟨.here, ?_, twins, ?_, ?_⟩, fun hw => ?_⟩
    · intro i₀ q q' before
      simpa [trace] using before.left side
    · simp [trace, unseen.happenings]
    · simp [trace, story, unseen.milestones]
    · rw [WaitAlike, unseen.threads]
      exact hw
  · have twins := akin.step handlers hs hi live
    obtain ⟨w, hw, hw'⟩ := twins.world
    have same : SameStep code { i with right := d } m m₂ :=
      ⟨akin.view, akin.mode, akin.jobs, akin.ended, w.journal, by rw [hw]; rfl, by rw [hw']; rfl⟩
    have htrace : m'.trace code (p'.length + 1) = (p' ++ [m₂], m₂.step code) := by
      rw [trace, path.trace]
      simp [akin.isIdle.trans hi, akin.isAborted.trans live]
    refine ⟨p'.length + 1, { i with right := d }, ⟨walk_trace code m' _, ?_, ?_, ?_, ?_⟩, ?_⟩
    · intro i₀ q q' before
      rw [htrace, ← List.append_assoc]
      exact (path.abreast rfl rfl before).both same
    · rw [htrace]
      exact twins.rebase
    · rw [htrace, List.flatMap_append, path.quiet.1, List.flatMap_singleton,
        List.flatMap_singleton, akin.happenings, List.nil_append]
    · have hquiet := path.quiet.2
      rw [story] at hquiet
      rw [htrace, story, story, List.flatMap_append, hquiet, List.flatMap_singleton,
        List.flatMap_singleton, akin.milestones, List.nil_append]
    · intro hw
      rw [htrace]
      refine akin.waitAlike_step ?_ hi live
      rw [WaitAlike, path.unchanged.2.2]
      exact hw

theorem Goes.refl {J J' : Array (Line G)} (h : Twins veil i J J' m m') :
    Goes veil i m m' [] [] i m m' where
  walk := .here
  abreast i₀ q q' before := by rwa [List.append_nil, List.append_nil]
  twins := h.rebase
  happenings := rfl
  story := rfl

theorem Goes.trans {p₁ p₁' : List (Machine G)} {i₁ i₂ : Issue} {m₁' m₂ m₂' : Machine G}
    (h : Goes veil i m m' p p' i₁ m₁ m₁') (h' : Goes veil i₁ m₁ m₁' p₁ p₁' i₂ m₂ m₂') :
    Goes veil i m m' (p ++ p₁) (p' ++ p₁') i₂ m₂ m₂' where
  walk := h.walk.trans h'.walk
  abreast i₀ q q' before := by
    rw [← List.append_assoc, ← List.append_assoc]
    exact h'.abreast i₀ _ _ (h.abreast i₀ q q' before)
  twins := h'.twins
  happenings := by rw [List.flatMap_append, List.flatMap_append, h.happenings, h'.happenings]
  story := by
    have hstory := h.story
    have hstory' := h'.story
    rw [Machine.story, Machine.story] at hstory hstory'
    rw [Machine.story, Machine.story, List.flatMap_append, List.flatMap_append, hstory, hstory']

theorem Goes.switch {i₁ : Issue} {m₁' m₂ m₂' : Machine G} (h : Goes veil i m m' p p' i₁ m₁ m₁')
    (walk : Walk code m' p' m₂') {J J' : Array (Line G)} (twins : Twins veil i₁ J J' m₂ m₂') :
    Goes veil i m m' p p' i₁ m₂ m₂' :=
  { h with walk := walk, twins := twins.rebase }

theorem Goes.discreet {i₁ : Issue} {m₁' : Machine G} (h : Goes veil i m m' p p' i₁ m₁ m₁')
    (hs : m.Sound) (walk : Walk code m p m₁)
    (discreet : i.left ≠ none ∨ i.right ≠ none → m.Discreet veil i.loop) :
    i₁.left ≠ none ∨ i₁.right ≠ none → m₁.Discreet veil i₁.loop := by
  obtain ⟨hl, -, hleft, hright⟩ := (h.abreast i [] [] .here).issue
  intro hdue
  rw [hl]
  refine walk.discreet hs (discreet (hdue.imp ?_ ?_))
  · exact fun hne => hleft.resolve_right hne ▸ hne
  · exact fun hne => hright.resolve_right hne ▸ hne

/-- **Whatever one of two twins does, the other does.** -/
theorem Twins.walk (h : Twins veil i m.world.journal m'.world.journal m m') (hs : m.Sound)
    (hs' : m'.Sound) (handlers : ∀ x, veil.Hushes x ∨ ∀ e, veil.Public (code.handle x e))
    (discreet : i.left ≠ none ∨ i.right ≠ none → m.Discreet veil i.loop)
    (walk : Walk code m p m₁) : ∃ p' i₁ m₁', Goes veil i m m' p p' i₁ m₁ m₁' := by
  induction walk with
  | here => exact ⟨[], i, m', .refl h⟩
  | @act p m₁ walk hi live ih =>
    obtain ⟨p', i₁, m₁', goes⟩ := ih
    obtain ⟨n, i₂, goes', -⟩ := goes.twins.next (walk.sound hs) (goes.walk.sound hs') handlers
      (goes.discreet hs walk discreet) hi live
    exact ⟨_, i₂, _, goes.trans goes'⟩
  | @turnTo p m₁ walk q others hq ih =>
    obtain ⟨p', i₁, m₁', goes⟩ := ih
    obtain ⟨z, hz, hperm⟩ := List.perm_comp_forall₂ hq.symm goes.twins.parked_alike
    obtain ⟨q', others', halike, hothers, rfl⟩ := List.forall₂_cons_left_iff.mp hz
    exact ⟨p', i₁, _, goes.switch (goes.walk.turnTo hperm.symm)
      (goes.twins.toKin.turnTo halike hothers)⟩
  | @launch p m₁ walk x hx ih =>
    obtain ⟨p', i₁, m₁', goes⟩ := ih
    have hx' : x ∈ m₁'.threads.waiting := goes.twins.waiting ▸ hx
    exact ⟨p', i₁, _, goes.switch (goes.walk.launch hx') (goes.twins.launch hx)⟩

/-- Where one of two twins has to wait, and lets another thread run, so does the other. -/
theorem Twins.next_of_isIdle (h : Twins veil i m.world.journal m'.world.journal m m')
    (hw : WaitAlike m m') (hs : m.Sound) (hs' : m'.Sound)
    (discreet : i.left ≠ none ∨ i.right ≠ none → m.Discreet veil i.loop) (hi : m.isIdle = true)
    (live : m.isAborted = false) : ∃ n i₁,
      Goes veil i m m' [] (m'.trace code n).1 i₁ (m.step code) (m'.trace code n).2 ∧
      WaitAlike (m.step code) (m'.trace code n).2 := by
  rcases h.settle hs hs' discreet with ⟨d, -, unseen, -⟩ | ⟨p', d, m₂, path, akin⟩
  · simp [unseen.awake] at hi
  · have hi' := akin.isIdle.trans hi
    have live' := akin.isAborted.trans live
    have hw' : WaitAlike m m₂ := by
      rw [WaitAlike, path.unchanged.2.2]
      exact hw
    have htrace : m'.trace code (p'.length + 1) = (p', m₂.switch) := by
      rw [Machine.trace, path.trace, ← step_eq_switch code hi' live']
      simp [hi']
    obtain ⟨twins, hwaits⟩ := akin.switch hw'
    rw [step_eq_switch code hi live]
    refine ⟨p'.length + 1, { i with right := d }, ⟨walk_trace code m' _, ?_, ?_, ?_, ?_⟩, ?_⟩
    · intro i₀ q q' before
      rw [htrace, List.append_nil]
      exact path.abreast rfl rfl before
    · rw [htrace]
      exact twins.rebase
    · rw [htrace]
      exact path.quiet.1
    · rw [htrace]
      exact path.quiet.2
    · rw [htrace]
      exact hwaits

/-- **Twins go abreast under the order of the threads that the machine keeps to itself.** -/
theorem Twins.trace (h : Twins veil i m.world.journal m'.world.journal m m')
    (hw : WaitAlike m m') (hs : m.Sound) (hs' : m'.Sound)
    (handlers : ∀ x, veil.Hushes x ∨ ∀ e, veil.Public (code.handle x e))
    (discreet : i.left ≠ none ∨ i.right ≠ none → m.Discreet veil i.loop) (n : Nat) : ∃ n' i₁,
      Goes veil i m m' (m.trace code n).1 (m'.trace code n').1 i₁ (m.trace code n).2
        (m'.trace code n').2 ∧ WaitAlike (m.trace code n).2 (m'.trace code n').2 := by
  induction n with
  | zero => exact ⟨0, i, .refl h, hw⟩
  | succ n ih =>
    obtain ⟨n', i₁, goes, hwaits⟩ := ih
    have walk := walk_trace code m n
    have hsound := walk.sound hs
    have hsound' := goes.walk.sound hs'
    have hdiscreet := goes.discreet hs walk discreet
    -- the steps that the second run takes after `n'` come after those that it took before
    suffices ∃ k i₂, Goes veil i₁ (m.trace code n).2 (m'.trace code n').2
        (if (m.trace code n).2.isIdle || (m.trace code n).2.isAborted then []
          else [(m.trace code n).2]) ((m'.trace code n').2.trace code k).1 i₂
        ((m.trace code n).2.step code) ((m'.trace code n').2.trace code k).2 ∧
        WaitAlike ((m.trace code n).2.step code) ((m'.trace code n').2.trace code k).2 by
      obtain ⟨k, i₂, goes', hwaits'⟩ := this
      refine ⟨n' + k, i₂, ?_, ?_⟩
      · rw [trace_add code m' n' k]
        exact goes.trans goes'
      · rw [trace_add code m' n' k]
        exact hwaits'
    cases live : (m.trace code n).2.isAborted with
    | true =>
      rw [(step_of_isAborted code live).2, Bool.or_true]
      exact ⟨0, i₁, .refl goes.twins, hwaits⟩
    | false =>
      cases hi : (m.trace code n).2.isIdle with
      | true => exact goes.twins.next_of_isIdle hwaits hsound hsound' hdiscreet hi live
      | false =>
        obtain ⟨k, i₂, goes', hwaits'⟩ :=
          goes.twins.next hsound hsound' handlers hdiscreet hi live
        exact ⟨k, i₂, goes', hwaits' hwaits⟩

/-! ## Agreement -/

/-- Two runs that disagree about `i₀` take the steps in `p` and `p'` to `m` and `m'`, and agree
about everything else. -/
structure Agree (veil : Veil code) (i₀ : Issue) (p p' : List (Machine G)) (m m' : Machine G) :
    Prop where
  /-- They take the same steps; on all threads the same is still to be done. -/
  abreast : ∃ i, Abreast code i₀ i p p' ∧ List.Forall₂ (Alike veil i) m.strands m'.strands
  happenings : p'.flatMap happenings = p.flatMap happenings
  story : story p' = story p
  results (l : LoopId) : p'.filterMap (result? l) = p.filterMap (result? l)
  view : m'.world.view = m.world.view
  shared : veil.Same m.shared m'.shared
  waiting : m'.threads.waiting = m.threads.waiting
  ended : m'.threads.ended = m.threads.ended

theorem Goes.agree {i₁ : Issue} {m₁' : Machine G} (h : Goes veil i m m' p p' i₁ m₁ m₁') :
    Agree veil i p p' m₁ m₁' := by
  have abreast := h.abreast i [] [] .here
  exact {
    abreast := ⟨i₁, abreast, .cons h.twins.running h.twins.parked⟩
    happenings := h.happenings
    story := h.story
    results := fun l => (abreast.results l).symm
    view := h.twins.view.symm
    shared := h.twins.shared
    waiting := h.twins.waiting.symm
    ended := h.twins.ended.symm }

end

end RunLoop
