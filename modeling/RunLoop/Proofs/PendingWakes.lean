import RunLoop.Proofs.Wakeups

/-!
# A wake-up is pending until the poll

A wake-up is two steps: the waker is marked, and then, unless it was marked before, the entry of its
target is queued. Whoever wakes it in between finds the mark without an entry. The loop takes two
steps as well: it pops the entry, and later, when it begins the poll, it takes the mark away.
Whoever wakes the target in between finds the mark and leaves no entry. At each of these moments
something is left that leads to a poll.

A step of the machine pops an entry and acts on it at once. Here the two are apart, and all other
threads may take their steps in between.

* `Poised` is a machine with the loops that have an entry in hand, `Poised.Move` is a step of it.
* `Poised.Run.history`: to pop an entry is nothing to anybody else.
* `Poised.Due` says that something is left that leads to a poll.
* `Poised.marked_target_is_due`: as long as the target of a waker that was woken is not polled, its
  poll is due.
-/

namespace RunLoop

variable {G : Guest} {code : G.Code} {l : LoopId} {k : WakerId} {t : Target} {e : Entry G}

/-! ## Wakers that stay marked -/

section

variable {w w' : World G} {D D' others before after : List (Job G)} {τ η : List (Happening G)}

/-- A target that is live was live before, if its waker was there. -/
theorem Effect.live_before (effect : Effect w others before η w' after)
    (hk : (w.waker? k).isSome = true) (h : Live w' (after ++ others) l k t) :
    Live w (before ++ others) l k t := by
  refine (effect.live h).resolve_right ?_
  rintro ⟨hnew, _⟩
  simp [hnew] at hk

/-- A waker that was woken is marked until its target is polled. -/
theorem Trail.notified_of_woken (trail : Trail .empty [] τ w D) {τ₁ τ₂ : List (Happening G)}
    (hτ : τ = τ₁ ++ .woken k :: τ₂) (hp : .polled k ∉ τ₂) : w.notified k = true := by
  induction trail generalizing τ₂ with
  | here => simp at hτ
  | same _ hw _ ih =>
    rw [notified_same hw]
    exact ih hτ hp
  | step _ effect ih =>
    rcases append_eq_append_cons hτ with ⟨ρ, hτ', rfl⟩ | ⟨σ, rfl, _⟩
    · simp only [List.mem_append, not_or] at hp
      exact effect.notified_of_notified (ih hτ' hp.1) hp.2
    · exact effect.notified_of_woken (by simp)

theorem Trail.notified_of_notified (trail : Trail w D τ w' D') (h : w.notified k = true)
    (hp : .polled k ∉ τ) : w'.notified k = true := by
  induction trail with
  | here => exact h
  | same _ hw _ ih =>
    rw [notified_same hw]
    exact ih hp
  | step _ effect ih =>
    simp only [List.mem_append, not_or] at hp
    exact effect.notified_of_notified (ih hp.1) hp.2

/-- The label of a waker does not change. -/
theorem Trail.waker? (trail : Trail w D τ w' D') {x : Waker} (hx : w.waker? k = some x) :
    ∃ b, w'.waker? k = some ⟨x.loop, x.target, b⟩ := by
  induction trail with
  | here => exact ⟨_, hx⟩
  | same _ hw _ ih =>
    rw [waker?_same hw]
    exact ih
  | step _ effect ih =>
    obtain ⟨b, hx'⟩ := ih
    obtain ⟨c, hx''⟩ := effect.waker? hx'
    exact ⟨c, hx''⟩

theorem Trail.isSome_waker? (trail : Trail w D τ w' D') (hk : (w.waker? k).isSome = true) :
    (w'.waker? k).isSome = true := by
  obtain ⟨x, hx⟩ := Option.isSome_iff_exists.mp hk
  obtain ⟨b, hx'⟩ := trail.waker? hx
  simp [hx']

/-- No entry of a target is processed without a poll of the target, as long as it lives. -/
theorem Trail.polled_of_processed (trail : Trail w D τ w' D') (hwired : Wired w D l)
    (hk : (w.waker? k).isSome = true) (hl : Live w' D' l k t) (hp : .processed l t.entry ∈ τ) :
    .polled k ∈ τ := by
  suffices ∀ {τ w' D'}, Trail w D τ w' D' → Wired w' D' l ∧
      (Live w' D' l k t → .processed l t.entry ∈ τ → .polled k ∈ τ) from
    (this trail).2 hl hp
  intro τ w' D' trail
  induction trail with
  | here => exact ⟨hwired, by simp⟩
  | same _ hw hD ih => exact ⟨ih.1.same hw hD, fun hl => ih.2 ((live_same hw hD).mp hl)⟩
  | step trail effect ih =>
    refine ⟨effect.wired ih.1, fun hl hp => ?_⟩
    have hl' := effect.live_before (trail.isSome_waker? hk) hl
    rcases List.mem_append.mp hp with hp | hp
    · exact List.mem_append_left _ (ih.2 hl' hp)
    · exact List.mem_append_right _ (effect.polled_of_processed ih.1 hl' hp)

end

namespace Machine

variable {m m' : Machine G} {η : List (Happening G)}

theorem Move.effect (move : Move code m η m') (hm : m.Sound) :
    η = [] ∧ m.world.Agrees m'.world ∧ m.duties.Perm m'.duties ∨
      ∃ before after others w, m.duties = before ++ others ∧
        Effect m.world others before η w after ∧ w.Agrees m'.world ∧
        (after ++ others).Perm m'.duties := by
  cases move with
  | act hi =>
    rcases act_cases code hi with ⟨hη, hs⟩ | hacts | ⟨m₁, hacts, hsw⟩
    · rw [hs]
      exact .inl ⟨hη, .refl _, .refl _⟩
    · obtain ⟨before, after, others, w, hd, hd', effect, hw⟩ := hacts.effect hm
      exact .inr ⟨before, after, others, w, hd, effect, hw, hd' ▸ .refl _⟩
    · obtain ⟨before, after, others, w, hd, hd', effect, hw⟩ := hacts.effect hm
      exact .inr ⟨before, after, others, w, hd, effect, hw.trans hsw.objects, hd' ▸ hsw.duties⟩
  | turnTo hp => exact .inl ⟨rfl, (switched_turnTo hp).objects, (switched_turnTo hp).duties⟩
  | launch _ => exact .inl ⟨rfl, (switched_launch _).objects, (switched_launch _).duties⟩

/-- Whether somebody lives depends on the duties alone. -/
theorem live_duties : Live m.world m.duties l k t ↔ Live m.world m.allJobs l k t := by
  cases t with
  | task slot => exact Iff.rfl
  | main =>
    refine exists_congr fun job => and_congr_left fun hd => ?_
    have hduty : job.isDuty = true := by
      cases job <;> first | rfl | cases hd
    simp [duties, hduty]

end Machine

/-! ## Entries in hand -/

/-- The entry on which a loop acts next, if it is driven on this stack. -/
def Parked.front? (p : Parked G) : Option (LoopId × Entry G) :=
  match p.jobs, p.mode with
  | .turn l _ _ (e :: _) :: _, .going _ => some (l, e)
  | _, _ => none

theorem Parked.front?_eq_some {p : Parked G} (h : p.front? = some (l, e)) :
    ∃ k f batch below a, p.jobs = .turn l k f (e :: batch) :: below ∧ p.mode = .going a := by
  unfold front? at h
  split at h
  · rename_i hj hmode
    cases h
    exact ⟨_, _, _, _, _, hj, hmode⟩
  · cases h

/-- The running thread. -/
def Machine.running (m : Machine G) : Parked G :=
  ⟨m.world.thread, m.mode, m.jobs⟩

/-- A machine on which the loops `popped` have popped the first entry of their batch, and not acted
on it. -/
structure Poised (G : Guest) where
  machine : Machine G
  popped : List LoopId

namespace Poised

variable {s s' : Poised G} {τ τ' η : List (Happening G)}

/-- A step under any order of the threads. -/
inductive Move (code : G.Code) (s : Poised G) : List (Happening G) → Poised G → Prop where
  /-- The loop of the running thread pops an entry. -/
  | pop {l : LoopId} {e : Entry G} (h : s.machine.running.front? = some (l, e))
      (hl : l ∉ s.popped) : Move code s [] ⟨s.machine, l :: s.popped⟩
  /-- It acts on the entry that it has popped. -/
  | act {l : LoopId} {e : Entry G} (h : s.machine.running.front? = some (l, e))
      (hl : l ∈ s.popped) :
      Move code s s.machine.happenings ⟨s.machine.step code, s.popped.filter (· ≠ l)⟩
  /-- The running thread does anything else, if it need not wait. -/
  | go (h : s.machine.running.front? = none) (hi : s.machine.isIdle = false) :
      Move code s s.machine.happenings ⟨s.machine.step code, s.popped⟩
  /-- Another thread takes over. -/
  | turnTo {p : Parked G} {others : List (Parked G)} (h : s.machine.parked.Perm (p :: others)) :
      Move code s [] ⟨s.machine.turnTo p others, s.popped⟩
  /-- A thread is started. -/
  | launch {x : Waiting G} (h : x ∈ s.machine.threads.waiting) :
      Move code s [] ⟨s.machine.launch x, s.popped⟩

/-- A run from `s`, with what happened on the way. -/
inductive Run (code : G.Code) (s : Poised G) : List (Happening G) → Poised G → Prop where
  | here : Run code s [] s
  | next {τ η : List (Happening G)} {s₁ s₂ : Poised G} (run : Run code s τ s₁)
      (move : Move code s₁ η s₂) : Run code s (τ ++ η) s₂

/-- A run that began with one thread in an empty world, with nothing in hand, comes to `s`. -/
def Reached (code : G.Code) (τ : List (Happening G)) (s : Poised G) : Prop :=
  ∃ shared run, Run code ⟨.start shared run, []⟩ τ s

theorem isIdle_of_front (h : s.machine.running.front? = some (l, e)) :
    s.machine.isIdle = false ∧ s.machine.isAborted = false := by
  obtain ⟨k, f, batch, below, a, hj, hmode⟩ := Parked.front?_eq_some h
  have hj' : s.machine.jobs = .turn l k f (e :: batch) :: below := hj
  have hmode' : s.machine.mode = .going a := hmode
  simp [Machine.isIdle, Machine.isAborted, Machine.mustWait, hj', hmode']

/-- To pop an entry is nothing to anybody else; all other steps are moves of the machine. -/
theorem Move.machine (move : Move code s η s') :
    s'.machine = s.machine ∧ η = [] ∨ Machine.Move code s.machine η s'.machine := by
  cases move with
  | pop => exact .inl ⟨rfl, rfl⟩
  | act h => exact .inr (.act (isIdle_of_front h).1)
  | go _ hi => exact .inr (.act hi)
  | turnTo h => exact .inr (.turnTo h)
  | launch h => exact .inr (.launch h)

theorem Run.history (run : Run code s τ s') : Machine.History code s.machine τ s'.machine := by
  induction run with
  | here => exact .here
  | next _ move ih =>
    rcases move.machine with ⟨hm, rfl⟩ | hmove
    · rw [hm, List.append_nil]
      exact ih
    · exact ih.next hmove

theorem Reached.machine (hs : Reached code τ s) : Machine.Reached code τ s.machine := by
  obtain ⟨shared, run, h⟩ := hs
  exact ⟨shared, run, h.history⟩

theorem Reached.next (hs : Reached code τ s) (move : Move code s η s') :
    Reached code (τ ++ η) s' := by
  obtain ⟨shared, run, h⟩ := hs
  exact ⟨shared, run, h.next move⟩

/-- A step in which an entry is popped and acted on at once is two of the steps here. -/
theorem reached_of_machine {m : Machine G} (hm : Machine.Reached code τ m) :
    Reached code τ ⟨m, []⟩ := by
  obtain ⟨shared, run, history⟩ := hm
  induction history with
  | here => exact ⟨shared, run, .here⟩
  | @next τ η m₁ m₂ _ move ih =>
    cases move with
    | act hi =>
      cases hf : m₁.running.front? with
      | none => exact ih.next (.go hf hi)
      | some f =>
        obtain ⟨l, e⟩ := f
        have popped : Reached code (τ ++ []) ⟨m₁, [l]⟩ := ih.next (.pop hf (by simp))
        rw [List.append_nil] at popped
        simpa using popped.next (.act hf (by simp))
    | turnTo hp => exact ih.next (.turnTo hp)
    | launch hx => exact ih.next (.launch hx)

/-- Loop `l` has popped the entry `e` and acts on it next, on the stack on which it is driven. -/
def InHand (s : Poised G) (l : LoopId) (e : Entry G) : Prop :=
  l ∈ s.popped ∧ ∃ p ∈ s.machine.strands, p.front? = some (l, e)

/-- What a loop drives stays on top of its stack until the thread that drives it takes a step. -/
theorem front?_of_parked {m m' : Machine G} (hp : ∀ p ∈ m.threads.parked, p.jobs ≠ [] →
    p ∈ m'.strands) (hr : ∀ e, m.running.front? ≠ some (l, e))
    (h : ∃ e, ∃ p ∈ m.strands, p.front? = some (l, e)) :
    ∃ e, ∃ p ∈ m'.strands, p.front? = some (l, e) := by
  obtain ⟨e, p, hm, he⟩ := h
  rcases List.mem_cons.mp hm with rfl | hm
  · exact absurd he (hr e)
  · obtain ⟨k, f, batch, below, a, hj, _⟩ := Parked.front?_eq_some he
    exact ⟨e, p, hp p hm (by simp [hj]), he⟩

/-- What has been popped is in hand until the loop acts on it. -/
theorem Move.inHand (move : Move code s η s') (h : ∀ l ∈ s.popped, ∃ e, s.InHand l e) :
    ∀ l ∈ s'.popped, ∃ e, s'.InHand l e := by
  have fronts : ∀ l ∈ s.popped, ∃ e, ∃ p ∈ s.machine.strands, p.front? = some (l, e) := by
    intro l hl
    obtain ⟨e, _, hp⟩ := h l hl
    exact ⟨e, hp⟩
  suffices ∀ l ∈ s'.popped, ∃ e, ∃ p ∈ s'.machine.strands, p.front? = some (l, e) by
    intro l hl
    obtain ⟨e, hp⟩ := this l hl
    exact ⟨e, hl, hp⟩
  have switch : ∀ {m' : Machine G}, s.machine.Switched m' → ∀ l ∈ s.popped,
      ∃ e, ∃ p ∈ m'.strands, p.front? = some (l, e) := by
    intro m' switched l hl
    obtain ⟨e, p, hp, he⟩ := fronts l hl
    obtain ⟨k, f, batch, below, a, hj, _⟩ := Parked.front?_eq_some he
    exact ⟨e, p, switched.mem_strands hp (by simp [hj]), he⟩
  cases move with
  | @pop l e hfront hl =>
    intro l' hl'
    rcases List.mem_cons.mp hl' with rfl | hl'
    · exact ⟨e, _, List.mem_cons_self, hfront⟩
    · exact fronts l' hl'
  | @act l e hfront hl =>
    intro l' hl'
    obtain ⟨hl', hne⟩ : l' ∈ s.popped ∧ l' ≠ l := by simpa using hl'
    obtain ⟨hi, live⟩ := isIdle_of_front hfront
    obtain ⟨_, _, _, _, hothers⟩ := Machine.strand_of_step code hi live
    refine front?_of_parked hothers (fun e' he' => hne ?_) (fronts l' hl')
    cases hfront.symm.trans he'
    rfl
  | go hfront hi =>
    intro l' hl'
    cases live : s.machine.isAborted with
    | true =>
      rw [(Machine.step_of_isAborted code live).2]
      exact fronts l' hl'
    | false =>
      obtain ⟨_, _, _, _, hothers⟩ := Machine.strand_of_step code hi live
      exact front?_of_parked hothers (by simp [hfront]) (fronts l' hl')
  | turnTo hp => exact switch (Machine.switched_turnTo hp)
  | launch hx => exact switch (Machine.switched_launch _)

theorem Reached.inHand (hs : Reached code τ s) : ∀ l ∈ s.popped, ∃ e, s.InHand l e := by
  obtain ⟨shared, start, run⟩ := hs
  induction run with
  | here => simp
  | next _ move ih => exact move.inHand ih

/-! ## What is left of the work -/

/-- The entries that loop `l` accepted and did not pop. -/
def unprocessed (s : Poised G) (l : LoopId) : List (Entry G) :=
  if l ∈ s.popped then (s.machine.unprocessed l).tail else s.machine.unprocessed l

theorem Reached.unprocessed_of_inHand (hs : Reached code τ s) (h : s.InHand l e) :
    s.machine.unprocessed l = e :: s.unprocessed l := by
  obtain ⟨hl, p, hp, he⟩ := h
  obtain ⟨k, f, batch, below, a, hj, _⟩ := Parked.front?_eq_some he
  have hm : Job.turn l k f (e :: batch) ∈ s.machine.allJobs := by
    rw [Machine.allJobs_eq, List.mem_flatMap]
    exact ⟨p, hp, by simp [hj]⟩
  have hb : (e :: batch) ∈ batches l s.machine.allJobs :=
    List.mem_filterMap.mpr ⟨_, hm, by simp [Job.batch?]⟩
  have hone := (hs.machine.tidy l).single
  rw [Machine.duties, batches_filter_isDuty] at hone
  have hhead : (batches l s.machine.allJobs).head? = some (e :: batch) := by
    generalize batches l s.machine.allJobs = bs at hb hone
    cases bs with
    | nil => cases hb
    | cons b bs =>
      obtain rfl : bs = [] := by simpa using hone
      simpa [eq_comm] using hb
  have hqueue : s.machine.unprocessed l = e :: (batch ++ s.machine.world.queued l) := by
    simp [Machine.unprocessed, Machine.fifo, bench, Bench.toFifo, hhead, World.queued]
  rw [unprocessed, if_pos hl, hqueue]
  rfl

theorem Reached.mem_unprocessed (hs : Reached code τ s) (h : e ∈ s.machine.unprocessed l) :
    e ∈ s.unprocessed l ∨ s.InHand l e := by
  by_cases hl : l ∈ s.popped
  · obtain ⟨e', hin⟩ := hs.inHand l hl
    rw [hs.unprocessed_of_inHand hin] at h
    rcases List.mem_cons.mp h with rfl | h
    · exact .inr hin
    · exact .inl h
  · left
    rwa [unprocessed, if_neg hl]

/-- Something is left that leads to a poll of target `t`: its entry, a thread that is about to queue
it, or a loop that has it in hand. -/
def Due (s : Poised G) (l : LoopId) (k : WakerId) (t : Target) : Prop :=
  t.entry ∈ s.unprocessed l ∨ .notify k ∈ s.machine.allJobs ∨ s.InHand l t.entry

/-- The poll of a marked target is due. -/
theorem Reached.due (hs : Reached code τ s) (lossless : Lossless l τ)
    (hopen : s.machine.world.isClosed l = false)
    (hl : Live s.machine.world s.machine.allJobs l k t)
    (hn : s.machine.world.notified k = true) : s.Due l k t := by
  have hphase := Machine.phase_fifo_ne_closed hopen
  rw [Machine.fifo_eq] at hphase
  rcases hs.machine.trail.heeded lossless hphase k t (Machine.live_duties.mpr hl) hn with hq | hm
  · rw [← Machine.fifo_eq] at hq
    rcases hs.mem_unprocessed hq with hq | hq
    · exact .inl hq
    · exact .inr (.inr hq)
  · exact .inr (.inl (List.mem_filter.mp hm).1)

/-! ## What is left leads to a poll -/

theorem Reached.isSome_waker? (hs : Reached code τ s)
    (hl : Live s.machine.world s.machine.allJobs l k t) :
    (s.machine.world.waker? k).isSome = true := by
  obtain ⟨b, hx⟩ := hs.machine.trail.wired.label k t (Machine.live_duties.mpr hl)
  simp [hx]

/-- The loop does not get past an entry of a live target without a poll. -/
theorem Reached.processedBy_before_poll (hs : Reached code τ s)
    (hl : Live s.machine.world s.machine.allJobs l k t) (run : Run code s τ' s')
    (lossless : Lossless l τ') (hl' : Live s'.machine.world s'.machine.allJobs l k t)
    {ahead behind : List (Entry G)} (hu : s.machine.unprocessed l = ahead ++ t.entry :: behind) :
    .polled k ∈ τ' ∨ processedBy l τ' <+: ahead := by
  have hafter := (run.history.fifo hs.machine l).processed_after lossless.signs hu
  rw [filterMap_processed?_signs] at hafter
  rcases hafter with hahead | hpast
  · exact .inr hahead
  · left
    have hp : .processed l t.entry ∈ τ' := mem_processedBy.mp (hpast.subset (by simp))
    exact (run.history.course.trail hs.machine.sound).polled_of_processed hs.machine.trail.wired
      (hs.isSome_waker? hl) (Machine.live_duties.mpr hl') hp

/-- A thread that is about to queue a target does so, unless it takes no step. -/
theorem Reached.accepted_of_notify (hs : Reached code τ s)
    (hopen : s.machine.world.isClosed l = false)
    (hl : Live s.machine.world s.machine.allJobs l k t) (hn : .notify k ∈ s.machine.allJobs)
    (move : Move code s η s') :
    .accepted l t.entry ∈ η ∨ .notify k ∈ s'.machine.allJobs := by
  have hduty : .notify k ∈ s.machine.duties := List.mem_filter.mpr ⟨hn, rfl⟩
  have kept : ∀ {D : List (Job G)}, D.Perm s'.machine.duties → .notify k ∈ D →
      .notify k ∈ s'.machine.allJobs :=
    fun hD h => (List.mem_filter.mp (hD.mem_iff.mp h)).1
  obtain ⟨b, hx⟩ := hs.machine.trail.wired.label k t (Machine.live_duties.mpr hl)
  rcases move.machine with ⟨hm, _⟩ | move
  · right
    rw [hm]
    exact hn
  · rcases move.effect hs.machine.sound with
      ⟨_, _, hD⟩ | ⟨before, after, others, w, hd, effect, _, hD⟩
    · exact .inr (kept hD hduty)
    · rw [hd] at hduty
      rcases List.mem_append.mp hduty with hb | ho
      · refine (effect.accepted_of_notify hb hx).imp_right ?_
        rintro ⟨hc, _⟩
        cases hopen.symm.trans hc
      · exact .inr (kept hD (List.mem_append_right _ ho))

/-- When the loop acts on an entry of a live target, it takes the mark away and begins the poll. -/
theorem Reached.polled_of_processed (hs : Reached code τ s)
    (hl : Live s.machine.world s.machine.allJobs l k t) (move : Move code s η s')
    (hp : .processed l t.entry ∈ η) :
    .polled k ∈ η ∧ s'.machine.world.notified k = false := by
  rcases move.machine with ⟨_, rfl⟩ | move
  · cases hp
  · rcases move.effect hs.machine.sound with
      ⟨rfl, _⟩ | ⟨before, after, others, w, hd, effect, hw, _⟩
    · cases hp
    · have hwired : Wired s.machine.world s.machine.duties l := hs.machine.trail.wired
      have hlive := Machine.live_duties.mpr hl
      rw [hd] at hwired hlive
      have hpolled := effect.polled_of_processed hwired hlive hp
      refine ⟨hpolled, ?_⟩
      rw [notified_same hw]
      exact effect.notified_of_polled hpolled

/-- **A wake-up is pending until the poll.** Whoever wakes whom on whatever threads, as long as
nothing of an open loop is lost by a panic of its main future: where the waker of a live target is
marked, and so wherever it was woken and no poll has begun since, the entry of the target is queued
or in the rest of the batch, or a thread is about to queue it, or the loop has popped it and is
about to act on it. The thread does queue it when it takes its step. When the loop acts on it, it
takes the mark away and begins the poll; and the loop does not get past it without a poll before the
target is at its end. -/
theorem marked_target_is_due (hs : Reached code τ s) (lossless : Lossless l τ)
    (hopen : s.machine.world.isClosed l = false)
    (hl : Live s.machine.world s.machine.allJobs l k t) :
    (s.machine.world.notified k = true → s.Due l k t) ∧
    (∀ τ₁ τ₂, τ = τ₁ ++ .woken k :: τ₂ → .polled k ∉ τ₂ → s.Due l k t) ∧
    (∀ η s', Move code s η s' →
      (.notify k ∈ s.machine.allJobs →
        .accepted l t.entry ∈ η ∨ .notify k ∈ s'.machine.allJobs) ∧
      (.processed l t.entry ∈ η → .polled k ∈ η ∧ s'.machine.world.notified k = false)) ∧
    ∀ τ' s', Run code s τ' s' → Lossless l τ' →
      Live s'.machine.world s'.machine.allJobs l k t →
      ∀ ahead behind, s.machine.unprocessed l = ahead ++ t.entry :: behind →
        .polled k ∈ τ' ∨ processedBy l τ' <+: ahead := by
  refine ⟨hs.due lossless hopen hl, ?_, ?_, ?_⟩
  · intro τ₁ τ₂ hτ hp
    exact hs.due lossless hopen hl (hs.machine.trail.notified_of_woken hτ hp)
  · intro η s' move
    exact ⟨fun hn => hs.accepted_of_notify hopen hl hn move, hs.polled_of_processed hl move⟩
  · intro τ' s' run lossless' hl' ahead behind hu
    exact hs.processedBy_before_poll hl run lossless' hl' hu

open Machine Script

/-- A main future that was woken while it ran; its loop has popped its entry. -/
def wokenInHand : Poised guest :=
  ⟨(play callbackBehindReady 32).2, [⟨0⟩]⟩

theorem reached_wokenInHand : Reached Script.code (play callbackBehindReady 32).1 wokenInHand := by
  have hfront : (play callbackBehindReady 32).2.running.front?.any
      (fun f => f.1 = ⟨0⟩) = true := by
    decide +kernel
  obtain ⟨⟨l, e⟩, hf, hl⟩ := Option.any_eq_true _ _ |>.mp hfront
  obtain rfl : l = ⟨0⟩ := by simpa using hl
  have popped := (reached_of_machine (reached_play callbackBehindReady 32)).next (.pop hf (by simp))
  rw [List.append_nil] at popped
  exact popped

/-- The mark is still there, though nothing is queued for the main future. -/
theorem marked_target_is_due_of_script :
    wokenInHand.machine.world.notified ⟨0⟩ = true ∧ wokenInHand.Due ⟨0⟩ ⟨0⟩ .main := by
  have lossless : Lossless ⟨0⟩ (play callbackBehindReady 32).1 := by decide +kernel
  have hopen : wokenInHand.machine.world.isClosed ⟨0⟩ = false := by decide +kernel
  have hl : Live wokenInHand.machine.world wokenInHand.machine.allJobs ⟨0⟩ ⟨0⟩ .main := by
    show ∃ job ∈ wokenInHand.machine.allJobs, job.drives ⟨0⟩ ⟨0⟩ = true
    decide +kernel
  have hn : wokenInHand.machine.world.notified ⟨0⟩ = true := by decide +kernel
  exact ⟨hn, (marked_target_is_due reached_wokenInHand lossless hopen hl).1 hn⟩

end Poised

end RunLoop
