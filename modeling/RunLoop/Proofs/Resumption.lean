import RunLoop.Proofs.Waiters
import RunLoop.Proofs.Yielding

/-!
# Observers resume in the order in which they began to wait

When a loop carries out the transition of a source, it wakes those who wait for the cell one after
the other, in the order in which they first asked. Each of them gets queued unless it was queued
before, and the loop polls them in the order in which they were queued. So observers that are not
queued yet resume in the order in which they began to wait.

There are two exceptions. The waker of a task that is at its end may stand ahead; it queues whoever
has the slot now, which may be an observer that began to wait later. And another thread may wake an
observer while the loop is about to.

* `Machine.HandsOver` says that a thread is about to queue a target, and nobody another one.
* `Machine.Walk.handsOver`: the first of the two is queued before the second.
* `Machine.Walk.polls_in_order`: it is polled before the second, too.
* `Machine.Reached.handsOver_of_turn`: a transition that is carried out begins a hand-off.
* `Machine.observers_resume_in_order` puts them together.
-/

namespace RunLoop

variable {G : Guest} {l : LoopId} {k k₁ k₂ : WakerId} {t t₁ t₂ : Target} {c : CellId}
  {o : Outcome}

/-! ## Lists -/

/-- `a` is in a list, and `b` does not stand ahead of it. -/
def Precedes {α : Type} (a b : α) (as : List α) : Prop :=
  ∃ ahead behind, as = ahead ++ a :: behind ∧ b ∉ ahead

theorem Precedes.append {α : Type} {a b : α} {as : List α} (h : Precedes a b as) (bs : List α) :
    Precedes a b (as ++ bs) := by
  obtain ⟨ahead, behind, rfl, hb⟩ := h
  exact ⟨ahead, behind ++ bs, by simp, hb⟩

theorem precedes_of_mem {α : Type} {a b : α} {as : List α} (ha : a ∈ as) (hb : b ∉ as) :
    Precedes a b as := by
  obtain ⟨ahead, behind, rfl⟩ := List.append_of_mem ha
  exact ⟨ahead, behind, rfl, fun h => hb (List.mem_append_left _ h)⟩

theorem Precedes.append_left {α : Type} {a b : α} {as bs : List α} (h : Precedes a b bs)
    (hb : b ∉ as) : Precedes a b (as ++ bs) := by
  obtain ⟨ahead, behind, rfl, hb'⟩ := h
  exact ⟨as ++ ahead, behind, by simp, by simp [hb, hb']⟩

/-- Of two elements the one that precedes the other comes in an earlier part. -/
theorem Precedes.mem_of_append {α : Type} {a b : α} {as bs : List α}
    (h : Precedes a b (as ++ b :: bs)) (hne : a ≠ b) : a ∈ as := by
  obtain ⟨ahead, behind, he, hb⟩ := h
  rcases append_eq_append_cons he.symm with ⟨ρ, rfl, _⟩ | ⟨σ, hσ, rfl⟩
  · simp at hb
  · cases σ with
    | nil => exact absurd (List.cons.inj hσ).1 hne
    | cons i σ =>
      obtain ⟨rfl, _⟩ := List.cons.inj hσ
      simp

theorem Target.entry_injective (h : (t₁.entry : Entry G) = t₂.entry) : t₁ = t₂ := by
  cases t₁ <;> cases t₂ <;> simp_all [Target.entry]

/-! ## Who queues a target -/

/-- Waker `k` does not lead to a new entry for target `t` of loop `l`: it is marked, or is that of
another target. -/
def Inert (w : World G) (l : LoopId) (t : Target) (k : WakerId) : Prop :=
  ∃ x, w.waker? k = some x ∧ (x.notified = true ∨ ¬(x.loop = l ∧ x.target = t))

/-- Nobody is about to queue target `t` of loop `l`. -/
def Still (w : World G) (D : List (Job G)) (l : LoopId) (t : Target) : Prop :=
  ∀ k b, .notify k ∈ D → w.waker? k ≠ some ⟨l, t, b⟩

theorem still_iff {w : World G} {D : List (Job G)} :
    (∀ job ∈ D, job.notifies w l t = false) ↔ Still w D l t := by
  constructor
  · intro h k b hm hx
    have hnot := h _ hm
    simp [Job.notifies, hx] at hnot
  · intro h job hm
    by_contra hnot
    cases job with
    | notify k =>
      have hany : (w.waker? k).any (fun x => x.loop = l && x.target = t) = true := by
        simpa [Job.notifies] using hnot
      obtain ⟨⟨l', t', b⟩, hx, hlabel⟩ := Option.any_eq_true _ _ |>.mp hany
      obtain ⟨rfl, rfl⟩ : l' = l ∧ t' = t := by simpa using hlabel
      exact h k b hm hx
    | _ => simp [Job.notifies] at hnot

instance (w : World G) (D : List (Job G)) (l : LoopId) (t : Target) : Decidable (Still w D l t) :=
  decidable_of_iff _ still_iff

section

variable {w w' : World G} {D D' others before after : List (Job G)} {τ η : List (Happening G)}

/-- Only a waker that was not marked yet queues its target. -/
theorem Effect.wake_of_notify (effect : Effect w others before η w' after)
    (h : .notify k ∈ after) : .wake k ∈ before ∧ ∃ l t, w.waker? k = some ⟨l, t, false⟩ := by
  cases effect with
  | @mark _ x hx hn =>
    obtain rfl : k = _ := by simpa using h
    obtain ⟨l, t, b⟩ := x
    obtain rfl : b = false := hn
    exact ⟨List.mem_singleton.mpr rfl, l, t, hx⟩
  | _ => simp at h

/-- Only a waker of a target queues it. -/
theorem Effect.notify_of_accepted (effect : Effect w others before η w' after)
    (h : .accepted l t.entry ∈ η) : ∃ k b, .notify k ∈ before ∧ w.waker? k = some ⟨l, t, b⟩ := by
  cases effect with
  | @notify k x hx =>
    obtain ⟨rfl, ht⟩ : l = x.loop ∧ t.entry = x.target.entry := by simpa using h
    obtain rfl := Target.entry_injective ht
    exact ⟨k, x.notified, List.mem_singleton.mpr rfl, hx⟩
  | submit | handOver =>
    cases t <;> simp [Target.entry] at h
  | _ => simp at h

/-- Only the turn of a loop processes its entries. -/
theorem Effect.turn_of_processed (effect : Effect w others before η w' after) {e : Entry G}
    (h : .processed l e ∈ η) : ∃ k f rest, .turn l k f (e :: rest) ∈ before := by
  cases effect with
  | processMain | processNobody | processTask | processCall | processSettle | processSettled
  | processStart =>
    obtain ⟨rfl, rfl⟩ : l = _ ∧ e = _ := by simpa using h
    exact ⟨_, _, _, List.mem_singleton.mpr rfl⟩
  | _ => simp at h

/-- A waker that does not lead to a new entry stays so until its target is polled. -/
theorem Effect.inert (effect : Effect w others before η w' after) (h : Inert w l t k)
    (hp : ∀ b, w.waker? k = some ⟨l, t, b⟩ → .polled k ∉ η) : Inert w' l t k := by
  obtain ⟨x, hx, hinert⟩ := h
  obtain ⟨b, hx'⟩ := effect.waker? hx
  refine ⟨_, hx', ?_⟩
  by_cases hl : x.loop = l ∧ x.target = t
  · left
    have hn : w.notified k = true := by simpa [World.notified, hx, hl] using hinert
    have hpolled := hp x.notified (by rw [hx, ← hl.1, ← hl.2])
    have hn' := effect.notified_of_notified hn hpolled
    simpa [World.notified, hx'] using hn'
  · exact .inr hl

/-- As long as no waker of a target is woken that was not marked, nobody is about to queue it. -/
theorem Effect.still (effect : Effect w others before η w' after)
    (trail : Trail .empty [] τ w (before ++ others)) (h : Still w (before ++ others) l t)
    (hw : ∀ k, .wake k ∈ before → w.waker? k ≠ some ⟨l, t, false⟩) :
    Still w' (after ++ others) l t := by
  intro k b hm hx'
  rcases List.mem_append.mp hm with ha | ho
  · obtain ⟨hwake, l', t', hx⟩ := effect.wake_of_notify ha
    obtain ⟨b', hx''⟩ := effect.waker? hx
    cases hx'.symm.trans hx''
    exact hw k hwake hx
  · have hm' := List.mem_append_right before ho
    obtain ⟨x, hx⟩ := Option.isSome_iff_exists.mp (trail.isSome_of_notify hm')
    obtain ⟨b', hx''⟩ := effect.waker? hx
    cases hx'.symm.trans hx''
    exact h k x.notified hm' hx

theorem Still.not_accepted (h : Still w (before ++ others) l t)
    (effect : Effect w others before η w' after) : .accepted l t.entry ∉ η := by
  intro ha
  obtain ⟨k, b, hm, hx⟩ := effect.notify_of_accepted ha
  exact h k b (List.mem_append_left _ hm) hx

theorem Still.same (h : Still w D l t) (hw : w.Agrees w') (hD : D.Perm D') : Still w' D' l t := by
  intro k b hm
  rw [waker?_same hw]
  exact h k b (hD.mem_iff.mpr hm)

theorem Inert.ne (h : Inert w l t k) : w.waker? k ≠ some ⟨l, t, false⟩ := by
  obtain ⟨x, hx, hinert⟩ := h
  rintro hx'
  cases hx.symm.trans hx'
  simp at hinert

theorem Inert.same (h : Inert w l t k) (hw : w.Agrees w') : Inert w' l t k := by
  obtain ⟨x, hx, hinert⟩ := h
  exact ⟨x, (waker?_same hw k).trans hx, hinert⟩

end

/-! ## A hand-off on its way -/

/-- A stack on which observer `k₁` is about to be queued, ahead of target `t₂` of loop `l`: the
wakers ahead of `k₁` do not lead to a new entry for `t₂`, and `k₁` is not marked; or it was marked
just now. -/
inductive Queueing (w : World G) (l : LoopId) (k₁ : WakerId) (t₂ : Target) : List (Job G) → Prop
  | coming (marked : List WakerId) {ahead behind : List WakerId} {below : List (Job G)}
      (hahead : ∀ k ∈ ahead, Inert w l t₂ k) (hk : w.notified k₁ = false) (hne : k₁ ∉ ahead)
      (hd : ∃ job ∈ below, job.isDrive l = true) :
      Queueing w l k₁ t₂ (marked.map .notify ++ (ahead ++ k₁ :: behind).map .wake ++ below)
  | there {below : List (Job G)} (hd : ∃ job ∈ below, job.isDrive l = true) :
      Queueing w l k₁ t₂ (.notify k₁ :: below)

theorem Queueing.exists_isDrive {w : World G} {jobs : List (Job G)}
    (h : Queueing w l k₁ t₂ jobs) : ∃ job ∈ jobs, job.isDrive l = true := by
  cases h with
  | coming _ _ _ _ hd =>
    obtain ⟨job, hm, hj⟩ := hd
    exact ⟨job, List.mem_append_right _ hm, hj⟩
  | there hd =>
    obtain ⟨job, hm, hj⟩ := hd
    exact ⟨job, List.mem_cons_of_mem _ hm, hj⟩

/-- What does not change the marks does not change what a stack is about to do. -/
theorem Queueing.mono {w w' : World G} {jobs : List (Job G)} (h : Queueing w l k₁ t₂ jobs)
    (hinert : ∀ k, Inert w l t₂ k → Inert w' l t₂ k)
    (hk : w.notified k₁ = false → w'.notified k₁ = false) : Queueing w' l k₁ t₂ jobs := by
  cases h with
  | coming _ hahead hk' hne hd =>
    exact .coming _ (fun k hm => hinert k (hahead k hm)) (hk hk') hne hd
  | there hd => exact .there hd

namespace Machine

variable {code : G.Code} {m m' : Machine G} {p : List (Machine G)} {τ τ' η : List (Happening G)}
  {job : Job G} {rest : List (Job G)}

/-- What a step of the running thread does to the duties; of those that were there it takes none
away but the job on top. -/
theorem effect_of_step (code : G.Code) (hm : m.Sound) (hi : m.isIdle = false)
    (live : m.isAborted = false) (hj : m.jobs = job :: rest) :
    ∃ before after others w, (∀ i ∈ before, i = job) ∧ m.duties = before ++ others ∧
      Effect m.world others before m.happenings w after ∧ w.Agrees (m.step code).world ∧
      (after ++ others).Perm (m.step code).duties := by
  rcases acts_of_live code hi live with acts | ⟨m₁, acts, switched⟩
  · obtain ⟨before, after, others, w, hb, hd, hd', effect, hw⟩ := acts.effect_top hm hj
    exact ⟨before, after, others, w, hb, hd, effect, hw, hd' ▸ .refl _⟩
  · obtain ⟨before, after, others, w, hb, hd, hd', effect, hw⟩ := acts.effect_top hm hj
    exact ⟨before, after, others, w, hb, hd, effect, hw.trans switched.objects,
      hd' ▸ switched.duties⟩

theorem exists_isLeave {jobs : List (Job G)} (hs : Stacked jobs) (hm : job ∈ jobs)
    (hj : job.isDrive l = true) : ∃ i ∈ jobs, i.isLeave l = true := by
  obtain ⟨above, below, rfl⟩ := List.append_of_mem hm
  obtain ⟨rest, rfl, _⟩ := framed_of_isDrive (stacked_of_suffix hs) hj
  exact ⟨.leave l, by simp, by simp [Job.isLeave]⟩

/-- Some thread is about to queue observer `k₁`, whose target is `t₁`, and nobody is about to queue
target `t₂`. -/
structure HandsOver (m : Machine G) (l : LoopId) (k₁ : WakerId) (t₁ t₂ : Target) : Prop where
  label : ∃ b, m.world.waker? k₁ = some ⟨l, t₁, b⟩
  still : Still m.world m.duties l t₂
  stack : ∃ q ∈ m.strands, (∃ a, q.mode = .going a) ∧ Queueing m.world l k₁ t₂ q.jobs

theorem Switched.handsOver (switched : m.Switched m') (h : m.HandsOver l k₁ t₁ t₂) :
    m'.HandsOver l k₁ t₁ t₂ := by
  obtain ⟨q, hq, hmode, hqueueing⟩ := h.stack
  refine ⟨?_, h.still.same switched.objects switched.duties, q, ?_, hmode, ?_⟩
  · rw [waker?_same switched.objects]
    exact h.label
  · refine switched.mem_strands hq fun hnil => ?_
    obtain ⟨job, hm, _⟩ := hqueueing.exists_isDrive
    simp [hnil] at hm
  · refine hqueueing.mono (fun k hk => hk.same switched.objects) fun hk => ?_
    rwa [notified_same switched.objects]

/-- The running thread, which is not that of loop `l`, is about to wake target `t` of the loop. -/
def meddles (m : Machine G) (l : LoopId) (t : Target) : Bool :=
  match m.jobs with
  | .wake k :: rest =>
      !rest.any (Job.isLeave l) && (m.world.waker? k).any (fun x => x.loop = l && x.target = t)
  | _ => false

theorem meddles_eq_false (h : m.meddles l t = false) (hj : m.jobs = .wake k :: rest)
    (hl : ∀ i ∈ m.jobs, i.isLeave l = false) (b : Bool) :
    m.world.waker? k ≠ some ⟨l, t, b⟩ := by
  intro hx
  have hrest : rest.any (Job.isLeave l) = false := by
    rw [List.any_eq_false]
    intro i hi
    simp [hl i (hj ▸ List.mem_cons_of_mem _ hi)]
  simp [meddles, hj, hrest, hx] at h

/-- Where a loop is driven by a thread that waits, the running thread does not drive it. -/
theorem Sound.isLeave_eq_false (hm : m.Sound) {q : Parked G} (hq : q ∈ m.threads.parked)
    (hd : ∃ job ∈ q.jobs, job.isDrive l = true) : ∀ i ∈ m.jobs, i.isLeave l = false := by
  obtain ⟨job, hjob, hdrive⟩ := hd
  obtain ⟨i, hi, hleave⟩ :=
    exists_isLeave (hm.strands q (List.mem_cons_of_mem _ hq)).stacked hjob hdrive
  have honce := hm.once l
  rw [allJobs, List.countP_append] at honce
  have hpos : 0 < (m.threads.parked.flatMap (·.jobs)).countP (Job.isLeave l) :=
    List.countP_pos_iff.mpr ⟨i, List.mem_flatMap.mpr ⟨q, hq, hi⟩, hleave⟩
  have hzero : m.jobs.countP (Job.isLeave l) = 0 := by omega
  intro i hi
  simpa using List.countP_eq_zero.mp hzero i hi

/-- Only the turn of a loop polls the targets of the loop. -/
theorem not_polled_of_ne_turn (hm : Reached code τ m) (hi : m.isIdle = false)
    (live : m.isAborted = false) (hj : m.jobs = job :: rest)
    (hne : ∀ k f batch, job ≠ .turn l k f batch) {b : Bool}
    (hx : m.world.waker? k = some ⟨l, t, b⟩) : .polled k ∉ m.happenings := by
  intro hp
  obtain ⟨before, after, others, w, hb, hd, effect, _⟩ :=
    effect_of_step code hm.sound hi live hj
  rcases effect.live_of_polled hp with ⟨l', t', hη, hlive⟩ | ⟨_, _, hnone⟩
  · rw [← hd] at hlive
    obtain ⟨b', hx'⟩ := hm.trail.wired.label k t' hlive
    cases hx.symm.trans hx'
    obtain ⟨k', f, batch, hturn⟩ := effect.turn_of_processed (l := l) (e := t.entry) (by simp [hη])
    exact hne k' f _ (hb _ hturn).symm
  · simp [hx] at hnone

/-- What a step leaves as it is that wakes no unmarked waker of target `t₂`, and polls nobody who
has a waker of it. -/
structure Spares (m m' : Machine G) (l : LoopId) (k₁ : WakerId) (t₁ t₂ : Target) (job : Job G) :
    Prop where
  label : ∃ b, m'.world.waker? k₁ = some ⟨l, t₁, b⟩
  still : Still m'.world m'.duties l t₂
  inert : ∀ k, Inert m.world l t₂ k → Inert m'.world l t₂ k
  unmarked : job ≠ .wake k₁ → m.world.notified k₁ = false → m'.world.notified k₁ = false

theorem spares_of_step (hm : Reached code τ m) (hi : m.isIdle = false)
    (live : m.isAborted = false) (hj : m.jobs = job :: rest)
    (label : ∃ b, m.world.waker? k₁ = some ⟨l, t₁, b⟩) (still : Still m.world m.duties l t₂)
    (hp : ∀ k b, m.world.waker? k = some ⟨l, t₂, b⟩ → .polled k ∉ m.happenings)
    (hwake : ∀ k, job = .wake k → m.world.waker? k ≠ some ⟨l, t₂, false⟩) :
    .accepted l t₂.entry ∉ m.happenings ∧ m.Spares (m.step code) l k₁ t₁ t₂ job := by
  obtain ⟨before, after, others, w, hb, hd, effect, hw, hD⟩ :=
    effect_of_step code hm.sound hi live hj
  have htrail := hm.trail
  rw [hd] at still htrail
  refine ⟨still.not_accepted effect, ?_, ?_, ?_, ?_⟩
  · obtain ⟨b, hx⟩ := label
    obtain ⟨b', hx'⟩ := effect.waker? hx
    exact ⟨b', (waker?_same hw k₁).trans hx'⟩
  · exact (effect.still htrail still fun k hk => hwake k (hb _ hk).symm).same hw hD
  · exact fun k hk => (effect.inert hk (hp k)).same hw
  · intro hne hk
    rw [notified_same hw]
    by_contra hn
    rcases effect.notified (by simpa using hn) with hn | hn
    · simp [hk] at hn
    · exact hne (hb _ (effect.wake_of_notify hn).1).symm

/-- A step of a thread that does not drive loop `l` leaves a hand-off of the loop alone, unless it
wakes one of the targets. -/
theorem handsOver_of_parked (hm : Reached code τ m) (hi : m.isIdle = false)
    (live : m.isAborted = false) (h : m.HandsOver l k₁ t₁ t₂) {q : Parked G}
    (hq : q ∈ m.threads.parked) (hmode : ∃ a, q.mode = .going a)
    (hqueueing : Queueing m.world l k₁ t₂ q.jobs) (h₁ : m.meddles l t₁ = false)
    (h₂ : m.meddles l t₂ = false) :
    .accepted l t₂.entry ∉ m.happenings ∧ (m.step code).HandsOver l k₁ t₁ t₂ := by
  obtain ⟨job, rest, hj, _, hothers⟩ := strand_of_step code hi live
  have hl := hm.sound.isLeave_eq_false hq hqueueing.exists_isDrive
  have hne : ∀ k f batch, job ≠ .turn l k f batch := by
    rintro k f batch rfl
    obtain ⟨i, hi, hleave⟩ := exists_isLeave (hm.sound.strands _ List.mem_cons_self).stacked
      (show Job.turn l k f batch ∈ m.jobs by simp [hj]) (l := l) (by simp [Job.isDrive])
    simp [hl i hi] at hleave
  obtain ⟨haccepted, spares⟩ := spares_of_step hm hi live hj h.label h.still
    (fun k b => not_polled_of_ne_turn hm hi live hj hne)
    (fun k hk => meddles_eq_false h₂ (hk ▸ hj) hl false)
  refine ⟨haccepted, spares.label, spares.still, q, ?_, hmode, ?_⟩
  · refine hothers q hq fun hnil => ?_
    obtain ⟨job, hm, _⟩ := hqueueing.exists_isDrive
    simp [hnil] at hm
  · refine hqueueing.mono spares.inert (spares.unmarked ?_)
    rintro rfl
    obtain ⟨b, hx⟩ := h.label
    exact meddles_eq_false h₁ hj hl b hx

theorem Spares.handsOver (spares : m.Spares m' l k₁ t₁ t₂ job) {a : Answer G}
    (hmode : m'.mode = .going a) (h : Queueing m'.world l k₁ t₂ m'.jobs) :
    m'.HandsOver l k₁ t₁ t₂ :=
  ⟨spares.label, spares.still, _, List.mem_cons_self, ⟨a, hmode⟩, h⟩

theorem jobs_wake (m : Machine G) (k : WakerId) :
    (m.wake k).jobs = (if (m.world.mark k).2 then [] else [.notify k]) ++ m.jobs ∧
      (m.wake k).mode = m.mode := by
  unfold wake
  rcases m.world.mark k with ⟨w, _ | _⟩ <;> exact ⟨rfl, rfl⟩

section

variable (hm : Reached code τ m) (h : m.HandsOver l k₁ t₁ t₂) {a : Answer G}
  (hmode : m.mode = .going a)

include hm h hmode

/-- The thread that carries out a hand-off performs the job on top, a wake-up or the second half of
one. -/
theorem HandsOver.spares (hj : m.jobs = job :: rest) (hw : m.mustWait job = false)
    (hturn : ∀ k f batch, job ≠ .turn l k f batch)
    (hwake : ∀ k, job = .wake k → m.world.waker? k ≠ some ⟨l, t₂, false⟩) :
    .accepted l t₂.entry ∉ m.happenings ∧ m.Spares (m.step code) l k₁ t₁ t₂ job := by
  obtain ⟨hi, live⟩ := live_of_going hj hmode hw
  exact spares_of_step hm hi live hj h.label h.still
    (fun k b => not_polled_of_ne_turn hm hi live hj hturn) hwake

/-- Somebody ahead of the observer is queued. -/
theorem HandsOver.step_of_notify (hj : m.jobs = .notify k :: rest)
    (hq : Queueing m.world l k₁ t₂ rest) :
    .accepted l t₂.entry ∉ m.happenings ∧ (m.step code).HandsOver l k₁ t₁ t₂ := by
  obtain ⟨haccepted, spares⟩ := h.spares hm hmode hj rfl (by simp) (by simp)
  have hstep : m.step code = _ := step_of_going hj hmode rfl
  have hjobs : (m.step code).jobs = rest := by
    rw [hstep]
    rfl
  refine ⟨haccepted, spares.handsOver (a := a) (by rw [hstep]; exact hmode) ?_⟩
  rw [hjobs]
  exact hq.mono spares.inert (spares.unmarked (by simp))

/-- Somebody ahead of the observer is woken, and is queued next unless it was marked before. -/
theorem HandsOver.step_of_wake {ahead behind : List WakerId} {below : List (Job G)}
    (hj : m.jobs = .wake k :: ((ahead ++ k₁ :: behind).map .wake ++ below))
    (hahead : ∀ k' ∈ k :: ahead, Inert m.world l t₂ k') (hk : m.world.notified k₁ = false)
    (hnot : k₁ ∉ k :: ahead) (hd : ∃ job ∈ below, job.isDrive l = true) :
    .accepted l t₂.entry ∉ m.happenings ∧ (m.step code).HandsOver l k₁ t₁ t₂ := by
  rw [List.forall_mem_cons] at hahead
  obtain ⟨hne, hnot⟩ : k₁ ≠ k ∧ k₁ ∉ ahead := by simpa using hnot
  have hwake : ∀ k', (Job.wake k : Job G) = .wake k' → m.world.waker? k' ≠ some ⟨l, t₂, false⟩ := by
    rintro k' ⟨⟩
    exact hahead.1.ne
  obtain ⟨haccepted, spares⟩ := h.spares hm hmode hj rfl (by simp) hwake
  have hstep : m.step code = _ := step_of_going hj hmode rfl
  obtain ⟨hjobs, hmode'⟩ :=
    jobs_wake { m with jobs := ((ahead ++ k₁ :: behind).map .wake ++ below) } k
  refine ⟨haccepted, spares.handsOver (a := a) ?_ ?_⟩
  · rw [hstep]
    exact hmode'.trans hmode
  · have hmarked : (m.step code).jobs = (if (m.world.mark k).2 then [] else [k]).map .notify ++
        (ahead ++ k₁ :: behind).map .wake ++ below := by
      rw [hstep, List.append_assoc]
      refine hjobs.trans ?_
      split <;> rfl
    rw [hmarked]
    exact .coming _ (fun k' hk' => spares.inert k' (hahead.2 k' hk'))
      (spares.unmarked (by simpa using Ne.symm hne) hk) hnot hd

/-- The observer is woken, and is queued next. -/
theorem HandsOver.step_of_own_wake (hne : t₁ ≠ t₂) (hj : m.jobs = .wake k₁ :: rest)
    (hk : m.world.notified k₁ = false) (hd : ∃ job ∈ rest, job.isDrive l = true) :
    .accepted l t₂.entry ∉ m.happenings ∧ (m.step code).HandsOver l k₁ t₁ t₂ := by
  obtain ⟨b, hx⟩ := h.label
  obtain rfl : b = false := by simpa [World.notified, hx] using hk
  have hwake : ∀ k, (Job.wake k₁ : Job G) = .wake k → m.world.waker? k ≠ some ⟨l, t₂, false⟩ := by
    rintro k ⟨⟩ hx'
    cases hx.symm.trans hx'
    exact hne rfl
  obtain ⟨haccepted, spares⟩ := h.spares hm hmode hj rfl (by simp) hwake
  have hstep : m.step code = _ := step_of_going hj hmode rfl
  obtain ⟨hjobs, hmode'⟩ := jobs_wake { m with jobs := rest } k₁
  refine ⟨haccepted, spares.handsOver (a := a) ?_ ?_⟩
  · rw [hstep]
    exact hmode'.trans hmode
  · have hfresh : (m.world.mark k₁).2 = false := by simp [World.mark, hx]
    have hmarked : (m.step code).jobs = .notify k₁ :: rest := by
      rw [hstep]
      refine hjobs.trans ?_
      simp [hfresh]
    rw [hmarked]
    exact .there hd

/-- The observer is queued. -/
theorem HandsOver.accepted_of_notify (hj : m.jobs = .notify k₁ :: rest)
    (hd : ∃ job ∈ rest, job.isDrive l = true) : .accepted l t₁.entry ∈ m.happenings := by
  obtain ⟨b, hx⟩ := h.label
  obtain ⟨job, hjob, hdrive⟩ := hd
  have hopen : m.world.isClosed l = false :=
    hm.opened_of_mem (List.mem_append_left _ (hj ▸ List.mem_cons_of_mem _ hjob)) (.inl hdrive)
  simp [happenings, hj, hmode, performed, hx, handed, hopen]

/-- A step of the thread that carries out a hand-off goes on with it, or queues the observer. -/
theorem handsOver_of_running (hne : t₁ ≠ t₂) (hqueueing : Queueing m.world l k₁ t₂ m.jobs) :
    .accepted l t₂.entry ∉ m.happenings ∧
      (.accepted l t₁.entry ∈ m.happenings ∨ (m.step code).HandsOver l k₁ t₁ t₂) := by
  generalize hj : m.jobs = jobs at hqueueing
  cases hqueueing with
  | there hd =>
    obtain ⟨haccepted, _⟩ := h.spares hm hmode hj rfl (by simp) (by simp)
    exact ⟨haccepted, .inl (h.accepted_of_notify hm hmode hj hd)⟩
  | @coming marked ahead behind below hahead hk hnot hd =>
    cases marked with
    | cons k marked =>
      exact (h.step_of_notify hm hmode hj (.coming _ hahead hk hnot hd)).imp_right .inr
    | nil =>
      cases ahead with
      | cons k ahead =>
        exact (h.step_of_wake hm hmode hj hahead hk hnot hd).imp_right .inr
      | nil =>
        obtain ⟨job, hjob, hdrive⟩ := hd
        have hd' : ∃ job ∈ behind.map .wake ++ below, job.isDrive l = true :=
          ⟨job, List.mem_append_right _ hjob, hdrive⟩
        exact (h.step_of_own_wake hm hmode hne hj hk hd').imp_right .inr

end

/-! ## Runs -/

/-- Until target `t₁` is queued, no thread but that of the loop wakes it or target `t₂`. -/
def Undisturbed (l : LoopId) (t₁ t₂ : Target) (p : List (Machine G)) : Prop :=
  ∀ p₁ x p₂, p = p₁ ++ x :: p₂ → .accepted l t₁.entry ∉ p₁.flatMap happenings →
    x.meddles l t₁ = false ∧ x.meddles l t₂ = false

theorem Undisturbed.of_append {p₁ p₂ : List (Machine G)} (h : Undisturbed l t₁ t₂ p)
    (he : p = p₁ ++ p₂) : Undisturbed l t₁ t₂ p₁ := by
  intro q₁ x q₂ hp
  exact h q₁ x (q₂ ++ p₂) (by simp [he, hp])

theorem undisturbed_of_forall
    (h : ∀ x ∈ p, x.meddles l t₁ = false ∧ x.meddles l t₂ = false) : Undisturbed l t₁ t₂ p := by
  intro p₁ x p₂ hp _
  exact h x (by simp [hp])

/-- **A hand-off on its way queues the observer first.** Whatever else happens meanwhile, the other
target is not queued before. -/
theorem Walk.handsOver (walk : Walk code m p m') (hm : Reached code τ m) (hne : t₁ ≠ t₂)
    (h : m.HandsOver l k₁ t₁ t₂) (hu : Undisturbed l t₁ t₂ p) :
    Precedes t₁.entry t₂.entry (acceptedBy l (p.flatMap happenings)) ∨
      t₂.entry ∉ acceptedBy l (p.flatMap happenings) ∧ m'.HandsOver l k₁ t₁ t₂ := by
  induction walk with
  | here => exact .inr ⟨by simp, h⟩
  | @act p x walk hi live ih =>
    rw [List.flatMap_append, List.flatMap_singleton, acceptedBy, List.filterMap_append]
    rcases ih (hu.of_append rfl) with hbefore | ⟨hnone, hon⟩
    · exact .inl (hbefore.append _)
    by_cases hdone : .accepted l t₁.entry ∈ p.flatMap happenings
    · exact .inl ((precedes_of_mem (mem_acceptedBy.mpr hdone) hnone).append _)
    -- Neither target was queued so far, so a thread still has the hand-off on its stack.
    have hx := hm.append walk.history
    have hstep : .accepted l t₂.entry ∉ x.happenings ∧
        (.accepted l t₁.entry ∈ x.happenings ∨ (x.step code).HandsOver l k₁ t₁ t₂) := by
      obtain ⟨q, hq, ⟨a, hmode⟩, hqueueing⟩ := hon.stack
      rcases List.mem_cons.mp hq with rfl | hq
      · exact handsOver_of_running hx hon hmode hne hqueueing
      · obtain ⟨hx₁, hx₂⟩ := hu p x [] rfl hdone
        exact (handsOver_of_parked hx hi live hon hq ⟨a, hmode⟩ hqueueing hx₁ hx₂).imp_right .inr
    obtain ⟨hnone', hnow | hlater⟩ := hstep
    · rw [← mem_acceptedBy] at hnone' hnow
      exact .inl ((precedes_of_mem hnow hnone').append_left hnone)
    · rw [← mem_acceptedBy] at hnone'
      exact .inr ⟨List.mem_append.not.mpr (not_or.mpr ⟨hnone, hnone'⟩), hlater⟩
  | turnTo _ hp ih => exact (ih hu).imp_right fun h => ⟨h.1, (switched_turnTo hp).handsOver h.2⟩
  | launch _ _ ih => exact (ih hu).imp_right fun h => ⟨h.1, (switched_launch _).handsOver h.2⟩

/-- Of two targets the one whose entry comes first is polled first, whether the entries are there or
are queued on the way. -/
theorem History.polls_in_order (h : History code m τ' m') (hm : Reached code τ m)
    (hopen : m.world.isClosed l = false) (hs : Suspended m.world m.duties l k₁ t₁)
    (hl : Live m.world m.allJobs l k₂ t₂) (hne : t₁ ≠ t₂)
    (hfirst : t₂.entry ∈ m.unprocessed l ++ acceptedBy l τ' →
      Precedes t₁.entry t₂.entry (m.unprocessed l ++ acceptedBy l τ'))
    (lossless : Lossless l τ') (hp : .polled k₂ ∉ τ') {m'' : Machine G} (move : Move code m' η m'')
    (hη : .polled k₂ ∈ η) : .polled k₁ ∈ τ' := by
  obtain ⟨hopen', _, rest, hqueue⟩ := hm.next_poll hl h hp move hη
  have hbalance := h.queue_eq hm hopen' lossless
  rw [hqueue] at hbalance
  -- The entry that is processed next has that of `t₁` ahead of it.
  have hprecedes := hfirst (by simp [hbalance])
  rw [hbalance] at hprecedes
  have hproc := hprecedes.mem_of_append fun he => hne (Target.entry_injective he)
  by_contra hnot
  have hs' := h.suspended hm hopen hopen' hs hnot
  obtain ⟨b, hx⟩ := hm.trail.wired.label k₁ t₁ hs.live
  exact hnot ((h.course.trail hm.sound).polled_of_processed hm.trail.wired (by simp [hx]) hs'.live
    (mem_processedBy.mp hproc))

/-- Of two targets the one whose entry comes first, at any time, is polled first. -/
theorem Walk.polls_first (walk : Walk code m p m') (hm : Reached code τ m)
    (hopen : m.world.isClosed l = false) (hs : Suspended m.world m.duties l k₁ t₁)
    (hl : Live m.world m.allJobs l k₂ t₂) (hne : t₁ ≠ t₂)
    (hfirst : ∀ p₁ p₂ m₁, p = p₁ ++ p₂ → Walk code m p₁ m₁ →
      t₂.entry ∈ m.unprocessed l ++ acceptedBy l (p₁.flatMap happenings) →
        Precedes t₁.entry t₂.entry (m.unprocessed l ++ acceptedBy l (p₁.flatMap happenings)))
    (lossless : Lossless l (p.flatMap happenings)) (hp : .polled k₂ ∈ p.flatMap happenings) :
    Precedes (.polled k₁) (.polled k₂) (p.flatMap happenings) := by
  induction walk with
  | here => simp at hp
  | @act p x walk hi _ ih =>
    rw [List.flatMap_append, List.flatMap_singleton] at lossless hp ⊢
    have lossless' := (lossless_append.mp lossless).1
    by_cases hp' : .polled k₂ ∈ p.flatMap happenings
    · refine (ih (fun p₁ p₂ m₁ he => hfirst p₁ (p₂ ++ [x]) m₁ ?_) lossless' hp').append _
      simp [he]
    · have hx := (List.mem_append.mp hp).resolve_left hp'
      have hp₁ := walk.history.polls_in_order hm hopen hs hl hne (hfirst p [x] x rfl walk) lossless'
        hp' (.act hi) hx
      exact (precedes_of_mem hp₁ hp').append _
  | turnTo _ _ ih => exact ih hfirst lossless hp
  | launch _ _ ih => exact ih hfirst lossless hp

/-- Whom a hand-off on its way queues first is polled first. -/
theorem Walk.polls_in_order (walk : Walk code m p m') (hm : Reached code τ m)
    (hopen : m.world.isClosed l = false) (hs : Suspended m.world m.duties l k₁ t₁)
    (hl : Live m.world m.allJobs l k₂ t₂) (hne : t₁ ≠ t₂) (hnone : t₂.entry ∉ m.unprocessed l)
    (h : m.HandsOver l k t₁ t₂) (hu : Undisturbed l t₁ t₂ p)
    (lossless : Lossless l (p.flatMap happenings)) (hp : .polled k₂ ∈ p.flatMap happenings) :
    Precedes (.polled k₁) (.polled k₂) (p.flatMap happenings) := by
  refine walk.polls_first hm hopen hs hl hne (fun p₁ p₂ m₁ he walk₁ hmem => ?_) lossless hp
  have hmem := (List.mem_append.mp hmem).resolve_left hnone
  have hbefore := (walk₁.handsOver hm hne h (hu.of_append he)).resolve_right
    fun hlater => hlater.1 hmem
  exact hbefore.append_left hnone

/-! ## The hand-off -/

/-- Target `t` of loop `l`, whose waker is `k`, is neither queued nor about to be. -/
structure Rests (m : Machine G) (l : LoopId) (k : WakerId) (t : Target) : Prop where
  live : Live m.world m.allJobs l k t
  unqueued : t.entry ∉ m.unprocessed l
  still : Still m.world m.allJobs l t

/-- The waker of a target that rests is not marked. -/
theorem Rests.waker? (h : m.Rests l k t) (hm : Reached code τ m) (lossless : Lossless l τ)
    (hopen : m.world.isClosed l = false) : m.world.waker? k = some ⟨l, t, false⟩ := by
  have hl := live_duties.mpr h.live
  obtain ⟨b, hx⟩ := hm.trail.wired.label k t hl
  cases b with
  | false => exact hx
  | true =>
    exfalso
    have hphase := phase_fifo_ne_closed hopen
    have hunqueued := h.unqueued
    rw [unprocessed] at hunqueued
    rw [fifo_eq] at hphase hunqueued
    rcases hm.trail.heeded lossless hphase k t hl (by simp [World.notified, hx]) with hq | hn
    · exact hunqueued hq
    · exact h.still k true (List.mem_filter.mp hn).1 hx

/-- While the turn of a loop is about to go on, the futures of all targets of the loop are kept. -/
theorem Reached.suspended_of_turn (hm : Reached code τ m) {f : Future G.Coroutine}
    {batch : List (Entry G)} {k' : WakerId} (hj : m.jobs = .turn l k' f batch :: rest)
    (hl : Live m.world m.allJobs l k t) : Suspended m.world m.duties l k t := by
  have halone := (hm.sound.alone_below (l := l) hj (by simp [Job.isDrive])).2
  have hsame : ∀ i ∈ m.allJobs, i.isDrive l = true ∨ i.isTask l = true →
      i = .turn l k' f batch := by
    intro i hi hdrive
    rw [allJobs_of_top hj] at hi
    rcases List.mem_cons.mp hi with rfl | hi
    · rfl
    · obtain ⟨h₁, h₂⟩ := halone i hi
      simp [h₁, h₂] at hdrive
  cases t with
  | task slot =>
    obtain ⟨_ | work, ht⟩ := hl
    · obtain ⟨p, hp⟩ := hm.walked
      obtain ⟨job, hjob, hholds⟩ := (hp.work_eq_none_iff ht).mp rfl
      have htask := Job.isTask_of_holds hholds
      rw [hsame job hjob (.inr htask)] at htask
      cases htask
    · exact ⟨work, ht⟩
  | main =>
    obtain ⟨job, hjob, hdrives⟩ := hl
    rw [hsame job hjob (.inl (Job.isDrive_of_drives hdrives))] at hdrives
    obtain rfl : k' = k := by simpa [Job.drives] using hdrives
    refine ⟨f, batch, List.mem_filter.mpr ⟨?_, rfl⟩⟩
    rw [allJobs_of_top hj]
    exact List.mem_cons_self

/-- The transition that the loop of the running thread is about to carry out: its loop, its cell and
its outcome. -/
def carriesOut? (m : Machine G) : Option (LoopId × CellId × Outcome) :=
  match m.jobs, m.mode with
  | .turn l _ _ (.call (.settle c o) :: _) :: _, .going _ => some (l, c, o)
  | _, _ => none

theorem jobs_of_carriesOut (h : m.carriesOut? = some (l, c, o)) : ∃ k f batch below a,
    m.jobs = .turn l k f (.call (.settle c o) :: batch) :: below ∧ m.mode = .going a := by
  unfold carriesOut? at h
  split at h
  · rename_i hj hmode
    cases h
    exact ⟨_, _, _, _, _, hj, hmode⟩
  · cases h

section

variable {f : Future G.Coroutine} {batch : List (Entry G)} {k' : WakerId} {a : Answer G}
  {ws ahead behind : List WakerId} (hm : Reached code τ m)
  (hj : m.jobs = .turn l k' f (.call (.settle c o) :: batch) :: rest) (hmode : m.mode = .going a)

include hj hmode

/-- The loop carries out a transition: the cell gets its outcome, and those who wait for it are
woken next, in order. -/
theorem step_of_handOff (code : G.Code) (hc : m.world.cell? c = some (.pending ws)) :
    m.happenings = [.processed l (.call (.settle c o)), .settled c o] ∧
      (m.step code).mode = .going .nothing ∧
      (m.step code).jobs =
        ws.map .wake ++ (.emit (.settled o.transition) :: .turn l k' f batch :: rest) := by
  have hsettle := World.settle?_of_pending hc o
  have hstep : m.step code = _ := step_of_going hj hmode rfl
  refine ⟨?_, ?_, ?_⟩
  · simp [happenings, hj, hmode, performed, entryProcessed, hsettle]
  · simp [hstep, perform, turn, process, call, hsettle, push, insert, go, set]
  · simp [hstep, perform, turn, process, call, hsettle, push, insert, go, set]

include hm

/-- A transition that is carried out finds an unmarked waker of target `t₁` at the cell, and none of
target `t₂` ahead of it. -/
theorem Reached.handsOver_of_turn (hc : m.world.cell? c = some (.pending (ahead ++ k :: behind)))
    (hk : m.world.waker? k = some ⟨l, t₁, false⟩) (hstill : Still m.world m.allJobs l t₂)
    (hahead : ∀ k' ∈ ahead, Inert m.world l t₂ k') (hnot : k ∉ ahead) :
    (m.step code).HandsOver l k t₁ t₂ := by
  obtain ⟨hη, hmode', hjobs⟩ := step_of_handOff hj hmode code hc
  obtain ⟨hi, live⟩ := live_of_going hj hmode rfl
  obtain ⟨_, spares⟩ := spares_of_step hm hi live hj ⟨false, hk⟩
    (fun k b hn => hstill k b (List.mem_filter.mp hn).1) (by simp [hη]) (by simp)
  refine spares.handsOver hmode' ?_
  rw [hjobs]
  refine .coming [] (fun k' hk' => spares.inert k' (hahead k' hk')) ?_ hnot ?_
  · exact spares.unmarked (by simp) (by simp [World.notified, hk])
  · exact ⟨.turn l k' f batch, by simp, by simp [Job.isDrive]⟩

theorem Reached.opened_after_handOff (hc : m.world.cell? c = some (.pending ws)) :
    (m.step code).world.isClosed l = false := by
  obtain ⟨_, _, hjobs⟩ := step_of_handOff hj hmode code hc
  have hm' := hm.next (.act (live_of_going hj hmode rfl).1)
  have hturn : .turn l k' f batch ∈ (m.step code).allJobs :=
    List.mem_append_left _ (by simp [hjobs])
  exact hm'.opened_of_mem hturn (.inl (by simp [Job.isDrive]))

/-- To carry out a transition queues nobody, and polls nobody. -/
theorem Rests.after_handOff (h : m.Rests l k t) (hc : m.world.cell? c = some (.pending ws)) :
    Suspended (m.step code).world (m.step code).duties l k t ∧
      t.entry ∉ (m.step code).unprocessed l := by
  obtain ⟨hη, _, _⟩ := step_of_handOff hj hmode code hc
  have move : Move code m m.happenings (m.step code) := .act (live_of_going hj hmode rfl).1
  have hopen := hm.opened_of_mem (l := l) (mem_allJobs_of_top hj) (.inl (by simp [Job.isDrive]))
  have hopen' := hm.opened_after_handOff hj hmode hc
  constructor
  · have hs := move.suspended hm hopen (hm.suspended_of_turn hj h.live)
    exact hs.resolve_right (by simp [hη])
  · have hbalance := (History.here.next move).queue_eq hm hopen' (by simp [hη, Lossless])
    have haccepted : acceptedBy l ([] ++ m.happenings) = [] := by
      simp [hη, Happening.accepted?]
    rw [haccepted, List.append_nil] at hbalance
    exact fun hmem => h.unqueued (hbalance ▸ List.mem_append_right _ hmem)

/-- Once a transition was carried out, whoever asks for the outcome gets it. -/
theorem Reached.pollCell_after_handOff (hc : m.world.cell? c = some (.pending ws))
    (walk : Walk code (m.step code) p m') (k : WakerId) : (m'.world.pollCell c k).2 = some o := by
  obtain ⟨hη, _, _⟩ := step_of_handOff hj hmode code hc
  obtain ⟨hi, live⟩ := live_of_going hj hmode rfl
  have whole : Walk code m ([m] ++ p) m' := (Walk.here.act hi live).trans walk
  have hfirst : Cell.firstOutcome? (callsOn c (τ ++ ([m] ++ p).flatMap happenings)) = some o := by
    have hcalls : callsOn c (([m] ++ p).flatMap happenings) =
        .settle o :: callsOn c (p.flatMap happenings) := by
      simp [hη, Happening.callOn?]
    have hnone := (hm.waiters hc).1
    rw [Cell.firstOutcome?] at hnone ⊢
    rw [callsOn_append, List.findSome?_append, hnone, hcalls]
    rfl
  have hout := (hm.append whole.history).outcome?_of_settled hfirst
  rw [World.outcome?, Option.bind_eq_some_iff] at hout
  obtain ⟨x, hx, ho⟩ := hout
  cases x with
  | pending ws => cases ho
  | settled o' =>
    cases ho
    simp [World.pollCell, hx, Cell.poll]

end

/-- **Observers resume in the order in which they began to wait, unless an outdated waker stands
ahead.** Let a loop carry out a transition, with outcome `o`, of the source of cell `c`, and let two
targets of the loop be neither queued nor about to be; let nothing be lost by the panic of a main
future. Of the wakers put down at the cell let one lead to target `t₁`, be it the waker of that
target or an unmarked one of whoever was the target before, and let none that was put down earlier
lead to target `t₂`. If no other thread wakes one of them before `t₁` is queued, then target `t₁` is
polled, with its own waker `k₁`, before target `t₂` is polled; and from then on, everybody who asks
the cell gets the outcome. -/
theorem observers_resume_in_order (hm : Reached code τ m)
    (hcarries : m.carriesOut? = some (l, c, o))
    (h₁ : m.Rests l k₁ t₁) (h₂ : m.Rests l k₂ t₂) (hne : t₁ ≠ t₂)
    (hk : k = k₁ ∨ m.world.waker? k = some ⟨l, t₁, false⟩) {ahead behind : List WakerId}
    (hasked : Cell.askers (callsOn c τ) = ahead ++ k :: behind)
    (hahead : ∀ k' ∈ ahead, Inert m.world l t₂ k')
    (walk : Walk code (m.step code) p m') (hu : Undisturbed l t₁ t₂ p)
    (lossless : Lossless l (τ ++ p.flatMap happenings)) :
    (.polled k₂ ∈ p.flatMap happenings →
      Precedes (.polled k₁) (.polled k₂) (p.flatMap happenings)) ∧
    ∀ k', (m'.world.pollCell c k').2 = some o := by
  obtain ⟨k', f, batch, below, a, hj, hmode⟩ := jobs_of_carriesOut hcarries
  obtain ⟨losslessBefore, losslessAfter⟩ := lossless_append.mp lossless
  have hx : m.world.waker? k = some ⟨l, t₁, false⟩ := by
    rcases hk with rfl | hx
    · exact h₁.waker? hm losslessBefore
        (hm.opened_of_mem (mem_allJobs_of_top hj) (.inl (by simp [Job.isDrive])))
    · exact hx
  obtain ⟨ws, hc⟩ := hm.pending_of_turn hj
  obtain rfl : ws = ahead ++ k :: behind := (hm.waiters hc).2.trans hasked
  have hnot : k ∉ ahead := by
    have hnodup := hasked ▸ Cell.nodup_askers (callsOn c τ)
    exact fun hmem => (List.nodup_append.mp hnodup).2.2 k hmem k List.mem_cons_self rfl
  have handsOver : (m.step code).HandsOver l k t₁ t₂ :=
    hm.handsOver_of_turn hj hmode hc hx h₂.still hahead hnot
  have hm' := hm.next (.act (live_of_going hj hmode rfl).1)
  obtain ⟨hs₁, _⟩ := h₁.after_handOff hm hj hmode hc
  obtain ⟨hs₂, hunqueued⟩ := h₂.after_handOff hm hj hmode hc
  constructor
  · exact walk.polls_in_order hm' (hm.opened_after_handOff hj hmode hc) hs₁
      (live_duties.mp hs₂.live) hne hunqueued handsOver hu losslessAfter
  · exact hm.pollCell_after_handOff hj hmode hc walk

open Script

/-- Two tasks that wait for a source, which the main future settles. -/
def observersInTurn : List (String × Statement) :=
  onLoop
    [[line "source" "s" (.source "s" none),
      line "spawn" "a"
        (.spawn "a" (.mk "a" [line "await" "s" (.await .keep .null (.observe "s"))] none none)),
      line "spawn" "b"
        (.spawn "b" (.mk "b" [line "await" "s" (.await .keep .null (.observe "s"))] none none)),
      line "yield" "" (.yield 1), line "set_result" "s" (.settle "s" (.completed .null)),
      line "await" "b" (.await .keep .null (.join "b"))]]

/-- The task that began to wait first is polled first. -/
theorem observers_resume_in_order_of_script :
    (play observersInTurn 72).2.Rests ⟨0⟩ ⟨1⟩ (.task 0) ∧
      (play observersInTurn 72).2.Rests ⟨0⟩ ⟨2⟩ (.task 1) ∧
      Cell.askers (callsOn ⟨0⟩ (play observersInTurn 72).1) = [⟨1⟩, ⟨2⟩] ∧
      Precedes (.polled ⟨1⟩) (.polled ⟨2⟩)
        ((((play observersInTurn 72).2.step Script.code).trace Script.code 24).1.flatMap
          happenings) := by
  have h₁ : (play observersInTurn 72).2.Rests ⟨0⟩ ⟨1⟩ (.task 0) :=
    ⟨live_of_waker (by decide +kernel), by decide +kernel, by decide +kernel⟩
  have h₂ : (play observersInTurn 72).2.Rests ⟨0⟩ ⟨2⟩ (.task 1) :=
    ⟨live_of_waker (by decide +kernel), by decide +kernel, by decide +kernel⟩
  have hasked : Cell.askers (callsOn ⟨0⟩ (play observersInTurn 72).1) = [⟨1⟩, ⟨2⟩] := by
    decide +kernel
  have hcarries : (play observersInTurn 72).2.carriesOut?.any
      (fun x => x.1 = ⟨0⟩ && x.2.1 = ⟨0⟩) = true := by
    decide +kernel
  obtain ⟨⟨l, c, o⟩, hcarries, hx⟩ := Option.any_eq_true _ _ |>.mp hcarries
  obtain ⟨rfl, rfl⟩ : l = ⟨0⟩ ∧ c = ⟨0⟩ := by simpa using hx
  have hu : Undisturbed ⟨0⟩ (.task 0) (.task 1)
      (((play observersInTurn 72).2.step Script.code).trace Script.code 24).1 :=
    undisturbed_of_forall (by decide +kernel)
  have h := observers_resume_in_order (reached_play observersInTurn 72) hcarries h₁ h₂ (by simp)
    (.inl rfl) (show _ = ([] : List WakerId) ++ ⟨1⟩ :: [⟨2⟩] from hasked) (List.forall_mem_nil _)
    (walk_trace Script.code _ 24) hu (by decide +kernel)
  exact ⟨h₁, h₂, hasked, h.1 (by decide +kernel)⟩

/-- A task waits for a first source along with a second one, and is at its end when the second one
is settled; another task waits for the first source, and then a third one, which has the slot of the
one that is gone. -/
def observersBehindOutdated : List (String × Statement) :=
  onLoop
    [[line "source" "s" (.source "s" none), line "source" "u" (.source "u" none),
      line "spawn" "a" (.spawn "a" (.mk "a"
        [line "await" "" (.await .keep .null (.any [.observe "s", .observe "u"]))] none none)),
      line "spawn" "b"
        (.spawn "b" (.mk "b" [line "await" "s" (.await .keep .null (.observe "s"))] none none)),
      line "set_result" "u" (.settle "u" (.completed .null)),
      line "await" "a" (.await .keep .null (.join "a")),
      line "spawn" "c"
        (.spawn "c" (.mk "c" [line "await" "s" (.await .keep .null (.observe "s"))] none none)),
      line "yield" "" (.yield 1), line "set_result" "s" (.settle "s" (.completed .null)),
      line "await" "b" (.await .keep .null (.join "b")),
      line "await" "c" (.await .keep .null (.join "c"))]]

/-- Two tasks wait for a source and are not queued when it is settled, and the one that began to
wait last is polled first. -/
theorem observers_resume_out_of_order : ∃ (τ : List (Happening guest)) (m m' : Machine guest)
    (p : List (Machine guest)) (l : LoopId) (c : CellId) (o : Outcome) (k₁ k₂ : WakerId)
    (t₁ t₂ : Target) (ahead behind : List WakerId), Reached Script.code τ m ∧
      m.carriesOut? = some (l, c, o) ∧ m.Rests l k₁ t₁ ∧ m.Rests l k₂ t₂ ∧ t₁ ≠ t₂ ∧
      Cell.askers (callsOn c τ) = ahead ++ k₁ :: behind ∧ k₂ ∈ behind ∧
      Walk Script.code (m.step Script.code) p m' ∧ Undisturbed l t₁ t₂ p ∧
      Lossless l (τ ++ p.flatMap happenings) ∧ .polled k₂ ∈ p.flatMap happenings ∧
      .polled k₁ ∉ p.flatMap happenings := by
  have hcarries : (play observersBehindOutdated 159).2.carriesOut?.any
      (fun x => x.1 = ⟨0⟩ && x.2.1 = ⟨0⟩) = true := by
    decide +kernel
  obtain ⟨⟨l, c, o⟩, hcarries, hx⟩ := Option.any_eq_true _ _ |>.mp hcarries
  obtain ⟨rfl, rfl⟩ : l = ⟨0⟩ ∧ c = ⟨0⟩ := by simpa using hx
  exact ⟨_, _, _, _, ⟨0⟩, ⟨0⟩, o, ⟨2⟩, ⟨3⟩, .task 1, .task 0, [⟨1⟩], [⟨3⟩],
    reached_play observersBehindOutdated 159, hcarries,
    ⟨live_of_waker (by decide +kernel), by decide +kernel, by decide +kernel⟩,
    ⟨live_of_waker (by decide +kernel), by decide +kernel, by decide +kernel⟩, by simp,
    by decide +kernel, by simp, walk_trace Script.code _ 10,
    undisturbed_of_forall (by decide +kernel), by decide +kernel, by decide +kernel,
    by decide +kernel⟩

end Machine

end RunLoop
