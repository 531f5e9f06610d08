import RunLoop.Proofs.Batches

/-!
# Wakers and their targets

Every waker stands for one target, a task or a main future, for as long as there is something left
of it to be polled. A wake-up marks the waker, and a marked waker has the entry of its target in the
queue, so that nobody who wakes it later needs to put one in. The mark is taken away right before
the poll that it asks for.

* `Live` says that the target of a waker is not at its end.
* `Wired` ties live targets to the labels of their wakers.
* `Pinged` is kept until the target is polled (`Effect.pinged`).
* `Trail.heeded`: the target of a marked waker is queued.
-/

namespace RunLoop

variable {G : Guest} {l : LoopId} {k : WakerId} {t : Target}

namespace Job

/-- The main future of loop `l` is being driven, and `k` is its waker. -/
def drives (l : LoopId) (k : WakerId) : Job G → Bool
  | mainPolled l' k' _ | turn l' k' _ _ => l' = l && k' = k
  | _ => false

/-- The task in a slot of loop `l` is being polled, or ends. -/
def holds (l : LoopId) (slot : Nat) : Job G → Bool
  | taskPolled l' slot' _ | taskEnded l' slot' _ _ | taskFinished l' slot'
  | taskPanicked l' slot' _ => l' = l && slot' = slot
  | _ => false

theorem isDrive_of_drives {job : Job G} (h : job.drives l k = true) : job.isDrive l = true := by
  cases job <;> simp_all [drives, isDrive]

theorem isTask_of_holds {job : Job G} {slot : Nat} (h : job.holds l slot = true) :
    job.isTask l = true := by
  cases job <;> simp_all [holds, isTask]

end Job

/-- Waker `k` stands for the target `t` of loop `l`, which is not at its end: an unfinished task, or
the main future that runs. -/
def Live (w : World G) (D : List (Job G)) (l : LoopId) (k : WakerId) : Target → Prop
  | .task slot => ∃ work, w.task? l slot = some ⟨k, work⟩
  | .main => ∃ job ∈ D, job.drives l k = true

/-- The waker of a live target is labelled with it, and a task that is out of the table is being
polled, or ends. -/
structure Wired (w : World G) (D : List (Job G)) (l : LoopId) : Prop where
  label : ∀ k t, Live w D l k t → ∃ b, w.waker? k = some ⟨l, t, b⟩
  busy : ∀ slot k, w.task? l slot = some ⟨k, none⟩ → ∃ job ∈ D, job.holds l slot = true

/-- Waker `k` is marked, or is about to be marked. -/
def Pinged (w : World G) (D : List (Job G)) (k : WakerId) : Prop :=
  w.notified k = true ∨ .wake k ∈ D

section

variable {w w' : World G} {others before after : List (Job G)} {η : List (Happening G)}

/-! ## Effects on wakers and targets -/

/-- A waker is there for ever, and its label does not change. -/
theorem Effect.waker? (effect : Effect w others before η w' after) {x : Waker}
    (h : w.waker? k = some x) : ∃ b, w'.waker? k = some ⟨x.loop, x.target, b⟩ := by
  have hne : k ≠ ⟨w.wakers.size⟩ := by
    rintro rfl
    simp [World.waker?_size] at h
  cases effect with
  | mark | marked =>
    rw [World.waker?_mark, h]
    split <;> exact ⟨_, rfl⟩
  | processMain =>
    rw [World.waker?_rearm, h]
    split <;> exact ⟨_, rfl⟩
  | @processTask l _ _ slot =>
    have h' : (w.modifyTasks l (·.modify slot (fun t => { t with work := none }))).waker? k =
        some x := h
    rw [World.waker?_rearm, h']
    split <;> exact ⟨_, rfl⟩
  | enter =>
    rw [World.waker?_newWaker, if_neg hne]
    exact ⟨_, h⟩
  | spawn | processStart =>
    rw [World.waker?_addTask, if_neg hne]
    exact ⟨_, h⟩
  | _ => exact ⟨_, h⟩

theorem Effect.isSome_waker? (effect : Effect w others before η w' after)
    (h : (w.waker? k).isSome = true) : (w'.waker? k).isSome = true := by
  obtain ⟨x, hx⟩ := Option.isSome_iff_exists.mp h
  obtain ⟨b, hx'⟩ := effect.waker? hx
  simp [hx']

/-- Whoever is new stands for a main future that begins to run, and is polled at once, or for a task
that is about to be woken. -/
theorem Effect.waker?_new (effect : Effect w others before η w' after) {x : Waker}
    (h : w.waker? k = none) (h' : w'.waker? k = some x) :
    x.target = .main ∧ .entered x.loop k ∈ η ∧ .polled k ∈ η ∨
      x.target ≠ .main ∧ .wake k ∈ after := by
  have old : w.waker? k ≠ some x := by simp [h]
  cases effect with
  | mark | marked =>
    rw [World.waker?_mark] at h'
    split at h' <;> simp [h] at h'
  | processMain =>
    rw [World.waker?_rearm] at h'
    split at h' <;> simp [h] at h'
  | @processTask l _ _ slot =>
    have h₀ : (w.modifyTasks l (·.modify slot (fun t => { t with work := none }))).waker? k =
        none := h
    rw [World.waker?_rearm] at h'
    split at h' <;> simp [h₀] at h'
  | enter =>
    rw [World.waker?_newWaker] at h'
    split at h'
    · rename_i hk
      obtain rfl := Option.some.inj h'
      exact .inl ⟨rfl, by simp [hk], by simp [hk]⟩
    · exact absurd h' old
  | spawn | processStart =>
    rw [World.waker?_addTask] at h'
    split at h'
    · rename_i hk
      obtain rfl := Option.some.inj h'
      exact .inr ⟨by simp, by simp [hk]⟩
    · exact absurd h' old
  | _ => exact absurd h' old

/-- A task that is found was there before, with the same waker, or is new. Its work left the table
only to be polled. -/
theorem Effect.task? (effect : Effect w others before η w' after) {slot : Nat}
    {work : Option (Work G.Coroutine)} (h : w'.task? l slot = some ⟨k, work⟩) :
    (∃ work', w.task? l slot = some ⟨k, work'⟩ ∧
        (work = none → work' = none ∨ ∃ job ∈ after, job.holds l slot = true)) ∨
      work ≠ none ∧ w.waker? k = none ∧ w'.waker? k = some ⟨l, .task slot, false⟩ ∧
        .wake k ∈ after := by
  have kept : w.task? l slot = some ⟨k, work⟩ →
      ∃ work', w.task? l slot = some ⟨k, work'⟩ ∧
        (work = none → work' = none ∨ ∃ job ∈ after, job.holds l slot = true) :=
    fun h => ⟨work, h, .inl⟩
  cases effect with
  | build c =>
    rw [World.task?_build] at h
    split at h
    · cases h
    · exact .inl (kept h)
  | drain => exact .inl (kept (World.task?_of_drain h))
  | spawn | processStart =>
    rcases World.task?_of_addTask h with ⟨rfl, rfl, ht⟩ | h
    · cases ht
      refine .inr ⟨Option.some_ne_none _, World.waker?_size w, ?_, List.mem_cons_self⟩
      rw [World.waker?_addTask, if_pos rfl]
    · exact .inl (kept h)
  | close | take | mainReady =>
    rw [World.task?_modifyQueue] at h
    exact .inl (kept h)
  | submit | handOver | notify =>
    rw [World.enqueue, World.task?_modifyQueue] at h
    exact .inl (kept h)
  | processTask =>
    rw [World.task?_rearm, World.task?_modify] at h
    split at h
    · rename_i hl
      obtain ⟨⟨k', work'⟩, ht, he⟩ := Option.map_eq_some_iff.mp h
      cases he
      exact .inl ⟨work', ht, fun _ => .inr ⟨_, List.mem_cons_self, by simp [Job.holds, hl]⟩⟩
    · exact .inl (kept h)
  | taskPending =>
    rw [World.task?_modify] at h
    split at h
    · obtain ⟨⟨k', work'⟩, ht, he⟩ := Option.map_eq_some_iff.mp h
      cases he
      exact .inl ⟨work', ht, fun he => absurd he (Option.some_ne_none _)⟩
    · exact .inl (kept h)
  | taskFinished | taskPanicked =>
    rw [World.task?_removeTask] at h
    split at h
    · cases h
    · exact .inl (kept h)
  | _ => exact .inl (kept h)

/-- A main future that is being driven was driven before, or is new. -/
theorem Effect.drives (effect : Effect w others before η w' after)
    (h : ∃ job ∈ after, job.drives l k = true) :
    (∃ job ∈ before, job.drives l k = true) ∨
      w.waker? k = none ∧ w'.waker? k = some ⟨l, .main, false⟩ ∧ .polled k ∈ η := by
  cases effect with
  | @enter l' =>
    obtain ⟨rfl, rfl⟩ : l' = l ∧ ⟨w.wakers.size⟩ = k := by simpa [Job.drives] using h
    refine .inr ⟨World.waker?_size w, ?_, by simp⟩
    rw [World.waker?_newWaker, if_pos rfl]
  | processSettle =>
    refine .inl ?_
    simpa [or_and_right, exists_or, Job.drives] using h
  | take | processMain | processNobody | processTask | processCall | processSettled
  | processStart | mainPending =>
    exact .inl (by simpa [Job.drives] using h)
  | _ => simp [Job.drives] at h

/-- A target that is live was live before, or its waker is new. -/
theorem Effect.live (effect : Effect w others before η w' after)
    (h : Live w' (after ++ others) l k t) :
    Live w (before ++ others) l k t ∨
      w.waker? k = none ∧ w'.waker? k = some ⟨l, t, false⟩ ∧ (.wake k ∈ after ∨ .polled k ∈ η) := by
  cases t with
  | task slot =>
    obtain ⟨work, h⟩ := h
    rcases effect.task? h with ⟨work', h, _⟩ | ⟨_, hnew, hx, hw⟩
    · exact .inl ⟨work', h⟩
    · exact .inr ⟨hnew, hx, .inl hw⟩
  | main =>
    obtain ⟨job, hm, hd⟩ := h
    rcases List.mem_append.mp hm with hm | hm
    · rcases effect.drives ⟨job, hm, hd⟩ with ⟨job', hm', hd'⟩ | ⟨hnew, hx, hp⟩
      · exact .inl ⟨job', List.mem_append_left _ hm', hd'⟩
      · exact .inr ⟨hnew, hx, .inr hp⟩
    · exact .inl ⟨job, List.mem_append_right _ hm, hd⟩

/-- Whoever polls a task either goes on with it, puts it back or removes it. -/
theorem Effect.holds (effect : Effect w others before η w' after) {slot : Nat}
    (h : ∃ job ∈ before, job.holds l slot = true) (h' : w'.task? l slot = some ⟨k, none⟩) :
    ∃ job ∈ after, job.holds l slot = true := by
  cases effect with
  | @taskPending l' slot' =>
    have hl : l' = l ∧ slot' = slot := by simpa [Job.holds] using h
    rw [World.task?_modify, if_pos hl] at h'
    simp at h'
  | @taskFinished l' slot' | @taskPanicked l' slot' =>
    have hl : l' = l ∧ slot' = slot := by simpa [Job.holds] using h
    rw [World.task?_removeTask, if_pos hl] at h'
    cases h'
  | taskEnding | taskEnded | taskEndPanicked => simpa [Job.holds] using h
  | _ => simp [Job.holds] at h

theorem Effect.wired (effect : Effect w others before η w' after)
    (h : Wired w (before ++ others) l) : Wired w' (after ++ others) l := by
  constructor
  · intro k t hl
    rcases effect.live hl with hl | ⟨_, hx, _⟩
    · obtain ⟨b, hx⟩ := h.label k t hl
      exact effect.waker? hx
    · exact ⟨_, hx⟩
  · intro slot k ht
    have held : ∀ {jobs : List (Job G)}, (∃ job ∈ jobs, job.holds l slot = true) →
        ∃ job ∈ jobs ++ others, job.holds l slot = true :=
      fun ⟨job, hm, hj⟩ => ⟨job, List.mem_append_left _ hm, hj⟩
    rcases effect.task? ht with ⟨work, hw, hnone⟩ | ⟨hne, _⟩
    · rcases hnone rfl with rfl | ha
      · obtain ⟨job, hm, hj⟩ := h.busy slot k hw
        rcases List.mem_append.mp hm with hm | hm
        · exact held (effect.holds ⟨job, hm, hj⟩ ht)
        · exact ⟨job, List.mem_append_right _ hm, hj⟩
      · exact held ha
    · exact absurd rfl hne

/-! ## Effects on marks -/

/-- Whoever marks a waker queues its target next. -/
theorem Effect.notified (effect : Effect w others before η w' after)
    (h : w'.notified k = true) : w.notified k = true ∨ .notify k ∈ after := by
  cases effect with
  | mark =>
    rw [World.notified_mark] at h
    split at h
    · rename_i hk
      exact .inr (by simp [hk])
    · exact .inl h
  | marked hx hn =>
    rw [World.notified_mark] at h
    split at h
    · rename_i hk
      exact .inl (by simpa [World.notified, ← hk, hx] using hn)
    · exact .inl h
  | processMain | processTask =>
    rw [World.notified_rearm] at h
    split at h
    · cases h
    · exact .inl h
  | enter =>
    rw [World.notified_newWaker] at h
    exact .inl h
  | spawn | processStart =>
    rw [World.notified_addTask] at h
    exact .inl h
  | _ => exact .inl h

/-- When its target is polled, a waker is not marked any more. -/
theorem Effect.notified_of_polled (effect : Effect w others before η w' after)
    (h : .polled k ∈ η) : w'.notified k = false := by
  cases effect with
  | processMain | processTask =>
    simp only [List.mem_cons, List.not_mem_nil, or_false, reduceCtorEq, false_or,
      Happening.polled.injEq] at h
    rw [World.notified_rearm, if_pos h.symm]
  | enter =>
    simp only [List.mem_cons, List.not_mem_nil, or_false, reduceCtorEq, false_or,
      Happening.polled.injEq] at h
    rw [World.notified_newWaker, h, World.notified, World.waker?_size]
    rfl
  | _ => simp at h

/-- Until its target is polled, a marked waker stays so. -/
theorem Effect.notified_of_notified (effect : Effect w others before η w' after)
    (h : w.notified k = true) (hp : .polled k ∉ η) : w'.notified k = true := by
  cases effect with
  | mark hx | marked hx =>
    rw [World.notified_mark]
    split
    · rename_i hk
      simp [← hk, hx]
    · exact h
  | @processMain _ k' | @processTask _ _ _ _ _ k' =>
    have hne : k' ≠ k := by
      rintro rfl
      simp at hp
    rw [World.notified_rearm, if_neg hne]
    exact h
  | enter =>
    rw [World.notified_newWaker]
    exact h
  | spawn | processStart =>
    rw [World.notified_addTask]
    exact h
  | _ => exact h

/-- To wake somebody is to mark the waker. -/
theorem Effect.notified_of_wake (effect : Effect w others before η w' after)
    (h : .wake k ∈ before) (hk : (w.waker? k).isSome = true) : w'.notified k = true := by
  cases effect with
  | mark | marked =>
    cases List.mem_singleton.mp h
    rw [World.notified_mark, if_pos rfl]
    exact hk
  | wakeNobody hx =>
    cases List.mem_singleton.mp h
    simp [hx] at hk
  | _ => simp at h

theorem Effect.notified_of_woken (effect : Effect w others before η w' after)
    (h : .woken k ∈ η) : w'.notified k = true := by
  cases effect with
  | mark hx | marked hx =>
    cases List.mem_singleton.mp h
    rw [World.notified_mark, if_pos rfl, hx]
    rfl
  | _ => simp at h

/-- Until its target is polled, a waker that was woken is marked or about to be. -/
theorem Effect.pinged (effect : Effect w others before η w' after)
    (h : Pinged w (before ++ others) k) (hk : (w.waker? k).isSome = true) (hp : .polled k ∉ η) :
    Pinged w' (after ++ others) k := by
  rcases h with h | h
  · exact .inl (effect.notified_of_notified h hp)
  · rcases List.mem_append.mp h with h | h
    · exact .inl (effect.notified_of_wake h hk)
    · exact .inr (List.mem_append_right _ h)

/-- The target of a waker is queued, unless its loop is closed. -/
theorem Effect.accepted_of_notify (effect : Effect w others before η w' after) {x : Waker}
    (h : .notify k ∈ before) (hx : w.waker? k = some x) :
    .accepted x.loop x.target.entry ∈ η ∨ w.isClosed x.loop = true ∧ w' = w := by
  cases effect with
  | notify hx' =>
    cases List.mem_singleton.mp h
    cases hx.symm.trans hx'
    exact .inl List.mem_cons_self
  | dropWake hc =>
    cases List.mem_singleton.mp h
    exact .inr ⟨hc x hx, rfl⟩
  | _ => simp at h

/-- Where the entry of a live target is processed, the target is polled. -/
theorem Effect.polled_of_processed (effect : Effect w others before η w' after)
    (h : Wired w (before ++ others) l) (hl : Live w (before ++ others) l k t)
    (hp : .processed l t.entry ∈ η) : .polled k ∈ η := by
  cases t with
  | main =>
    obtain ⟨job, hm, hd⟩ := hl
    cases effect with
    | @processMain l' k' f rest ha =>
      obtain rfl : l = l' := by simpa [Target.entry] using hp
      rcases List.mem_cons.mp hm with rfl | hm
      · obtain rfl : k' = k := by simpa [Job.drives] using hd
        simp
      · simpa [(ha.2 job hm).1] using Job.isDrive_of_drives hd
    | _ => simp [Target.entry] at hp
  | task slot =>
    obtain ⟨work, hw⟩ := hl
    cases effect with
    | @processTask l' _ _ slot' _ k' _ ha ht =>
      obtain ⟨rfl, rfl⟩ : l = l' ∧ slot = slot' := by simpa [Target.entry] using hp
      cases hw.symm.trans ht
      simp
    | @processNobody l' k' f slot' rest ha ht =>
      obtain ⟨rfl, rfl⟩ : l = l' ∧ slot = slot' := by simpa [Target.entry] using hp
      -- nobody is polled only if the task is out of the table, and the loop itself would hold it
      cases work with
      | some work => cases (World.takeWork_eq_some_iff.mpr ⟨hw, rfl⟩).symm.trans ht
      | none =>
        obtain ⟨job, hm, hj⟩ := h.busy slot k hw
        rcases List.mem_cons.mp hm with rfl | hm
        · cases hj
        · simpa [(ha.2 job hm).2] using Job.isTask_of_holds hj
    | _ => simp [Target.entry] at hp

/-! ## Marked wakers are queued -/

/-- The target of a marked waker is queued on its loop, or is about to be, as long as the loop is
not closed. -/
def Heeded (w : World G) (D : List (Job G)) (l : LoopId) : Prop :=
  (bench w D l).toFifo.phase ≠ .closed → ∀ k t, Live w D l k t → w.notified k = true →
    t.entry ∈ (bench w D l).toFifo.queue ∨ .notify k ∈ D

theorem Live.built (hl : Live w before l k t) (h : Tidy w before l) :
    ∃ q, w.queue? l = some q := by
  cases t with
  | task slot =>
    obtain ⟨work, hw⟩ := hl
    cases he : w.loop? l with
    | none => simp [World.task?, he] at hw
    | some e => exact ⟨e.queue, by simp [World.queue?, he]⟩
  | main =>
    obtain ⟨job, hm, hd⟩ := hl
    have hb : batches l before ≠ [] := by
      intro hb
      have := List.filterMap_eq_nil_iff.mp hb job hm
      cases job <;> simp_all [Job.drives, Job.batch?]
    obtain ⟨q, hq, _⟩ := isClosed_eq_false (h.opened hb)
    exact ⟨q, hq⟩

theorem Tidy.phase_closed (h : Tidy w before l) {q : Queue (Entry G)} (hq : w.queue? l = some q)
    (hc : w.isClosed l = true) : (bench w before l).toFifo.phase = .closed := by
  have hb : batches l before = [] := by
    by_contra hb
    simp [h.opened hb] at hc
  have hqc : q.closed = true := by simpa [World.isClosed_eq, hq] using hc
  simp [bench, Bench.toFifo, hq, hb, hqc]

/-- A loop that was built and takes nothing any more is closed. -/
theorem Tidy.phase_eq_closed (h : Tidy w before l) (hb : (bench w before l).toFifo.phase ≠ .unbuilt)
    (hc : w.isClosed l = true) : (bench w before l).toFifo.phase = .closed := by
  cases hq : w.queue? l with
  | none => simp [bench, Bench.toFifo, hq] at hb
  | some q => exact h.phase_closed hq hc

theorem isClosed_of_phase (h : (bench w before l).toFifo.phase = .closed) :
    w.isClosed l = true := by
  by_contra hc
  obtain ⟨q, hq, hqc⟩ := isClosed_eq_false (by simpa using hc)
  simp only [bench, Bench.toFifo, hq] at h
  split at h <;> simp_all

theorem phase_of_loop (h : (w.loop? l).isSome = true) :
    (bench w before l).toFifo.phase ≠ .unbuilt := by
  obtain ⟨e, he⟩ := Option.isSome_iff_exists.mp h
  simp only [bench, Bench.toFifo, World.queue?, he, Option.map_some]
  split
  · simp_all
  · split <;> simp
  · simp

/-- A target whose waker is about to queue it gets queued. -/
theorem Effect.mem_queue_of_notify (effect : Effect w others before η w' after)
    (htidy : Tidy w (before ++ others) l) (hwired : Wired w (before ++ others) l)
    (hphase : (bench w' (after ++ others) l).toFifo.phase ≠ .closed)
    (hl : Live w (before ++ others) l k t) (hm : .notify k ∈ before) :
    t.entry ∈ (bench w' (after ++ others) l).toFifo.queue := by
  have moves := (effect.benched htidy).step.moves
  obtain ⟨b, hx⟩ := hwired.label k t hl
  rcases effect.accepted_of_notify hm hx with ha | ⟨hc, rfl⟩
  · refine moves.mem_queue_of_accepted ?_
    rw [filterMap_accepted?_signs]
    exact mem_acceptedBy.mpr ha
  · obtain ⟨q, hq⟩ := hl.built htidy
    exact absurd (htidy.phase_closed hq hc) (moves.phase_ne_closed hphase)

theorem Effect.heeded (effect : Effect w others before η w' after)
    (htidy : Tidy w (before ++ others) l) (hwired : Wired w (before ++ others) l)
    (lossless : Lossless l η) (h : Heeded w (before ++ others) l) :
    Heeded w' (after ++ others) l := by
  intro hphase k t hl hn
  have moves := (effect.benched htidy).step.moves
  have hpolled : .polled k ∉ η := fun hp => by simp [effect.notified_of_polled hp] at hn
  rcases effect.live hl with hl | ⟨_, hx, _⟩
  · rcases effect.notified hn with hn | hn
    · rcases h (moves.phase_ne_closed hphase) k t hl hn with hq | hm
      · rcases moves.mem_queue hphase lossless.signs hq with hq | hp
        · exact .inl hq
        · rw [filterMap_processed?_signs] at hp
          exact absurd (effect.polled_of_processed hwired hl (mem_processedBy.mp hp)) hpolled
      · rcases List.mem_append.mp hm with hm | hm
        · exact .inl (effect.mem_queue_of_notify htidy hwired hphase hl hm)
        · exact .inr (List.mem_append_right _ hm)
    · exact .inr (List.mem_append_left _ hn)
  · simp [World.notified_eq_false hx rfl] at hn

/-! ## Runs -/

theorem live_same (hw : w.Agrees w') (hD : before.Perm after) :
    Live w' after l k t ↔ Live w before l k t := by
  cases t with
  | task slot => simp [Live, World.task?, World.loop?, hw.loops]
  | main => simp [Live, hD.mem_iff]

theorem waker?_same (hw : w.Agrees w') (k : WakerId) : w'.waker? k = w.waker? k := by
  simp [World.waker?, hw.wakers]

theorem notified_same (hw : w.Agrees w') (k : WakerId) : w'.notified k = w.notified k := by
  rw [World.notified, World.notified, waker?_same hw]

theorem pinged_same (hw : w.Agrees w') (hD : before.Perm after) :
    Pinged w' after k ↔ Pinged w before k := by
  simp [Pinged, notified_same hw, hD.mem_iff]

theorem Wired.same (h : Wired w before l) (hw : w.Agrees w') (hD : before.Perm after) :
    Wired w' after l := by
  constructor
  · intro k t hl
    rw [waker?_same hw]
    exact h.label k t ((live_same hw hD).mp hl)
  · intro slot k ht
    obtain ⟨job, hm, hj⟩ := h.busy slot k (by simpa [World.task?, World.loop?, hw.loops] using ht)
    exact ⟨job, hD.mem_iff.mp hm, hj⟩

theorem not_live_empty : ¬Live (World.empty : World G) [] l k t := by
  cases t <;> simp [Live, World.task?, World.loop?, World.empty]

theorem wired_empty : Wired (World.empty : World G) [] l :=
  ⟨fun _ _ hl => absurd hl not_live_empty, by simp [World.task?, World.loop?, World.empty]⟩

theorem Trail.wired {τ : List (Happening G)} (trail : Trail .empty [] τ w before) :
    Wired w before l := by
  induction trail with
  | here => exact wired_empty
  | same _ hw hD ih => exact ih.same hw hD
  | step _ effect ih => exact effect.wired ih

/-- Along every run in which nothing of a loop is lost, marked wakers have their targets queued. -/
theorem Trail.heeded {τ : List (Happening G)} (trail : Trail .empty [] τ w before)
    (lossless : Lossless l τ) : Heeded w before l := by
  induction trail with
  | here => exact fun _ k t hl => absurd hl not_live_empty
  | same trail hw hD ih =>
    intro hphase k t hl hn
    rw [(bench_same (trail.tidy tidy_empty) hw hD).1] at hphase ⊢
    rw [notified_same hw] at hn
    rw [← hD.mem_iff]
    exact ih lossless hphase k t ((live_same hw hD).mp hl) hn
  | step trail effect ih =>
    obtain ⟨hτ, hη⟩ := lossless_append.mp lossless
    exact effect.heeded (trail.tidy tidy_empty) trail.wired hη (ih hτ)

end

end RunLoop
