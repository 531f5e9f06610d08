import RunLoop.Proofs.Chronicle
import RunLoop.Proofs.Play
import RunLoop.Proofs.Wakers

/-!
# The census of tasks

The table of a loop holds exactly the tasks that were spawned on it and did not leave it, each in
the slot that it got when it was spawned. A task that is being polled, or comes to its end, keeps
its slot, empty of its future, and there is at most one such task. Whatever the future does
meanwhile, be it that it spawns tasks, wakes them or panics, the slot stays its own.

* `spawnedOn`, `finishedOn`, `leftFrom` and `begunOn` read the story of a loop.
* `Census` is what holds of all tables, by induction over the `Chronicle` of a run.
* `Machine.task_table_invariant` states it of every run.
-/

namespace RunLoop

variable {G : Guest} {l : LoopId} {slot : Nat} {k : WakerId} {kind : Kind}

/-! ## The story of a loop -/

namespace Milestone

/-- The slot and the waker of a task that was spawned on loop `l`. -/
def spawned? (l : LoopId) : Milestone → Option (Nat × WakerId)
  | spawned l' slot k _ => if l' = l then some (slot, k) else none
  | _ => none

/-- The slot and the waker of a task of loop `l` of which a poll began. -/
def begun? (l : LoopId) : Milestone → Option (Nat × WakerId)
  | begun l' slot k => if l' = l then some (slot, k) else none
  | _ => none

/-- The slot and the waker of a task of loop `l` that came to its end. -/
def finished? (l : LoopId) : Milestone → Option (Nat × WakerId)
  | finished l' slot k => if l' = l then some (slot, k) else none
  | _ => none

/-- The slot and the waker of a task that left the table of loop `l`, at its end or with it. -/
def left? (l : LoopId) : Milestone → Option (Nat × WakerId)
  | finished l' slot k | dropped l' slot k _ => if l' = l then some (slot, k) else none
  | _ => none

theorem spawned?_eq_some_iff {e : Milestone} :
    e.spawned? l = some (slot, k) ↔ ∃ kind, e = .spawned l slot k kind := by
  cases e <;> simp [spawned?]

theorem left?_eq_some_iff {e : Milestone} :
    e.left? l = some (slot, k) ↔ e = .finished l slot k ∨ ∃ kind, e = .dropped l slot k kind := by
  cases e <;> simp [left?]

/-- The waker that was made for a task. -/
def waker? : Milestone → Option WakerId
  | spawned _ _ k _ => some k
  | _ => none

/-- The join slot that was made for a task. -/
def join? : Milestone → Option JoinId
  | spawned _ _ _ (.joined j) => some j
  | _ => none

end Milestone

/-- The tasks that were spawned on a loop. -/
def spawnedOn (l : LoopId) (σ : List Milestone) : List (Nat × WakerId) :=
  σ.filterMap (Milestone.spawned? l)

/-- The tasks of a loop whose polls began, one after the other. -/
def begunOn (l : LoopId) (σ : List Milestone) : List (Nat × WakerId) :=
  σ.filterMap (Milestone.begun? l)

/-- The tasks of a loop that came to their end. -/
def finishedOn (l : LoopId) (σ : List Milestone) : List (Nat × WakerId) :=
  σ.filterMap (Milestone.finished? l)

/-- The tasks that left the table of a loop. -/
def leftFrom (l : LoopId) (σ : List Milestone) : List (Nat × WakerId) :=
  σ.filterMap (Milestone.left? l)

/-- The tasks in the table of a loop, by slot and waker. -/
def World.seats (w : World G) (l : LoopId) : List (Nat × WakerId) :=
  (w.tenants l).map (fun e => (e.1, e.2.waker))

section

variable {σ σ' : List Milestone}

theorem mem_spawnedOn : (slot, k) ∈ spawnedOn l σ ↔ ∃ kind, .spawned l slot k kind ∈ σ := by
  simp only [spawnedOn, List.mem_filterMap, Milestone.spawned?_eq_some_iff]
  constructor
  · rintro ⟨_, he, kind, rfl⟩
    exact ⟨kind, he⟩
  · rintro ⟨kind, he⟩
    exact ⟨_, he, kind, rfl⟩

theorem mem_leftFrom : (slot, k) ∈ leftFrom l σ ↔
    .finished l slot k ∈ σ ∨ ∃ kind, .dropped l slot k kind ∈ σ := by
  simp only [leftFrom, List.mem_filterMap, Milestone.left?_eq_some_iff]
  constructor
  · rintro ⟨_, he, rfl | ⟨kind, rfl⟩⟩
    · exact .inl he
    · exact .inr ⟨kind, he⟩
  · rintro (he | ⟨kind, he⟩)
    · exact ⟨_, he, .inl rfl⟩
    · exact ⟨_, he, .inr ⟨kind, rfl⟩⟩

/-- Only one element of a list has an image, if no two of them have the same. -/
theorem eq_of_nodup_filterMap {α β : Type} {f : α → Option β} {as : List α}
    (h : (as.filterMap f).Nodup) {a a' : α} (ha : a ∈ as) (ha' : a' ∈ as) {b : β}
    (hb : f a = some b) (hb' : f a' = some b) : a = a' := by
  induction as with
  | nil => cases ha
  | cons c as ih =>
    have hmem : ∀ {x}, x ∈ as → f x = some b → b ∈ as.filterMap f :=
      fun hx hfx => List.mem_filterMap.mpr ⟨_, hx, hfx⟩
    rcases List.mem_cons.mp ha with rfl | hm
    · rcases List.mem_cons.mp ha' with rfl | hm'
      · rfl
      · rw [List.filterMap_cons_some hb, List.nodup_cons] at h
        exact absurd (hmem hm' hb') h.1
    · rcases List.mem_cons.mp ha' with rfl | hm'
      · rw [List.filterMap_cons_some hb', List.nodup_cons] at h
        exact absurd (hmem hm hb) h.1
      · refine ih ?_ hm hm'
        cases hc : f c with
        | none => rwa [List.filterMap_cons_none hc] at h
        | some x =>
          rw [List.filterMap_cons_some hc, List.nodup_cons] at h
          exact h.2

end

/-! ## Tables -/

namespace World

variable {w w' : World G} {l' : LoopId}

/-- Every table is valid. -/
def TablesValid (w : World G) : Prop :=
  ∀ l s, w.tasks? l = some s → s.Valid

theorem tenants_of_tasks? {s : Slab (Task G.Coroutine)} (h : w.tasks? l = some s) :
    w.tenants l = s.entries := by
  simp [tenants, h]

theorem mem_tenants {t : Task G.Coroutine} :
    (slot, t) ∈ w.tenants l ↔ w.task? l slot = some t := by
  rw [task?_eq]
  unfold tenants
  cases w.tasks? l with
  | none => simp
  | some s => exact Slab.mem_entries

theorem mem_seats : (slot, k) ∈ w.seats l ↔ ∃ work, w.task? l slot = some ⟨k, work⟩ := by
  unfold seats
  rw [List.mem_map]
  constructor
  · rintro ⟨⟨slot', k', work⟩, he, hk⟩
    cases hk
    exact ⟨work, mem_tenants.mp he⟩
  · rintro ⟨work, ht⟩
    exact ⟨_, mem_tenants.mpr ht, rfl⟩

theorem seats_eq_nil (h : ∀ slot, w.task? l slot = none) : w.seats l = [] := by
  rw [List.eq_nil_iff_forall_not_mem]
  rintro ⟨slot, k⟩ hseat
  obtain ⟨work, ht⟩ := mem_seats.mp hseat
  rw [h] at ht
  cases ht

theorem seats_congr (h : w'.tasks? l = w.tasks? l) : w'.seats l = w.seats l := by
  simp [seats, tenants, h]

theorem seats_modify {f : Task G.Coroutine → Task G.Coroutine}
    (hf : ∀ t, (f t).waker = t.waker) :
    (w.modifyTasks l' (·.modify slot f)).seats l = w.seats l := by
  unfold seats tenants
  rw [tasks?_modifyTasks]
  split
  · cases w.tasks? l with
    | none => rfl
    | some s =>
      simp only [Option.map_some, Option.getD_some, Slab.entries_modify, List.map_map]
      refine List.map_congr_left fun e _ => ?_
      simp only [Function.comp_apply]
      split <;> simp [hf]
  · rfl

theorem TablesValid.modifyTasks (h : w.TablesValid)
    {f : Slab (Task G.Coroutine) → Slab (Task G.Coroutine)}
    (hf : ∀ s, s.Valid → (f s).Valid) : (w.modifyTasks l' f).TablesValid := by
  intro l s hs
  rw [tasks?_modifyTasks] at hs
  split at hs
  · obtain ⟨s₀, hs₀, rfl⟩ := Option.map_eq_some_iff.mp hs
    exact hf s₀ (h l s₀ hs₀)
  · exact h l s hs

/-- Where nothing is in a slot, the next task may come into it. -/
theorem TablesValid.task?_nextSlot (h : w.TablesValid) (l : LoopId) :
    w.task? l (w.nextSlot l) = none := by
  rw [task?_eq]
  unfold nextSlot
  cases hs : w.tasks? l with
  | none => rfl
  | some s => exact (h l s hs).get?_vacant

/-- Nothing is left in a table that was emptied. -/
theorem task?_drain : (w.modifyTasks l (·.drain.1)).task? l' slot =
    if l = l' then none else w.task? l' slot := by
  rw [task?_eq, task?_eq, tasks?_modifyTasks]
  split
  · cases w.tasks? l' with
    | none => rfl
    | some s => exact Slab.get?_drain s slot
  · rfl

/-- A new task comes into a slot in which there was none, and leaves the others as they are. -/
theorem TablesValid.task?_addTask (h : w.TablesValid) (hl : ∃ s, w.tasks? l = some s)
    {f : Future G.Coroutine} : (w.addTask l kind f).1.task? l' slot =
      if l = l' ∧ w.nextSlot l = slot then some ⟨⟨w.wakers.size⟩, some ⟨kind, false, f⟩⟩
      else w.task? l' slot := by
  rw [task?_eq, tasks?_addTask, task?_eq]
  obtain ⟨s, hs⟩ := hl
  by_cases hl' : l = l'
  · subst hl'
    have hnext : w.nextSlot l = s.vacant := by simp [nextSlot, hs]
    simp only [hs, hnext, true_and, if_true, Option.map_some, Option.bind_some]
    exact (h l s hs).get?_insert _ slot
  · simp [hl']

/-- A new task takes a seat. -/
theorem TablesValid.seats_addTask (h : w.TablesValid) (hl : ∃ s, w.tasks? l = some s)
    (f : Future G.Coroutine) : ((w.addTask l kind f).1.seats l).Perm
      (w.seats l ++ [(w.nextSlot l, ⟨w.wakers.size⟩)]) := by
  obtain ⟨s, hs⟩ := hl
  have hnext : w.nextSlot l = s.vacant := by simp [nextSlot, hs]
  have hnew : (w.addTask l kind f).1.tenants l =
      (s.insert ⟨⟨w.wakers.size⟩, some ⟨kind, false, f⟩⟩).1.entries := by
    apply tenants_of_tasks?
    rw [tasks?_addTask, if_pos rfl, hs]
    rfl
  have hentries := ((h l s hs).entries_insert
    ⟨⟨w.wakers.size⟩, some ⟨kind, false, f⟩⟩).map (fun e => (e.1, e.2.waker))
  rw [seats, seats, tenants_of_tasks? hs, hnew, hnext]
  exact hentries.trans (List.perm_append_singleton _ _).symm

/-- A task that is removed gives up its seat. -/
theorem seats_removeTask {t : Task G.Coroutine} (ht : w.task? l slot = some t) :
    ((slot, t.waker) :: (w.removeTask l slot).seats l).Perm (w.seats l) := by
  rw [task?_eq] at ht
  obtain ⟨s, hs, ht⟩ := Option.bind_eq_some_iff.mp ht
  have hnew : (w.removeTask l slot).tenants l = (s.remove slot).1.entries := by
    apply tenants_of_tasks?
    rw [removeTask, tasks?_modifyTasks, if_pos rfl, hs]
    rfl
  have hentries := (Slab.entries_remove ht).map (fun e => (e.1, e.2.waker))
  rw [seats, seats, tenants_of_tasks? hs, hnew]
  exact hentries.symm

theorem seats_removeTask_of_none (ht : w.task? l slot = none) :
    (w.removeTask l slot).seats l = w.seats l := by
  rw [task?_eq] at ht
  unfold seats tenants removeTask
  rw [tasks?_modifyTasks, if_pos rfl]
  cases hs : w.tasks? l with
  | none => rfl
  | some s =>
    rw [hs] at ht
    have hnone : s.get? slot = none := ht
    simp [Slab.entries_remove_of_none hnone]

theorem seats_drain (w : World G) (l : LoopId) : (w.modifyTasks l (·.drain.1)).seats l = [] := by
  unfold seats tenants
  rw [tasks?_modifyTasks, if_pos rfl]
  cases w.tasks? l <;> simp

end World

section

variable {w w' : World G} {others before after : List (Job G)} {σ σ₀ : List Milestone}

theorem Passage.tablesValid (passage : Passage w others before σ w' after)
    (h : w.TablesValid) : w'.TablesValid := by
  cases passage with
  | build c =>
    intro l s hs
    rw [World.tasks?_build] at hs
    split at hs
    · cases hs
      exact Slab.valid_new _
    · exact h l s hs
  | spawn =>
    intro l s hs
    rw [World.tasks?_addTask] at hs
    split at hs
    · obtain ⟨s₀, hs₀, rfl⟩ := Option.map_eq_some_iff.mp hs
      exact (h l s₀ hs₀).insert _
    · exact h l s hs
  | begin | pending => exact h.modifyTasks fun s hs => hs.modify _ _
  | leaving => exact h.modifyTasks fun s hs => hs.remove _
  | draining => exact h.modifyTasks fun s hs => hs.drain
  | _ => exact h

/-- What is in the table afterwards, and what left it, was in it before or is spawned. -/
theorem Passage.seats (passage : Passage w others before σ w' after) (h : w.TablesValid) :
    (leftFrom l σ ++ w'.seats l).Perm (w.seats l ++ spawnedOn l σ) := by
  have same : w'.tasks? l = w.tasks? l → leftFrom l σ = [] → spawnedOn l σ = [] →
      (leftFrom l σ ++ w'.seats l).Perm (w.seats l ++ spawnedOn l σ) := by
    intro hw hleft hspawned
    rw [hleft, hspawned, List.append_nil, List.nil_append, World.seats_congr hw]
  cases passage with
  | build c =>
    by_cases hl : l = ⟨w.loops.size⟩
    · have hold : w.seats l = [] := by
        simp [World.seats, World.tenants, hl, World.tasks?_size]
      have hnew : (w.build c).1.seats l = [] := by
        simp [World.seats, World.tenants, World.tasks?_build, hl, Slab.entries_new]
      rw [hold, hnew]
      exact .refl _
    · exact same (by rw [World.tasks?_build, if_neg hl]) rfl rfl
  | @spawn l' kind f joins hl hj =>
    by_cases he : l' = l
    · subst he
      have hvalid : { w with joins }.TablesValid := h
      have hspawned : spawnedOn l' [.spawned l' (w.nextSlot l') ⟨w.wakers.size⟩ kind] =
          [(w.nextSlot l', ⟨w.wakers.size⟩)] := by
        simp [spawnedOn, Milestone.spawned?]
      rw [hspawned]
      exact hvalid.seats_addTask hl f
    · refine same ?_ rfl (by simp [spawnedOn, Milestone.spawned?, he])
      rw [World.tasks?_addTask, if_neg he]
      rfl
  | begin =>
    have hleft : ∀ l' slot k, leftFrom l [.begun l' slot k] = [] := fun _ _ _ => rfl
    have hspawned : ∀ l' slot k, spawnedOn l [.begun l' slot k] = [] := fun _ _ _ => rfl
    rw [World.seats_modify, hleft, hspawned, List.append_nil, List.nil_append]
    intro t
    rfl
  | pending =>
    rw [World.seats_modify]
    · simp [leftFrom, spawnedOn]
    · intro t
      rfl
  | @leaving job l' slot =>
    by_cases he : l' = l
    · subst he
      cases ht : w.task? l' slot with
      | none =>
        rw [World.seats_removeTask_of_none ht]
        simp [World.toldOfEnd, ht, leftFrom, spawnedOn]
      | some t =>
        have htold : w.toldOfEnd l' slot = [.finished l' slot t.waker] := by
          simp [World.toldOfEnd, ht]
        have hspawned : spawnedOn l' [.finished l' slot t.waker] = [] := rfl
        rw [htold, hspawned, List.append_nil]
        simpa [leftFrom, Milestone.left?] using World.seats_removeTask ht
    · refine same ?_ ?_ ?_
      · rw [World.removeTask, World.tasks?_modifyTasks, if_neg he]
      · cases ht : w.task? l' slot <;>
          simp [World.toldOfEnd, ht, leftFrom, Milestone.left?, he]
      · cases ht : w.task? l' slot <;>
          simp [World.toldOfEnd, ht, spawnedOn, Milestone.spawned?]
  | @draining l' n =>
    have hspawned : spawnedOn l (w.toldOfDrop l') = [] := by
      simp [spawnedOn, World.toldOfDrop, List.filterMap_map, Milestone.spawned?,
        Function.comp_def]
    by_cases he : l' = l
    · subst he
      have hleft : leftFrom l' (w.toldOfDrop l') = w.seats l' := by
        simp [leftFrom, World.toldOfDrop, World.seats, List.filterMap_map, Milestone.left?,
          Function.comp_def]
      rw [hleft, World.seats_drain, hspawned]
    · refine same ?_ ?_ hspawned
      · rw [World.tasks?_modifyTasks, if_neg he]
      · simp [leftFrom, World.toldOfDrop, List.filterMap_map, Milestone.left?, he,
          Function.comp_def]
  | _ => exact same rfl rfl rfl

/-! ## What becomes of one task -/

/-- What a passage makes of the task `t` in slot `slot` of loop `l`. -/
inductive Becomes (l : LoopId) (slot : Nat) :
    Task G.Coroutine → Option (Task G.Coroutine) → List (Job G) → List Milestone →
      List (Job G) → Prop where
  | kept {t before σ after} : Becomes l slot t (some t) before σ after
  | begun {k work} : Becomes l slot ⟨k, some work⟩ (some ⟨k, none⟩) [] [.begun l slot k]
      [.taskPolled l slot work.kind]
  | pending {k work kind f} : Becomes l slot ⟨k, work⟩ (some ⟨k, some ⟨kind, true, f⟩⟩)
      [.taskPolled l slot kind] [] []
  | finished {t job} (hj : job = .taskFinished l slot ∨ ∃ p, job = .taskPanicked l slot p) :
      Becomes l slot t none [job] [.finished l slot t.waker] []
  | dropped {t n σ after} (hd : .dropped l slot t.waker (t.work.map (·.kind)) ∈ σ) :
      Becomes l slot t none [.drain l n] σ after

theorem Passage.becomes (passage : Passage w others before σ w' after) (h : w.TablesValid)
    {t : Task G.Coroutine} (ht : w.task? l slot = some t) :
    Becomes l slot t (w'.task? l slot) before σ after := by
  have same : w'.task? l slot = w.task? l slot →
      Becomes l slot t (w'.task? l slot) before σ after := by
    intro hw
    rw [hw, ht]
    exact .kept
  cases passage with
  | build c =>
    apply same
    rw [World.task?_build, if_neg]
    rintro rfl
    rw [World.task?_eq, World.tasks?_size] at ht
    cases ht
  | @spawn l' kind f joins hl hj =>
    apply same
    have hv : { w with joins }.TablesValid := h
    rw [hv.task?_addTask hl, if_neg]
    · rfl
    · rintro ⟨rfl, rfl⟩
      have hnext := h.task?_nextSlot l'
      have hsame : { w with joins }.nextSlot l' = w.nextSlot l' := rfl
      rw [hsame, hnext] at ht
      cases ht
  | @begin l' slot' k work _ ht' =>
    by_cases he : l' = l ∧ slot' = slot
    · obtain ⟨rfl, rfl⟩ := he
      cases ht.symm.trans ht'
      rw [World.task?_modify, if_pos ⟨rfl, rfl⟩, ht]
      exact .begun
    · exact same (by rw [World.task?_modify, if_neg he])
  | @pending l' slot' kind f =>
    by_cases he : l' = l ∧ slot' = slot
    · obtain ⟨rfl, rfl⟩ := he
      rw [World.task?_modify, if_pos ⟨rfl, rfl⟩, ht]
      exact .pending
    · exact same (by rw [World.task?_modify, if_neg he])
  | @leaving job l' slot' _ hj =>
    by_cases he : l' = l ∧ slot' = slot
    · obtain ⟨rfl, rfl⟩ := he
      rw [World.task?_removeTask, if_pos ⟨rfl, rfl⟩, World.toldOfEnd, ht]
      exact .finished hj
    · exact same (by rw [World.task?_removeTask, if_neg he])
  | @draining l' n =>
    by_cases he : l' = l
    · subst he
      rw [World.task?_drain, if_pos rfl]
      exact .dropped (List.mem_map.mpr ⟨_, World.mem_tenants.mpr ht, rfl⟩)
    · exact same (by rw [World.task?_drain, if_neg he])
  | _ => exact same rfl

/-- A task that was not there is a new one. -/
theorem Passage.task?_new (passage : Passage w others before σ w' after) (h : w.TablesValid)
    (hnone : w.task? l slot = none) {t : Task G.Coroutine} (ht : w'.task? l slot = some t) :
    ∃ k kind f, σ = [.spawned l slot k kind] ∧ t = ⟨k, some ⟨kind, false, f⟩⟩ := by
  have same : w'.task? l slot = w.task? l slot →
      ∃ k kind f, σ = [.spawned l slot k kind] ∧ t = ⟨k, some ⟨kind, false, f⟩⟩ := by
    intro hw
    rw [hw, hnone] at ht
    cases ht
  cases passage with
  | build c =>
    rw [World.task?_build] at ht
    split at ht
    · cases ht
    · cases hnone.symm.trans ht
  | @spawn l' kind f joins hl hj =>
    have hv : { w with joins }.TablesValid := h
    rw [hv.task?_addTask hl] at ht
    split at ht
    · rename_i he
      obtain ⟨rfl, rfl⟩ := he
      cases ht
      exact ⟨_, _, _, rfl, rfl⟩
    · cases hnone.symm.trans ht
  | begin | pending =>
    apply same
    rw [World.task?_modify]
    split <;> simp [hnone]
  | leaving =>
    apply same
    rw [World.task?_removeTask]
    split <;> simp [hnone]
  | draining => cases hnone.symm.trans (World.task?_of_drain ht)
  | _ => exact same rfl

/-! ## The census -/

/-- What is to be done about the outcome of the task that is being polled, or ends. -/
def Job.kind? : Job G → Option Kind
  | taskPolled _ _ kind | taskEnded _ _ kind _ => some kind
  | _ => none

/-- What holds of all tables, with the story `σ` and the errands `D`. -/
structure Census (σ : List Milestone) (w : World G) (D : List (Job G)) : Prop where
  valid : w.TablesValid
  /-- The tasks in a table are those that were spawned and did not leave. -/
  balance : ∀ l, (leftFrom l σ ++ w.seats l).Perm (spawnedOn l σ)
  /-- At most one task of a loop is being polled, or ends. -/
  single : ∀ l, D.countP (Job.isTask l) ≤ 1
  /-- It is in its slot, and was the last of which a poll began. -/
  held : ∀ job ∈ D, ∀ l slot, job.holds l slot = true → ∃ k, w.task? l slot = some ⟨k, none⟩ ∧
    (begunOn l σ).getLast? = some (slot, k) ∧
    ∀ kind, job.kind? = some kind → .spawned l slot k kind ∈ σ
  /-- The work in a slot is that of the task that was spawned there. -/
  known : ∀ l slot k work, w.task? l slot = some ⟨k, some work⟩ → .spawned l slot k work.kind ∈ σ
  /-- Every task has a waker of its own. -/
  wakers : (σ.filterMap Milestone.waker?).Nodup
  made : ∀ k ∈ σ.filterMap Milestone.waker?, k.index < w.wakers.size
  /-- Every join slot was made for one task. -/
  joins : σ.filterMap Milestone.join? = (List.range w.joins.size).map .mk

/-- No two tasks of a loop are polled at once. -/
theorem Passage.single (passage : Passage w others before σ w' after)
    (h : (before ++ others).countP (Job.isTask l) ≤ 1) :
    (after ++ others).countP (Job.isTask l) ≤ 1 := by
  have less : after.countP (Job.isTask l) ≤ before.countP (Job.isTask l) →
      (after ++ others).countP (Job.isTask l) ≤ 1 := by
    intro hle
    rw [List.countP_append] at h ⊢
    omega
  have fills : ∀ (js : List JoinId) (o : Joined),
      (js.map (Job.fill (G := G) · o)).countP (Job.isTask l) = 0 := by
    simp [List.countP_eq_zero, Job.isTask]
  cases passage with
  | @begin l' slot k work hn =>
    by_cases he : l' = l
    · subst he
      have hz : others.countP (Job.isTask l') = 0 := by
        rw [List.countP_eq_zero]
        intro i hi
        simp [hn i hi]
      simp [Job.isTask, hz]
    · exact less (by simp [Job.isTask, he])
  | handing | spoiling => exact less (by simp [fills, Job.isTask])
  | abandoning => exact less (by simp [fills])
  | draining => exact less (by simp [List.countP_eq_zero, Job.isTask])
  | _ => exact less (by simp [Job.isTask])

/-- As long as a task is being polled, the tasks that are there stay as they are, and no other poll
begins. -/
theorem Passage.beside (passage : Passage w others before σ w' after) (h : w.TablesValid)
    {job : Job G} (hm : job ∈ others) (hj : job.isTask l = true) {t : Task G.Coroutine}
    (ht : w.task? l slot = some t) : w'.task? l slot = some t ∧ begunOn l σ = [] := by
  have apart : ∀ {l' : LoopId}, (∀ i ∈ others, i.isTask l' = false) → l' ≠ l := by
    rintro l' hn rfl
    rw [hn job hm] at hj
    cases hj
  have hbecomes := passage.becomes h ht
  cases passage with
  | begin hn =>
    have hne := apart hn
    rw [World.task?_modify, if_neg fun he => hne he.1]
    exact ⟨ht, by simp [begunOn, Milestone.begun?, hne]⟩
  | pending hn =>
    have hne := apart hn
    rw [World.task?_modify, if_neg fun he => hne he.1]
    exact ⟨ht, rfl⟩
  | @leaving job l' slot' hn =>
    have hne := apart hn
    rw [World.task?_removeTask, if_neg fun he => hne he.1]
    refine ⟨ht, ?_⟩
    cases ht' : w.task? l' slot' <;> simp [World.toldOfEnd, ht', begunOn, Milestone.begun?]
  | draining hn =>
    rw [World.task?_drain, if_neg (apart hn)]
    refine ⟨ht, ?_⟩
    simp [begunOn, World.toldOfDrop, List.filterMap_map, Milestone.begun?, Function.comp_def]
  | build | spawn =>
    generalize World.task? _ l slot = t' at hbecomes ⊢
    cases hbecomes
    exact ⟨rfl, rfl⟩
  | _ => exact ⟨ht, rfl⟩

theorem Passage.held (passage : Passage w others before σ w' after)
    (h : Census σ₀ w (before ++ others)) : ∀ job ∈ after ++ others, ∀ l slot,
      job.holds l slot = true → ∃ k, w'.task? l slot = some ⟨k, none⟩ ∧
        (begunOn l (σ₀ ++ σ)).getLast? = some (slot, k) ∧
        ∀ kind, job.kind? = some kind → .spawned l slot k kind ∈ σ₀ ++ σ := by
  intro job hm l slot hs
  have hbegun : begunOn l (σ₀ ++ σ) = begunOn l σ₀ ++ begunOn l σ := by
    rw [begunOn, List.filterMap_append]
    rfl
  -- a job takes the place of another one that held the same slot
  have after_of : ∀ job₀, job₀ ∈ before → job₀.holds l slot = true → begunOn l σ = [] →
      (∀ kind, job.kind? = some kind → job₀.kind? = some kind) → w'.task? l slot = w.task? l slot →
      ∃ k, w'.task? l slot = some ⟨k, none⟩ ∧
        (begunOn l (σ₀ ++ σ)).getLast? = some (slot, k) ∧
        ∀ kind, job.kind? = some kind → .spawned l slot k kind ∈ σ₀ ++ σ := by
    intro job₀ hm₀ hs₀ hσ hkind hw
    obtain ⟨k, ht, hb, hk⟩ := h.held job₀ (List.mem_append_left _ hm₀) l slot hs₀
    refine ⟨k, hw.trans ht, ?_, fun kind hj => List.mem_append_left _ (hk kind (hkind kind hj))⟩
    rw [hbegun, hσ, List.append_nil]
    exact hb
  rcases List.mem_append.mp hm with hm | hm
  · cases passage with
    | @begin l' slot' k work hn ht =>
      obtain rfl := List.mem_singleton.mp hm
      obtain ⟨rfl, rfl⟩ : l' = l ∧ slot' = slot := by simpa [Job.holds] using hs
      refine ⟨k, ?_, ?_, ?_⟩
      · rw [World.task?_modify, if_pos ⟨rfl, rfl⟩, ht]
        rfl
      · simp [begunOn, Milestone.begun?]
      · rintro kind ⟨⟩
        exact List.mem_append_left _ (h.known _ _ _ _ ht)
    | ending =>
      obtain rfl := List.mem_singleton.mp hm
      exact after_of _ (List.mem_singleton.mpr rfl) hs rfl (fun _ hk => hk) rfl
    | @handing l' slot' kind o =>
      have hjob : job = .taskFinished l' slot' := by
        rcases List.mem_append.mp hm with hm | hm
        · obtain ⟨j, _, rfl⟩ := List.mem_map.mp hm
          cases hs
        · exact List.mem_singleton.mp hm
      subst hjob
      exact after_of _ (List.mem_singleton.mpr rfl) hs rfl (fun _ hk => by cases hk) rfl
    | @spoiling l' slot' kind o p =>
      have hjob : job = .taskPanicked l' slot' p := by
        rcases List.mem_append.mp hm with hm | hm
        · obtain ⟨j, _, rfl⟩ := List.mem_map.mp hm
          cases hs
        · exact List.mem_singleton.mp hm
      subst hjob
      exact after_of _ (List.mem_singleton.mpr rfl) hs rfl (fun _ hk => by cases hk) rfl
    | again => exact after_of job hm hs rfl (fun _ hk => hk) rfl
    | draining | abandoning =>
      obtain ⟨x, _, rfl⟩ := List.mem_map.mp hm
      cases hs
    | closing =>
      obtain rfl := List.mem_singleton.mp hm
      cases hs
    | _ => cases hm
  · obtain ⟨k, ht, hb, hk⟩ := h.held job (List.mem_append_right _ hm) l slot hs
    obtain ⟨ht', hσ⟩ := passage.beside h.valid hm (Job.isTask_of_holds hs) ht
    refine ⟨k, ht', ?_, fun kind hj => List.mem_append_left _ (hk kind hj)⟩
    rw [hbegun, hσ, List.append_nil]
    exact hb

theorem Passage.known (passage : Passage w others before σ w' after)
    (h : Census σ₀ w (before ++ others)) {work : Work G.Coroutine}
    (ht : w'.task? l slot = some ⟨k, some work⟩) : .spawned l slot k work.kind ∈ σ₀ ++ σ := by
  cases ht₀ : w.task? l slot with
  | none =>
    obtain ⟨k', kind, f, rfl, he⟩ := passage.task?_new h.valid ht₀ ht
    cases he
    simp
  | some t =>
    have hbecomes := passage.becomes h.valid ht₀
    rw [ht] at hbecomes
    cases hbecomes with
    | kept => exact List.mem_append_left _ (h.known _ _ _ _ ht₀)
    | @pending _ _ kind =>
      obtain ⟨k', ht', _, hk⟩ := h.held (.taskPolled l slot kind) (by simp) l slot
        (by simp [Job.holds])
      cases ht₀.symm.trans ht'
      exact List.mem_append_left _ (hk kind rfl)

theorem World.size_addTask (w : World G) (l : LoopId) (kind : Kind) (f : Future G.Coroutine) :
    (w.addTask l kind f).1.wakers.size = w.wakers.size + 1 ∧
      (w.addTask l kind f).1.joins = w.joins := by
  obtain ⟨e, he⟩ := addTask_eq w l kind f
  rw [he]
  exact ⟨Array.size_push _, rfl⟩

/-- A task is spawned with a waker and a join slot of its own; nothing else makes one of either. -/
theorem Passage.made (passage : Passage w others before σ w' after) :
    σ.filterMap Milestone.waker? = [] ∧ w'.wakers.size = w.wakers.size ∧
        σ.filterMap Milestone.join? = [] ∧ w'.joins.size = w.joins.size ∨
      σ.filterMap Milestone.waker? = [⟨w.wakers.size⟩] ∧ w'.wakers.size = w.wakers.size + 1 ∧
        (σ.filterMap Milestone.join? = [] ∧ w'.joins.size = w.joins.size ∨
          σ.filterMap Milestone.join? = [⟨w.joins.size⟩] ∧
            w'.joins.size = w.joins.size + 1) := by
  cases passage with
  | @spawn l kind f joins hl hj =>
    obtain ⟨hwakers, hjoins⟩ := World.size_addTask { w with joins } l kind f
    refine .inr ⟨rfl, hwakers, ?_⟩
    rw [hjoins]
    obtain ⟨rfl, rfl⟩ | ⟨rfl, rfl⟩ := hj
    · exact .inl ⟨rfl, rfl⟩
    · exact .inr ⟨rfl, Array.size_push _⟩
  | @leaving job l slot =>
    refine .inl ⟨?_, rfl, ?_, rfl⟩ <;> cases ht : w.task? l slot <;>
      simp [World.toldOfEnd, ht, Milestone.waker?, Milestone.join?]
  | draining =>
    refine .inl ⟨?_, rfl, ?_, rfl⟩ <;>
      simp [World.toldOfDrop, List.filterMap_map, Milestone.waker?, Milestone.join?,
        Function.comp_def]
  | fill | awaitJoin | takeJoin =>
    exact .inl ⟨rfl, rfl, rfl, Array.size_setIfInBounds⟩
  | _ => exact .inl ⟨rfl, rfl, rfl, rfl⟩

theorem Census.step (h : Census σ₀ w (before ++ others))
    (passage : Passage w others before σ w' after) : Census (σ₀ ++ σ) w' (after ++ others) := by
  constructor
  · exact passage.tablesValid h.valid
  · intro l
    have hleft : leftFrom l (σ₀ ++ σ) = leftFrom l σ₀ ++ leftFrom l σ := List.filterMap_append
    have hspawned : spawnedOn l (σ₀ ++ σ) = spawnedOn l σ₀ ++ spawnedOn l σ :=
      List.filterMap_append
    rw [hleft, hspawned, List.append_assoc]
    have hstep := (passage.seats h.valid (l := l)).append_left (leftFrom l σ₀)
    have hold := (h.balance l).append_right (spawnedOn l σ)
    rw [List.append_assoc] at hold
    exact hstep.trans hold
  · exact fun l => passage.single (h.single l)
  · exact passage.held h
  · exact fun l slot k work ht => passage.known h ht
  · rw [List.filterMap_append]
    rcases passage.made with ⟨hσ, _⟩ | ⟨hσ, _⟩
    · rw [hσ, List.append_nil]
      exact h.wakers
    · rw [hσ, List.nodup_append]
      refine ⟨h.wakers, List.nodup_singleton _, ?_⟩
      rintro k hk _ hk' rfl
      obtain rfl := List.mem_singleton.mp hk'
      exact Nat.lt_irrefl _ (h.made _ hk)
  · intro k hk
    rw [List.filterMap_append, List.mem_append] at hk
    rcases passage.made with ⟨hσ, hsize, _⟩ | ⟨hσ, hsize, _⟩
    · rw [hsize]
      exact h.made k (hk.resolve_right (by simp [hσ]))
    · rw [hsize]
      rcases hk with hk | hk
      · exact Nat.lt_succ_of_lt (h.made k hk)
      · rw [hσ, List.mem_singleton] at hk
        rw [hk]
        exact Nat.lt_succ_self _
  · rw [List.filterMap_append, h.joins]
    rcases passage.made with ⟨_, _, hσ, hsize⟩ | ⟨_, _, ⟨hσ, hsize⟩ | ⟨hσ, hsize⟩⟩
    · rw [hσ, hsize, List.append_nil]
    · rw [hσ, hsize, List.append_nil]
    · rw [hσ, hsize, List.range_succ, List.map_append]
      rfl

theorem census_empty : Census [] (World.empty : World G) [] where
  valid l s hs := by
    simp [World.tasks?, World.loop?, World.empty] at hs
  balance l := by
    simp [leftFrom, spawnedOn, World.seats, World.tenants, World.tasks?, World.loop?, World.empty]
  single l := by simp
  held := by simp
  known l slot k work ht := by
    simp [World.task?, World.loop?, World.empty] at ht
  wakers := List.nodup_nil
  made := by simp
  joins := by simp [World.empty]

theorem Census.same {D D' : List (Job G)} (h : Census σ w D) (hw : w.Keeps w')
    (hD : D.Perm D') : Census σ w' D' where
  valid l s hs := h.valid l s (hw.tasks l ▸ hs)
  balance l := by
    rw [World.seats_congr (hw.tasks l)]
    exact h.balance l
  single l := by
    rw [← hD.countP_eq]
    exact h.single l
  held job hm l slot hs := by
    rw [World.task?_of_keeps hw]
    exact h.held job (hD.mem_iff.mpr hm) l slot hs
  known l slot k work ht := by
    rw [World.task?_of_keeps hw] at ht
    exact h.known l slot k work ht
  wakers := h.wakers
  made k hk := Nat.lt_of_lt_of_le (h.made k hk) hw.wakers
  joins := by
    rw [h.joins, hw.joins]

theorem Chronicle.census {D : List (Job G)} (chronicle : Chronicle σ w D) : Census σ w D := by
  induction chronicle with
  | here => exact census_empty
  | same _ hw hD ih => exact ih.same hw hD
  | step _ passage ih => exact ih.step passage

/-! ## What follows from the census -/

namespace Census

variable {D : List (Job G)} {l' : LoopId} {slot' : Nat} {kind' : Kind}

/-- A waker was made for one task only. -/
theorem spawned_unique (h : Census σ w D) (hs : .spawned l slot k kind ∈ σ)
    (hs' : .spawned l' slot' k kind' ∈ σ) : l = l' ∧ slot = slot' ∧ kind = kind' := by
  have he := eq_of_nodup_filterMap h.wakers hs hs' rfl rfl
  cases he
  exact ⟨rfl, rfl, rfl⟩

/-- A join slot was made for one task only. -/
theorem joined_unique (h : Census σ w D) {k' : WakerId} {j : JoinId}
    (hs : .spawned l slot k (.joined j) ∈ σ) (hs' : .spawned l' slot' k' (.joined j) ∈ σ) :
    l = l' ∧ slot = slot' ∧ k = k' := by
  have hnodup : (σ.filterMap Milestone.join?).Nodup := by
    rw [h.joins]
    exact List.nodup_range.map fun i i' hi => by simpa using hi
  have he := eq_of_nodup_filterMap hnodup hs hs' rfl rfl
  cases he
  exact ⟨rfl, rfl, rfl⟩

theorem nodup_spawnedOn (h : Census σ w D) (l : LoopId) :
    ((spawnedOn l σ).map Prod.snd).Nodup := by
  have hsub : ∀ σ : List Milestone,
      ((spawnedOn l σ).map Prod.snd).Sublist (σ.filterMap Milestone.waker?) := by
    intro σ
    unfold spawnedOn
    induction σ with
    | nil => exact .slnil
    | cons e σ ih =>
      cases e with
      | spawned l' slot k kind =>
        rw [List.filterMap_cons_some (f := Milestone.waker?) (b := k) rfl]
        by_cases hl : l' = l
        · rw [List.filterMap_cons_some (f := Milestone.spawned? l) (b := (slot, k))
            (by simp [Milestone.spawned?, hl])]
          exact ih.cons_cons k
        · rw [List.filterMap_cons_none (f := Milestone.spawned? l)
            (by simp [Milestone.spawned?, hl])]
          exact ih.cons k
      | _ => exact ih
  exact (hsub σ).nodup h.wakers

theorem nodup_leftFrom (h : Census σ w D) (l : LoopId) : (leftFrom l σ ++ w.seats l).Nodup :=
  (h.balance l).nodup_iff.mpr ((h.nodup_spawnedOn l).of_map _)

/-- A task that was spawned has left, or is in a slot. -/
theorem left_or_seated (h : Census σ w D) (hs : .spawned l slot k kind ∈ σ) :
    (slot, k) ∈ leftFrom l σ ∨ ∃ work, w.task? l slot = some ⟨k, work⟩ := by
  have hmem := (h.balance l).mem_iff.mpr (mem_spawnedOn.mpr ⟨kind, hs⟩)
  exact (List.mem_append.mp hmem).imp_right World.mem_seats.mp

/-- A task that left is in no slot. -/
theorem task?_ne_of_left (h : Census σ w D) (hleft : (slot, k) ∈ leftFrom l σ)
    (work : Option (Work G.Coroutine)) : w.task? l slot ≠ some ⟨k, work⟩ := by
  intro ht
  have hseat : (slot, k) ∈ w.seats l := World.mem_seats.mpr ⟨work, ht⟩
  exact (List.nodup_append.mp (h.nodup_leftFrom l)).2.2 _ hleft _ hseat rfl

/-- A task that came to its end was not dropped with its loop. -/
theorem not_dropped_of_finished (h : Census σ w D) (hf : .finished l slot k ∈ σ)
    (kind : Option Kind) : .dropped l slot k kind ∉ σ := by
  intro hd
  have hnodup : (leftFrom l σ).Nodup := (List.nodup_append.mp (h.nodup_leftFrom l)).1
  have he := eq_of_nodup_filterMap hnodup hf hd (b := (slot, k)) (by simp [Milestone.left?])
    (by simp [Milestone.left?])
  cases he

/-- What a task is out of the table for is that it is being polled, or ends. -/
theorem work_of_holds (h : Census σ w D) {job : Job G} (hm : job ∈ D)
    (hj : job.holds l slot = true) {t : Task G.Coroutine} (ht : w.task? l slot = some t) :
    t.work = none := by
  obtain ⟨k, ht', _⟩ := h.held job hm l slot hj
  cases ht.symm.trans ht'
  rfl

end Census

/-- Tasks are dropped where their loop is. -/
theorem Passage.drain_of_dropped (passage : Passage w others before σ w' after)
    {kind : Option Kind} (h : .dropped l slot k kind ∈ σ) : ∃ n work,
      before = [.drain l n] ∧ w.task? l slot = some ⟨k, work⟩ ∧ kind = work.map (·.kind) := by
  cases passage with
  | @leaving job l' slot' =>
    unfold World.toldOfEnd at h
    obtain ⟨t, _, he⟩ := List.mem_map.mp h
    cases he
  | @draining l' n =>
    obtain ⟨⟨slot, k, work⟩, hm, he⟩ := List.mem_map.mp h
    cases he
    exact ⟨n, work, rfl, World.mem_tenants.mp hm, rfl⟩
  | _ => simp at h

end

namespace Machine

variable {code : G.Code} {m m' : Machine G} {p : List (Machine G)} {a : Answer G}
  {rest : List (Job G)}

theorem Walked.census (hm : Walked code p m) : Census (story p) m.world m.errands :=
  hm.chronicle.census

theorem mem_errands_of_holds {job : Job G} (hm : job ∈ m.allJobs) (hj : job.holds l slot = true) :
    job ∈ m.errands :=
  List.mem_filter.mpr ⟨hm, Job.isErrand_of_isTask (Job.isTask_of_holds hj)⟩

/-- The future of a task is out of its slot exactly while the task is being polled, or ends. -/
theorem Walked.work_eq_none_iff (hm : Walked code p m) {t : Task G.Coroutine}
    (ht : m.world.task? l slot = some t) :
    t.work = none ↔ ∃ job ∈ m.allJobs, job.holds l slot = true := by
  constructor
  · intro hnone
    obtain ⟨k, work⟩ := t
    obtain rfl : work = none := hnone
    obtain ⟨job, hmem, hj⟩ := hm.reached.trail.wired.busy slot k ht
    exact ⟨job, (List.mem_filter.mp hmem).1, hj⟩
  · rintro ⟨job, hmem, hj⟩
    exact hm.census.work_of_holds (mem_errands_of_holds hmem hj) hj ht

/-- The tasks of a loop that is not running have their futures in the table. -/
theorem Walked.work_of_free (hm : Walked code p m) (hfree : Free l m.allJobs)
    {t : Task G.Coroutine} (ht : m.world.task? l slot = some t) : t.work ≠ none := by
  intro hnone
  obtain ⟨job, hmem, hj⟩ := (hm.work_eq_none_iff ht).mp hnone
  have hno := (hfree job hmem).2.2
  rw [Job.isTask_of_holds hj] at hno
  cases hno

/-! ## Open loops -/

/-- Only tasks of a loop that was dropped are dropped, and none of them is being polled. -/
theorem Walked.of_dropped (hm : Walked code p m) {kind : Option Kind}
    (h : .dropped l slot k kind ∈ story p) : .closed l ∈ p.flatMap happenings ∧
      ∃ kind', kind = some kind' ∧ .spawned l slot k kind' ∈ story p := by
  obtain ⟨m₁, hm₁, he⟩ := List.mem_flatMap.mp h
  obtain ⟨shared, run, walk⟩ := hm
  obtain ⟨p₁, p₂, rfl, before, hi, live, _⟩ := walk.of_mem hm₁
  have hm₁ : Walked code p₁ m₁ := ⟨shared, run, before⟩
  obtain ⟨job, rest, jobs, advance⟩ := hm₁.advance hi live
  obtain ⟨w, passage, _⟩ := advance.passage
  obtain ⟨n, work, hdrain, ht, rfl⟩ := passage.drain_of_dropped he
  have hmem : .drain l n ∈ m₁.errands := by
    rw [advance.errands_eq, hdrain]
    exact List.mem_cons_self
  have hclosed := hm₁.reached.closed_of_drain (List.mem_filter.mp hmem).1
  have hfree := hm₁.reached.free_of_closed (hm₁.reached.isClosed_of_closed hclosed)
  obtain ⟨work, rfl⟩ := Option.ne_none_iff_exists'.mp (hm₁.work_of_free hfree ht)
  have hspawned := hm₁.census.known _ _ _ _ ht
  exact ⟨mem_happenings_append hclosed _, work.kind, rfl, mem_story_append hspawned _⟩

/-- A task leaves the table of an open loop only when it comes to its end. -/
theorem Walked.leftFrom_eq (hm : Walked code p m) (hl : m.world.isClosed l = false) :
    leftFrom l (story p) = finishedOn l (story p) := by
  apply List.filterMap_congr
  intro e he
  cases e with
  | dropped l' slot k kind =>
    have hne : l' ≠ l := by
      rintro rfl
      rw [hm.reached.isClosed_of_closed (hm.of_dropped he).1] at hl
      cases hl
    simp [Milestone.left?, Milestone.finished?, hne]
  | _ => rfl

/-- The number of unfinished tasks is that of the tasks in the table. -/
theorem Walked.pendingTasks_eq (hm : Walked code p m) (l : LoopId) :
    m.world.pendingTasks l = (m.world.seats l).length := by
  unfold World.pendingTasks World.seats World.tenants
  rw [List.length_map]
  cases hs : m.world.tasks? l with
  | none =>
    have hl : m.world.loop? l = none := by simpa [World.tasks?] using hs
    simp [hl]
  | some s =>
    obtain ⟨e, he, rfl⟩ := Option.map_eq_some_iff.mp hs
    have hsize := (hm.census.valid l e.tasks hs).size_eq
    simpa [he] using hsize

/-- The waker of a task in a slot queues this slot, on the loop of the task. -/
theorem Walked.waker? (hm : Walked code p m) {t : Task G.Coroutine}
    (ht : m.world.task? l slot = some t) :
    ∃ b, m.world.waker? t.waker = some ⟨l, .task slot, b⟩ :=
  hm.reached.trail.wired.label t.waker (.task slot) ⟨t.work, ht⟩

/-- What one step of any thread makes of a task of an open loop. -/
theorem Walked.task?_of_move (hm : Walked code p m) (hl : m.world.isClosed l = false)
    {η : List (Happening G)} (move : Move code m η m') {t : Task G.Coroutine}
    (ht : m.world.task? l slot = some t) :
    m'.world.task? l slot = some t ∨
    t.work ≠ none ∧ m.milestones = [.begun l slot t.waker] ∧
      m'.world.task? l slot = some ⟨t.waker, none⟩ ∨
    t.work = none ∧ (∃ kind f rest, m.jobs = .taskPolled l slot kind :: rest ∧
      m'.world.task? l slot = some ⟨t.waker, some ⟨kind, true, f⟩⟩) ∨
    t.work = none ∧ m.milestones = [.finished l slot t.waker] ∧
      m'.world.task? l slot = none := by
  cases move with
  | turnTo | launch => exact .inl ht
  | act hi =>
    cases live : m.isAborted with
    | true =>
      rw [(step_of_isAborted code live).2]
      exact .inl ht
    | false =>
      obtain ⟨job, rest, jobs, advance⟩ := hm.advance hi live
      obtain ⟨w, passage, hw⟩ := advance.passage
      have hbecomes := passage.becomes hm.census.valid ht
      rw [← World.task?_of_keeps hw] at hbecomes
      -- the job on top, if it is an errand
      have top : ∀ job', [job].filter Job.isErrand = [job'] → job = job' ∧ job' ∈ m.errands := by
        intro job' hjob
        have hmem : job' ∈ [job].filter Job.isErrand := hjob ▸ List.mem_cons_self
        refine ⟨(List.mem_singleton.mp (List.mem_filter.mp hmem).1).symm, ?_⟩
        rw [advance.errands_eq]
        exact List.mem_append_left _ hmem
      generalize m.milestones = σ at hbecomes
      generalize hbefore : [job].filter Job.isErrand = before at hbecomes
      generalize (m.step code).world.task? l slot = t' at hbecomes
      generalize jobs.filter Job.isErrand = after at hbecomes
      cases hbecomes with
      | kept => exact .inl rfl
      | begun => exact .inr (.inl ⟨by simp, rfl, rfl⟩)
      | @pending k work kind f =>
        obtain ⟨rfl, hmem⟩ := top _ hbefore
        have hnone := hm.census.work_of_holds hmem (by simp [Job.holds]) ht
        exact .inr (.inr (.inl ⟨hnone, kind, f, rest, advance.top, rfl⟩))
      | finished hjob =>
        obtain ⟨rfl, hmem⟩ := top _ hbefore
        have hnone := hm.census.work_of_holds hmem
          (by obtain rfl | ⟨q, rfl⟩ := hjob <;> simp [Job.holds]) ht
        exact .inr (.inr (.inr ⟨hnone, rfl, rfl⟩))
      | dropped =>
        obtain ⟨rfl, hmem⟩ := top _ hbefore
        have hclosed := hm.reached.closed_of_drain (List.mem_filter.mp hmem).1
        rw [hm.reached.isClosed_of_closed hclosed] at hl
        cases hl

/-! ## Steps -/

/-- A poll of a task begins with its own waker, and its slot waits for it. -/
theorem step_turn_wake (code : G.Code) {l : LoopId} {k k' : WakerId} {f : Future G.Coroutine}
    {batch : List (Entry G)} {work : Work G.Coroutine}
    (hj : m.jobs = .turn l k f (.wake slot :: batch) :: rest) (hmode : m.mode = .going a)
    (ht : m.world.task? l slot = some ⟨k', some work⟩) :
    (m.step code).jobs = .serve (.poll work.future k') :: .taskPolled l slot work.kind ::
        .turn l k f batch :: rest ∧
      (m.step code).world.task? l slot = some ⟨k', none⟩ := by
  have hstep : m.step code = { m with jobs := rest }.turn code l k f (.wake slot :: batch) :=
    step_of_going hj hmode rfl
  have htake := World.takeWork_eq_some_iff.mpr ⟨ht, rfl⟩
  simp only [turn, process, pollTask, push, insert, go, htake] at hstep
  rw [hstep]
  refine ⟨rfl, ?_⟩
  have htask : ((m.world.modifyTasks l
      (·.modify slot (fun t => { t with work := none }))).rearm k').task? l slot =
        some ⟨k', none⟩ := by
    rw [World.task?_rearm, World.task?_modify, if_pos ⟨rfl, rfl⟩, ht]
    rfl
  exact htask

/-- A task that is pending goes back into its slot, and nothing is done to the others. -/
theorem step_taskPolled_pending (code : G.Code) {f : Future G.Coroutine}
    (hj : m.jobs = .taskPolled l slot kind :: rest) (hmode : m.mode = .going a)
    (hpending : a.toPoll = .pending f) (ht : m.world.task? l slot = some ⟨k, none⟩) :
    (m.step code).world.task? l slot = some ⟨k, some ⟨kind, true, f⟩⟩ ∧
      ∀ l' slot', (l', slot') ≠ (l, slot) →
        (m.step code).world.task? l' slot' = m.world.task? l' slot' := by
  have hstep : m.step code = { m with jobs := rest }.taskPolled l slot kind a.toPoll :=
    step_of_going hj hmode rfl
  rw [hpending] at hstep
  have hw : (m.step code).world = m.world.modifyTasks l
      (·.modify slot (fun t => { t with work := some ⟨kind, true, f⟩ })) := by
    rw [hstep]
    rfl
  rw [hw]
  constructor
  · rw [World.task?_modify, if_pos ⟨rfl, rfl⟩, ht]
    rfl
  · intro l' slot' hne
    rw [World.task?_modify, if_neg]
    rintro ⟨rfl, rfl⟩
    exact hne rfl

/-! ## The invariant -/

/-- **Every task keeps its slot.** Whatever is spawned, polled, woken, ends or panics, on whatever
threads, as long as a loop is open:

* every task has a waker of its own, and the tasks that were spawned on the loop are those that came
  to their end and those in its table, each of them in the slot that it was given and in no other;
* the loop counts as many unfinished tasks as were spawned and did not come to their end;
* the waker of a task queues its own slot on its own loop;
* the future of a task is in its slot, unless it is the one task that is being polled, or ends,
  which was the last to be polled and keeps its slot all the time;
* a poll takes the future out of its slot, and when it is over, the task that is pending goes back
  into the same slot; no other task is touched;
* no step touches a task in any other way, unless it comes to its end. -/
theorem task_table_invariant (hm : Walked code p m) (hl : m.world.isClosed l = false) :
    ((spawnedOn l (story p)).map Prod.snd).Nodup ∧
    (finishedOn l (story p) ++ m.world.seats l).Perm (spawnedOn l (story p)) ∧
    (∀ slot k, (slot, k) ∈ spawnedOn l (story p) → (slot, k) ∉ finishedOn l (story p) →
      (∃ work, m.world.task? l slot = some ⟨k, work⟩) ∧
        ∀ slot' work, m.world.task? l slot' = some ⟨k, work⟩ → slot' = slot) ∧
    m.world.pendingTasks l + (finishedOn l (story p)).length = (spawnedOn l (story p)).length ∧
    (∀ slot t, m.world.task? l slot = some t →
      (∃ b, m.world.waker? t.waker = some ⟨l, .task slot, b⟩) ∧
      (t.work = none ↔ ∃ job ∈ m.allJobs, job.holds l slot = true)) ∧
    m.allJobs.countP (Job.isTask l) ≤ 1 ∧
    (∀ job ∈ m.allJobs, ∀ slot, job.holds l slot = true →
      ∃ k, m.world.task? l slot = some ⟨k, none⟩ ∧
        (begunOn l (story p)).getLast? = some (slot, k)) ∧
    (∀ k f slot batch rest a k' work, m.jobs = .turn l k f (.wake slot :: batch) :: rest →
      m.mode = .going a → m.world.task? l slot = some ⟨k', some work⟩ →
      (m.step code).jobs = .serve (.poll work.future k') :: .taskPolled l slot work.kind ::
          .turn l k f batch :: rest ∧
        (m.step code).world.task? l slot = some ⟨k', none⟩ ∧
        ∀ p' m', Walk code (m.step code) p' m' → ∃ done left,
          [.serve (.poll work.future k'), .taskPolled l slot work.kind] = done ++ left ∧
            (stations done (left ++ .turn l k f batch :: rest)).Sublist (p'.map (·.jobs))) ∧
    (∀ slot kind rest a f, m.jobs = .taskPolled l slot kind :: rest → m.mode = .going a →
      a.toPoll = .pending f → ∃ k, m.world.task? l slot = some ⟨k, none⟩ ∧
        .spawned l slot k kind ∈ story p ∧
        (m.step code).world.task? l slot = some ⟨k, some ⟨kind, true, f⟩⟩ ∧
        ∀ l' slot', (l', slot') ≠ (l, slot) →
          (m.step code).world.task? l' slot' = m.world.task? l' slot') ∧
    ∀ η m' slot t, Move code m η m' → m.world.task? l slot = some t →
      m'.world.task? l slot = some t ∨
      t.work ≠ none ∧ m.milestones = [.begun l slot t.waker] ∧
        m'.world.task? l slot = some ⟨t.waker, none⟩ ∨
      t.work = none ∧ (∃ kind f rest, m.jobs = .taskPolled l slot kind :: rest ∧
        m'.world.task? l slot = some ⟨t.waker, some ⟨kind, true, f⟩⟩) ∨
      t.work = none ∧ m.milestones = [.finished l slot t.waker] ∧
        m'.world.task? l slot = none := by
  have census := hm.census
  have hbalance : (finishedOn l (story p) ++ m.world.seats l).Perm (spawnedOn l (story p)) := by
    rw [← hm.leftFrom_eq hl]
    exact census.balance l
  have held : ∀ job ∈ m.allJobs, ∀ slot, job.holds l slot = true →
      ∃ k, m.world.task? l slot = some ⟨k, none⟩ ∧
        (begunOn l (story p)).getLast? = some (slot, k) ∧
        ∀ kind, job.kind? = some kind → .spawned l slot k kind ∈ story p :=
    fun job hmem slot hj => census.held job (mem_errands_of_holds hmem hj) l slot hj
  refine ⟨census.nodup_spawnedOn l, hbalance, ?_, ?_, ?_, ?_, ?_, ?_, ?_, ?_⟩
  · intro slot k hs hf
    have hseat : (slot, k) ∈ m.world.seats l :=
      (List.mem_append.mp (hbalance.mem_iff.mpr hs)).resolve_left hf
    refine ⟨World.mem_seats.mp hseat, fun slot' work ht => ?_⟩
    have hs' : (slot', k) ∈ spawnedOn l (story p) :=
      hbalance.mem_iff.mp (List.mem_append_right _ (World.mem_seats.mpr ⟨work, ht⟩))
    obtain ⟨_, h⟩ := mem_spawnedOn.mp hs
    obtain ⟨_, h'⟩ := mem_spawnedOn.mp hs'
    exact (census.spawned_unique h' h).2.1
  · rw [hm.pendingTasks_eq, ← hbalance.length_eq, List.length_append]
    exact Nat.add_comm _ _
  · exact fun slot t ht => ⟨hm.waker? ht, hm.work_eq_none_iff ht⟩
  · have hsingle := census.single l
    have hcount : m.errands.countP (Job.isTask l) = m.allJobs.countP (Job.isTask l) := by
      rw [errands, List.countP_filter]
      refine List.countP_congr fun i _ => ?_
      simpa using Job.isErrand_of_isTask
    rwa [hcount] at hsingle
  · intro job hmem slot hj
    obtain ⟨k, ht, hb, _⟩ := held job hmem slot hj
    exact ⟨k, ht, hb⟩
  · intro k f slot batch rest a k' work hj hmode ht
    obtain ⟨hjobs, htask⟩ := step_turn_wake code hj hmode ht
    refine ⟨hjobs, htask, fun p' m' walk => ?_⟩
    have htop : [.serve (.poll work.future k'), .taskPolled l slot work.kind] ++
        .turn l k f batch :: rest <:+ (m.step code).jobs := ⟨[], hjobs.symm⟩
    obtain ⟨done, left, he, hsub, _⟩ := walk.works_down List.mem_cons_self htop
    exact ⟨done, left, he, hsub⟩
  · intro slot kind rest a f hj hmode hpending
    have hmem := mem_allJobs_of_top hj
    obtain ⟨k, ht, _, hk⟩ := held _ hmem slot (by simp [Job.holds])
    obtain ⟨hback, hothers⟩ := step_taskPolled_pending code hj hmode hpending ht
    exact ⟨k, ht, hk kind rfl, hback, hothers⟩
  · exact fun η m' slot t move ht => hm.task?_of_move hl move ht

open Script

/-- A task that spawns another one and yields, and a main future that waits for the first. -/
def taskInsideTask : List (String × Statement) :=
  onLoop [[line "spawn" "a" (.spawn "a" (.mk "a"
      [line "spawn" "b" (.spawn "b" (.mk "b" [] none none)), line "yield" "a" (.yield 1)]
      none none)),
    line "await" "a" (.await .keep .null (.join "a"))]]

/-- When the first task is polled again, it is in its own slot, and the only one of two that is
left. -/
theorem task_table_invariant_of_script :
    (follow taskInsideTask 60).2.world.isClosed ⟨0⟩ = false ∧
      (follow taskInsideTask 60).2.world.pendingTasks ⟨0⟩ = 1 ∧
      (spawnedOn ⟨0⟩ (story (follow taskInsideTask 60).1)).length =
        1 + (finishedOn ⟨0⟩ (story (follow taskInsideTask 60).1)).length ∧
      ∃ k, (follow taskInsideTask 60).2.world.task? ⟨0⟩ 0 = some ⟨k, none⟩ ∧
        (begunOn ⟨0⟩ (story (follow taskInsideTask 60).1)).getLast? = some (0, k) := by
  have hl : (follow taskInsideTask 60).2.world.isClosed ⟨0⟩ = false := by decide +kernel
  have hpending : (follow taskInsideTask 60).2.world.pendingTasks ⟨0⟩ = 1 := by decide +kernel
  have hpolled : (follow taskInsideTask 60).2.allJobs.any (Job.holds ⟨0⟩ 0) = true := by
    decide +kernel
  obtain ⟨job, hmem, hj⟩ := List.any_eq_true.mp hpolled
  have h := task_table_invariant (walked_follow taskInsideTask 60) hl
  exact ⟨hl, hpending, hpending ▸ h.2.2.2.1.symm, h.2.2.2.2.2.2.1 job hmem 0 hj⟩

end Machine

end RunLoop
