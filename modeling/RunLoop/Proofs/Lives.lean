import RunLoop.Proofs.CurrentLoop
import RunLoop.Proofs.Teardown

/-!
# The lives of futures

The future of a task is polled again and again, until it is ready or panics, and then it is dropped.
If its loop is dropped before that, it is dropped with the loop. Wake-ups name nothing but a slot,
and may come at any moment and from anywhere; whatever they are, no poll begins of a future that is
being polled, that is at its end, or that is gone.

* `Stage` lists the steps in the life of a future, `Machine.life` is the life of one in a run.
* `HasFuture` says that there is a future left to be polled.
* `Passage.ages`: what a step adds to the life of a future.
* `Machine.poll_discipline` puts it together.
-/

namespace RunLoop

variable {G : Guest} {l : LoopId} {slot : Nat} {k : WakerId} {kind : Kind}

/-- A step in the life of the future of a task: a poll of it begins, a poll was the last, or it is
taken out of the table with its loop. -/
inductive Stage where
  | polled
  | ended
  | dropped
deriving DecidableEq

/-- The stage that a milestone is in the life of the task with waker `k` in slot `slot`. -/
def Milestone.stage? (w : World G) (l : LoopId) (slot : Nat) (k : WakerId) :
    Milestone → Option Stage
  | begun l' slot' k' => if l' = l ∧ slot' = slot ∧ k' = k then some .polled else none
  | ended l' slot' _ _ =>
      if l' = l ∧ slot' = slot ∧ (w.task? l slot).any (·.waker = k) then some .ended else none
  | dropped l' slot' k' _ => if l' = l ∧ slot' = slot ∧ k' = k then some .dropped else none
  | _ => none

/-- The task with waker `k` has a future: it is in its slot, or being polled. -/
def HasFuture (w : World G) (D : List (Job G)) (l : LoopId) (slot : Nat) (k : WakerId) : Prop :=
  (∃ work, w.task? l slot = some ⟨k, some work⟩) ∨
    w.task? l slot = some ⟨k, none⟩ ∧ ∃ kind, .taskPolled l slot kind ∈ D

/-- What a step adds to the life of a future, where `had` and `has` say whether there is one before
and after. -/
inductive Ages (had has : Prop) : List Stage → Prop where
  | rests (h : had ↔ has) : Ages had has []
  | polled (h : had) (h' : has) : Ages had has [.polled]
  | ended (h : had) (h' : ¬has) : Ages had has [.ended]
  | dropped (h : had) (h' : ¬has) : Ages had has [.dropped]

/-- The life of a future: it was polled some times, and if there is none left, the last poll brought
it to its end, or it was dropped between two polls. -/
inductive Lived (has : Prop) : List Stage → Prop where
  | lives (n : Nat) (h : has) : Lived has (List.replicate n .polled)
  | ended (n : Nat) (h : ¬has) : Lived has (List.replicate (n + 1) .polled ++ [.ended])
  | dropped (n : Nat) (h : ¬has) : Lived has (List.replicate n .polled ++ [.dropped])

theorem Lived.next {had has : Prop} {σ σ' : List Stage} (h : Lived had σ) (ages : Ages had has σ')
    (hpolled : σ' = [.ended] → .polled ∈ σ) : Lived has (σ ++ σ') := by
  cases ages with
  | rests he =>
    rw [List.append_nil]
    cases h with
    | lives n h => exact .lives n (he.mp h)
    | ended n h => exact .ended n (mt he.mpr h)
    | dropped n h => exact .dropped n (mt he.mpr h)
  | polled hhad hhas =>
    cases h with
    | lives n =>
      rw [← List.replicate_succ']
      exact .lives (n + 1) hhas
    | ended _ h | dropped _ h => exact absurd hhad h
  | ended hhad hgone =>
    cases h with
    | lives n =>
      cases n with
      | zero => simp at hpolled
      | succ n => exact .ended n hgone
    | ended _ h | dropped _ h => exact absurd hhad h
  | dropped hhad hgone =>
    cases h with
    | lives n => exact .dropped n hgone
    | ended _ h | dropped _ h => exact absurd hhad h

section

variable {w w' : World G} {others before after : List (Job G)} {σ σ₀ : List Milestone}

theorem HasFuture.of_keeps (hw : w.Keeps w') {D : List (Job G)} :
    HasFuture w' D l slot k ↔ HasFuture w D l slot k := by
  simp only [HasFuture, World.task?_of_keeps hw]

theorem hasFuture_of_perm {D D' : List (Job G)} (hD : D.Perm D') :
    HasFuture w D l slot k ↔ HasFuture w D' l slot k := by
  simp only [HasFuture, hD.mem_iff]

/-- Where no task of a loop is being polled, a task has a future if it is in its slot. -/
theorem hasFuture_of_quiet {D : List (Job G)} (hn : ∀ i ∈ D, i.isTask l = false) :
    HasFuture w D l slot k ↔ ∃ work, w.task? l slot = some ⟨k, some work⟩ := by
  refine ⟨?_, .inl⟩
  rintro (h | ⟨_, kind, hm⟩)
  · exact h
  · simpa [Job.isTask] using hn _ hm

/-! ## What a step adds -/

/-- The stages that the milestones of a step are in the life of a task. -/
def World.stages (w : World G) (σ : List Milestone) (l : LoopId) (slot : Nat) (k : WakerId) :
    List Stage :=
  σ.filterMap (Milestone.stage? w l slot k)

/-- A step adds nothing where the slot is left alone, and who is being polled in it. -/
theorem ages_of_same (ht : w'.task? l slot = w.task? l slot)
    (hD : ∀ kind, .taskPolled l slot kind ∈ after ++ others ↔
      .taskPolled l slot kind ∈ before ++ others) (hσ : w.stages σ l slot k = []) :
    Ages (HasFuture w (before ++ others) l slot k) (HasFuture w' (after ++ others) l slot k)
      (w.stages σ l slot k) := by
  rw [hσ]
  refine .rests ?_
  simp only [HasFuture, ht, hD]

theorem ages_of_spawn {l' : LoopId} {kind' : Kind} {f : Future G.Coroutine} {joins : Array JoinSlot}
    (hv : w.TablesValid) (hl : ∃ s, w.tasks? l' = some s) (hk : k.index < w.wakers.size)
    (D : List (Job G)) :
    Ages (HasFuture w D l slot k) (HasFuture ({ w with joins }.addTask l' kind' f).1 D l slot k)
      (w.stages [.spawned l' (w.nextSlot l') ⟨w.wakers.size⟩ kind'] l slot k) := by
  have hv' : { w with joins }.TablesValid := hv
  have hne : ⟨w.wakers.size⟩ ≠ k := by
    rintro rfl
    simp at hk
  refine .rests ?_
  simp only [HasFuture]
  rw [hv'.task?_addTask hl]
  split
  · -- another task comes into the slot, in which there was none
    rename_i he
    obtain ⟨rfl, rfl⟩ := he
    have hnext : w.task? l' ({ w with joins }.nextSlot l') = none := hv.task?_nextSlot l'
    simp [hnext, hne]
  · rfl

theorem taskPolled_ne {l' : LoopId} {slot' : Nat} {kind' : Kind} (he : ¬(l' = l ∧ slot' = slot)) :
    Job.taskPolled (G := G) l slot kind ≠ .taskPolled l' slot' kind' := by
  rintro h
  cases h
  exact he ⟨rfl, rfl⟩

theorem ages_of_begin {l' : LoopId} {slot' : Nat} {k' : WakerId} {work : Work G.Coroutine}
    (ht : w.task? l' slot' = some ⟨k', some work⟩) :
    Ages (HasFuture w ([] ++ others) l slot k)
      (HasFuture (w.modifyTasks l' (·.modify slot' (fun t => { t with work := none })))
        ([.taskPolled l' slot' work.kind] ++ others) l slot k)
      (w.stages [.begun l' slot' k'] l slot k) := by
  by_cases he : l' = l ∧ slot' = slot
  · obtain ⟨rfl, rfl⟩ := he
    have ht' : (w.modifyTasks l' (·.modify slot' (fun t => { t with work := none }))).task? l'
        slot' = some ⟨k', none⟩ := by
      rw [World.task?_modify, if_pos ⟨rfl, rfl⟩, ht]
      rfl
    by_cases hk : k' = k
    · subst hk
      have hstage : w.stages [.begun l' slot' k'] l' slot' k' = [.polled] := by
        simp [World.stages, Milestone.stage?]
      rw [hstage]
      exact .polled (.inl ⟨work, ht⟩) (.inr ⟨ht', work.kind, List.mem_cons_self⟩)
    · have hstage : w.stages [.begun l' slot' k'] l' slot' k = [] := by
        simp [World.stages, Milestone.stage?, hk]
      rw [hstage]
      refine .rests ?_
      simp [HasFuture, ht, ht', hk]
  · refine ages_of_same (by rw [World.task?_modify, if_neg he]) (fun kind => ?_) ?_
    · simp [taskPolled_ne he]
    · simp [World.stages, Milestone.stage?, ← and_assoc, he]

theorem ages_of_pending {l' : LoopId} {slot' : Nat} {k' : WakerId} {kind' : Kind}
    {f : Future G.Coroutine} (ht : w.task? l' slot' = some ⟨k', none⟩) :
    Ages (HasFuture w ([.taskPolled l' slot' kind'] ++ others) l slot k)
      (HasFuture (w.modifyTasks l' (·.modify slot'
        (fun t => { t with work := some ⟨kind', true, f⟩ }))) ([] ++ others) l slot k)
      (w.stages [] l slot k) := by
  by_cases he : l' = l ∧ slot' = slot
  · obtain ⟨rfl, rfl⟩ := he
    have ht' : (w.modifyTasks l' (·.modify slot'
        (fun t => { t with work := some ⟨kind', true, f⟩ }))).task? l' slot' =
          some ⟨k', some ⟨kind', true, f⟩⟩ := by
      rw [World.task?_modify, if_pos ⟨rfl, rfl⟩, ht]
      rfl
    refine .rests ?_
    by_cases hk : k' = k
    · subst hk
      exact iff_of_true (.inr ⟨ht, kind', List.mem_cons_self⟩) (.inl ⟨_, ht'⟩)
    · simp [HasFuture, ht, ht', hk]
  · refine ages_of_same (by rw [World.task?_modify, if_neg he]) (fun kind => ?_) rfl
    simp [taskPolled_ne he]

theorem ages_of_ending {l' : LoopId} {slot' : Nat} {k' : WakerId} {kind' : Kind} {o : Joined}
    (hn : ∀ i ∈ others, i.isTask l' = false) (ht : w.task? l' slot' = some ⟨k', none⟩) :
    Ages (HasFuture w ([.taskPolled l' slot' kind'] ++ others) l slot k)
      (HasFuture w ([.taskEnded l' slot' kind' o] ++ others) l slot k)
      (w.stages [.ended l' slot' kind' o] l slot k) := by
  by_cases he : l' = l ∧ slot' = slot
  · obtain ⟨rfl, rfl⟩ := he
    by_cases hk : k' = k
    · subst hk
      have hstage : w.stages [.ended l' slot' kind' o] l' slot' k' = [.ended] := by
        simp [World.stages, Milestone.stage?, ht]
      rw [hstage]
      refine .ended (.inr ⟨ht, kind', List.mem_cons_self⟩) ?_
      rintro (⟨work, h⟩ | ⟨_, kind, hm⟩)
      · cases ht.symm.trans h
      · have hm := (List.mem_cons.mp hm).resolve_left (by simp)
        simpa [Job.isTask] using hn _ hm
    · have hstage : w.stages [.ended l' slot' kind' o] l' slot' k = [] := by
        simp [World.stages, Milestone.stage?, ht, hk]
      rw [hstage]
      refine .rests ?_
      simp [HasFuture, ht, hk]
  · refine ages_of_same rfl (fun kind => ?_) ?_
    · simp [taskPolled_ne he]
    · simp [World.stages, Milestone.stage?, ← and_assoc, he]

theorem ages_of_leaving {job : Job G} {l' : LoopId} {slot' : Nat} {k' : WakerId}
    (hn : ∀ i ∈ others, i.isTask l' = false)
    (hj : job = .taskFinished l' slot' ∨ ∃ p, job = .taskPanicked l' slot' p)
    (ht : w.task? l' slot' = some ⟨k', none⟩) :
    Ages (HasFuture w ([job] ++ others) l slot k)
      (HasFuture (w.removeTask l' slot') ([] ++ others) l slot k)
      (w.stages (w.toldOfEnd l' slot') l slot k) := by
  have hstage : w.stages (w.toldOfEnd l' slot') l slot k = [] := by
    simp [World.stages, World.toldOfEnd, ht, Milestone.stage?]
  have hne : ∀ kind, Job.taskPolled (G := G) l slot kind ≠ job := by
    obtain rfl | ⟨p, rfl⟩ := hj <;> simp
  by_cases he : l' = l ∧ slot' = slot
  · obtain ⟨rfl, rfl⟩ := he
    have hgone : (w.removeTask l' slot').task? l' slot' = none := by
      rw [World.task?_removeTask, if_pos ⟨rfl, rfl⟩]
    rw [hstage]
    refine .rests (iff_of_false ?_ (by simp [HasFuture, hgone]))
    rintro (⟨work, h⟩ | ⟨_, kind, hm⟩)
    · cases ht.symm.trans h
    · have hm := (List.mem_cons.mp hm).resolve_left (hne kind)
      simpa [Job.isTask] using hn _ hm
  · refine ages_of_same (by rw [World.task?_removeTask, if_neg he]) (fun kind => ?_) hstage
    simp [hne]

/-- Of the tasks that are dropped with a loop, the one with waker `k` is one at most. -/
theorem stages_toldOfDrop {work : Work G.Coroutine} (ht : w.task? l slot = some ⟨k, some work⟩) :
    w.stages (w.toldOfDrop l) l slot k = [.dropped] := by
  rw [World.stages, World.toldOfDrop, List.filterMap_map,
    filterMap_eq_of_nodup (World.nodup_tenants w l) (World.mem_tenants.mpr ht)]
  · simp [Milestone.stage?]
  · rintro ⟨slot', t⟩ hm hstage
    obtain ⟨rfl, -⟩ : slot' = slot ∧ t.waker = k := by
      simpa [Milestone.stage?] using hstage
    cases ht.symm.trans (World.mem_tenants.mp hm)
    rfl

theorem stages_toldOfDrop_of_gone {l' : LoopId}
    (h : l' = l → ∀ work, w.task? l slot ≠ some ⟨k, work⟩) :
    w.stages (w.toldOfDrop l') l slot k = [] := by
  rw [World.stages, World.toldOfDrop, List.filterMap_map, List.filterMap_eq_nil_iff]
  rintro ⟨slot', k', work⟩ hm
  have hne : ¬(l' = l ∧ slot' = slot ∧ k' = k) := by
    rintro ⟨rfl, rfl, rfl⟩
    exact h rfl work (World.mem_tenants.mp hm)
  simp [Milestone.stage?, hne]

theorem ages_of_draining {l' : LoopId} {n : Nat} (hn : ∀ i ∈ others, i.isTask l' = false)
    (busy : ∀ slot k, w.task? l' slot ≠ some ⟨k, none⟩) :
    Ages (HasFuture w ([.drain l' n] ++ others) l slot k)
      (HasFuture (w.modifyTasks l' (·.drain.1))
        (((w.tenants l').filterMap (·.2.work)).map .abandon ++ others) l slot k)
      (w.stages (w.toldOfDrop l') l slot k) := by
  by_cases he : l' = l
  · subst he
    have hquiet : ∀ i ∈ [Job.drain l' n] ++ others, i.isTask l' = false := by
      simpa [Job.isTask] using hn
    have hgone : ¬HasFuture (w.modifyTasks l' (·.drain.1))
        (((w.tenants l').filterMap (·.2.work)).map .abandon ++ others) l' slot k := by
      simp [HasFuture, World.task?_drain]
    rw [hasFuture_of_quiet hquiet]
    by_cases ht : ∃ work, w.task? l' slot = some ⟨k, some work⟩
    · obtain ⟨work, ht⟩ := ht
      rw [stages_toldOfDrop ht]
      exact .dropped ⟨work, ht⟩ hgone
    · rw [stages_toldOfDrop_of_gone]
      · exact .rests (iff_of_false ht hgone)
      · intro _ work h
        cases work with
        | none => exact busy slot k h
        | some work => exact ht ⟨work, h⟩
  · refine ages_of_same (by rw [World.task?_drain, if_neg he]) (fun kind => ?_) ?_
    · simp
    · exact stages_toldOfDrop_of_gone fun h => absurd h he

/-- What a step adds to the life of a future, if its task was spawned before. -/
theorem Passage.ages (passage : Passage w others before σ w' after)
    (census : Census σ₀ w (before ++ others))
    (busy : ∀ l slot k, w.task? l slot = some ⟨k, none⟩ →
      ∃ job ∈ before ++ others, job.holds l slot = true)
    (hs : .spawned l slot k kind ∈ σ₀) :
    Ages (HasFuture w (before ++ others) l slot k) (HasFuture w' (after ++ others) l slot k)
      (w.stages σ l slot k) := by
  have fills : ∀ (kind : Kind) (o : Joined) (kind' : Kind),
      (Job.taskPolled (G := G) l slot kind') ∉ kind.slots.map (.fill · o) := by
    intro kind o kind' hm
    obtain ⟨_, _, he⟩ := List.mem_map.mp hm
    cases he
  cases passage with
  | build c =>
    refine ages_of_same ?_ (fun _ => .rfl) rfl
    rw [World.task?_build]
    split
    · rename_i hl
      rw [hl, World.task?_eq, World.tasks?_size]
      rfl
    · rfl
  | spawn hl =>
    have hk := census.made _ (List.mem_filterMap.mpr ⟨_, hs, rfl⟩)
    exact ages_of_spawn census.valid hl hk _
  | begin _ ht => exact ages_of_begin ht
  | pending =>
    obtain ⟨k', ht, _⟩ := census.spawned_of_polled List.mem_cons_self
    exact ages_of_pending ht
  | ending hn =>
    obtain ⟨k', ht, _⟩ := census.spawned_of_polled List.mem_cons_self
    exact ages_of_ending hn ht
  | @leaving job l' slot' hn hj =>
    have hheld : job.holds l' slot' = true := by
      obtain rfl | ⟨p, rfl⟩ := hj <;> simp [Job.holds]
    obtain ⟨k', ht, _⟩ := census.held job List.mem_cons_self l' slot' hheld
    exact ages_of_leaving hn hj ht
  | @draining l' n hn =>
    refine ages_of_draining hn fun slot' k' ht => ?_
    -- a task that has no future in the table would be being polled
    obtain ⟨job, hm, hj⟩ := busy l' slot' k' ht
    have htask := Job.isTask_of_holds hj
    rcases List.mem_cons.mp hm with rfl | hm
    · cases hj
    · simp [hn job hm] at htask
  | handing | spoiling | abandoning =>
    refine ages_of_same rfl (fun kind => ?_) rfl
    simp [fills]
  | closing | fill | fillNothing =>
    refine ages_of_same rfl (fun kind => ?_) rfl
    simp
  | nothing | again | awaitJoin | takeJoin => exact ages_of_same rfl (fun _ => .rfl) rfl

theorem Passage.task?_of_stage (passage : Passage w others before σ w' after)
    (census : Census σ₀ w (before ++ others)) (hσ : w.stages σ l slot k ≠ []) :
    ∃ work, w.task? l slot = some ⟨k, work⟩ := by
  obtain ⟨s, hs⟩ := List.exists_mem_of_ne_nil _ hσ
  obtain ⟨e, he, hstage⟩ := List.mem_filterMap.mp hs
  cases e with
  | begun l' slot' k' =>
    obtain ⟨⟨rfl, rfl, rfl⟩, -⟩ : (l' = l ∧ slot' = slot ∧ k' = k) ∧ .polled = s := by
      simpa [Milestone.stage?] using hstage
    cases passage with
    | begin _ ht =>
      cases List.mem_singleton.mp he
      exact ⟨_, ht⟩
    | leaving | draining => simp [World.toldOfEnd, World.toldOfDrop] at he
    | _ => simp at he
  | ended l' slot' kind' o =>
    obtain ⟨⟨rfl, rfl, hk⟩, -⟩ : (l' = l ∧ slot' = slot ∧
        (w.task? l slot).any (·.waker = k) = true) ∧ .ended = s := by
      simpa [Milestone.stage?] using hstage
    obtain ⟨⟨k', work⟩, ht, hk⟩ := Option.any_eq_true _ _ |>.mp hk
    obtain rfl : k' = k := by simpa using hk
    exact ⟨work, ht⟩
  | dropped l' slot' k' kind' =>
    obtain ⟨⟨rfl, rfl, rfl⟩, -⟩ : (l' = l ∧ slot' = slot ∧ k' = k) ∧ .dropped = s := by
      simpa [Milestone.stage?] using hstage
    obtain ⟨_, work, _, ht, _⟩ := passage.drain_of_dropped he
    exact ⟨work, ht⟩
  | _ => cases hstage

theorem Passage.begun_of_ended (passage : Passage w others before σ w' after)
    (census : Census σ₀ w (before ++ others)) (hσ : .ended ∈ w.stages σ l slot k) :
    .begun l slot k ∈ σ₀ := by
  obtain ⟨e, he, hstage⟩ := List.mem_filterMap.mp hσ
  cases e with
  | ended l' slot' kind' o =>
    obtain ⟨rfl, rfl, hk⟩ : l' = l ∧ slot' = slot ∧ (w.task? l slot).any (·.waker = k) = true := by
      simpa [Milestone.stage?] using hstage
    cases passage with
    | ending =>
      cases List.mem_singleton.mp he
      obtain ⟨k', ht, hlast, _⟩ := census.held _ List.mem_cons_self l' slot' (by simp [Job.holds])
      obtain rfl : k' = k := by simpa [ht] using hk
      obtain ⟨e', hm, hb⟩ := List.mem_filterMap.mp (List.mem_of_getLast? hlast)
      cases e' with
      | begun l slot k =>
        obtain ⟨rfl, rfl, rfl⟩ : l = l' ∧ slot = slot' ∧ k = k' := by
          simpa [Milestone.begun?] using hb
        exact hm
      | _ => cases hb
    | leaving | draining => simp [World.toldOfEnd, World.toldOfDrop] at he
    | _ => simp at he
  | _ => simp [Milestone.stage?] at hstage

/-- A task that is spawned is in its slot, with a waker that is new. -/
theorem Passage.task?_of_spawned (passage : Passage w others before σ w' after)
    (hv : w.TablesValid) (hs : .spawned l slot k kind ∈ σ) :
    k = ⟨w.wakers.size⟩ ∧ ∃ f, w'.task? l slot = some ⟨k, some ⟨kind, false, f⟩⟩ := by
  cases passage with
  | @spawn _ _ f joins hl =>
    cases List.mem_singleton.mp hs
    have hv' : { w with joins }.TablesValid := hv
    exact ⟨rfl, f, by rw [hv'.task?_addTask hl, if_pos ⟨rfl, rfl⟩]⟩
  | leaving | draining => simp [World.toldOfEnd, World.toldOfDrop] at hs
  | _ => simp at hs

theorem Passage.hasFuture_of_spawned (passage : Passage w others before σ w' after)
    (hv : w.TablesValid) (hs : .spawned l slot k kind ∈ σ) :
    HasFuture w' (after ++ others) l slot k := by
  obtain ⟨_, f, ht⟩ := passage.task?_of_spawned hv hs
  exact .inl ⟨_, ht⟩

end

namespace Machine

variable {code : G.Code} {m m' : Machine G} {p : List (Machine G)} {a : Answer G}
  {rest : List (Job G)}

/-- The life of the future of a task in the steps of a walk. -/
def life (l : LoopId) (slot : Nat) (k : WakerId) (p : List (Machine G)) : List Stage :=
  p.flatMap (fun m => m.world.stages m.milestones l slot k)

theorem hasFuture_errands : HasFuture m.world m.errands l slot k ↔
    HasFuture m.world m.allJobs l slot k := by
  simp only [HasFuture, errands, List.mem_filter, Job.isErrand, and_true]

theorem Walked.spawned_of_seat (hm : Walked code p m) {work : Option (Work G.Coroutine)}
    (ht : m.world.task? l slot = some ⟨k, work⟩) : ∃ kind, .spawned l slot k kind ∈ story p := by
  have hseat := List.mem_append_right (leftFrom l (story p)) (World.mem_seats.mpr ⟨work, ht⟩)
  exact mem_spawnedOn.mp ((hm.census.balance l).mem_iff.mp hseat)

theorem polled_of_begun (hb : .begun l slot k ∈ story p) : .polled ∈ life l slot k p := by
  obtain ⟨m₁, hm₁, he⟩ := List.mem_flatMap.mp hb
  refine List.mem_flatMap.mpr ⟨m₁, hm₁, List.mem_filterMap.mpr ⟨_, he, ?_⟩⟩
  simp [Milestone.stage?]

/-- The task with waker `k` has lived if it was spawned, and has no life if it was not. -/
def HasLived (m : Machine G) (l : LoopId) (slot : Nat) (k : WakerId) (p : List (Machine G)) :
    Prop :=
  ((∃ kind, .spawned l slot k kind ∈ story p) →
    Lived (HasFuture m.world m.errands l slot k) (life l slot k p)) ∧
  ((∀ kind, .spawned l slot k kind ∉ story p) → life l slot k p = [])

theorem HasLived.switch (h : HasLived m l slot k p) (switched : m.Switched m') :
    HasLived m' l slot k p := by
  have hperm : m.errands.Perm m'.errands := switched.filter_allJobs (fun _ => rfl) fun _ => rfl
  have hfuture : HasFuture m'.world m'.errands l slot k = HasFuture m.world m.errands l slot k := by
    rw [HasFuture.of_keeps switched.objects.keeps, ← hasFuture_of_perm hperm]
  exact ⟨fun hs => hfuture ▸ h.1 hs, h.2⟩

theorem HasLived.next (h : HasLived m l slot k p) (hm : Walked code p m) (hi : m.isIdle = false)
    (live : m.isAborted = false) : HasLived (m.step code) l slot k (p ++ [m]) := by
  obtain ⟨job, rest, jobs, advance⟩ := hm.advance hi live
  obtain ⟨w, passage, hw⟩ := advance.passage
  have census := hm.census
  have herrands := advance.errands
  rw [List.filter_append] at herrands
  rw [HasLived, advance.errands_eq] at h
  rw [advance.errands_eq] at census
  have hnext : life l slot k (p ++ [m]) =
      life l slot k p ++ m.world.stages m.milestones l slot k := by
    simp [life]
  have hstory : story (p ++ [m]) = story p ++ m.milestones := by
    simp [story]
  rw [HasLived, hnext, hstory, HasFuture.of_keeps hw, ← hasFuture_of_perm herrands]
  by_cases hs : ∃ kind, .spawned l slot k kind ∈ story p
  · obtain ⟨kind, hs⟩ := hs
    refine ⟨fun _ => ?_, fun h => absurd (List.mem_append_left _ hs) (h kind)⟩
    have ages := passage.ages census ?_ hs
    · refine (h.1 ⟨kind, hs⟩).next ages fun hended => ?_
      exact polled_of_begun (passage.begun_of_ended census (by simp [hended]))
    · intro l' slot' k' ht
      obtain ⟨job', hmem, hj⟩ := hm.reached.trail.wired.busy slot' k' ht
      have herrand := mem_errands_of_holds (List.mem_filter.mp hmem).1 hj
      exact ⟨job', advance.errands_eq ▸ herrand, hj⟩
  · -- the task is spawned now, or never was
    have hnone : life l slot k p = [] := h.2 fun kind h => hs ⟨kind, h⟩
    have hstages : m.world.stages m.milestones l slot k = [] := by
      by_contra hne
      obtain ⟨work, ht⟩ := passage.task?_of_stage census hne
      exact hs (hm.spawned_of_seat ht)
    rw [hnone, hstages]
    refine ⟨?_, fun _ => rfl⟩
    rintro ⟨kind, h⟩
    have hnew := (List.mem_append.mp h).resolve_left fun h => hs ⟨kind, h⟩
    exact .lives 0 (passage.hasFuture_of_spawned census.valid hnew)

/-- Every task has lived, and no other has a life. -/
theorem Walked.lived (hm : Walked code p m) (l : LoopId) (slot : Nat) (k : WakerId) :
    HasLived m l slot k p := by
  obtain ⟨shared, run, walk⟩ := hm
  induction walk with
  | here => exact ⟨by simp [story], fun _ => rfl⟩
  | turnTo _ h ih => exact ih.switch (switched_turnTo h)
  | launch _ _ ih => exact ih.switch (switched_launch _)
  | act walk hi live ih => exact ih.next ⟨shared, run, walk⟩ hi live

/-! ## Steps -/

/-- A poll of a task begins where its loop acts on an entry of its slot. -/
theorem begun_of_milestone (h : .begun l slot k ∈ m.milestones) : ∃ k' f batch rest a work,
    m.jobs = .turn l k' f (.wake slot :: batch) :: rest ∧ m.mode = .going a ∧
      m.world.task? l slot = some ⟨k, some work⟩ := by
  obtain ⟨job, rest, mode, hj, hmode, origin⟩ := origin_of_milestone h
  cases origin with
  | begun ht => exact ⟨_, _, _, rest, _, _, hj, hmode, ht⟩

/-- A poll of a task is the last if the future is ready, or panics. -/
theorem polled_of_ended {o : Joined} (h : .ended l slot kind o ∈ m.milestones) : ∃ rest,
    m.jobs = .taskPolled l slot kind :: rest ∧
      ((∃ a r f, m.mode = .going a ∧ a.toPoll = .ready r f ∧ o = .ok r) ∨
        ∃ panic r, m.mode = .unwinding panic r ∧ o = .error (.panicked panic.message)) := by
  obtain ⟨job, rest, mode, hj, hmode, origin⟩ := origin_of_milestone h
  cases origin with
  | ready hr => exact ⟨rest, hj, .inl ⟨_, _, _, hmode, hr, rfl⟩⟩
  | panicked => exact ⟨rest, hj, .inr ⟨_, _, hmode, rfl⟩⟩

/-- What the last poll left of a future, to be dropped. -/
def leftover (m : Machine G) : List (Future G.Coroutine) :=
  match m.mode with
  | .going a =>
      match a.toPoll with
      | .ready _ f => [f]
      | .pending _ => []
  | .unwinding _ r => r.toList
  | .aborted => []

/-- What the last poll left is dropped next, before anything else is done about the task. -/
theorem worksDown_of_ended (code : G.Code) {o : Joined}
    (h : .ended l slot kind o ∈ m.milestones) : ∃ rest,
      m.jobs = .taskPolled l slot kind :: rest ∧
      WorksDown code (m.step code) (m.leftover.map .drop ++ [.taskEnded l slot kind o]) rest := by
  obtain ⟨rest, hj, ⟨a, r, f, hmode, hr, rfl⟩ | ⟨panic, r, hmode, rfl⟩⟩ := polled_of_ended h
  · refine ⟨rest, hj, worksDown_of_jobs ?_⟩
    rw [(step_taskPolled_ready code hj hmode hr).2]
    simp [leftover, hmode, hr]
  · refine ⟨rest, hj, worksDown_of_jobs ?_⟩
    rw [(step_taskPolled_panicked code hj hmode).2]
    simp [leftover, hmode]

theorem worksDown_of_drain (code : G.Code) {n : Nat} (hj : m.jobs = .drain l n :: rest)
    (live : m.isAborted = false) : ∃ last,
      WorksDown code (m.step code) ((m.world.unfinished l).map fun e => .abandon e.2.2)
        (last :: rest) := by
  obtain ⟨_, _, last, hjobs, _⟩ := step_drain code hj live
  refine ⟨last, worksDown_of_jobs ?_⟩
  rw [hjobs, World.filterMap_work_tenants, List.map_map]
  rfl

/-- A task that is dropped has its future dropped once, also if a panic comes first. -/
theorem worksDown_of_abandon (code : G.Code) {work : Work G.Coroutine}
    (hj : m.jobs = .abandon work :: rest) (live : m.isAborted = false) :
    (∃ jobs, WorksDown code (m.step code) jobs rest ∧
      jobs.Perm (.drop work.future :: work.kind.slots.map (.fill · (.error .cancelled)))) ∨
    ∃ panic, WorksDown code (m.step code) [.abandon work, .propagate panic] rest := by
  cases hmode : m.mode with
  | aborted => simp [isAborted, hmode] at live
  | going a =>
    obtain ⟨_, _, _, jobs, hjobs, hperm⟩ := step_abandon code hj hmode
    exact .inl ⟨jobs, worksDown_of_jobs hjobs, hperm⟩
  | unwinding panic r =>
    refine .inr ⟨panic, worksDown_of_jobs ?_⟩
    rw [step_of_unwinding hj hmode]
    rfl

/-! ## The frame of a poll -/

theorem stacked_of_suffix {above jobs : List (Job G)} (h : Stacked (above ++ jobs)) :
    Stacked jobs := by
  induction above with
  | nil => exact h
  | cons job above ih => exact ih h.2.2

/-- The frame of a loop on a stack is the only one, so the loop is current. -/
theorem currentLoop_of_frame {jobs below : List (Job G)} (h : Stacked jobs)
    (hs : .restore none :: .leave l :: below <:+ jobs) : currentLoop jobs = some l := by
  induction jobs with
  | nil => simp at hs
  | cons job rest ih =>
    rcases List.suffix_cons_iff.mp hs with he | hs
    · rw [← he]
      rfl
    · have hrest := ih h.2.2 hs
      cases job with
      | restore previous =>
        obtain ⟨⟨_, l', rest', rfl⟩, _, hleave, _⟩ := h
        have hnone : currentLoop rest' = none := hleave
        rw [currentLoop_cons (by simp), hnone] at hrest
        cases hrest
      | _ => rwa [currentLoop_cons (by simp)]

/-- Wherever a loop is driven, or a task of it is being polled, the loop is current. -/
theorem Sound.inside_of_mem (hs : m.Sound) {q : Parked G} (hq : q ∈ m.strands) {job : Job G}
    (hm : job ∈ q.jobs) (h : job.isDrive l = true ∨ job.isTask l = true) : Inside l q.jobs := by
  have hstacked := (hs.strands q hq).stacked
  obtain ⟨above, below, hjobs⟩ := List.append_of_mem hm
  have hbelow : Stacked (job :: below) := stacked_of_suffix (hjobs ▸ hstacked)
  rw [← currentLoop_eq_some_iff hstacked]
  rcases h with hdrive | htask
  · obtain ⟨rest, rfl, _⟩ := framed_of_isDrive hbelow hdrive
    have hframe : .restore none :: .leave l :: rest <:+ q.jobs := ⟨above ++ [job], by simp [hjobs]⟩
    exact currentLoop_of_frame hstacked hframe
  · obtain ⟨k, f, batch, rest, rfl, _⟩ := turning_of_isTask hbelow htask
    have hframe : .restore none :: .leave l :: rest <:+ q.jobs :=
      ⟨above ++ [job, .turn l k f batch], by simp [hjobs]⟩
    exact currentLoop_of_frame hstacked hframe

/-- A loop begins to poll one of its tasks while no other is being polled. -/
theorem Walked.alone_of_begun (hm : Walked code p m) (h : .begun l slot k ∈ m.milestones) :
    (∀ job ∈ m.allJobs, job.isTask l = false) ∧ m.current = some l ∧ Inside l m.jobs := by
  obtain ⟨k', f, batch, rest, a, work, hj, _, _⟩ := begun_of_milestone h
  have halone := hm.sound.alone_below (l := l) hj (by simp [Job.isDrive])
  have hq : (⟨m.world.thread, m.mode, m.jobs⟩ : Parked G) ∈ m.strands := List.mem_cons_self
  have hinside : Inside l m.jobs :=
    hm.sound.inside_of_mem hq (hj ▸ List.mem_cons_self) (.inl (by simp [Job.isDrive]))
  refine ⟨?_, (hm.sound.current_iff hq l).mpr hinside, hinside⟩
  rw [allJobs_of_top hj]
  exact List.forall_mem_cons.mpr ⟨rfl, fun i hi => (halone.2 i hi).2⟩

theorem Walked.countP_isTask (hm : Walked code p m) (l : LoopId) :
    m.allJobs.countP (Job.isTask l) ≤ 1 := by
  have hcount : m.errands.countP (Job.isTask l) = m.allJobs.countP (Job.isTask l) := by
    rw [errands, List.countP_filter]
    refine List.countP_congr fun i _ => ?_
    simpa using Job.isErrand_of_isTask
  exact hcount ▸ hm.census.single l

/-! ## Poll discipline -/

/-- **A future is polled only while it lives.** Whatever is woken, from wherever and whenever, in
every run:

* the future of a task that was spawned or started was polled some times; if there is none left, the
  last of its polls was ready or panicked, or it was dropped between two polls with its loop;
  nothing of this comes twice, and nothing comes after it;
* a poll begins while no task of the loop is being polled, on the thread on which the loop is
  running, with what is in the slot;
* until the poll is over, and what it left is dropped, the loop is running below it on the same
  stack, and no other task of the loop is being polled;
* what the last poll left of a future is dropped next, in the turn of the task, before anything else
  is done about it;
* with a loop, the futures in its table are dropped, each of them once, and no others;
* to drop a future is to run the destructor of the coroutine in it, before anything else is done. -/
theorem poll_discipline (hm : Walked code p m) :
    (∀ l slot k kind, .spawned l slot k kind ∈ story p →
      Lived (HasFuture m.world m.allJobs l slot k) (life l slot k p)) ∧
    (∀ l slot k, .begun l slot k ∈ m.milestones →
      (∀ job ∈ m.allJobs, job.isTask l = false) ∧ m.current = some l ∧ Inside l m.jobs ∧
      ∃ k' f batch rest work, m.jobs = .turn l k' f (.wake slot :: batch) :: rest ∧
        m.world.task? l slot = some ⟨k, some work⟩ ∧
        (m.step code).jobs = .serve (.poll work.future k) :: .taskPolled l slot work.kind ::
          .turn l k' f batch :: rest) ∧
    (∀ l, m.allJobs.countP (Job.isTask l) ≤ 1 ∧
      ∀ q ∈ m.strands, ∀ job ∈ q.jobs, job.isTask l = true →
        Inside l q.jobs ∧ q.thread.current = some l) ∧
    (∀ l slot kind o, .ended l slot kind o ∈ m.milestones → ∃ k rest,
      m.world.task? l slot = some ⟨k, none⟩ ∧ m.jobs = .taskPolled l slot kind :: rest ∧
        WorksDown code (m.step code) (m.leftover.map .drop ++ [.taskEnded l slot kind o]) rest) ∧
    (∀ l n rest, m.jobs = .drain l n :: rest → m.isAborted = false →
      m.milestones = (m.world.unfinished l).map
        (fun e => .dropped l e.1 e.2.1 (some e.2.2.kind)) ∧
      ∃ last, WorksDown code (m.step code)
        ((m.world.unfinished l).map fun e => .abandon e.2.2) (last :: rest)) ∧
    (∀ work rest, m.jobs = .abandon work :: rest → m.isAborted = false →
      (∃ jobs, WorksDown code (m.step code) jobs rest ∧
        jobs.Perm (.drop work.future :: work.kind.slots.map (.fill · (.error .cancelled)))) ∨
      ∃ panic, WorksDown code (m.step code) [.abandon work, .propagate panic] rest) ∧
    ∀ f rest, m.jobs = .drop f :: rest → m.isAborted = false →
      m.Destroys code f rest ∨ ∃ panic, m.Destroys code f (.propagate panic :: rest) := by
  refine ⟨?_, ?_, ?_, ?_, ?_, fun work rest hj live => worksDown_of_abandon code hj live,
    fun f rest hj live => destroys_of_live code hj live⟩
  · intro l slot k kind hs
    have hlived := (hm.lived l slot k).1 ⟨kind, hs⟩
    rwa [hasFuture_errands] at hlived
  · intro l slot k h
    obtain ⟨hfree, hcurrent, hinside⟩ := hm.alone_of_begun h
    obtain ⟨k', f, batch, rest, a, work, hj, hmode, ht⟩ := begun_of_milestone h
    exact ⟨hfree, hcurrent, hinside, k', f, batch, rest, work, hj, ht,
      (step_turn_wake code hj hmode ht).1⟩
  · intro l
    refine ⟨hm.countP_isTask l, fun q hq job hmem htask => ?_⟩
    have hinside := hm.sound.inside_of_mem hq hmem (.inr htask)
    exact ⟨hinside, (hm.sound.current_iff hq l).mpr hinside⟩
  · intro l slot kind o h
    obtain ⟨rest, hj, hdown⟩ := worksDown_of_ended code h
    have hholds : (Job.taskPolled l slot kind : Job G).holds l slot = true := by simp [Job.holds]
    have hmem := mem_errands_of_holds (mem_allJobs_of_top hj) hholds
    obtain ⟨k, ht, _⟩ := hm.census.spawned_of_polled hmem
    exact ⟨k, rest, ht, hj, hdown⟩
  · intro l n rest hj live
    refine ⟨?_, worksDown_of_drain code hj live⟩
    have hclosed := hm.reached.closed_of_drain (mem_allJobs_of_top hj)
    have hfree := hm.reached.free_of_closed (hm.reached.isClosed_of_closed hclosed)
    rw [(step_drain code hj live).1, World.toldOfDrop,
      World.tenants_eq_unfinished fun slot t ht => hm.work_of_free hfree ht, List.map_map]
    rfl

open Script

/-- A task that yields is polled twice; one that is left behind by the main future is dropped with
the loop. -/
theorem poll_discipline_of_script :
    (Lived (HasFuture (follow taskInsideTask 61).2.world (follow taskInsideTask 61).2.allJobs
        ⟨0⟩ 0 ⟨1⟩) (life ⟨0⟩ 0 ⟨1⟩ (follow taskInsideTask 61).1) ∧
      life ⟨0⟩ 0 ⟨1⟩ (follow taskInsideTask 61).1 = [.polled, .polled, .ended]) ∧
    Lived (HasFuture (follow taskLeftBehind 58).2.world (follow taskLeftBehind 58).2.allJobs
        ⟨0⟩ 0 ⟨1⟩) (life ⟨0⟩ 0 ⟨1⟩ (follow taskLeftBehind 58).1) ∧
      life ⟨0⟩ 0 ⟨1⟩ (follow taskLeftBehind 58).1 = [.dropped] := by
  have hended : (0, ⟨1⟩) ∈ spawnedOn ⟨0⟩ (story (follow taskInsideTask 61).1) := by decide +kernel
  have hdropped : (0, ⟨1⟩) ∈ spawnedOn ⟨0⟩ (story (follow taskLeftBehind 58).1) := by
    decide +kernel
  obtain ⟨kind, hs⟩ := mem_spawnedOn.mp hended
  obtain ⟨kind', hs'⟩ := mem_spawnedOn.mp hdropped
  have ended := (poll_discipline (walked_follow taskInsideTask 61)).1 ⟨0⟩ 0 ⟨1⟩ kind hs
  have dropped := (poll_discipline (walked_follow taskLeftBehind 58)).1 ⟨0⟩ 0 ⟨1⟩ kind' hs'
  exact ⟨⟨ended, by decide +kernel⟩, dropped, by decide +kernel⟩

end Machine

end RunLoop
