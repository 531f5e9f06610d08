import RunLoop.Proofs.Census

/-!
# Deliveries

The outcome of a task is delivered through a join slot that was made for it. There is always one
bearer of it: the task in its slot of the table, an errand on some stack, or the join slot that was
filled. The bearer hands over what the task came to last, so the slot is filled once, with just
that.

* `verdictsOf`, `filledInto`, `takenFrom` and `awaitedAt` read the story of a join slot.
* `Roots` says that whatever is told of a join slot, or is under way for it, is about a task that
  was spawned with it.
* `Delivery` is what holds of a join slot, by induction over the `Chronicle` of a run.
-/

namespace RunLoop

variable {G : Guest} {l : LoopId} {slot : Nat} {k : WakerId} {j : JoinId}

theorem mem_slots {kind : Kind} : j ∈ kind.slots ↔ kind = .joined j := by
  cases kind <;> simp [Kind.slots, eq_comm]

/-! ## The story of a join slot -/

namespace Milestone

/-- What the task of join slot `j` came to: the result of its future, or its panic; or it was
cancelled, if it was dropped with its loop, or its future panicked when it was dropped. -/
def verdict? (j : JoinId) : Milestone → Option Joined
  | ended _ _ kind o => if kind = .joined j then some o else none
  | spoilt _ _ kind => if kind = .joined j then some (.error .cancelled) else none
  | dropped _ _ _ kind => if kind = some (.joined j) then some (.error .cancelled) else none
  | _ => none

/-- What join slot `j` was filled with. -/
def filled? (j : JoinId) : Milestone → Option Joined
  | filled j' o => if j' = j then some o else none
  | _ => none

/-- What was taken out of join slot `j`. -/
def taken? (j : JoinId) : Milestone → Option Joined
  | taken j' o => if j' = j then some o else none
  | _ => none

/-- Who waits at join slot `j`. -/
def awaited? (j : JoinId) : Milestone → Option WakerId
  | awaited j' k => if j' = j then some k else none
  | _ => none

theorem filled?_eq_some_iff {e : Milestone} {o : Joined} :
    e.filled? j = some o ↔ e = .filled j o := by
  cases e <;> simp [filled?]

theorem taken?_eq_some_iff {e : Milestone} {o : Joined} :
    e.taken? j = some o ↔ e = .taken j o := by
  cases e <;> simp [taken?]

/-- A milestone is about a task that was spawned. -/
def Rooted (σ : List Milestone) : Milestone → Prop
  | ended l slot kind _ | spoilt l slot kind => ∃ k, .spawned l slot k kind ∈ σ
  | dropped l slot k (some kind) => .spawned l slot k kind ∈ σ
  | awaited j _ | filled j _ | taken j _ => ∃ l slot k, .spawned l slot k (.joined j) ∈ σ
  | _ => True

end Milestone

/-- What the task of a join slot came to, one after the other. -/
def verdictsOf (j : JoinId) (σ : List Milestone) : List Joined :=
  σ.filterMap (Milestone.verdict? j)

/-- What a join slot was filled with. -/
def filledInto (j : JoinId) (σ : List Milestone) : List Joined :=
  σ.filterMap (Milestone.filled? j)

/-- What was taken out of a join slot. -/
def takenFrom (j : JoinId) (σ : List Milestone) : List Joined :=
  σ.filterMap (Milestone.taken? j)

/-- The wakers that were left at a join slot. -/
def awaitedAt (j : JoinId) (σ : List Milestone) : List WakerId :=
  σ.filterMap (Milestone.awaited? j)

/-- What a job bears for join slot `j`: nothing yet, or an outcome. -/
def Job.token? (j : JoinId) : Job G → Option (Option Joined)
  | taskPolled _ _ kind => if kind = .joined j then some none else none
  | taskEnded _ _ kind o => if kind = .joined j then some (some o) else none
  | fill j' o => if j' = j then some (some o) else none
  | abandon work => if work.kind = .joined j then some (some (.error .cancelled)) else none
  | _ => none

/-- A task in its slot bears nothing yet for its join slot. -/
def Task.token? {C : Type} (j : JoinId) (t : Task C) : Option (Option Joined) :=
  if t.work.map (·.kind) = some (.joined j) then some none else none

/-- A job is about a task that was spawned; one that is abandoned was dropped. -/
def Job.Rooted (σ : List Milestone) : Job G → Prop
  | fill j _ => ∃ l slot k, .spawned l slot k (.joined j) ∈ σ
  | abandon work => ∃ l slot k, .dropped l slot k (some work.kind) ∈ σ
  | _ => True

/-- Whatever is told, or is under way, is about tasks that were spawned. -/
structure Roots (σ : List Milestone) (D : List (Job G)) : Prop where
  told : ∀ e ∈ σ, e.Rooted σ
  borne : ∀ job ∈ D, job.Rooted σ

section

variable {w w' : World G} {others before after D D' : List (Job G)} {σ σ₀ : List Milestone}

theorem Milestone.Rooted.append {e : Milestone} (h : e.Rooted σ₀) (σ : List Milestone) :
    e.Rooted (σ₀ ++ σ) := by
  cases e with
  | ended | spoilt =>
    obtain ⟨k, hk⟩ := h
    exact ⟨k, List.mem_append_left _ hk⟩
  | dropped l slot k kind =>
    cases kind with
    | none => trivial
    | some kind =>
      have hs : .spawned l slot k kind ∈ σ₀ := h
      exact List.mem_append_left σ hs
  | awaited | filled | taken =>
    obtain ⟨l, slot, k, hk⟩ := h
    exact ⟨l, slot, k, List.mem_append_left _ hk⟩
  | _ => trivial

theorem Job.Rooted.append {job : Job G} (h : job.Rooted σ₀) (σ : List Milestone) :
    job.Rooted (σ₀ ++ σ) := by
  cases job with
  | fill | abandon =>
    obtain ⟨l, slot, k, hk⟩ := h
    exact ⟨l, slot, k, List.mem_append_left _ hk⟩
  | _ => trivial

/-- A join slot that is there was made for a task. -/
theorem Census.spawned_of_join? (h : Census σ w D) {x : JoinSlot} (hx : w.join? j = some x) :
    ∃ l slot k, .spawned l slot k (.joined j) ∈ σ := by
  have hlt : j.index < w.joins.size := (Array.getElem?_eq_some_iff.mp hx).1
  have hmem : j ∈ σ.filterMap Milestone.join? := by
    rw [h.joins, List.mem_map]
    exact ⟨j.index, List.mem_range.mpr hlt, rfl⟩
  obtain ⟨e, he, hj⟩ := List.mem_filterMap.mp hmem
  cases e with
  | spawned l slot k kind =>
    cases kind with
    | joined j' =>
      cases hj
      exact ⟨l, slot, k, he⟩
    | detached => cases hj
  | _ => cases hj

theorem Census.join?_of_spawned (h : Census σ w D) (hs : .spawned l slot k (.joined j) ∈ σ) :
    ∃ x, w.join? j = some x := by
  have hmem : j ∈ σ.filterMap Milestone.join? := List.mem_filterMap.mpr ⟨_, hs, rfl⟩
  rw [h.joins, List.mem_map] at hmem
  obtain ⟨i, hi, rfl⟩ := hmem
  exact ⟨_, Array.getElem?_eq_getElem (List.mem_range.mp hi)⟩

/-- The next join slot was made for no task yet. -/
theorem Census.not_spawned_next (h : Census σ w D) :
    .spawned l slot k (.joined ⟨w.joins.size⟩) ∉ σ := by
  intro hs
  obtain ⟨x, hx⟩ := h.join?_of_spawned hs
  have hlt : w.joins.size < w.joins.size := (Array.getElem?_eq_some_iff.mp hx).1
  exact Nat.lt_irrefl _ hlt

/-- A join slot was made for one task only, which is in its own slot. -/
theorem Census.slot_of_joined (h : Census σ w D) (hs : .spawned l slot k (.joined j) ∈ σ)
    {l' : LoopId} {slot' : Nat} {k' : WakerId} (hs' : .spawned l' slot' k' (.joined j) ∈ σ) :
    l' = l ∧ slot' = slot := by
  obtain ⟨hl, hslot, _⟩ := h.joined_unique hs' hs
  exact ⟨hl, hslot⟩

/-- A task that is being polled was spawned. -/
theorem Census.spawned_of_polled (h : Census σ w D) {kind : Kind}
    (hm : .taskPolled l slot kind ∈ D) :
    ∃ k, w.task? l slot = some ⟨k, none⟩ ∧ .spawned l slot k kind ∈ σ := by
  obtain ⟨k, ht, _, hspawned⟩ := h.held _ hm l slot (by simp [Job.holds])
  exact ⟨k, ht, hspawned kind rfl⟩

/-- A task that ends was spawned. -/
theorem Census.spawned_of_ended (h : Census σ w D) {kind : Kind} {o : Joined}
    (hm : .taskEnded l slot kind o ∈ D) :
    ∃ k, w.task? l slot = some ⟨k, none⟩ ∧ .spawned l slot k kind ∈ σ := by
  obtain ⟨k, ht, _, hspawned⟩ := h.held _ hm l slot (by simp [Job.holds])
  exact ⟨k, ht, hspawned kind rfl⟩

theorem Roots.step (h : Roots σ₀ (before ++ others)) (census : Census σ₀ w (before ++ others))
    (passage : Passage w others before σ w' after) : Roots (σ₀ ++ σ) (after ++ others) := by
  have borne : ∀ {job : Job G}, job ∈ before → job.Rooted σ₀ :=
    fun hm => h.borne _ (List.mem_append_left _ hm)
  have fills : ∀ {kind o} {job : Job G}, (∃ l slot k, .spawned l slot k kind ∈ σ₀) →
      job ∈ kind.slots.map (.fill · o) → job.Rooted (σ₀ ++ σ) := by
    rintro kind o job ⟨l, slot, k, hk⟩ hm
    obtain ⟨j, hj, rfl⟩ := List.mem_map.mp hm
    obtain rfl := mem_slots.mp hj
    exact ⟨l, slot, k, List.mem_append_left _ hk⟩
  constructor
  · intro e he
    rcases List.mem_append.mp he with he | he
    · exact (h.told e he).append σ
    suffices hroot : e.Rooted σ₀ from hroot.append σ
    cases passage with
    | spawn | begin =>
      obtain rfl := List.mem_singleton.mp he
      trivial
    | ending =>
      obtain rfl := List.mem_singleton.mp he
      obtain ⟨k, _, hs⟩ := census.spawned_of_polled List.mem_cons_self
      exact ⟨k, hs⟩
    | spoiling =>
      obtain rfl := List.mem_singleton.mp he
      obtain ⟨k, _, hs⟩ := census.spawned_of_ended List.mem_cons_self
      exact ⟨k, hs⟩
    | leaving =>
      obtain ⟨t, _, rfl⟩ := List.mem_map.mp he
      trivial
    | draining =>
      obtain ⟨⟨slot, k, work⟩, hm, rfl⟩ := List.mem_map.mp he
      cases work with
      | none => trivial
      | some work => exact census.known _ _ _ _ (World.mem_tenants.mp hm)
    | fill hx | awaitJoin hx | takeJoin hx =>
      obtain rfl := List.mem_singleton.mp he
      exact census.spawned_of_join? hx
    | _ => cases he
  · intro job hm
    rcases List.mem_append.mp hm with hm | hm
    · cases passage with
      | @handing l slot kind o | @spoiling l slot kind o =>
        rcases List.mem_append.mp hm with hm | hm
        · obtain ⟨k, _, hs⟩ := census.spawned_of_ended List.mem_cons_self
          exact fills ⟨l, slot, k, hs⟩ hm
        · obtain rfl := List.mem_singleton.mp hm
          trivial
      | @draining l n =>
        obtain ⟨work, hwork, rfl⟩ := List.mem_map.mp hm
        obtain ⟨⟨slot, k, work'⟩, hm, rfl⟩ := List.mem_filterMap.mp hwork
        exact ⟨l, slot, k, List.mem_append_right _ (List.mem_map.mpr ⟨_, hm, rfl⟩)⟩
      | @abandoning work =>
        have hroot : (Job.abandon work).Rooted σ₀ := borne (List.mem_singleton.mpr rfl)
        obtain ⟨l, slot, k, hd⟩ := hroot
        exact fills ⟨l, slot, k, h.told _ hd⟩ hm
      | again =>
        have hroot := borne hm
        exact hroot.append _
      | begin | ending | closing =>
        obtain rfl := List.mem_singleton.mp hm
        trivial
      | _ => cases hm
    · have hroot := h.borne job (List.mem_append_right _ hm)
      exact hroot.append σ

theorem Chronicle.roots (chronicle : Chronicle σ w D) : Roots σ D := by
  induction chronicle with
  | here => exact ⟨by simp, by simp⟩
  | same _ _ hD ih => exact ⟨ih.told, fun job hm => ih.borne job (hD.mem_iff.mpr hm)⟩
  | step chronicle passage ih => exact ih.step chronicle.census passage

/-! ## Bearers -/

/-- What is borne for join slot `j`, by the task in slot `slot` of loop `l` and by jobs. -/
def tokens (w : World G) (D : List (Job G)) (l : LoopId) (slot : Nat) (j : JoinId) :
    List (Option Joined) :=
  ((w.task? l slot).bind (Task.token? j)).toList ++ D.filterMap (Job.token? j)

/-- If only one element of a list has an image, that is the image of the list. -/
theorem filterMap_eq_of_nodup {α β : Type} {g : α → Option β} {as : List α} (hn : as.Nodup)
    {a : α} (ha : a ∈ as) (h : ∀ a' ∈ as, (g a').isSome = true → a' = a) :
    as.filterMap g = (g a).toList := by
  induction as with
  | nil => cases ha
  | cons c as ih =>
    obtain ⟨hc, hn⟩ := List.nodup_cons.mp hn
    have none_of : ∀ a', a' ∈ c :: as → a' ≠ a → g a' = none := by
      intro a' hm hne
      cases hg : g a' with
      | none => rfl
      | some b => exact absurd (h a' hm (by simp [hg])) hne
    rw [filterMap_cons_eq]
    rcases List.mem_cons.mp ha with rfl | ha
    · have hrest : as.filterMap g = [] := by
        rw [List.filterMap_eq_nil_iff]
        intro a' hm
        exact none_of a' (List.mem_cons_of_mem _ hm) fun he => hc (he ▸ hm)
      rw [hrest, List.append_nil]
    · have hgc : g c = none := none_of c List.mem_cons_self fun he => hc (he ▸ ha)
      rw [hgc, ih hn ha fun a' hm => h a' (List.mem_cons_of_mem _ hm)]
      rfl

theorem World.nodup_tenants (w : World G) (l : LoopId) : (w.tenants l).Nodup := by
  unfold tenants
  cases w.tasks? l with
  | none => exact List.nodup_nil
  | some s => exact Slab.nodup_entries s

theorem filterMap_token_fills (kind : Kind) (o : Joined) :
    (kind.slots.map (Job.fill (G := G) · o)).filterMap (Job.token? j) =
      if kind = .joined j then [some o] else [] := by
  cases kind with
  | detached => rfl
  | joined j' =>
    by_cases hj : j' = j
    · simp [Kind.slots, Job.token?, hj]
    · simp [Kind.slots, Job.token?, hj]

/-- How what is borne for join slot `j` changes from `ts` to `ts'`: a bearer takes the place of
another one, or the task comes to something, which the bearer is told. -/
def Exchange (σ : List Milestone) (l : LoopId) (slot : Nat) (j : JoinId)
    (ts ts' : List (Option Joined)) : Prop :=
  verdictsOf j σ = [] ∧ ts' ++ (filledInto j σ).map some = ts ∨
    ∃ x o, verdictsOf j σ = [o] ∧ filledInto j σ = [] ∧ ts = [x] ∧ ts' = [some o] ∧
      (x = none ∨ .spoilt l slot (.joined j) ∈ σ)

theorem exchange_of_same
    (hw : (w'.task? l slot).bind (Task.token? j) = (w.task? l slot).bind (Task.token? j))
    (hD : after.filterMap (Job.token? j) = before.filterMap (Job.token? j))
    (hv : verdictsOf j σ = []) (hf : filledInto j σ = []) :
    Exchange σ l slot j (tokens w before l slot j) (tokens w' after l slot j) := by
  refine .inl ⟨hv, ?_⟩
  rw [hf, tokens, tokens, hw, hD, List.map_nil, List.append_nil]

theorem verdictsOf_toldOfDrop (w : World G) (l : LoopId) :
    verdictsOf j (w.toldOfDrop l) = (w.tenants l).filterMap (fun e =>
      if e.2.work.map (·.kind) = some (.joined j) then some (.error .cancelled) else none) := by
  simp only [verdictsOf, World.toldOfDrop, List.filterMap_map]
  rfl

theorem filledInto_toldOfDrop (w : World G) (l : LoopId) :
    filledInto j (w.toldOfDrop l) = [] := by
  simp [filledInto, World.toldOfDrop, List.filterMap_map, Milestone.filled?, Function.comp_def]

theorem filterMap_token_abandons (w : World G) (l : LoopId) :
    (((w.tenants l).filterMap (·.2.work)).map (Job.abandon (G := G))).filterMap (Job.token? j) =
      (w.tenants l).filterMap (fun e =>
        if e.2.work.map (·.kind) = some (.joined j) then some (some (.error .cancelled))
        else none) := by
  rw [List.filterMap_map, List.filterMap_filterMap]
  refine List.filterMap_congr fun e _ => ?_
  cases hw : e.2.work <;> simp [Job.token?]

/-- A task that is dropped with its loop is cancelled. -/
theorem exchange_of_drain {l' : LoopId} {n : Nat} (census : Census σ₀ w D)
    (hs : .spawned l slot k (.joined j) ∈ σ₀) :
    Exchange (w.toldOfDrop l') l slot j (tokens w [.drain l' n] l slot j)
      (tokens (w.modifyTasks l' (·.drain.1)) (((w.tenants l').filterMap (·.2.work)).map .abandon)
        l slot j) := by
  have owner : ∀ e ∈ w.tenants l', e.2.work.map (·.kind) = some (.joined j) →
      l' = l ∧ e.1 = slot := by
    rintro ⟨slot', k', work⟩ hm hk
    obtain ⟨work, rfl, hkind⟩ := Option.map_eq_some_iff.mp hk
    have hs' := census.known _ _ _ _ (World.mem_tenants.mp hm)
    exact census.slot_of_joined hs (hkind ▸ hs')
  by_cases hk : ∃ t, w.task? l slot = some t ∧ l' = l ∧ t.work.map (·.kind) = some (.joined j)
  · -- the task is in the table, and nobody else bears anything for the join slot
    obtain ⟨t, ht, rfl, hk⟩ := hk
    have hmem : (slot, t) ∈ w.tenants l' := World.mem_tenants.mpr ht
    have only : ∀ e ∈ w.tenants l', e.2.work.map (·.kind) = some (.joined j) →
        e = (slot, t) := by
      rintro ⟨slot', t'⟩ hm hk'
      obtain ⟨_, rfl⟩ := owner _ hm hk'
      cases ht.symm.trans (World.mem_tenants.mp hm)
      rfl
    refine .inr ⟨none, .error .cancelled, ?_, filledInto_toldOfDrop w l', ?_, ?_, .inl rfl⟩
    · rw [verdictsOf_toldOfDrop, filterMap_eq_of_nodup (World.nodup_tenants w l') hmem]
      · simp [hk]
      · intro e hm he
        exact only e hm (by simpa using he)
    · simp [tokens, ht, Task.token?, hk, Job.token?]
    · rw [tokens, World.task?_drain, if_pos rfl, filterMap_token_abandons,
        filterMap_eq_of_nodup (World.nodup_tenants w l') hmem]
      · simp [hk]
      · intro e hm he
        exact only e hm (by simpa using he)
  · have hno : ∀ e ∈ w.tenants l', e.2.work.map (·.kind) ≠ some (.joined j) := by
      rintro ⟨slot', t⟩ hm hk'
      obtain ⟨rfl, rfl⟩ := owner _ hm hk'
      exact hk ⟨t, World.mem_tenants.mp hm, rfl, hk'⟩
    have htoken : ((w.modifyTasks l' (·.drain.1)).task? l slot).bind (Task.token? j) =
        (w.task? l slot).bind (Task.token? j) := by
      rw [World.task?_drain]
      split
      · rename_i hl
        cases ht : w.task? l slot with
        | none => rfl
        | some t =>
          have hne := hno (slot, t) (World.mem_tenants.mpr (hl ▸ ht))
          simpa [Task.token?] using hne
      · rfl
    refine exchange_of_same htoken ?_ ?_ (filledInto_toldOfDrop w l')
    · rw [filterMap_token_abandons, List.filterMap_eq_nil_iff.mpr]
      · rfl
      · exact fun e hm => if_neg (hno e hm)
    · rw [verdictsOf_toldOfDrop, List.filterMap_eq_nil_iff]
      exact fun e hm => if_neg (hno e hm)

/-- A task that is spawned has a join slot of its own. -/
theorem exchange_of_spawn {l' : LoopId} {kind : Kind} {f : Future G.Coroutine} {k' : WakerId}
    (census : Census σ₀ w D) (hs : .spawned l slot k (.joined j) ∈ σ₀)
    {joins : Array JoinSlot} (hl : ∃ s, { w with joins }.tasks? l' = some s)
    (hkind : kind ≠ .joined j) :
    Exchange [.spawned l' ({ w with joins }.nextSlot l') k' kind] l slot j
      (tokens w [] l slot j) (tokens ({ w with joins }.addTask l' kind f).1 [] l slot j) := by
  have hvalid : { w with joins }.TablesValid := census.valid
  have htask : ({ w with joins }.addTask l' kind f).1.task? l slot =
      if l' = l ∧ { w with joins }.nextSlot l' = slot then
        some ⟨⟨w.wakers.size⟩, some ⟨kind, false, f⟩⟩
      else { w with joins }.task? l slot := hvalid.task?_addTask hl
  by_cases he : l' = l ∧ { w with joins }.nextSlot l' = slot
  · rw [if_pos he] at htask
    obtain ⟨rfl, rfl⟩ := he
    have hnone : w.task? l' ({ w with joins }.nextSlot l') = none := hvalid.task?_nextSlot l'
    refine .inl ⟨rfl, ?_⟩
    rw [tokens, tokens, htask, hnone]
    simp [Task.token?, hkind, filledInto, Milestone.filled?]
  · rw [if_neg he] at htask
    refine exchange_of_same ?_ rfl rfl rfl
    rw [htask]
    rfl

/-- A task and a job exchange what they bear, in the slot of the task. -/
theorem exchange_of_modify {l' : LoopId} {slot' : Nat} {t : Task G.Coroutine}
    {f : Task G.Coroutine → Task G.Coroutine} (ht : w.task? l' slot' = some t)
    (hv : verdictsOf j σ = []) (hf : filledInto j σ = [])
    (hown : (f t).token? j ≠ t.token? j → l' = l ∧ slot' = slot)
    (hborne : ((f t).token? j).toList ++ after.filterMap (Job.token? j) =
      (t.token? j).toList ++ before.filterMap (Job.token? j)) :
    Exchange σ l slot j (tokens w before l slot j)
      (tokens (w.modifyTasks l' (·.modify slot' f)) after l slot j) := by
  by_cases he : l' = l ∧ slot' = slot
  · obtain ⟨rfl, rfl⟩ := he
    refine .inl ⟨hv, ?_⟩
    rw [hf, tokens, tokens, World.task?_modify, if_pos ⟨rfl, rfl⟩, ht, List.map_nil,
      List.append_nil]
    exact hborne
  · have hsame : (f t).token? j = t.token? j := by
      by_contra hne
      exact he (hown hne)
    rw [hsame] at hborne
    refine exchange_of_same ?_ (List.append_cancel_left hborne) hv hf
    rw [World.task?_modify, if_neg he]

/-- A task that leaves its slot bears nothing any more. -/
theorem exchange_of_leaving {l' : LoopId} {slot' : Nat} {k' : WakerId} {job : Job G}
    (ht : w.task? l' slot' = some ⟨k', none⟩) (hjob : job.token? j = none) :
    Exchange (w.toldOfEnd l' slot') l slot j (tokens w [job] l slot j)
      (tokens (w.removeTask l' slot') [] l slot j) := by
  have htold : w.toldOfEnd l' slot' = [.finished l' slot' k'] := by
    simp [World.toldOfEnd, ht]
  rw [htold]
  refine .inl ⟨rfl, ?_⟩
  rw [tokens, tokens, World.task?_removeTask]
  by_cases he : l' = l ∧ slot' = slot
  · obtain ⟨rfl, rfl⟩ := he
    simp [ht, Task.token?, hjob, filledInto, Milestone.filled?]
  · simp [he, hjob, filledInto, Milestone.filled?]

theorem Passage.exchange (passage : Passage w others before σ w' after)
    (census : Census σ₀ w (before ++ others)) (hs : .spawned l slot k (.joined j) ∈ σ₀) :
    Exchange σ l slot j (tokens w before l slot j) (tokens w' after l slot j) := by
  cases passage with
  | build c =>
    refine exchange_of_same ?_ rfl rfl rfl
    rw [World.task?_build]
    split
    · rename_i hl
      rw [World.task?_eq, hl, World.tasks?_size]
      rfl
    · rfl
  | @spawn l' kind f joins hl hj =>
    refine exchange_of_spawn census hs hl ?_
    obtain ⟨rfl, _⟩ | ⟨rfl, _⟩ := hj
    · simp
    · rintro ⟨rfl⟩
      exact census.not_spawned_next hs
  | @begin l' slot' k' work hn ht =>
    refine exchange_of_modify ht rfl rfl (fun hne => ?_) ?_
    · have hk : work.kind = .joined j := by
        by_contra hk
        simp [Task.token?, hk] at hne
      exact census.slot_of_joined hs (hk ▸ census.known _ _ _ _ ht)
    · by_cases hk : work.kind = .joined j <;> simp [Task.token?, Job.token?, hk]
  | @pending l' slot' kind f =>
    obtain ⟨k', ht, hspawned⟩ := census.spawned_of_polled List.mem_cons_self
    refine exchange_of_modify ht rfl rfl (fun hne => ?_) ?_
    · have hk : kind = .joined j := by
        by_contra hk
        simp [Task.token?, hk] at hne
      exact census.slot_of_joined hs (hk ▸ hspawned)
    · by_cases hk : kind = .joined j <;> simp [Task.token?, Job.token?, hk]
  | @ending l' slot' kind o =>
    obtain ⟨k', ht, hspawned⟩ := census.spawned_of_polled List.mem_cons_self
    by_cases hk : kind = .joined j
    · subst hk
      obtain ⟨rfl, rfl⟩ := census.slot_of_joined hs hspawned
      refine .inr ⟨none, o, ?_, rfl, ?_, ?_, .inl rfl⟩
      · simp [verdictsOf, Milestone.verdict?]
      · simp [tokens, ht, Task.token?, Job.token?]
      · simp [tokens, ht, Task.token?, Job.token?]
    · refine exchange_of_same rfl ?_ ?_ rfl
      · simp [Job.token?, hk]
      · simp [verdictsOf, Milestone.verdict?, hk]
  | @handing l' slot' kind o =>
    refine exchange_of_same rfl ?_ rfl rfl
    rw [List.filterMap_append, filterMap_token_fills]
    by_cases hk : kind = .joined j <;> simp [Job.token?, hk]
  | @spoiling l' slot' kind o q =>
    obtain ⟨k', ht, hspawned⟩ := census.spawned_of_ended List.mem_cons_self
    by_cases hk : kind = .joined j
    · subst hk
      obtain ⟨rfl, rfl⟩ := census.slot_of_joined hs hspawned
      refine .inr ⟨some o, .error .cancelled, ?_, rfl, ?_, ?_, .inr List.mem_cons_self⟩
      · simp [verdictsOf, Milestone.verdict?]
      · simp [tokens, ht, Task.token?, Job.token?]
      · rw [tokens, ht, List.filterMap_append, filterMap_token_fills]
        simp [Task.token?, Job.token?]
    · refine exchange_of_same rfl ?_ (by simp [verdictsOf, Milestone.verdict?, hk]) rfl
      rw [List.filterMap_append, filterMap_token_fills]
      simp [Job.token?, hk]
  | @leaving job l' slot' hn hj =>
    have hholds : job.holds l' slot' = true := by
      obtain rfl | ⟨q, rfl⟩ := hj <;> simp [Job.holds]
    have htoken : job.token? j = none := by
      obtain rfl | ⟨q, rfl⟩ := hj <;> rfl
    obtain ⟨k', ht, _⟩ := census.held job List.mem_cons_self l' slot' hholds
    exact exchange_of_leaving ht htoken
  | draining => exact exchange_of_drain census hs
  | @abandoning work =>
    refine exchange_of_same rfl ?_ rfl rfl
    rw [filterMap_token_fills]
    by_cases hk : work.kind = .joined j <;> simp [Job.token?, hk]
  | @fill j' o x =>
    by_cases hj : j' = j
    · refine .inl ⟨rfl, ?_⟩
      have htask : (w.setJoin j' ⟨some o, none⟩).task? l slot = w.task? l slot := rfl
      rw [tokens, tokens, htask]
      simp [Job.token?, hj, filledInto, Milestone.filled?]
    · refine exchange_of_same rfl ?_ rfl ?_
      · simp [Job.token?, hj]
      · simp [filledInto, Milestone.filled?, hj]
  | @fillNothing j' o hx =>
    refine exchange_of_same rfl ?_ rfl rfl
    have hj : j' ≠ j := by
      rintro rfl
      obtain ⟨x, hx'⟩ := census.join?_of_spawned hs
      cases hx.symm.trans hx'
    simp [Job.token?, hj]
  | _ => exact exchange_of_same rfl rfl rfl rfl

/-! ## The delivery -/

/-- What holds of the join slot `j` of the task that was spawned into slot `slot` of loop `l`. -/
structure Delivery (σ : List Milestone) (w : World G) (D : List (Job G)) (l : LoopId) (slot : Nat)
    (j : JoinId) : Prop where
  /-- There is one bearer, who bears what the task came to last. -/
  bearer : (tokens w D l slot j ++ (filledInto j σ).map some).Perm [(verdictsOf j σ).getLast?]
  sole : .spoilt l slot (.joined j) ∉ σ → (verdictsOf j σ).length ≤ 1
  cancelled : ∀ e ∈ σ, (e = .spoilt l slot (.joined j) ∨
    ∃ k, e = .dropped l slot k (some (.joined j))) →
    (verdictsOf j σ).getLast? = some (.error .cancelled)
  /-- The slot holds what was put in and not taken out yet, or else the waker left last. -/
  slot : ∃ x, w.join? j = some x ∧ takenFrom j σ ++ x.outcome.toList = filledInto j σ ∧
    (filledInto j σ = [] → x.waiter = (awaitedAt j σ).getLast?)

theorem verdictsOf_append (σ σ' : List Milestone) :
    verdictsOf j (σ ++ σ') = verdictsOf j σ ++ verdictsOf j σ' :=
  List.filterMap_append

theorem filledInto_append (σ σ' : List Milestone) :
    filledInto j (σ ++ σ') = filledInto j σ ++ filledInto j σ' :=
  List.filterMap_append

theorem takenFrom_append (σ σ' : List Milestone) :
    takenFrom j (σ ++ σ') = takenFrom j σ ++ takenFrom j σ' :=
  List.filterMap_append

theorem awaitedAt_append (σ σ' : List Milestone) :
    awaitedAt j (σ ++ σ') = awaitedAt j σ ++ awaitedAt j σ' :=
  List.filterMap_append

/-- A task that was dropped, or whose future panicked when it was dropped, was cancelled. -/
theorem mem_verdictsOf_of_cancels {e : Milestone} (he : e ∈ σ)
    (h : e = .spoilt l slot (.joined j) ∨ ∃ k, e = .dropped l slot k (some (.joined j))) :
    .error .cancelled ∈ verdictsOf j σ := by
  refine List.mem_filterMap.mpr ⟨e, he, ?_⟩
  obtain rfl | ⟨k, rfl⟩ := h <;> simp [Milestone.verdict?]

/-- Either one bearer holds the outcome, or it was filled in, once. -/
theorem Delivery.length_add (h : Delivery σ w D l slot j) :
    (tokens w D l slot j).length + (filledInto j σ).length = 1 := by
  have hlen := h.bearer.length_eq
  rwa [List.length_append, List.length_map, List.length_singleton] at hlen

/-- Where a bearer holds an outcome, nothing was filled in yet. -/
theorem Delivery.filledInto_eq_nil (h : Delivery σ w D l slot j) {job : Job G} (hm : job ∈ D)
    {t : Option Joined} (ht : job.token? j = some t) :
    filledInto j σ = [] ∧ t = (verdictsOf j σ).getLast? := by
  have htokens : t ∈ tokens w D l slot j :=
    List.mem_append_right _ (List.mem_filterMap.mpr ⟨job, hm, ht⟩)
  have hlen := h.length_add
  have hpos := List.length_pos_of_mem htokens
  refine ⟨List.eq_nil_of_length_eq_zero (by omega), ?_⟩
  have hmem := h.bearer.mem_iff.mp (List.mem_append_left _ htokens)
  exact List.mem_singleton.mp hmem

/-- A join slot is filled with what its task came to last. -/
theorem Delivery.getLast?_of_filled (h : Delivery σ w D l slot j) {o : Joined}
    (ho : o ∈ filledInto j σ) : (verdictsOf j σ).getLast? = some o := by
  have hmem := h.bearer.mem_iff.mp (List.mem_append_right _ (List.mem_map.mpr ⟨o, ho, rfl⟩))
  exact (List.mem_singleton.mp hmem).symm

/-- A join slot is filled once at most. -/
theorem Delivery.filledInto_eq_singleton (h : Delivery σ w D l slot j)
    (hf : filledInto j σ ≠ []) :
    ∃ o, filledInto j σ = [o] ∧ (verdictsOf j σ).getLast? = some o := by
  have hlen := h.length_add
  have hpos := List.length_pos_iff.mpr hf
  obtain ⟨o, ho⟩ := List.length_eq_one_iff.mp (show (filledInto j σ).length = 1 by omega)
  exact ⟨o, ho, h.getLast?_of_filled (by simp [ho])⟩

/-- How a step changes a join slot. -/
theorem Delivery.slot_of_passage (h : Delivery σ₀ w (before ++ others) l slot j)
    (passage : Passage w others before σ w' after) :
    ∃ x, w'.join? j = some x ∧
      takenFrom j (σ₀ ++ σ) ++ x.outcome.toList = filledInto j (σ₀ ++ σ) ∧
      (filledInto j (σ₀ ++ σ) = [] → x.waiter = (awaitedAt j (σ₀ ++ σ)).getLast?) := by
  obtain ⟨x, hx, htaken, hwaiter⟩ := h.slot
  rw [takenFrom_append, filledInto_append, awaitedAt_append]
  have same : w'.join? j = some x → takenFrom j σ = [] → filledInto j σ = [] →
      awaitedAt j σ = [] → ∃ x, w'.join? j = some x ∧
        takenFrom j σ₀ ++ takenFrom j σ ++ x.outcome.toList = filledInto j σ₀ ++ filledInto j σ ∧
        (filledInto j σ₀ ++ filledInto j σ = [] →
          x.waiter = (awaitedAt j σ₀ ++ awaitedAt j σ).getLast?) := by
    intro hw ht hf ha
    rw [ht, hf, ha, List.append_nil, List.append_nil, List.append_nil]
    exact ⟨x, hw, htaken, hwaiter⟩
  cases passage with
  | @spawn l' kind f joins hl hj =>
    refine same ?_ rfl rfl rfl
    rw [World.join?, (World.size_addTask { w with joins } l' kind f).2]
    obtain ⟨_, rfl⟩ | ⟨_, rfl⟩ := hj
    · exact hx
    · exact World.join?_of_push hx
  | @leaving job l' slot' =>
    refine same hx ?_ ?_ ?_ <;> cases ht : w.task? l' slot' <;>
      simp [World.toldOfEnd, ht, takenFrom, filledInto, awaitedAt, Milestone.taken?,
        Milestone.filled?, Milestone.awaited?]
  | draining =>
    refine same hx ?_ ?_ ?_ <;>
      simp [World.toldOfDrop, List.filterMap_map, takenFrom, filledInto, awaitedAt,
        Milestone.taken?, Milestone.filled?, Milestone.awaited?, Function.comp_def]
  | @fill j' o x' hx' =>
    by_cases he : j' = j
    · subst he
      have hmem : .fill j' o ∈ [.fill j' o] ++ others := List.mem_cons_self
      have hnone := (h.filledInto_eq_nil hmem (t := some o) (by simp [Job.token?])).1
      rw [hnone, List.append_eq_nil_iff] at htaken
      have ht : takenFrom j' [.filled j' o] = [] := rfl
      have hf : filledInto j' [.filled j' o] = [o] := by simp [filledInto, Milestone.filled?]
      refine ⟨⟨some o, none⟩, by rw [World.join?_setJoin hx', if_pos rfl], ?_, ?_⟩
      · rw [htaken.1, hnone, ht, hf]
        rfl
      · simp [hf]
    · refine same (by rw [World.join?_setJoin hx', if_neg he, hx]) ?_ ?_ ?_ <;>
        simp [takenFrom, filledInto, awaitedAt, Milestone.taken?, Milestone.filled?,
          Milestone.awaited?, he]
  | @awaitJoin j' k' x' hx' =>
    by_cases he : j' = j
    · subst he
      cases hx.symm.trans hx'
      have ht : takenFrom j' [.awaited j' k'] = [] := rfl
      have hf : filledInto j' [.awaited j' k'] = [] := rfl
      refine ⟨⟨none, some k'⟩, by rw [World.join?_setJoin hx', if_pos rfl], ?_, ?_⟩
      · rw [ht, hf, List.append_nil, List.append_nil]
        exact htaken
      · simp [awaitedAt, Milestone.awaited?]
    · refine same (by rw [World.join?_setJoin hx', if_neg he, hx]) ?_ ?_ ?_ <;>
        simp [takenFrom, filledInto, awaitedAt, Milestone.taken?, Milestone.filled?,
          Milestone.awaited?, he]
  | @takeJoin j' o x' hx' =>
    by_cases he : j' = j
    · subst he
      cases hx.symm.trans hx'
      have ht : takenFrom j' [.taken j' o] = [o] := by simp [takenFrom, Milestone.taken?]
      have hf : filledInto j' [.taken j' o] = [] := rfl
      refine ⟨⟨none, x'⟩, by rw [World.join?_setJoin hx', if_pos rfl], ?_, ?_⟩
      · rw [ht, hf, List.append_nil, ← htaken]
        simp
      · simp [← htaken]
    · refine same (by rw [World.join?_setJoin hx', if_neg he, hx]) ?_ ?_ ?_ <;>
        simp [takenFrom, filledInto, awaitedAt, Milestone.taken?, Milestone.filled?,
          Milestone.awaited?, he]
  | _ => exact same hx rfl rfl rfl

theorem Delivery.step (h : Delivery σ₀ w (before ++ others) l slot j)
    (census : Census σ₀ w (before ++ others)) (hs : .spawned l slot k (.joined j) ∈ σ₀)
    (passage : Passage w others before σ w' after) :
    Delivery (σ₀ ++ σ) w' (after ++ others) l slot j := by
  have hbearer := h.bearer
  have split : ∀ (w : World G) (D : List (Job G)),
      tokens w (D ++ others) l slot j = tokens w D l slot j ++ others.filterMap (Job.token? j) := by
    intro w D
    rw [tokens, tokens, List.filterMap_append, List.append_assoc]
  rw [split, List.append_assoc] at hbearer
  have hslot := h.slot_of_passage passage
  rcases passage.exchange census hs with ⟨hv, htokens⟩ | ⟨x, o, hv, hf, hbefore, hafter, hx⟩
  · -- another bearer, or the slot, takes over
    refine ⟨?_, ?_, ?_, hslot⟩
    · rw [split, verdictsOf_append, filledInto_append, hv, List.append_nil, List.map_append]
      rw [← htokens] at hbearer
      refine .trans ?_ hbearer
      rw [List.append_assoc, List.append_assoc]
      refine .append_left _ ?_
      rw [← List.append_assoc]
      exact List.perm_append_comm
    · intro hspoilt
      rw [verdictsOf_append, hv, List.append_nil]
      exact h.sole fun hm => hspoilt (List.mem_append_left _ hm)
    · intro e he hcancels
      rw [verdictsOf_append, hv, List.append_nil]
      rcases List.mem_append.mp he with he | he
      · exact h.cancelled e he hcancels
      · have hmem := mem_verdictsOf_of_cancels he hcancels
        rw [hv] at hmem
        cases hmem
  · -- the task comes to something
    rw [hbefore] at hbearer
    have hlen := hbearer.length_eq
    simp only [List.length_append, List.length_map, List.length_singleton] at hlen
    have hothers : others.filterMap (Job.token? j) = [] :=
      List.eq_nil_of_length_eq_zero (by omega)
    have hnone : filledInto j σ₀ = [] := List.eq_nil_of_length_eq_zero (by omega)
    rw [hothers, hnone] at hbearer
    have hlast : x = (verdictsOf j σ₀).getLast? := by simpa using hbearer.mem_iff (a := x)
    refine ⟨?_, ?_, ?_, hslot⟩
    · rw [split, hafter, hothers, verdictsOf_append, filledInto_append, hv, hf, hnone]
      simp
    · intro hspoilt
      have hx : x = none := hx.resolve_right fun hm => hspoilt (List.mem_append_right _ hm)
      have hv₀ : verdictsOf j σ₀ = [] := by
        rw [hx] at hlast
        exact List.getLast?_eq_none_iff.mp hlast.symm
      rw [verdictsOf_append, hv, hv₀]
      exact Nat.le_refl _
    · intro e he hcancels
      have hmem : ∀ e' ∈ σ, (e' = .spoilt l slot (.joined j) ∨
          ∃ k, e' = .dropped l slot k (some (.joined j))) → o = .error .cancelled := by
        intro e' he' hcancels'
        have hmem := mem_verdictsOf_of_cancels he' hcancels'
        rw [hv] at hmem
        exact (List.mem_singleton.mp hmem).symm
      rw [verdictsOf_append, hv, List.getLast?_concat]
      rcases List.mem_append.mp he with he | he
      · have hcancelled := h.cancelled e he hcancels
        rw [hcancelled] at hlast
        rcases hx with rfl | hm
        · cases hlast
        · rw [hmem _ hm (.inl rfl)]
      · rw [hmem e he hcancels]

/-- Nothing is told of a join slot before its task is spawned. -/
theorem Roots.silent (h : Roots σ D) (hno : ∀ l slot k, .spawned l slot k (.joined j) ∉ σ) :
    verdictsOf j σ = [] ∧ filledInto j σ = [] ∧ takenFrom j σ = [] ∧ awaitedAt j σ = [] := by
  have hroot : ∀ e ∈ σ, e.verdict? j = none ∧ e.filled? j = none ∧ e.taken? j = none ∧
      e.awaited? j = none := by
    intro e he
    have hr := h.told e he
    cases e with
    | ended l slot kind | spoilt l slot kind =>
      obtain ⟨k, hk⟩ := hr
      have hne : kind ≠ .joined j := by
        rintro rfl
        exact hno _ _ _ hk
      exact ⟨if_neg hne, rfl, rfl, rfl⟩
    | dropped l slot k kind =>
      have hne : kind ≠ some (.joined j) := by
        rintro rfl
        exact hno _ _ _ hr
      exact ⟨if_neg hne, rfl, rfl, rfl⟩
    | awaited j' | filled j' | taken j' =>
      obtain ⟨l, slot, k, hk⟩ := hr
      have hne : j' ≠ j := by
        rintro rfl
        exact hno _ _ _ hk
      simp [Milestone.verdict?, Milestone.filled?, Milestone.taken?, Milestone.awaited?, hne]
    | _ => exact ⟨rfl, rfl, rfl, rfl⟩
  refine ⟨?_, ?_, ?_, ?_⟩
  · exact List.filterMap_eq_nil_iff.mpr fun e he => (hroot e he).1
  · exact List.filterMap_eq_nil_iff.mpr fun e he => (hroot e he).2.1
  · exact List.filterMap_eq_nil_iff.mpr fun e he => (hroot e he).2.2.1
  · exact List.filterMap_eq_nil_iff.mpr fun e he => (hroot e he).2.2.2

/-- No job bears anything for a join slot before its task is spawned. -/
theorem Roots.token?_eq_none (h : Roots σ D) (census : Census σ w D)
    (hno : ∀ l slot k, .spawned l slot k (.joined j) ∉ σ) {job : Job G} (hm : job ∈ D) :
    job.token? j = none := by
  have hr := h.borne job hm
  cases job with
  | taskPolled l slot kind =>
    obtain ⟨k, _, hs⟩ := census.spawned_of_polled hm
    refine if_neg ?_
    rintro rfl
    exact hno _ _ _ hs
  | taskEnded l slot kind o =>
    obtain ⟨k, _, hs⟩ := census.spawned_of_ended hm
    refine if_neg ?_
    rintro rfl
    exact hno _ _ _ hs
  | fill j' o =>
    obtain ⟨l, slot, k, hs⟩ := hr
    refine if_neg ?_
    rintro rfl
    exact hno _ _ _ hs
  | abandon work =>
    obtain ⟨l, slot, k, hd⟩ := hr
    have hs : .spawned l slot k work.kind ∈ σ := h.told _ hd
    refine if_neg ?_
    intro hk
    exact hno _ _ _ (hk ▸ hs)
  | _ => rfl

theorem delivery_of_spawn (h : Roots σ₀ (before ++ others))
    (census : Census σ₀ w (before ++ others))
    (passage : Passage w others before σ w' after) (hs : .spawned l slot k (.joined j) ∈ σ) :
    Delivery (σ₀ ++ σ) w' (after ++ others) l slot j := by
  cases passage with
  | @spawn l' kind f joins hl hj =>
    cases List.mem_singleton.mp hs
    obtain ⟨hkind, _⟩ | ⟨hkind, rfl⟩ := hj
    · cases hkind
    cases hkind
    have hno : ∀ l slot k, .spawned l slot k (.joined ⟨w.joins.size⟩) ∉ σ₀ :=
      fun _ _ _ => census.not_spawned_next
    obtain ⟨hv, hf, ht, ha⟩ := h.silent hno
    have hothers : others.filterMap (Job.token? ⟨w.joins.size⟩) = [] :=
      List.filterMap_eq_nil_iff.mpr fun i hi =>
        h.token?_eq_none census hno (List.mem_append_right _ hi)
    have hvalid : { w with joins := w.joins.push .new }.TablesValid := census.valid
    refine ⟨?_, ?_, ?_, ?_⟩
    · rw [tokens, hvalid.task?_addTask hl, if_pos ⟨rfl, rfl⟩, verdictsOf_append,
        filledInto_append, hv, hf]
      simp [Task.token?, hothers, verdictsOf, filledInto, Milestone.verdict?, Milestone.filled?]
    · intro _
      rw [verdictsOf_append, hv, List.nil_append]
      exact List.length_filterMap_le _ _
    · intro e he hcancels
      exfalso
      rcases List.mem_append.mp he with he | he
      · have hmem := mem_verdictsOf_of_cancels he hcancels
        rw [hv] at hmem
        cases hmem
      · obtain rfl := List.mem_singleton.mp he
        simp at hcancels
    · refine ⟨.new, ?_, ?_, ?_⟩
      · rw [World.join?, (World.size_addTask _ _ _ _).2]
        exact Array.getElem?_push_size
      · rw [takenFrom_append, filledInto_append, ht, hf]
        rfl
      · intro _
        rw [awaitedAt_append, ha]
        rfl
  | leaving =>
    obtain ⟨t, _, he⟩ := List.mem_map.mp hs
    cases he
  | draining =>
    obtain ⟨e, _, he⟩ := List.mem_map.mp hs
    cases he
  | _ => simp at hs

theorem Chronicle.delivery (chronicle : Chronicle σ w D)
    (hs : .spawned l slot k (.joined j) ∈ σ) : Delivery σ w D l slot j := by
  induction chronicle with
  | here => cases hs
  | @same σ w w' D D' _ hw hD ih =>
    have h := ih hs
    refine ⟨?_, h.sole, h.cancelled, ?_⟩
    · rw [tokens, World.task?_of_keeps hw]
      refine .trans ?_ h.bearer
      exact ((hD.symm.filterMap _).append_left _).append_right _
    · rw [World.join?_of_keeps hw]
      exact h.slot
  | step chronicle passage ih =>
    rcases List.mem_append.mp hs with hs | hs
    · exact (ih hs).step chronicle.census hs passage
    · exact delivery_of_spawn chronicle.roots chronicle.census passage hs

end

end RunLoop
