import Mathlib.Data.List.Perm.Subperm
import RunLoop.Proofs.Batches

/-!
# Completion sources are settled once

A transition of a source has two halves: it marks the source, and it hands the change of the cell to
the owning loop. Only the first transition gets to the second half, and only one hand-off reaches
the loop. So a cell is assigned once at most, by the loop that owns it, whatever the threads that
settle the source do in between and whatever becomes of the loop.

* `claimsOf`, `handedOver` and `carriedOut` pick what concerns a source out of a history.
* `Custody` follows the outcome of every source from its mark to its cell; every effect keeps it
  (`Effect.custody`).
* `Machine.source_settled_once` says what follows for whoever settles or observes a source.
-/

namespace RunLoop

variable {G : Guest} {l : LoopId} {c : CellId} {s : SourceId}

/-! ## What a history tells of a source -/

/-- The outcome of a transition that marked source `s`. -/
def Happening.claimed? (s : SourceId) : Happening G → Option Outcome
  | claimed s' o => if s' = s then some o else none
  | _ => none

/-- A hand-off that was accepted for cell `c`. -/
def Happening.handedOver? (c : CellId) : Happening G → Option (LoopId × Outcome)
  | accepted l (.call (.settle c' o)) => if c' = c then some (l, o) else none
  | _ => none

/-- A hand-off that was processed for cell `c`. -/
def Happening.carriedOut? (c : CellId) : Happening G → Option (LoopId × Outcome)
  | processed l (.call (.settle c' o)) => if c' = c then some (l, o) else none
  | _ => none

/-- A hand-off for cell `c` that is under way to its loop. -/
def Job.handOff? (c : CellId) : Job G → Option (LoopId × Outcome)
  | handOff l (.settle c' o) => if c' = c then some (l, o) else none
  | _ => none

/-- The outcomes of the transitions that marked source `s`, in order. -/
def claimsOf (s : SourceId) (τ : List (Happening G)) : List Outcome :=
  τ.filterMap (Happening.claimed? s)

/-- The hand-offs for cell `c` that were accepted, with the loops that accepted them. -/
def handedOver (c : CellId) (τ : List (Happening G)) : List (LoopId × Outcome) :=
  τ.filterMap (Happening.handedOver? c)

/-- The hand-offs for cell `c` that were processed, with the loops that processed them. -/
def carriedOut (c : CellId) (τ : List (Happening G)) : List (LoopId × Outcome) :=
  τ.filterMap (Happening.carriedOut? c)

/-- The hand-offs for cell `c` that are under way. -/
def handOffs (c : CellId) (D : List (Job G)) : List (LoopId × Outcome) :=
  D.filterMap (Job.handOff? c)

@[simp] theorem claimsOf_nil : claimsOf s ([] : List (Happening G)) = [] :=
  rfl

@[simp] theorem handedOver_nil : handedOver c ([] : List (Happening G)) = [] :=
  rfl

@[simp] theorem carriedOut_nil : carriedOut c ([] : List (Happening G)) = [] :=
  rfl

@[simp] theorem handOffs_nil : handOffs c ([] : List (Job G)) = [] :=
  rfl

@[simp] theorem claimsOf_cons (h : Happening G) (τ : List (Happening G)) :
    claimsOf s (h :: τ) = (h.claimed? s).toList ++ claimsOf s τ :=
  filterMap_cons_eq _ h τ

@[simp] theorem handedOver_cons (h : Happening G) (τ : List (Happening G)) :
    handedOver c (h :: τ) = (h.handedOver? c).toList ++ handedOver c τ :=
  filterMap_cons_eq _ h τ

@[simp] theorem carriedOut_cons (h : Happening G) (τ : List (Happening G)) :
    carriedOut c (h :: τ) = (h.carriedOut? c).toList ++ carriedOut c τ :=
  filterMap_cons_eq _ h τ

@[simp] theorem handOffs_cons (job : Job G) (D : List (Job G)) :
    handOffs c (job :: D) = (job.handOff? c).toList ++ handOffs c D :=
  filterMap_cons_eq _ job D

@[simp] theorem handOffs_map_wake (ws : List WakerId) :
    handOffs c (ws.map (Job.wake (G := G))) = [] :=
  List.filterMap_eq_nil_iff.mpr (by simp [Job.handOff?])

@[simp] theorem claimsOf_append (τ τ' : List (Happening G)) :
    claimsOf s (τ ++ τ') = claimsOf s τ ++ claimsOf s τ' :=
  List.filterMap_append

@[simp] theorem handedOver_append (τ τ' : List (Happening G)) :
    handedOver c (τ ++ τ') = handedOver c τ ++ handedOver c τ' :=
  List.filterMap_append

@[simp] theorem carriedOut_append (τ τ' : List (Happening G)) :
    carriedOut c (τ ++ τ') = carriedOut c τ ++ carriedOut c τ' :=
  List.filterMap_append

@[simp] theorem handOffs_append (D D' : List (Job G)) :
    handOffs c (D ++ D') = handOffs c D ++ handOffs c D' :=
  List.filterMap_append

/-- What holds of a source: whoever marked it brings its outcome to the owning loop, once. -/
structure Owned (τ : List (Happening G)) (w : World G) (D : List (Job G)) (s : SourceId)
    (x : Source) : Prop where
  cell : x.cell = ⟨s.index⟩
  claims : (claimsOf s τ).length = if x.settled then 1 else 0
  once : (handOffs x.cell D ++ handedOver x.cell τ).length ≤ (claimsOf s τ).length
  owner : ∀ l o, (l, o) ∈ handOffs x.cell D ++ handedOver x.cell τ →
    l = x.loop ∧ o ∈ claimsOf s τ
  outcome : carriedOut x.cell τ = (w.outcome? x.cell).toList.map (x.loop, ·)

/-- A source is marked once at most. -/
theorem Owned.length_claimsOf_le {τ : List (Happening G)} {w : World G} {D : List (Job G)}
    {x : Source} (h : Owned τ w D s x) : (claimsOf s τ).length ≤ 1 := by
  rw [h.claims]
  split <;> omega

/-- No second hand-off of a source is accepted. -/
theorem Owned.length_handedOver_le {τ : List (Happening G)} {w : World G} {D : List (Job G)}
    {x : Source} (h : Owned τ w D s x) : (handedOver x.cell τ).length ≤ 1 := by
  have hle := h.length_claimsOf_le
  have honce := h.once
  rw [List.length_append] at honce
  omega

/-- What holds of all sources. -/
structure Custody (τ : List (Happening G)) (w : World G) (D : List (Job G)) : Prop where
  size : w.cells.size = w.sources.size
  owned : ∀ s x, w.source? s = some x → Owned τ w D s x
  fresh : ∀ i, w.sources.size ≤ i → claimsOf ⟨i⟩ τ = [] ∧ handOffs ⟨i⟩ D = [] ∧
    handedOver ⟨i⟩ τ = [] ∧ carriedOut ⟨i⟩ τ = []

theorem custody_empty : Custody ([] : List (Happening G)) .empty [] :=
  ⟨rfl, by simp [World.empty, World.source?], by simp [claimsOf, handOffs, handedOver, carriedOut]⟩

section

variable {w w' : World G} {others before after : List (Job G)} {τ η : List (Happening G)}

theorem Custody.same (h : Custody τ w before) (hw : w.Agrees w') (hD : before.Perm after) :
    Custody τ w' after := by
  have hperm : ∀ c, (handOffs c before).Perm (handOffs c after) := fun c => hD.filterMap _
  refine ⟨by rw [hw.cells, hw.sources, h.size], fun s x hx => ?_, fun i hi => ?_⟩
  · have hx' : w.source? s = some x := by rwa [World.source?, ← hw.sources]
    have ho := h.owned s x hx'
    refine ⟨ho.cell, ho.claims, ?_, ?_, ?_⟩
    · rw [← ((hperm _).append_right _).length_eq]
      exact ho.once
    · intro l o hm
      exact ho.owner l o (((hperm _).append_right _).mem_iff.mpr hm)
    · rw [ho.outcome, World.outcome?, World.outcome?, World.cell?, World.cell?, hw.cells]
  · obtain ⟨h₁, h₂, h₃, h₄⟩ := h.fresh i (by rwa [← hw.sources])
    exact ⟨h₁, (List.perm_nil.mp (h₂ ▸ (hperm ⟨i⟩).symm)), h₃, h₄⟩

/-- A step in which no source is made or marked. -/
theorem Custody.step (h : Custody τ w (before ++ others)) (hs : w'.sources = w.sources)
    (hz : w'.cells.size = w.cells.size) (hclaims : ∀ s, claimsOf s η = [])
    (hmoved : ∀ c, (handOffs c after ++ handedOver c η).Subperm (handOffs c before))
    (hdone : ∀ s x, w.source? s = some x →
      (w.outcome? x.cell).toList.map (x.loop, ·) ++ carriedOut x.cell η =
        (w'.outcome? x.cell).toList.map (x.loop, ·))
    (hfresh : ∀ i, w.sources.size ≤ i → carriedOut ⟨i⟩ η = []) :
    Custody (τ ++ η) w' (after ++ others) := by
  -- What was under way or handed over before includes what is now.
  have hsub : ∀ c, (handOffs c (after ++ others) ++ handedOver c (τ ++ η)).Subperm
      (handOffs c (before ++ others) ++ handedOver c τ) := by
    intro c
    have hperm : (handOffs c (after ++ others) ++ handedOver c (τ ++ η)).Perm
        ((handOffs c after ++ handedOver c η) ++ (handOffs c others ++ handedOver c τ)) := by
      simp only [handOffs_append, handedOver_append, List.append_assoc]
      refine List.Perm.append_left _ ?_
      rw [← List.append_assoc]
      exact List.perm_append_comm
    have hall := (hmoved c).append (List.Subperm.refl (handOffs c others ++ handedOver c τ))
    rw [hperm.subperm_right]
    simpa only [handOffs_append, List.append_assoc] using hall
  refine ⟨by rw [hz, hs, h.size], fun s x hx => ?_, fun i hi => ?_⟩
  · have hx' : w.source? s = some x := by rwa [World.source?, ← hs]
    have ho := h.owned s x hx'
    refine ⟨ho.cell, ?_, ?_, fun l o hm => ?_, ?_⟩
    · simpa [hclaims] using ho.claims
    · simpa only [claimsOf_append, hclaims, List.append_nil] using
        Nat.le_trans (hsub x.cell).length_le ho.once
    · simpa [hclaims] using ho.owner l o ((hsub x.cell).subset hm)
    · rw [carriedOut_append, ho.outcome]
      exact hdone s x hx'
  · obtain ⟨h₁, h₂, h₃, h₄⟩ := h.fresh i (by rwa [← hs])
    have hnil := hsub ⟨i⟩
    rw [h₂, h₃, List.nil_append, List.subperm_nil, List.append_eq_nil_iff] at hnil
    exact ⟨by simp [h₁, hclaims], hnil.1, hnil.2, by simp [h₄, hfresh i (by rwa [← hs])]⟩

theorem countP_acceptedBy_le {p : Entry G → Bool}
    (hp : ∀ e, p e = true → ∃ o, e = .call (.settle c o)) (τ : List (Happening G)) :
    (acceptedBy l τ).countP p ≤ (handedOver c τ).length := by
  induction τ with
  | nil => simp
  | cons h τ ih =>
    rw [handedOver_cons, acceptedBy_cons, List.length_append, List.countP_append]
    refine Nat.add_le_add ?_ ih
    cases h with
    | accepted l' e =>
      by_cases hl : l' = l
      · cases he : p e with
        | false => simp [Happening.accepted?, hl, he]
        | true =>
          obtain ⟨o, rfl⟩ := hp e he
          simp [Happening.accepted?, Happening.handedOver?, hl, he]
      · simp [Happening.accepted?, hl]
    | _ => simp [Happening.accepted?]

theorem Happening.handedOver?_eq_some_iff {o : Outcome} {h : Happening G} :
    h.handedOver? c = some (l, o) ↔ h = .accepted l (.call (.settle c o)) := by
  unfold handedOver?
  split
  · grind
  · simp_all

theorem Happening.carriedOut?_eq_some_iff {o : Outcome} {h : Happening G} :
    h.carriedOut? c = some (l, o) ↔ h = .processed l (.call (.settle c o)) := by
  unfold carriedOut?
  split
  · grind
  · simp_all

theorem Happening.claimed?_eq_some_iff {o : Outcome} {h : Happening G} :
    h.claimed? s = some o ↔ h = .claimed s o := by
  unfold claimed?
  split
  · grind
  · simp_all

theorem mem_handedOver {o : Outcome} {τ : List (Happening G)} :
    (l, o) ∈ handedOver c τ ↔ .accepted l (.call (.settle c o)) ∈ τ := by
  simp [handedOver, List.mem_filterMap, Happening.handedOver?_eq_some_iff]

theorem mem_carriedOut {o : Outcome} {τ : List (Happening G)} :
    (l, o) ∈ carriedOut c τ ↔ .processed l (.call (.settle c o)) ∈ τ := by
  simp [carriedOut, List.mem_filterMap, Happening.carriedOut?_eq_some_iff]

theorem mem_claimsOf {o : Outcome} {τ : List (Happening G)} :
    o ∈ claimsOf s τ ↔ .claimed s o ∈ τ := by
  simp [claimsOf, List.mem_filterMap, Happening.claimed?_eq_some_iff]

/-- Whether an entry assigns cell `c`. -/
def Entry.settles (c : CellId) : Entry G → Bool
  | call (.settle c' _) => c' = c
  | _ => false

theorem Entry.eq_of_settles {e : Entry G} (h : e.settles c = true) :
    ∃ o, e = .call (.settle c o) := by
  unfold settles at h
  split at h
  · simp only [decide_eq_true_eq] at h
    exact ⟨_, by rw [h]⟩
  · cases h

/-- A hand-off in a batch or in a queue comes from a transition of a source of that loop, and its
cell is not assigned yet. -/
theorem Custody.of_unprocessed {o : Outcome} (h : Custody τ w before)
    (trail : Trail .empty [] τ w before)
    (hm : .call (.settle c o) ∈ (bench w before l).toFifo.queue) :
    ∃ s x, w.source? s = some x ∧ x.cell = c ∧ x.loop = l ∧ o ∈ claimsOf s τ ∧
      carriedOut c τ = [] := by
  have run := trail.fifo_of_empty (l := l)
  have haccepted : (l, o) ∈ handedOver c τ := mem_handedOver.mpr (trail.accepted_of_mem_queue hm)
  have hsize : c.index < w.sources.size := by
    refine Nat.lt_of_not_le fun hle => ?_
    have := (h.fresh c.index hle).2.2.1
    rw [this] at haccepted
    cases haccepted
  obtain ⟨x, hx⟩ : ∃ x, w.source? ⟨c.index⟩ = some x := ⟨_, Array.getElem?_eq_getElem hsize⟩
  have ho := h.owned _ x hx
  obtain rfl : x.cell = c := ho.cell
  obtain ⟨hl, hclaimed⟩ := ho.owner l o (List.mem_append_right _ haccepted)
  -- The one hand-off that was accepted is still unprocessed.
  have hcount := run.countP_le (Entry.settles x.cell)
  rw [filterMap_accepted?_signs, filterMap_processed?_signs] at hcount
  have hle := countP_acceptedBy_le (l := l) (p := Entry.settles x.cell)
    (fun _ => Entry.eq_of_settles) τ
  have hone := ho.length_handedOver_le
  have hqueued : 0 < ((bench w before l).toFifo.queue).countP (Entry.settles x.cell) :=
    List.countP_pos_iff.mpr ⟨_, hm, by simp [Entry.settles]⟩
  have hzero : (processedBy l τ).countP (Entry.settles x.cell) = 0 := by
    simp only [Fifo.unbuilt, List.countP_nil] at hcount
    omega
  refine ⟨_, x, hx, rfl, hl.symm, hclaimed, ?_⟩
  rw [ho.outcome]
  cases hout : w.outcome? x.cell with
  | none => rfl
  | some o' =>
    have hdone : (l, o') ∈ carriedOut x.cell τ := by
      rw [ho.outcome, hout, hl]
      simp
    have := List.countP_eq_zero.mp hzero _ (mem_processedBy.mpr (mem_carriedOut.mp hdone))
    simp [Entry.settles] at this

/-- The cell of a hand-off in a batch or in a queue is pending. -/
theorem Custody.pending_of_unprocessed {o : Outcome} (h : Custody τ w before)
    (trail : Trail .empty [] τ w before)
    (hm : .call (.settle c o) ∈ (bench w before l).toFifo.queue) :
    ∃ ws, w.cell? c = some (.pending ws) := by
  obtain ⟨s, x, hx, rfl, _, _, hnone⟩ := h.of_unprocessed trail hm
  have ho := h.owned s x hx
  have hsize : x.cell.index < w.cells.size := by
    rw [h.size, ho.cell]
    exact (Array.getElem?_eq_some_iff.mp hx).1
  rw [ho.outcome] at hnone
  cases hc : w.cells[x.cell.index] with
  | pending ws => exact ⟨ws, by rw [World.cell?, Array.getElem?_eq_getElem hsize, hc]⟩
  | settled o' =>
    simp [World.outcome?, World.cell?, Array.getElem?_eq_getElem hsize, hc, Cell.outcome?] at hnone

theorem Custody.eq_of_cell {D : List (Job G)} {s s' : SourceId} {x x' : Source}
    (h : Custody τ w D) (hx : w.source? s = some x) (hx' : w.source? s' = some x')
    (hc : x.cell = x'.cell) : x = x' := by
  rw [(h.owned s x hx).cell, (h.owned s' x' hx').cell, CellId.mk.injEq] at hc
  rw [World.source?, hc] at hx
  exact Option.some.inj (hx.symm.trans hx')

/-- The entry that a loop is about to process is the first one that it has left. -/
theorem mem_queue_of_turn (w : World G) (k : WakerId) (f : Future G.Coroutine) (e : Entry G)
    (rest : List (Entry G)) (others : List (Job G)) :
    e ∈ (bench w ([.turn l k f (e :: rest)] ++ others) l).toFifo.queue := by
  simp [bench, Bench.toFifo, Job.batch?]

theorem Custody.newSource (h : Custody τ w others) (l : LoopId) :
    Custody (τ ++ []) (w.newSource l).1 ([] ++ others) := by
  rw [List.append_nil, List.nil_append]
  refine ⟨by simp [World.newSource, h.size], fun s x hx => ?_, fun i hi => ?_⟩
  · rw [World.source?_newSource] at hx
    split at hx
    · rename_i hs
      subst hs
      cases hx
      obtain ⟨h₁, h₂, h₃, h₄⟩ := h.fresh _ (Nat.le_refl _)
      have hout : w.outcome? ⟨w.sources.size⟩ = none := by
        simp [World.outcome?, World.cell?, h.size]
      refine ⟨by simp [h.size], by simp [h₁], ?_, ?_, ?_⟩
      · simp [h.size, h₂, h₃]
      · simp [h.size, h₂, h₃]
      · simp [h.size, h₄, World.outcome?_newSource, hout]
    · obtain ⟨h₁, h₂, h₃, h₄, h₅⟩ := h.owned s x hx
      exact ⟨h₁, h₂, h₃, h₄, by rw [World.outcome?_newSource, h₅]⟩
  · have hi' : w.sources.size + 1 ≤ i := by simpa [World.newSource] using hi
    exact h.fresh i (by omega)

theorem Custody.claim {x : Source} {o : Outcome} (h : Custody τ w others)
    (hx : w.source? s = some x) (hs : x.settled = false) :
    Custody (τ ++ [.claimed s o]) (w.claim s).1
      ([.handOff x.loop (.settle x.cell o)] ++ others) := by
  have hsize : s.index < w.sources.size := (Array.getElem?_eq_some_iff.mp hx).1
  have ho := h.owned s x hx
  have hnone : claimsOf s τ = [] := by
    have := ho.claims
    rwa [hs, if_neg (by simp), List.length_eq_zero_iff] at this
  have hempty : handOffs x.cell others ++ handedOver x.cell τ = [] := by
    have := ho.once
    rwa [hnone, List.length_nil, Nat.le_zero, List.length_eq_zero_iff] at this
  obtain ⟨hoffs, hover⟩ := List.append_eq_nil_iff.mp hempty
  refine ⟨by simpa [World.claim] using h.size, fun s' x' hx' => ?_, fun i hi => ?_⟩
  · rw [World.source?_claim] at hx'
    split at hx'
    · rename_i he
      subst he
      rw [hx] at hx'
      cases hx'
      refine ⟨ho.cell, ?_, ?_, ?_, ?_⟩
      · simp [Happening.claimed?, hnone]
      · simp [Happening.claimed?, Happening.handedOver?, Job.handOff?, hoffs, hover]
      · simp [Happening.claimed?, Happening.handedOver?, Job.handOff?, hoffs, hover]
      · simpa [Happening.carriedOut?] using ho.outcome
    · rename_i he
      obtain ⟨h₁, h₂, h₃, h₄, h₅⟩ := h.owned s' x' hx'
      have hne : x.cell ≠ x'.cell := by
        rw [ho.cell, h₁]
        intro hc
        cases s
        cases s'
        simp_all
      refine ⟨h₁, ?_, ?_, ?_, ?_⟩
      · simpa [Happening.claimed?, he] using h₂
      · simpa [Happening.claimed?, Happening.handedOver?, Job.handOff?, he, hne] using h₃
      · simpa [Happening.claimed?, Happening.handedOver?, Job.handOff?, he, hne] using h₄
      · simpa [Happening.carriedOut?] using h₅
  · have hi' : w.sources.size ≤ i := by simpa [World.claim] using hi
    obtain ⟨h₁, h₂, h₃, h₄⟩ := h.fresh i hi'
    have hs' : s ≠ ⟨i⟩ := by
      rintro rfl
      exact absurd hsize (Nat.not_lt.mpr hi')
    have hc' : x.cell ≠ ⟨i⟩ := by
      rw [ho.cell]
      rintro ⟨⟩
      exact absurd hsize (Nat.not_lt.mpr hi')
    refine ⟨?_, ?_, ?_, ?_⟩
    · simp [Happening.claimed?, hs', h₁]
    · simp [Job.handOff?, hc', h₂]
    · simp [Happening.handedOver?, h₃]
    · simp [Happening.carriedOut?, h₄]

theorem Effect.custody (effect : Effect w others before η w' after)
    (trail : Trail .empty [] τ w (before ++ others)) (h : Custody τ w (before ++ others)) :
    Custody (τ ++ η) w' (after ++ others) := by
  have quiet : w'.sources = w.sources → w'.cells.size = w.cells.size →
      (∀ c, w'.outcome? c = w.outcome? c) → (∀ c, handOffs c after = handOffs c before) →
      (∀ s c, claimsOf s η = [] ∧ handedOver c η = [] ∧ carriedOut c η = []) →
      Custody (τ ++ η) w' (after ++ others) := by
    intro hs hc hout ht hη
    refine h.step hs hc (fun s => (hη s ⟨0⟩).1) (fun c => ?_) (fun s x _ => ?_)
      fun i _ => (hη ⟨i⟩ ⟨i⟩).2.2
    · rw [ht, (hη ⟨0⟩ c).2.1, List.append_nil]
    · rw [(hη s x.cell).2.2, List.append_nil, hout]
  cases effect with
  | newSource l => exact h.newSource l
  | claim hx hs => exact h.claim hx hs
  | @handOver l cb _ =>
    refine h.step rfl rfl (by simp [Happening.claimed?]) (fun c => ?_) (fun s x _ => ?_)
      (by simp [Happening.carriedOut?])
    · cases cb with
      | settle => simpa [Job.handOff?, Happening.handedOver?] using List.Subperm.refl _
      | _ => simp [Happening.handedOver?]
    · simp [Happening.carriedOut?, World.outcome?, World.cell?, World.enqueue]
      rfl
  | handBack _ => exact h.step rfl rfl (by simp) (by simp) (by simp) (by simp)
  | awaitCell hx =>
    refine quiet rfl (by simp [World.setCell]) (fun c => ?_) (by simp)
      (by simp [Happening.claimed?, Happening.handedOver?, Happening.carriedOut?])
    rw [World.outcome?_setCell hx]
    split
    · rename_i hc
      subst hc
      simp [World.outcome?, hx, Cell.outcome?]
    · rfl
  | @processSettle l k f c o rest ws ha hx =>
    obtain ⟨s₀, x₀, hs₀, rfl, rfl, _, _⟩ := h.of_unprocessed trail (mem_queue_of_turn _ _ _ _ _ _)
    refine h.step rfl (by simp [World.setCell]) (by simp [Happening.claimed?])
      (by simp [Job.handOff?, Happening.handedOver?]) (fun s x hs => ?_) fun i hi => ?_
    · rw [World.outcome?_setCell hx]
      by_cases hc : x₀.cell = x.cell
      · obtain rfl : x₀ = x := h.eq_of_cell hs₀ hs hc
        simp [World.outcome?, hx, Cell.outcome?, Happening.carriedOut?]
      · simp [Happening.carriedOut?, hc]
    · have hc : x₀.cell ≠ ⟨i⟩ := by
        rw [(h.owned s₀ x₀ hs₀).cell]
        rintro ⟨⟩
        exact absurd (Array.getElem?_eq_some_iff.mp hs₀).1 (Nat.not_lt.mpr hi)
      simp [Happening.carriedOut?, hc]
  | @processSettled l k f c o rest ha hn =>
    obtain ⟨ws, hx⟩ := h.pending_of_unprocessed trail (mem_queue_of_turn _ _ _ _ _ _)
    simp [World.settle?, hx, Cell.settle?] at hn
  | @notify k x =>
    refine quiet rfl rfl (fun _ => rfl) (by simp [Job.handOff?]) ?_
    cases x.target <;> simp [Target.entry, Happening.claimed?, Happening.handedOver?,
        Happening.carriedOut?]
  | @submit l cb hc ho =>
    refine quiet rfl rfl (fun _ => rfl) (by simp) ?_
    cases cb with
    | settle c o => exact absurd rfl (hc c o)
    | _ => simp [Happening.claimed?, Happening.handedOver?, Happening.carriedOut?]
  | _ =>
    exact quiet rfl rfl (fun _ => rfl) (by simp [Job.handOff?])
      (by simp [Happening.claimed?, Happening.handedOver?, Happening.carriedOut?])

theorem Trail.custody (trail : Trail .empty [] τ w before) : Custody τ w before := by
  induction trail with
  | here => exact custody_empty
  | same _ hw hD ih => exact ih.same hw hD
  | step trail effect ih => exact effect.custody trail ih

/-- A source keeps its loop and its cell. -/
theorem Trail.source? {w₀ : World G} {D₀ : List (Job G)} (trail : Trail w₀ D₀ τ w before)
    {x : Source} (hx : w₀.source? s = some x) :
    ∃ x', w.source? s = some x' ∧ x'.loop = x.loop ∧ x'.cell = x.cell := by
  induction trail with
  | here => exact ⟨x, hx, rfl, rfl⟩
  | same _ hw _ ih =>
    obtain ⟨x', hx', h⟩ := ih
    exact ⟨x', by rwa [World.source?, hw.sources], h⟩
  | step _ effect ih =>
    obtain ⟨x', hx', h⟩ := ih
    cases effect with
    | newSource l =>
      refine ⟨x', ?_, h⟩
      rw [World.source?_newSource, if_neg, hx']
      rintro rfl
      simp [World.source?] at hx'
    | @claim s' o y hy hs =>
      rw [World.source?_claim, hx']
      split
      · exact ⟨_, rfl, h⟩
      · exact ⟨x', rfl, h⟩
    | _ => exact ⟨x', hx', h⟩

/-- A source is marked exactly if a transition marked it. -/
theorem Trail.settled_iff (trail : Trail .empty [] τ w before) {x : Source}
    (hx : w.source? s = some x) : x.settled = true ↔ ∃ o, .claimed s o ∈ τ := by
  have hclaims := (trail.custody.owned s x hx).claims
  constructor
  · intro hs
    rw [hs, if_pos rfl, List.length_eq_one_iff] at hclaims
    obtain ⟨o, ho⟩ := hclaims
    exact ⟨o, mem_claimsOf.mp (ho ▸ List.mem_singleton_self o)⟩
  · rintro ⟨o, ho⟩
    have hpos := List.length_pos_of_mem (mem_claimsOf.mpr ho)
    by_contra hs
    simp [hclaims, hs] at hpos

/-- Whoever is refused comes after another transition of the source. -/
theorem Trail.claimed_of_refused (trail : Trail .empty [] τ w before) {o : Outcome}
    (h : .refused s o ∈ τ) : ∃ o', .claimed s o' ∈ τ := by
  induction trail with
  | here => cases h
  | same _ _ _ ih => exact ih h
  | step trail effect ih =>
    rcases List.mem_append.mp h with h | h
    · obtain ⟨o', ho'⟩ := ih h
      exact ⟨o', List.mem_append_left _ ho'⟩
    · cases effect with
      | refuse hx hs =>
        cases List.mem_singleton.mp h
        obtain ⟨o', ho'⟩ := (trail.settled_iff hx).mp hs
        exact ⟨o', List.mem_append_left _ ho'⟩
      | _ => simp at h

/-- The cell of a source is settled exactly if its loop processed a hand-off to it. -/
theorem Trail.isSettled_iff (trail : Trail .empty [] τ w before) {x : Source}
    (hx : w.source? s = some x) :
    w.isSettled x.cell = true ↔ ∃ o, .processed x.loop (.call (.settle x.cell o)) ∈ τ := by
  have h := (trail.custody.owned s x hx).outcome
  simp only [← mem_carriedOut, h, World.isSettled_eq]
  cases w.outcome? x.cell <;> simp

end

theorem eq_singleton_of_mem {α : Type} {a : α} {xs : List α} (h : a ∈ xs)
    (hle : xs.length ≤ 1) : xs = [a] := by
  obtain ⟨b, rfl⟩ := List.length_eq_one_iff.mp (Nat.le_antisymm hle (List.length_pos_of_mem h))
  rw [List.mem_singleton.mp h]

namespace Machine

variable {code : G.Code} {m : Machine G} {τ : List (Happening G)}

theorem Reached.custody (hm : Reached code τ m) : Custody τ m.world m.duties :=
  hm.trail.custody

/-- The second half of a transition: the loop accepts the hand-off, or is closed. -/
theorem step_handOff {cb : HandOff G} {a : Answer G} {rest : List (Job G)}
    (hj : m.jobs = .handOff l cb :: rest) (hmode : m.mode = .going a) :
    m.happenings = [.accepted l (.call cb)] ∧ (m.step code).mode = .going (.unit (.ok ())) ∧
        (m.step code).jobs = rest ∨
      m.happenings = [] ∧ ∃ e, (m.step code).jobs =
        .discard (.call cb) :: .emit e :: .answer (.unit (.error .loopClosed)) :: rest := by
  obtain ⟨w, shared, threads, mode, jobs⟩ := m
  cases hj
  cases hmode
  cases hp : w.push? l (.call cb) with
  | some w' =>
    refine .inl ⟨handed_of_some hp, ?_⟩
    simp [step, mustWait, perform, handOff, hp, go, Machine.set]
  | none =>
    refine .inr ⟨handed_of_none hp, .handOffRejected (w.loopName l) .loopClosed, ?_⟩
    simp [step, mustWait, perform, handOff, hp, push, insert, go]

/-- The first half of the transition that comes first. -/
theorem step_settle_of_unsettled {x : Source} {o : Outcome} {a : Answer G} {rest : List (Job G)}
    (hj : m.jobs = .serve (.settle s o) :: rest) (hmode : m.mode = .going a)
    (hx : m.world.source? s = some x) (hs : x.settled = false) :
    m.happenings = [.claimed s o] ∧ (m.step code).mode = .going .nothing ∧
      (m.step code).jobs = .handOff x.loop (.settle x.cell o) :: rest := by
  obtain ⟨w, shared, threads, mode, jobs⟩ := m
  cases hj
  cases hmode
  have hw : w.source? s = some x := hx
  have hclaim : w.claim s = ((w.claim s).1, false) := by
    simp only [World.claim, hw, Option.map_some, hs, Option.getD_some]
  have hstep : step code ⟨w, shared, threads, .going a, .serve (.settle s o) :: rest⟩ =
      (⟨(w.claim s).1, shared, threads, .going a, rest⟩ : Machine G).push
        [.handOff x.loop (.settle x.cell o)] := by
    simp only [step, mustWait, perform, serve, settle]
    rw [hclaim, hw]
    rfl
  rw [hstep]
  refine ⟨?_, rfl, rfl⟩
  simp [happenings, performed, served, hw, hs]

/-- The first half of a transition that comes too late. -/
theorem step_settle_of_settled {x : Source} {o : Outcome} {a : Answer G} {rest : List (Job G)}
    (hj : m.jobs = .serve (.settle s o) :: rest) (hmode : m.mode = .going a)
    (hx : m.world.source? s = some x) (hs : x.settled = true) :
    m.happenings = [.refused s o] ∧
      (m.step code).mode = .going (.unit (.error .alreadyCompleted)) ∧
      (m.step code).jobs = rest ∧ m.world.Agrees (m.step code).world := by
  obtain ⟨w, shared, threads, mode, jobs⟩ := m
  cases hj
  cases hmode
  have hw : w.source? s = some x := hx
  have hclaim : w.claim s = ((w.claim s).1, true) := by
    simp only [World.claim, hw, Option.map_some, hs, Option.getD_some]
  have hstep : step code ⟨w, shared, threads, .going a, .serve (.settle s o) :: rest⟩ =
      ((emit ⟨w, shared, threads, .going a, rest⟩ (.alreadySettled o.transition)).go
        (.unit (.error .alreadyCompleted))) := by
    simp only [step, mustWait, perform, serve, settle]
    rw [hclaim, hw]
    rfl
  rw [hstep]
  refine ⟨?_, rfl, rfl, World.agrees_emit _ _⟩
  simp [happenings, performed, served, hw, hs]

/-- The outcome of a cell is that of the one hand-off that was accepted and processed. -/
theorem Reached.outcome (hm : Reached code τ m) {x : Source} (hx : m.world.source? s = some x)
    {o : Outcome} (ho : m.world.outcome? x.cell = some o) :
    .processed x.loop (.call (.settle x.cell o)) ∈ τ ∧ handedOver x.cell τ = [(x.loop, o)] ∧
      claimsOf s τ = [o] := by
  have h := hm.custody.owned s x hx
  have hdone : .processed x.loop (.call (.settle x.cell o)) ∈ τ := by
    rw [← mem_carriedOut, h.outcome, ho]
    simp
  have haccepted : (x.loop, o) ∈ handedOver x.cell τ :=
    mem_handedOver.mpr (hm.trail.accepted_of_processed hdone)
  have hclaimed := (h.owner _ _ (List.mem_append_right _ haccepted)).2
  exact ⟨hdone, eq_singleton_of_mem haccepted h.length_handedOver_le,
    eq_singleton_of_mem hclaimed h.length_claimsOf_le⟩

/-- A cell changes only from pending to the outcome of a hand-off that its loop processes. -/
theorem Move.outcome {η : List (Happening G)} {m' : Machine G} (move : Move code m η m')
    (hm : Reached code τ m) {x : Source} (hx : m.world.source? s = some x) :
    m'.world.outcome? x.cell = m.world.outcome? x.cell ∨
      m.world.outcome? x.cell = none ∧ ∃ o, m'.world.outcome? x.cell = some o ∧
        .processed x.loop (.call (.settle x.cell o)) ∈ η := by
  have trail := (History.here.next move).course.trail hm.sound
  obtain ⟨x', hx', hl, hc⟩ := trail.source? hx
  have h := (hm.custody.owned s x hx).outcome
  have h' := ((hm.next move).custody.owned s x' hx').outcome
  rw [carriedOut_append, hc, hl, h] at h'
  cases ho : m.world.outcome? x.cell with
  | none =>
    cases ho' : m'.world.outcome? x.cell with
    | none => exact .inl rfl
    | some o =>
      refine .inr ⟨rfl, o, rfl, ?_⟩
      rw [ho, ho'] at h'
      rw [← mem_carriedOut]
      simp only [Option.toList_none, List.map_nil, List.nil_append] at h'
      simp [h']
  | some o =>
    rw [ho] at h'
    cases ho' : m'.world.outcome? x.cell with
    | none => simp [ho'] at h'
    | some o' =>
      simp only [ho', Option.toList_some, List.map_cons, List.map_nil, List.cons_append,
        List.nil_append, List.cons.injEq, Prod.mk.injEq, true_and] at h'
      exact .inl (by rw [h'.1])

/-- Only the first transition of a source gets to its second half. -/
theorem Reached.step_settle (hm : Reached code τ m) {x : Source}
    (hx : m.world.source? s = some x) {o : Outcome} {a : Answer G} {rest : List (Job G)}
    (hj : m.jobs = .serve (.settle s o) :: rest) (hmode : m.mode = .going a) :
    (∀ o', .claimed s o' ∉ τ ∧ .refused s o' ∉ τ) ∧ m.happenings = [.claimed s o] ∧
        (m.step code).jobs = .handOff x.loop (.settle x.cell o) :: rest ∨
      (∃ o', .claimed s o' ∈ τ) ∧ m.happenings = [.refused s o] ∧
        (m.step code).mode = .going (.unit (.error .alreadyCompleted)) ∧
        (m.step code).jobs = rest ∧ m.world.Agrees (m.step code).world := by
  have hsettled := hm.trail.settled_iff hx
  cases hs : x.settled with
  | false =>
    have hnone : ∀ o', .claimed s o' ∉ τ := by
      intro o' ho'
      have := hsettled.mpr ⟨o', ho'⟩
      simp [hs] at this
    obtain ⟨hη, _, hjobs⟩ : _ ∧ _ ∧ (m.step code).jobs = .handOff x.loop (.settle x.cell o) :: rest :=
      step_settle_of_unsettled hj hmode hx hs
    refine .inl ⟨fun o' => ⟨hnone o', fun hr => ?_⟩, hη, hjobs⟩
    obtain ⟨o₁, ho₁⟩ := hm.trail.claimed_of_refused hr
    exact hnone o₁ ho₁
  | true => exact .inr ⟨hsettled.mp hs, step_settle_of_settled hj hmode hx hs⟩

/-- A hand-off whose turn has come finds its cell pending. -/
theorem Reached.pending_of_turn (hm : Reached code τ m) {k : WakerId} {f : Future G.Coroutine}
    {o : Outcome} {rest : List (Entry G)} {below : List (Job G)}
    (hj : m.jobs = .turn l k f (.call (.settle c o) :: rest) :: below) :
    ∃ ws, m.world.cell? c = some (.pending ws) := by
  refine hm.custody.pending_of_unprocessed (l := l) (o := o) hm.trail ?_
  have hd : m.duties = [.turn l k f (.call (.settle c o) :: rest)] ++
      (below ++ m.threads.parked.flatMap (·.jobs)).filter Job.isDuty := by
    rw [duties, allJobs, hj, List.cons_append, List.filter_cons_of_pos rfl]
    rfl
  rw [hd]
  exact mem_queue_of_turn _ _ _ _ _ _

/-- **A completion source is settled once.** Whatever threads settle it, in whatever order they take
their steps, and whatever becomes of its loop:

* at most one hand-off of it is accepted, which is when a transition answers that it succeeded;
* only the first transition hands anything over; those that come later answer that the source was
  completed already, and change nothing;
* its cell changes once at most, from pending to the outcome of a hand-off that the owning loop is
  processing, and is not settled before;
* the outcome is that of the one transition that marked the source and whose hand-off was accepted;
* a hand-off that is processed finds the cell pending. -/
theorem source_settled_once (hm : Reached code τ m) {x : Source}
    (hx : m.world.source? s = some x) :
    (∀ l c o a rest, m.jobs = .handOff l (.settle c o) :: rest → m.mode = .going a →
      m.happenings = [.accepted l (.call (.settle c o))] ∧
          (m.step code).mode = .going (.unit (.ok ())) ∧ (m.step code).jobs = rest ∨
        m.happenings = [] ∧ ∃ e, (m.step code).jobs =
          .discard (.call (.settle c o)) :: .emit e ::
            .answer (.unit (.error .loopClosed)) :: rest) ∧
    (handedOver x.cell τ).length ≤ 1 ∧
    (∀ o a rest, m.jobs = .serve (.settle s o) :: rest → m.mode = .going a →
      (∀ o', .claimed s o' ∉ τ ∧ .refused s o' ∉ τ) ∧ m.happenings = [.claimed s o] ∧
          (m.step code).jobs = .handOff x.loop (.settle x.cell o) :: rest ∨
        (∃ o', .claimed s o' ∈ τ) ∧ m.happenings = [.refused s o] ∧
          (m.step code).mode = .going (.unit (.error .alreadyCompleted)) ∧
          (m.step code).jobs = rest ∧ m.world.Agrees (m.step code).world) ∧
    (∀ η m', Move code m η m' → m'.world.outcome? x.cell = m.world.outcome? x.cell ∨
      m.world.outcome? x.cell = none ∧ ∃ o, m'.world.outcome? x.cell = some o ∧
        .processed x.loop (.call (.settle x.cell o)) ∈ η) ∧
    (m.world.isSettled x.cell = true ↔
      ∃ o, .processed x.loop (.call (.settle x.cell o)) ∈ τ) ∧
    (∀ o, m.world.outcome? x.cell = some o →
      .processed x.loop (.call (.settle x.cell o)) ∈ τ ∧
        handedOver x.cell τ = [(x.loop, o)] ∧ claimsOf s τ = [o]) ∧
    ∀ l k f o rest below, m.jobs = .turn l k f (.call (.settle x.cell o) :: rest) :: below →
      ∃ ws, m.world.cell? x.cell = some (.pending ws) := by
  have hone := (hm.custody.owned s x hx).length_handedOver_le
  refine ⟨?_, hone, ?_, ?_, hm.trail.isSettled_iff hx, ?_, ?_⟩
  · exact fun l c o a rest hj hmode => step_handOff hj hmode
  · exact fun o a rest hj hmode => hm.step_settle hx hj hmode
  · exact fun η m' move => move.outcome hm hx
  · exact fun o ho => hm.outcome hx ho
  · exact fun l k f o rest below hj => hm.pending_of_turn hj

open Script

/-- A main future that settles a source twice and waits for it. -/
def settledTwice : List (String × Statement) :=
  onLoop
    [[line "source" "s" (.source "s" none), line "set_result" "s" (.settle "s" (.completed .null)),
      line "set_cancelled" "s" (.settle "s" .cancelled),
      line "await" "s" (.await .keep .null (.observe "s"))]]

/-- The first of two transitions is the one that counts. -/
theorem source_settled_once_of_script :
    (play settledTwice 42).2.world.source? ⟨0⟩ = some ⟨⟨0⟩, ⟨0⟩, true⟩ ∧
      (handedOver ⟨0⟩ (play settledTwice 42).1).length ≤ 1 ∧
      ∃ o, handedOver ⟨0⟩ (play settledTwice 42).1 = [(⟨0⟩, o)] ∧ o.transition = .completed := by
  have hx : (play settledTwice 42).2.world.source? ⟨0⟩ = some ⟨⟨0⟩, ⟨0⟩, true⟩ := by
    decide +kernel
  have ho : ((play settledTwice 42).2.world.outcome? ⟨0⟩).any
      (fun o => o.transition = .completed) = true := by
    decide +kernel
  obtain ⟨o, ho, ht⟩ := Option.any_eq_true _ _ |>.mp ho
  have h := source_settled_once (reached_play settledTwice 42) hx
  exact ⟨hx, h.2.1, o, (h.2.2.2.2.2.1 o ho).2.1, by simpa using ht⟩

end Machine

end RunLoop
