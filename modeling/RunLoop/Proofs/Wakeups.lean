import RunLoop.Proofs.Wakers

/-!
# No wake-up is lost

Whoever waits for a result cell or for the end of a task has left its waker there. Whatever it waits
for, the waker is woken when it comes, so that the target is queued until it is polled again. When
nothing is queued and nobody is being woken, every target of the loop therefore waits for something
that has not come.

* `Trail.since` follows a waker from the moment at which it was left somewhere.
* `Machine.Quiet` says that no wake-up is going on.
* `Machine.idle_only_if_nobody_runnable`: a loop with nothing to do has nobody to poll.
-/

namespace RunLoop

variable {G : Guest} {l : LoopId} {k : WakerId} {t : Target} {c : CellId} {j : JoinId}

/-- A happening of a longer history is one of its first part or one of the rest. -/
theorem append_eq_append_cons {α : Type} {τ η τ₁ τ₂ : List α} {h : α}
    (he : τ ++ η = τ₁ ++ h :: τ₂) :
    (∃ ρ, τ = τ₁ ++ h :: ρ ∧ τ₂ = ρ ++ η) ∨ ∃ σ, η = σ ++ h :: τ₂ ∧ τ₁ = τ ++ σ := by
  rcases List.append_eq_append_iff.mp he with ⟨σ, rfl, hη⟩ | ⟨σ, hτ, hσ⟩
  · exact .inr ⟨σ, hη, rfl⟩
  · cases σ with
    | nil => exact .inr ⟨[], by simpa using hσ.symm, by simpa using hτ.symm⟩
    | cons i σ =>
      obtain ⟨rfl, rfl⟩ := List.cons.inj hσ
      exact .inl ⟨σ, hτ, rfl⟩

section

variable {w w' : World G} {D others before after : List (Job G)} {τ η : List (Happening G)}

/-! ## Places where wakers are left -/

/-- Waker `k` is put down at cell `c`, which is pending. -/
def Awaits (w : World G) (c : CellId) (k : WakerId) : Prop :=
  ∃ waiters, w.cell? c = some (.pending waiters) ∧ k ∈ waiters

/-- A waker that is put down at a cell stays there until it is woken. -/
theorem Effect.awaits (effect : Effect w others before η w' after) (h : Awaits w c k) :
    Awaits w' c k ∨ .wake k ∈ after := by
  obtain ⟨ws, hc, hk⟩ := h
  cases effect with
  | newSource => exact .inl ⟨ws, World.cell?_of_newSource hc, hk⟩
  | @awaitCell c' k' ws' hx =>
    unfold Awaits
    rw [World.cell?_setCell hx]
    split
    · rename_i he
      cases hx.symm.trans (he ▸ hc)
      exact .inl ⟨_, rfl, Cell.mem_enlist.mpr (.inl hk)⟩
    · exact .inl ⟨ws, hc, hk⟩
  | @processSettle _ _ _ c' _ _ ws' ha hx =>
    unfold Awaits
    rw [World.cell?_setCell hx]
    split
    · rename_i he
      cases hx.symm.trans (he ▸ hc)
      exact .inr (List.mem_append_left _ (List.mem_map_of_mem hk))
    · exact .inl ⟨ws, hc, hk⟩
  | _ => exact .inl ⟨ws, hc, hk⟩

theorem Effect.awaits_of_awaited (effect : Effect w others before η w' after)
    (h : .awaited c k ∈ η) : Awaits w' c k := by
  cases effect with
  | @awaitCell _ _ ws hx =>
    cases List.mem_singleton.mp h
    refine ⟨Cell.enlist ws k, ?_, Cell.mem_enlist.mpr (.inr rfl)⟩
    rw [World.cell?_setCell hx, if_pos rfl]
  | _ => simp at h

/-- Unless others left their wakers at join slot `j` since, with `ρ` in between, waker `k` is there
and the slot has not been filled. -/
def Joins (w : World G) (j : JoinId) (k : WakerId) (ρ : List (Happening G)) : Prop :=
  (∀ k', .joining j k' ∈ ρ → k' = k) →
    (∃ o, w.join? j = some ⟨o, some k⟩) ∧ ∀ o, .filled j o ∉ ρ

/-- A waker that is left at a join slot stays there until it is woken or replaced by another. -/
theorem Effect.join? (effect : Effect w others before η w' after) {o : Option Joined}
    (h : w.join? j = some ⟨o, some k⟩) (hj : ∀ k', .joining j k' ∈ η → k' = k) :
    (∃ o, w'.join? j = some ⟨o, some k⟩) ∧ (∀ o, .filled j o ∉ η) ∨ .wake k ∈ after := by
  cases effect with
  | spawn hjoins =>
    refine .inl ⟨⟨o, ?_⟩, by simp⟩
    rcases hjoins with rfl | rfl
    · exact h
    · exact World.join?_of_push h
  | @awaitJoin j' k' x hx =>
    refine .inl ⟨?_, by simp⟩
    rw [World.join?_setJoin hx]
    split
    · rename_i he
      obtain rfl : k' = k := hj k' (by simp [he])
      exact ⟨_, rfl⟩
    · exact ⟨o, h⟩
  | @takeJoin j' o' x hx =>
    refine .inl ⟨?_, by simp⟩
    rw [World.join?_setJoin hx]
    split
    · rename_i he
      cases hx.symm.trans (he ▸ h)
      exact ⟨_, rfl⟩
    · exact ⟨o, h⟩
  | @fill j' o' x hx =>
    rw [World.join?_setJoin hx]
    split
    · rename_i he
      cases hx.symm.trans (he ▸ h)
      exact .inr (by simp)
    · rename_i he
      exact .inl ⟨⟨o, h⟩, by simp [Ne.symm he]⟩
  | _ => exact .inl ⟨⟨o, h⟩, by simp⟩

theorem Effect.joins (effect : Effect w others before η w' after) {ρ : List (Happening G)}
    (h : Joins w j k ρ) : Joins w' j k (ρ ++ η) ∨ .wake k ∈ after := by
  by_cases hj : ∀ k', .joining j k' ∈ ρ ++ η → k' = k
  · obtain ⟨⟨o, ho⟩, hf⟩ := h fun k' hk => hj k' (List.mem_append_left _ hk)
    refine (effect.join? ho fun k' hk => hj k' (List.mem_append_right _ hk)).imp_left ?_
    rintro ⟨hx, hf'⟩ _
    exact ⟨hx, fun o ho => (List.mem_append.mp ho).elim (hf o) (hf' o)⟩
  · exact .inl fun hj' => absurd hj' hj

theorem Effect.joins_of_joining {σ ρ : List (Happening G)}
    (effect : Effect w others before (σ ++ .joining j k :: ρ) w' after) : Joins w' j k ρ := by
  generalize hη : σ ++ .joining j k :: ρ = η at effect
  have hm : .joining j k ∈ η := by simp [← hη]
  intro _
  cases effect with
  | @awaitJoin j' k' x hx =>
    obtain ⟨rfl, he⟩ : σ = [] ∧ .joining j k :: ρ = [.joining j' k'] := by
      cases σ <;> simp_all
    cases he
    refine ⟨⟨none, ?_⟩, by simp⟩
    rw [World.join?_setJoin hx, if_pos rfl]
  | _ => simp at hm

/-! ## Since a waker was left -/

/-- What holds of the place where a waker was left holds as long as nobody woke it; when somebody
did, the waker is marked until its target is polled. -/
theorem Trail.since {A : List (Happening G) → World G → Prop} {h : Happening G}
    (same : ∀ {ρ w w'}, w.Agrees w' → A ρ w → A ρ w')
    (begins : ∀ {w others before σ ρ w' after}, Effect w others before (σ ++ h :: ρ) w' after →
      A ρ w' ∨ w'.notified k = true)
    (keeps : ∀ {w others before ρ η w' after}, Effect w others before η w' after → A ρ w →
      A (ρ ++ η) w' ∨ .wake k ∈ after)
    (trail : Trail .empty [] τ w D) {τ₁ τ₂ : List (Happening G)} (hτ : τ = τ₁ ++ h :: τ₂)
    (hp : .polled k ∉ τ₂) (hk : (w.waker? k).isSome = true) : A τ₂ w ∨ Pinged w D k := by
  induction trail generalizing τ₂ with
  | here => simp at hτ
  | same _ hw hD ih =>
    rw [waker?_same hw] at hk
    exact (ih hτ hp hk).imp (same hw) (pinged_same hw hD).mpr
  | @step τ η w w' others before after trail effect ih =>
    rcases append_eq_append_cons hτ with ⟨ρ, hτ', rfl⟩ | ⟨σ, rfl, _⟩
    · simp only [List.mem_append, not_or] at hp
      cases hw : w.waker? k with
      | some x =>
        have hw' : (w.waker? k).isSome = true := by simp [hw]
        rcases ih hτ' hp.1 hw' with ha | hping
        · exact (keeps effect ha).imp_right fun hm => .inr (List.mem_append_left _ hm)
        · exact .inr (effect.pinged hping hw' hp.2)
      | none =>
        -- The waker was left somewhere before it was made, which does no harm.
        obtain ⟨x, hx⟩ := Option.isSome_iff_exists.mp hk
        rcases effect.waker?_new hw hx with ⟨_, _, hpolled⟩ | ⟨_, hwake⟩
        · exact absurd hpolled hp.2
        · exact .inr (.inr (List.mem_append_left _ hwake))
    · exact (begins effect).imp_right .inl

/-- A waker that was put down at a cell is there, or somebody woke it. -/
theorem Trail.awaits (trail : Trail .empty [] τ w D) {τ₁ τ₂ : List (Happening G)}
    (hτ : τ = τ₁ ++ .awaited c k :: τ₂) (hp : .polled k ∉ τ₂) (hk : (w.waker? k).isSome = true) :
    Awaits w c k ∨ Pinged w D k := by
  refine trail.since (A := fun _ w => Awaits w c k) ?_ ?_ ?_ hτ hp hk
  · intro _ w w' hw h
    simpa [Awaits, World.cell?, hw.cells] using h
  · exact fun effect => .inl (effect.awaits_of_awaited (by simp))
  · exact fun effect h => effect.awaits h

/-- A waker that was left at a join slot is there, or somebody woke or replaced it. -/
theorem Trail.joins (trail : Trail .empty [] τ w D) {τ₁ τ₂ : List (Happening G)}
    (hτ : τ = τ₁ ++ .joining j k :: τ₂) (hp : .polled k ∉ τ₂) (hk : (w.waker? k).isSome = true) :
    Joins w j k τ₂ ∨ Pinged w D k := by
  refine trail.since (A := fun ρ w => Joins w j k ρ) ?_ ?_ ?_ hτ hp hk
  · intro _ w w' hw h
    simpa [Joins, World.join?, hw.joins] using h
  · exact fun effect => .inl effect.joins_of_joining
  · exact fun effect h => effect.joins h

/-- A waker that was woken is marked until its target is polled. -/
theorem Trail.pinged_of_woken (trail : Trail .empty [] τ w D) {τ₁ τ₂ : List (Happening G)}
    (hτ : τ = τ₁ ++ .woken k :: τ₂) (hp : .polled k ∉ τ₂) (hk : (w.waker? k).isSome = true) :
    Pinged w D k := by
  have since := trail.since (A := fun _ _ => False) (fun _ => id) ?_ (fun _ => False.elim) hτ hp hk
  · exact since.resolve_left id
  · exact fun effect => .inr (effect.notified_of_woken (by simp))

/-- A task that was never polled is queued, or is about to be. -/
theorem Trail.pinged_of_unpolled (trail : Trail .empty [] τ w D) (hl : Live w D l k t)
    (hp : .polled k ∉ τ) : Pinged w D k := by
  induction trail with
  | here => exact absurd hl not_live_empty
  | same _ hw hD ih => exact (pinged_same hw hD).mpr (ih ((live_same hw hD).mp hl) hp)
  | step trail effect ih =>
    simp only [List.mem_append, not_or] at hp
    rcases effect.live hl with hl | ⟨_, _, hm | hm⟩
    · obtain ⟨b, hx⟩ := trail.wired.label k t hl
      exact effect.pinged (ih hl hp.1) (by simp [hx]) hp.2
    · exact .inr (List.mem_append_left _ hm)
    · exact absurd hm hp.2

end

/-- Somebody is being woken. -/
def Job.isWaking : Job G → Bool
  | wake _ | notify _ => true
  | _ => false

namespace Machine

variable {code : G.Code} {m : Machine G} {τ : List (Happening G)}

/-- Nobody is being woken, on any thread. -/
def Quiet (m : Machine G) : Prop :=
  ∀ job ∈ m.allJobs, job.isWaking = false

instance (m : Machine G) : Decidable m.Quiet :=
  inferInstanceAs (Decidable (∀ job ∈ m.allJobs, job.isWaking = false))

/-- Waker `k` stands for an unfinished task of loop `l`, or for the main future that runs on it. -/
def IsLive (m : Machine G) (l : LoopId) (k : WakerId) : Prop :=
  (∃ slot work, m.world.task? l slot = some ⟨k, work⟩) ∨ ∃ job ∈ m.allJobs, job.drives l k = true

theorem IsLive.live (hk : m.IsLive l k) : ∃ t, Live m.world m.duties l k t := by
  rcases hk with ⟨slot, work, hw⟩ | ⟨job, hm, hd⟩
  · exact ⟨.task slot, work, hw⟩
  · refine ⟨.main, job, List.mem_filter.mpr ⟨hm, ?_⟩, hd⟩
    cases job <;> first | rfl | cases hd

/-- Where nothing is queued and nobody is being woken, nobody is marked. -/
theorem Reached.not_pinged (hm : Reached code τ m) (lossless : Lossless l τ)
    (hopen : m.world.isClosed l = false) (hempty : m.unprocessed l = []) (quiet : m.Quiet)
    (hl : Live m.world m.duties l k t) : ¬Pinged m.world m.duties k := by
  have hquiet : ∀ job ∈ m.duties, job.isWaking = false :=
    fun job hj => quiet job (List.mem_filter.mp hj).1
  rintro (hn | hw)
  · have hphase := phase_fifo_ne_closed hopen
    rw [unprocessed] at hempty
    rw [fifo_eq] at hphase hempty
    rcases hm.trail.heeded lossless hphase k t hl hn with hq | hm
    · simp [hempty] at hq
    · cases hquiet _ hm
  · cases hquiet _ hw

/-- **No wake-up is lost.** Let nothing be left to do on an open loop: its queue and its batch are
empty, and nobody is being woken. Then whoever could be polled, an unfinished task or the main
future that runs, was polled before, and since its latest poll it was not woken, so it did not yield
in that poll; every cell at which its waker was put down since is pending; and no join slot at which
it was left last since was filled. -/
theorem idle_only_if_nobody_runnable (hm : Reached code τ m) (l : LoopId) (lossless : Lossless l τ)
    (hopen : m.world.isClosed l = false) (hempty : m.unprocessed l = []) (quiet : m.Quiet)
    {k : WakerId} (hk : m.IsLive l k) :
    (∀ τ₁ c τ₂, τ = τ₁ ++ .awaited c k :: τ₂ → .polled k ∉ τ₂ →
      ∃ waiters, m.world.cell? c = some (.pending waiters) ∧ k ∈ waiters) ∧
    (∀ τ₁ j τ₂, τ = τ₁ ++ .joining j k :: τ₂ → .polled k ∉ τ₂ →
      (∀ k', .joining j k' ∈ τ₂ → k' = k) → ∀ o, .filled j o ∉ τ₂) ∧
    (∀ τ₁ τ₂, τ = τ₁ ++ .woken k :: τ₂ → .polled k ∈ τ₂) ∧
    .polled k ∈ τ := by
  obtain ⟨t, hl⟩ := hk.live
  have hping := hm.not_pinged lossless hopen hempty quiet hl
  obtain ⟨b, hx⟩ := hm.trail.wired.label k t hl
  have hsome : (m.world.waker? k).isSome = true := by simp [hx]
  refine ⟨?_, ?_, ?_, ?_⟩
  · exact fun τ₁ c τ₂ hτ hp => (hm.trail.awaits hτ hp hsome).resolve_right hping
  · exact fun τ₁ j τ₂ hτ hp hj => ((hm.trail.joins hτ hp hsome).resolve_right hping hj).2
  · intro τ₁ τ₂ hτ
    by_contra hp
    exact hping (hm.trail.pinged_of_woken hτ hp hsome)
  · by_contra hp
    exact hping (hm.trail.pinged_of_unpolled hl hp)

open Script

/-- A task that waits for a source, and a main future that waits for the task. -/
def waitsForSource : List (String × Statement) :=
  onLoop
    [[line "source" "s" (.source "s" none),
      line "spawn" "t"
        (.spawn "t" (.mk "t" [line "await" "s" (.await .keep .null (.observe "s"))] none none)),
      line "await" "t" (.await .keep .null (.join "t"))]]

/-- Nobody settles the source, and the loop has nothing to do. -/
theorem idle_only_if_nobody_runnable_of_script :
    (play waitsForSource 45).2.world.isClosed ⟨0⟩ = false ∧
      (play waitsForSource 45).2.unprocessed ⟨0⟩ = [] ∧
      (play waitsForSource 45).2.IsLive ⟨0⟩ ⟨0⟩ ∧
      .polled ⟨0⟩ ∈ (play waitsForSource 45).1 := by
  have hm := reached_play waitsForSource 45
  have lossless : Lossless ⟨0⟩ (play waitsForSource 45).1 := by decide +kernel
  have hopen : (play waitsForSource 45).2.world.isClosed ⟨0⟩ = false := by decide +kernel
  have hempty : (play waitsForSource 45).2.unprocessed ⟨0⟩ = [] := by decide +kernel
  have quiet : (play waitsForSource 45).2.Quiet := by decide +kernel
  have hk : (play waitsForSource 45).2.IsLive ⟨0⟩ ⟨0⟩ := .inr (by decide +kernel)
  have h := idle_only_if_nobody_runnable hm ⟨0⟩ lossless hopen hempty quiet hk
  exact ⟨hopen, hempty, hk, h.2.2.2⟩

end Machine

end RunLoop
