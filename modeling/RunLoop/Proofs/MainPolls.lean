import RunLoop.Proofs.Marks

/-!
# Who asks for the polls of a main future

The entry of a main future does not say which main future it is for. A waker that was kept from a
main future which is at its end still puts one into the queue, and the main future that runs then is
polled without having been woken. This is kept within bounds: a waker that outlives its main future
is marked once and for all by the first wake-up, so that it asks for one poll at most.

* `Outstanding` says that a waker was woken and its target not polled since.
* `idlePolls` counts the polls of main futures that nobody asked for.
* `Trail.owed`: they, and the entries that are left for main futures, are no more than the marked
  wakers of main futures.
* `Machine.main_polled_only_if_asked`: who asks for a poll of a main future.
-/

namespace RunLoop

variable {G : Guest} {l : LoopId} {k : WakerId}

/-! ## Outstanding wake-ups -/

namespace Happening

/-- The waker that was woken. -/
def woken? : Happening G → Option WakerId
  | woken k => some k
  | _ => none

/-- The waker whose target was polled. -/
def polled? : Happening G → Option WakerId
  | polled k => some k
  | _ => none

/-- The waker of the main future that began to run on loop `l`. -/
def entered? (l : LoopId) : Happening G → Option WakerId
  | entered l' k => if l' = l then some k else none
  | _ => none

theorem woken?_eq_some_iff {h : Happening G} : h.woken? = some k ↔ h = .woken k := by
  cases h <;> simp [woken?]

theorem polled?_eq_some_iff {h : Happening G} : h.polled? = some k ↔ h = .polled k := by
  cases h <;> simp [polled?]

theorem entered?_eq_some_iff {h : Happening G} : h.entered? l = some k ↔ h = .entered l k := by
  cases h <;> simp [entered?]

end Happening

instance (k : WakerId) (τ : List (Happening G)) : Decidable (.polled k ∈ τ) :=
  decidable_of_iff (∃ h ∈ τ, h.polled? = some k) <| by
    simp [Happening.polled?_eq_some_iff]

instance (l : LoopId) (k : WakerId) (τ : List (Happening G)) : Decidable (.entered l k ∈ τ) :=
  decidable_of_iff (∃ h ∈ τ, h.entered? l = some k) <| by
    simp [Happening.entered?_eq_some_iff]

/-- Waker `k` was woken, and its target has not been polled since. -/
def Outstanding (k : WakerId) (τ : List (Happening G)) : Prop :=
  ∃ τ₁ τ₂, τ = τ₁ ++ .woken k :: τ₂ ∧ .polled k ∉ τ₂

theorem not_outstanding_nil : ¬Outstanding k ([] : List (Happening G)) := by
  simp [Outstanding]

theorem outstanding_append {τ η : List (Happening G)} :
    Outstanding k (τ ++ η) ↔ Outstanding k η ∨ Outstanding k τ ∧ .polled k ∉ η := by
  constructor
  · rintro ⟨τ₁, τ₂, hτ, hp⟩
    rcases append_eq_append_cons hτ with ⟨ρ, rfl, rfl⟩ | ⟨σ, rfl, rfl⟩
    · simp only [List.mem_append, not_or] at hp
      exact .inr ⟨⟨τ₁, ρ, rfl, hp.1⟩, hp.2⟩
    · exact .inl ⟨σ, τ₂, rfl, hp⟩
  · rintro (⟨τ₁, τ₂, rfl, hp⟩ | ⟨⟨τ₁, τ₂, rfl, hp⟩, hη⟩)
    · exact ⟨τ ++ τ₁, τ₂, by simp, hp⟩
    · exact ⟨τ₁, τ₂ ++ η, by simp, by simp [hp, hη]⟩

theorem outstanding_singleton {h : Happening G} : Outstanding k [h] ↔ h = .woken k := by
  constructor
  · rintro ⟨τ₁, τ₂, hτ, _⟩
    cases τ₁ with
    | nil => exact (List.cons.inj hτ).1
    | cons _ _ => simp at hτ
  · rintro rfl
    exact ⟨[], [], rfl, by simp⟩

theorem outstanding_cons {h : Happening G} {τ : List (Happening G)} :
    Outstanding k (h :: τ) ↔ Outstanding k τ ∨ h = .woken k ∧ .polled k ∉ τ := by
  rw [← List.singleton_append, outstanding_append, outstanding_singleton]

instance decidableOutstanding (k : WakerId) : (τ : List (Happening G)) → Decidable (Outstanding k τ)
  | [] => isFalse not_outstanding_nil
  | h :: τ =>
      have := decidableOutstanding k τ
      decidable_of_iff (Outstanding k τ ∨ h.woken? = some k ∧ .polled k ∉ τ) <| by
        rw [Happening.woken?_eq_some_iff, outstanding_cons]

/-! ## Polls that nobody asked for -/

/-- After `τ`, a main future of loop `l` that was polled before is polled without having been
woken. -/
def IdlePoll (l : LoopId) (τ : List (Happening G)) (h : Happening G) : Prop :=
  ∃ k ∈ h.polled?, .entered l k ∈ τ ∧ .polled k ∈ τ ∧ ¬Outstanding k τ

instance (l : LoopId) (τ : List (Happening G)) (h : Happening G) : Decidable (IdlePoll l τ h) :=
  inferInstanceAs (Decidable (∃ k ∈ h.polled?, _))

/-- How many polls of main futures of loop `l` nobody asked for, in what happens after `τ`. -/
def idlePolls (l : LoopId) : (τ η : List (Happening G)) → Nat
  | _, [] => 0
  | τ, h :: η => (if IdlePoll l τ h then 1 else 0) + idlePolls l (τ ++ [h]) η

theorem idlePolls_append (τ η ρ : List (Happening G)) :
    idlePolls l τ (η ++ ρ) = idlePolls l τ η + idlePolls l (τ ++ η) ρ := by
  induction η generalizing τ with
  | nil => simp [idlePolls]
  | cons h η ih =>
    rw [List.cons_append, idlePolls, idlePolls, ih, List.append_assoc, List.singleton_append,
      Nat.add_assoc]

theorem idlePolls_eq_zero {τ η : List (Happening G)} (h : ∀ k, .polled k ∉ η) :
    idlePolls l τ η = 0 := by
  induction η generalizing τ with
  | nil => rfl
  | cons i η ih =>
    have hi : ¬IdlePoll l τ i := by
      rintro ⟨k, hk, _⟩
      exact h k (by simp [Happening.polled?_eq_some_iff.mp hk])
    rw [idlePolls, if_neg hi, ih fun k hk => h k (List.mem_cons_of_mem _ hk)]

/-- Where such a poll is counted, there is one. -/
theorem exists_idlePoll {τ η : List (Happening G)} (h : 0 < idlePolls l τ η) :
    ∃ ρ k σ, η = ρ ++ .polled k :: σ ∧ .entered l k ∈ τ ++ ρ ∧ .polled k ∈ τ ++ ρ ∧
      ¬Outstanding k (τ ++ ρ) := by
  induction η generalizing τ with
  | nil => simp [idlePolls] at h
  | cons i η ih =>
    by_cases hi : IdlePoll l τ i
    · obtain ⟨k, hk, hidle⟩ := hi
      obtain rfl := Happening.polled?_eq_some_iff.mp hk
      exact ⟨[], k, η, rfl, by simpa using hidle⟩
    · rw [idlePolls, if_neg hi, Nat.zero_add] at h
      obtain ⟨ρ, k, σ, rfl, hidle⟩ := ih h
      exact ⟨i :: ρ, k, σ, rfl, by simpa using hidle⟩

/-! ## Marked wakers of main futures -/

/-- A waker of a main future of loop `l`. -/
def Waker.isMain (l : LoopId) (x : Waker) : Bool :=
  x.loop = l && x.target = .main

/-- How many marked wakers of main futures loop `l` has. -/
def World.mainMarks (w : World G) (l : LoopId) : Nat :=
  w.wakers.toList.countP (fun x => x.isMain l && x.notified)

theorem World.mainMarks_eq (w : World G) (l : LoopId) : w.mainMarks l = w.marks l .main :=
  rfl

section

variable {w w' : World G} {D others before after : List (Job G)} {τ η : List (Happening G)}

/-! ## What wakers tell of the past -/

theorem Effect.waker?_of_entered (effect : Effect w others before η w' after)
    (h : .entered l k ∈ η) : w'.waker? k = some ⟨l, .main, false⟩ := by
  cases effect with
  | enter =>
    obtain ⟨rfl, rfl⟩ : l = _ ∧ k = _ := by simpa using h
    rw [World.waker?_newWaker, if_pos rfl]
  | _ => simp at h

/-- The wakers of main futures are those with which they began to run. -/
theorem Trail.entered_iff (trail : Trail .empty [] τ w D) :
    .entered l k ∈ τ ↔ ∃ b, w.waker? k = some ⟨l, .main, b⟩ := by
  induction trail with
  | here => simp [World.waker?, World.empty]
  | same _ hw _ ih =>
    rw [waker?_same hw]
    exact ih
  | @step τ η w w' _ _ _ _ effect ih =>
    rw [List.mem_append, ih]
    constructor
    · rintro (⟨b, hx⟩ | hη)
      · exact effect.waker? hx
      · exact ⟨_, effect.waker?_of_entered hη⟩
    · rintro ⟨b, hx'⟩
      cases hx : w.waker? k with
      | none =>
        rcases effect.waker?_new hx hx' with ⟨_, hentered, _⟩ | ⟨hmain, _⟩
        · exact .inr hentered
        · exact absurd rfl hmain
      | some x =>
        obtain ⟨l', t, b'⟩ := x
        obtain ⟨c, hc⟩ := effect.waker? hx
        cases hx'.symm.trans hc
        exact .inl ⟨b', rfl⟩

theorem Effect.notified_iff (effect : Effect w others before η w' after) :
    w'.notified k = true ↔ .woken k ∈ η ∨ w.notified k = true ∧ .polled k ∉ η := by
  constructor
  · intro h
    have hp : .polled k ∉ η := fun hp => by simp [effect.notified_of_polled hp] at h
    rcases effect.notified h with hn | hn
    · exact .inr ⟨hn, hp⟩
    · cases effect with
      | mark => exact .inl (by simpa using hn)
      | _ => simp at hn
  · rintro (h | ⟨h, hp⟩)
    · exact effect.notified_of_woken h
    · exact effect.notified_of_notified h hp

theorem Effect.outstanding_iff (effect : Effect w others before η w' after) :
    Outstanding k η ↔ .woken k ∈ η := by
  constructor
  · rintro ⟨η₁, η₂, rfl, _⟩
    simp
  · intro h
    cases effect with
    | mark | marked => exact outstanding_singleton.mpr (List.mem_singleton.mp h).symm
    | _ => simp at h

/-- A waker is marked exactly if a wake-up of it is outstanding. -/
theorem Trail.outstanding_iff (trail : Trail .empty [] τ w D) :
    Outstanding k τ ↔ w.notified k = true := by
  induction trail with
  | here => simp [not_outstanding_nil, World.notified, World.waker?, World.empty]
  | same _ hw _ ih =>
    rw [notified_same hw]
    exact ih
  | step _ effect ih => rw [outstanding_append, effect.outstanding_iff, effect.notified_iff, ih]

/-- Whoever is polled, and was not made just now, is live. -/
theorem Effect.live_of_polled (effect : Effect w others before η w' after) (h : .polled k ∈ η) :
    (∃ l t, η = [.processed l t.entry, .polled k] ∧ Live w (before ++ others) l k t) ∨
      ∃ l, η = [.entered l k, .polled k] ∧ w.waker? k = none := by
  cases effect with
  | @processMain l k' f rest ha =>
    obtain rfl : k = k' := by simpa using h
    exact .inl ⟨l, .main, rfl, _, List.mem_cons_self, by simp [Job.drives]⟩
  | @processTask l _ _ slot _ k' _ ha ht =>
    obtain rfl : k = k' := by simpa using h
    exact .inl ⟨l, .task slot, rfl, _, ht⟩
  | enter =>
    obtain rfl : k = ⟨w.wakers.size⟩ := by simpa using h
    exact .inr ⟨_, rfl, World.waker?_size w⟩
  | _ => simp at h

/-- Whoever is polled has a waker. -/
theorem Trail.isSome_of_polled (trail : Trail .empty [] τ w D) (h : .polled k ∈ τ) :
    (w.waker? k).isSome = true := by
  induction trail with
  | here => simp at h
  | same _ hw _ ih =>
    rw [waker?_same hw]
    exact ih h
  | step trail effect ih =>
    rcases List.mem_append.mp h with h | h
    · exact effect.isSome_waker? (ih h)
    · rcases effect.live_of_polled h with ⟨l, t, _, hl⟩ | ⟨l, rfl, _⟩
      · obtain ⟨b, hx⟩ := trail.wired.label k t hl
        exact effect.isSome_waker? (by simp [hx])
      · rw [effect.waker?_of_entered List.mem_cons_self]
        rfl

/-! ## The account -/

theorem outstanding_processed {e : Entry G} {l' : LoopId} :
    Outstanding k (τ ++ [.processed l' e]) ↔ Outstanding k τ := by
  simp [outstanding_append, outstanding_singleton]

theorem idlePolls_processed {e : Entry G} {l' : LoopId} :
    idlePolls l τ [.processed l' e, .polled k] =
      if .entered l k ∈ τ ∧ .polled k ∈ τ ∧ ¬Outstanding k τ then 1 else 0 := by
  simp [idlePolls, IdlePoll, Happening.polled?, outstanding_processed]

/-- A main future that is polled although nobody asked for it is not marked. -/
theorem Trail.idlePolls_le (trail : Trail .empty [] τ w D) {l' : LoopId} {e : Entry G} :
    idlePolls l τ [.processed l' e, .polled k] ≤
      [Happening.processed l' e, .polled k].countP (Happening.isUnasked w l .main) := by
  rw [idlePolls_processed]
  split
  · rename_i hidle
    obtain ⟨he, _, hout⟩ := hidle
    obtain ⟨b, hx⟩ := trail.entered_iff.mp he
    obtain rfl : b = false := by
      simpa [World.notified, hx] using mt trail.outstanding_iff.mpr hout
    simp [Happening.isUnasked, hx, Waker.isOf]
  · exact Nat.zero_le _

theorem Effect.idlePolls_le (effect : Effect w others before η w' after)
    (trail : Trail .empty [] τ w D) :
    idlePolls l τ η ≤ η.countP (Happening.isUnasked w l .main) := by
  have none : idlePolls l τ η = 0 →
      idlePolls l τ η ≤ η.countP (Happening.isUnasked w l .main) := fun h => by simp [h]
  cases effect with
  | enter =>
    refine none ?_
    have hpolled : .polled ⟨w.wakers.size⟩ ∉ τ := fun hp => by
      simpa [World.waker?_size] using trail.isSome_of_polled hp
    simp [idlePolls, IdlePoll, Happening.polled?, hpolled]
  | processMain | processTask => exact trail.idlePolls_le
  | _ => exact none (idlePolls_eq_zero (by simp))

/-- The polls that nobody asked for, and what is about to lead to polls of main futures, are no more
than the marks of main futures. -/
theorem Trail.owed (trail : Trail .empty [] τ w D) :
    idlePolls l [] τ + onTheWay w D l .main ≤ w.mainMarks l := by
  rw [World.mainMarks_eq]
  induction trail with
  | here => exact Trail.here.onTheWay_le
  | same trail hw hD ih =>
    rw [onTheWay_same (trail.tidy tidy_empty) hw hD, marks_same hw]
    exact ih
  | step trail effect ih =>
    have hidle := effect.idlePolls_le trail (l := l)
    have hstep := effect.onTheWay_le trail (l := l) (t := .main)
    rw [idlePolls_append, List.nil_append]
    omega

/-! ## Who asks -/

/-- A main future that begins to run is new, and no other runs on its loop. -/
theorem Effect.entered_eq (effect : Effect w others before η w' after) (h : .entered l k ∈ η) :
    η = [.entered l k, .polled k] ∧ w.waker? k = none ∧ Free l (before ++ others) := by
  cases effect with
  | @enter l' hf =>
    obtain ⟨rfl, rfl⟩ : l = l' ∧ k = ⟨w.wakers.size⟩ := by simpa using h
    exact ⟨rfl, World.waker?_size w, hf⟩
  | _ => simp at h

/-- The two places of a pair. -/
theorem pair_eq_append {α : Type} {a b c : α} {as bs : List α} (h : [a, b] = as ++ c :: bs) :
    as = [] ∧ c = a ∧ bs = [b] ∨ as = [a] ∧ c = b ∧ bs = [] := by
  cases as with
  | nil => exact .inl (by simpa [eq_comm] using h)
  | cons i as =>
    cases as with
    | nil => exact .inr (by simpa [eq_comm] using h)
    | cons j as => simp at h

/-- A main future is polled when it begins to run, for the first time. -/
theorem Trail.polled_of_entered (trail : Trail .empty [] τ w D) {τ₁ τ₂ : List (Happening G)}
    (hτ : τ = τ₁ ++ .entered l k :: τ₂) : .polled k ∉ τ₁ ∧ ∃ τ₃, τ₂ = .polled k :: τ₃ := by
  induction trail generalizing τ₂ with
  | here => simp at hτ
  | same _ _ _ ih => exact ih hτ
  | step trail effect ih =>
    rcases append_eq_append_cons hτ with ⟨ρ, hτ', rfl⟩ | ⟨σ, hη, rfl⟩
    · obtain ⟨hp, τ₃, rfl⟩ := ih hτ'
      exact ⟨hp, _, rfl⟩
    · obtain ⟨he, hnew, _⟩ := effect.entered_eq (l := l) (k := k) (by simp [hη])
      obtain ⟨rfl, _, rfl⟩ := (pair_eq_append (he.symm.trans hη)).resolve_right (by simp)
      refine ⟨fun hp => ?_, [], rfl⟩
      have hsome := trail.isSome_of_polled (k := k) (by simpa using hp)
      simp [hnew] at hsome

/-- As long as a main future runs, no other begins to run on its loop. -/
theorem Trail.not_entered_since (trail : Trail .empty [] τ w D) {τ₁ τ₂ : List (Happening G)}
    (hτ : τ = τ₁ ++ .entered l k :: τ₂) (hl : Live w D l k .main) (k' : WakerId) :
    .entered l k' ∉ τ₂ := by
  induction trail generalizing τ₂ with
  | here => simp at hτ
  | same _ hw hD ih => exact ih hτ ((live_same hw hD).mp hl)
  | step trail effect ih =>
    rcases append_eq_append_cons hτ with ⟨ρ, hτ', rfl⟩ | ⟨σ, hη, rfl⟩
    · obtain ⟨b, hx⟩ := (trail.entered_iff (l := l) (k := k)).mp (by simp [hτ'])
      have hl' := effect.live_before (by simp [hx]) hl
      rw [List.mem_append, not_or]
      refine ⟨ih hτ' hl', fun he => ?_⟩
      obtain ⟨job, hm, hd⟩ := hl'
      have hfree := ((effect.entered_eq he).2.2 job hm).2.1
      simp [Job.isDrive_of_drives hd] at hfree
    · obtain ⟨he, _⟩ := effect.entered_eq (l := l) (k := k) (by simp [hη])
      obtain ⟨rfl, _, rfl⟩ := (pair_eq_append (he.symm.trans hη)).resolve_right (by simp)
      simp

/-- Where a main future is polled without having been woken, an earlier one of the loop was. -/
theorem Effect.asked (effect : Effect w others before η w' after)
    (trail : Trail .empty [] τ w (before ++ others)) (hp : .polled k ∈ η)
    {τ₁ τ₂ : List (Happening G)} (hτ : τ = τ₁ ++ .entered l k :: τ₂) :
    η = [.processed l .main, .polled k] ∧
      (Outstanding k τ ∨ ∃ k', .entered l k' ∈ τ₁ ∧ Outstanding k' τ) := by
  obtain ⟨b, hx⟩ := trail.entered_iff.mp (show .entered l k ∈ τ by simp [hτ])
  rcases effect.live_of_polled hp with ⟨l', t, rfl, hl⟩ | ⟨_, _, hnew⟩
  · obtain ⟨b', hx'⟩ := trail.wired.label k t hl
    obtain ⟨rfl, rfl⟩ : l = l' ∧ t = .main := by
      cases hx.symm.trans hx'
      exact ⟨rfl, rfl⟩
    refine ⟨rfl, ?_⟩
    -- The entry that is processed is accounted for by a mark.
    have hmarks : 0 < w.marks l .main := by
      have hcount := effect.countP_queue_le (trail.tidy (l := l) tidy_empty) (Entry.isFor .main)
      have hway := trail.onTheWay_le (l := l) (t := .main)
      simp only [acceptedBy_cons, processedBy_cons, Happening.accepted?, Happening.processed?,
        Entry.isFor_entry, if_true, Option.toList_some, Option.toList_none, acceptedBy_nil,
        processedBy_nil, List.append_nil, List.countP_singleton, decide_true,
        List.countP_nil] at hcount
      rw [onTheWay] at hway
      omega
    obtain ⟨k', hk'⟩ := World.exists_marked hmarks
    have hout : Outstanding k' τ := trail.outstanding_iff.mpr (by simp [World.notified, hk'])
    have hentered : .entered l k' ∈ τ := trail.entered_iff.mpr ⟨_, hk'⟩
    have hsince := trail.not_entered_since hτ hl k'
    rw [hτ, List.mem_append, List.mem_cons] at hentered
    rcases hentered with he | he | he
    · exact .inr ⟨k', he, hout⟩
    · cases he
      exact .inl hout
    · exact absurd he hsince
  · simp [hnew] at hx

/-- Later on it is polled where its loop processes an entry for it. -/
theorem Trail.asked (trail : Trail .empty [] τ w D) {τ₁ ρ σ : List (Happening G)}
    (hτ : τ = τ₁ ++ .entered l k :: .polled k :: ρ ++ .polled k :: σ) :
    (∃ ρ', ρ = ρ' ++ [.processed l .main]) ∧
      (Outstanding k ρ ∨ ∃ k', .entered l k' ∈ τ₁ ∧
        Outstanding k' (τ₁ ++ .entered l k :: .polled k :: ρ)) := by
  induction trail generalizing σ with
  | here => simp at hτ
  | same _ _ _ ih => exact ih hτ
  | @step τ η _ _ _ _ _ trail effect ih =>
    rcases append_eq_append_cons hτ with ⟨σ', hτ', rfl⟩ | ⟨π, hη, hτ'⟩
    · exact ih hτ'
    · have hp : .polled k ∈ η := by simp [hη]
      rcases effect.live_of_polled hp with ⟨l', t, rfl, _⟩ | ⟨l', rfl, hnew⟩
      · obtain ⟨rfl, _, rfl⟩ := (pair_eq_append hη).resolve_left (by simp)
        rcases List.eq_nil_or_concat ρ with rfl | ⟨ρ', h, rfl⟩
        · have hlast := congrArg List.getLast? hτ'
          simp at hlast
        · rw [List.concat_eq_append] at hτ' ⊢
          have hsplit : (τ₁ ++ .entered l k :: .polled k :: ρ') ++ [h] =
              τ ++ [.processed l' t.entry] := by
            simpa using hτ'
          obtain ⟨rfl, hlast⟩ := List.append_inj' hsplit rfl
          obtain ⟨heq, hasked⟩ := effect.asked trail hp rfl
          obtain rfl : h = .processed l .main :=
            (List.cons.inj hlast).1.trans (List.cons.inj heq).1
          refine ⟨⟨ρ', rfl⟩, hasked.imp ?_ ?_⟩
          · intro hout
            rw [outstanding_processed]
            simpa [outstanding_append, outstanding_cons] using hout
          · rintro ⟨k', he, hout⟩
            refine ⟨k', he, ?_⟩
            simpa using outstanding_processed.mpr hout
      · obtain ⟨rfl, _, rfl⟩ := (pair_eq_append hη).resolve_left (by simp)
        have hmem : .polled k ∈ τ ++ [.entered l' k] := by simp [← hτ']
        have hsome := trail.isSome_of_polled (k := k) (by simpa using hmem)
        simp [hnew] at hsome

end

namespace Machine

variable {code : G.Code} {m : Machine G} {τ : List (Happening G)}

/-- **A main future is polled only if somebody asked for it.** Let a main future begin to run on
loop `l`, with waker `k`. It is polled at once, for the first time. Every later poll of it comes
with an entry that the loop processes, and either its own waker was woken since its previous poll,
or the waker of a main future that ran on the loop before was woken and is marked ever since. So it
is its own wake-ups that it is polled for as long as no such waker is left; and over all main
futures of the loop, the polls for which they were not woken are no more than the marked wakers. -/
theorem main_polled_only_if_asked (hm : Reached code τ m) {τ₁ τ₂ : List (Happening G)}
    (hτ : τ = τ₁ ++ .entered l k :: τ₂) :
    (.polled k ∉ τ₁ ∧ ∃ τ₃, τ₂ = .polled k :: τ₃) ∧
    (∀ ρ σ, τ₂ = .polled k :: ρ ++ .polled k :: σ →
      (∃ ρ', ρ = ρ' ++ [.processed l .main]) ∧
        (Outstanding k ρ ∨ ∃ k', .entered l k' ∈ τ₁ ∧
          Outstanding k' (τ₁ ++ .entered l k :: .polled k :: ρ))) ∧
    idlePolls l [] τ ≤ m.world.mainMarks l := by
  refine ⟨hm.trail.polled_of_entered hτ, ?_, ?_⟩
  · rintro ρ σ rfl
    exact hm.trail.asked (by simpa using hτ)
  · exact Nat.le_of_add_right_le hm.trail.owed

open Script

/-- The waker of a main future is kept, and woken when the main future is at its end. The next main
future waits for something that nobody brings about. -/
def wakerOutlivesMain : List (String × Statement) :=
  [("loop", line "loop" "L" (.loop "L" none none none false)),
    ("block_on", line "block_on" "L" (.blockOn "L"
      (.program (.mk "first" [line "save_waker" "w" (.saveWaker "w")] none none)))),
    ("wake_ref", line "wake_ref" "w" (.wake "w" false)),
    ("block_on", line "block_on" "L" (.blockOn "L"
      (.program (.mk "second" [line "await" "" (.await .keep .null (.polls 1 (.str "p")))]
        none none))))]

/-- The second main future is polled once for the waker of the first. -/
theorem main_polled_only_if_asked_of_script : ∃ τ₁ τ₂,
    (play wakerOutlivesMain 44).1 = τ₁ ++ .entered ⟨0⟩ ⟨1⟩ :: τ₂ ∧
      idlePolls ⟨0⟩ [] (play wakerOutlivesMain 44).1 = 1 ∧
      1 ≤ (play wakerOutlivesMain 44).2.world.mainMarks ⟨0⟩ := by
  have hentered : .entered ⟨0⟩ ⟨1⟩ ∈ (play wakerOutlivesMain 44).1 := by decide +kernel
  have hidle : idlePolls ⟨0⟩ [] (play wakerOutlivesMain 44).1 = 1 := by decide +kernel
  obtain ⟨τ₁, τ₂, hτ⟩ := List.append_of_mem hentered
  have h := main_polled_only_if_asked (reached_play wakerOutlivesMain 44) hτ
  exact ⟨τ₁, τ₂, hτ, hidle, hidle ▸ h.2.2⟩

/-- A main future is polled again, though it has not been woken since it was polled. -/
theorem main_polled_without_wake : ∃ (τ : List (Happening guest)) (m : Machine guest) (l : LoopId)
    (k : WakerId) (ρ σ : List (Happening guest)), Reached Script.code τ m ∧
      τ = ρ ++ .polled k :: σ ∧ .entered l k ∈ ρ ∧ .polled k ∈ ρ ∧ ¬Outstanding k ρ := by
  have hidle : 0 < idlePolls ⟨0⟩ [] (play wakerOutlivesMain 44).1 := by decide +kernel
  obtain ⟨ρ, k, σ, hτ, h⟩ := exists_idlePoll hidle
  exact ⟨_, _, ⟨0⟩, k, ρ, σ, reached_play wakerOutlivesMain 44, hτ, by simpa using h⟩

end Machine

end RunLoop
