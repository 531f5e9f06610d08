import Mathlib.Data.List.Nodup
import RunLoop.Proofs.Segments

/-!
# Tasks in line

Tasks that are queued, each of them once, stand in line. A segment sends its task to the back, or
out of the line with the last one; the join slots of those that left are filled, and the main future
takes their outcomes out.

* `Lined` says what the desk looks like between two segments.
* `Lined.segment`, `Lined.left`, `Lined.taken`, `Lined.asked`, `Lined.spawned`: it stays so.
-/

namespace RunLoop

variable {G : Guest}

/-- Between two segments: the tasks `ts` are queued, in this order, with the number of segments that
they are to run before the last one; of the join slots `js` that are still to be read one is waited
for, if `awaited` is one. -/
structure Lined (code : G.Code) (l : LoopId) (k : WakerId) (d : Desk G) (ts : List (Seat × Nat))
    (awaited : Option JoinId) (js : List JoinId) : Prop where
  posted : ∀ x ∈ ts, Posted code l d x.1 x.2 (if awaited = some x.1.join then some k else none)
  slots : (ts.map (·.1.slot)).Nodup
  joins : (ts.map (·.1.join)).Nodup
  /-- There are no other tasks. -/
  alone : ∀ slot t, d.task slot = some t → slot ∈ ts.map (·.1.slot)
  known : ts.map (·.1.join) ⊆ js
  /-- The outcomes of those that ended are there. -/
  filled : ∀ j ∈ js, j ∈ ts.map (·.1.join) ∨ ∃ o, d.join j = some ⟨some o, none⟩
  distinct : js.Nodup

namespace Lined

variable {code : G.Code} {l : LoopId} {k : WakerId} {d : Desk G} {ts ts' : List (Seat × Nat)}
  {awaited : Option JoinId} {js : List JoinId} {T : Seat} {n : Nat} {j : JoinId} {o : Joined}

/-- Nobody is in line. -/
theorem nobody (h : ∀ slot, d.task slot = none) : Lined code l k d [] none [] where
  posted := nofun
  slots := .nil
  joins := .nil
  alone slot t ht := by
    rw [h] at ht
    cases ht
  known := List.nil_subset _
  filled := nofun
  distinct := .nil

theorem perm (h : Lined code l k d ts awaited js) (hp : ts.Perm ts') :
    Lined code l k d ts' awaited js where
  posted x hx := h.posted x (hp.mem_iff.mpr hx)
  slots := (hp.map _).nodup_iff.mp h.slots
  joins := (hp.map _).nodup_iff.mp h.joins
  alone slot t ht := (hp.map _).mem_iff.mp (h.alone slot t ht)
  known _ hj := h.known ((hp.map _).mem_iff.mpr hj)
  filled j hj := (h.filled j hj).imp_left (hp.map _).mem_iff.mp
  distinct := h.distinct

theorem slot_ne (h : Lined code l k d ((T, n) :: ts) awaited js) {x : Seat × Nat} (hx : x ∈ ts) :
    x.1.slot ≠ T.slot := fun he =>
  (List.nodup_cons.mp h.slots).1 (List.mem_map.mpr ⟨x, hx, he⟩)

theorem join_ne (h : Lined code l k d ((T, n) :: ts) awaited js) {x : Seat × Nat} (hx : x ∈ ts) :
    x.1.join ≠ T.join := fun he =>
  (List.nodup_cons.mp h.joins).1 (List.mem_map.mpr ⟨x, hx, he⟩)

/-- Different slots have different wakers. -/
theorem waker_ne (h : Lined code l k d ((T, n) :: ts) awaited js) {x : Seat × Nat} (hx : x ∈ ts) :
    x.1.waker ≠ T.waker := by
  intro he
  have hw := (h.posted x (List.mem_cons_of_mem _ hx)).waker
  rw [he, (h.posted _ List.mem_cons_self).waker] at hw
  exact h.slot_ne hx (by simpa using hw.symm)

/-- A segment that is not the last leaves its task in line. -/
theorem segment (h : Lined code l k d ((T, n + 1) :: ts) awaited js) {c : G.Coroutine}
    (hc : Segments code l n c) :
    Lined code l k (d.setTask T.slot (some ⟨T.waker, some ⟨.joined T.join, true, .own c⟩⟩))
      ((T, n) :: ts) awaited js where
  posted := by
    have hp := h.posted _ List.mem_cons_self
    intro x hx
    rcases List.mem_cons.mp hx with rfl | hx
    · exact ⟨⟨true, c, Desk.task_setTask_self .., hc⟩, hp.waker, hp.join⟩
    · have hx' := h.posted x (List.mem_cons_of_mem _ hx)
      refine ⟨?_, hx'.waker, hx'.join⟩
      rw [Desk.task_setTask, if_neg (h.slot_ne hx)]
      exact hx'.task
  slots := h.slots
  joins := h.joins
  alone slot t ht := by
    rw [Desk.task_setTask] at ht
    split at ht
    · rename_i hs
      exact hs ▸ List.mem_cons_self
    · exact h.alone slot t ht
  known := h.known
  filled := h.filled
  distinct := h.distinct

/-- The last segment takes its task out of the line. If it was waited for, nobody is any more. -/
theorem left (h : Lined code l k d ((T, n) :: ts) awaited js) (o : Joined) :
    Lined code l k (d.left l T o) ts (if awaited = some T.join then none else awaited) js where
  posted x hx := by
    have hx' := h.posted x (List.mem_cons_of_mem _ hx)
    have hne := h.join_ne hx
    refine ⟨?_, (Desk.waker_left_of_ne (h.waker_ne hx)).trans hx'.waker, ?_⟩
    · rw [Desk.task_left, if_neg (h.slot_ne hx)]
      exact hx'.task
    · rw [Desk.join_left_of_ne hne, hx'.join]
      grind
  slots := (List.nodup_cons.mp h.slots).2
  joins := (List.nodup_cons.mp h.joins).2
  alone slot t ht := by
    rw [Desk.task_left] at ht
    split at ht
    · cases ht
    · rename_i hs
      exact (List.mem_cons.mp (h.alone slot t ht)).resolve_left hs
  known _ hj := h.known (List.mem_cons_of_mem _ hj)
  filled j hj := by
    by_cases hne : j = T.join
    · exact .inr ⟨o, hne ▸ Desk.join_left_self⟩
    · rw [Desk.join_left_of_ne hne]
      exact (h.filled j hj).imp_left fun hm => (List.mem_cons.mp hm).resolve_left hne
  distinct := h.distinct

/-- What is done about the waker of the main future is nothing to the tasks. -/
theorem setMain (h : Lined code l k d ts awaited js) {b : Bool}
    (hk : d.waker k = some ⟨l, .main, b⟩) (b' : Bool) :
    Lined code l k (d.setWaker k ⟨l, .main, b'⟩) ts awaited js where
  posted x hx := by
    have hx' := h.posted x hx
    refine ⟨hx'.task, ?_, hx'.join⟩
    rw [Desk.waker_setWaker, if_neg ?_]
    · exact hx'.waker
    · rintro rfl
      cases hk.symm.trans hx'.waker
  slots := h.slots
  joins := h.joins
  alone := h.alone
  known := h.known
  filled := h.filled
  distinct := h.distinct

/-- The main future takes an outcome. -/
theorem taken (h : Lined code l k d ts none (j :: js)) (hj : d.join j = some ⟨some o, none⟩) :
    Lined code l k (d.setJoin j ⟨none, none⟩) ts none js := by
  have hne : ∀ x ∈ ts, x.1.join ≠ j := by
    rintro x hx rfl
    cases hj.symm.trans (h.posted x hx).join
  refine ⟨fun x hx => ?_, h.slots, h.joins, h.alone, fun j' hj' => ?_, fun j' hj' => ?_,
    (List.nodup_cons.mp h.distinct).2⟩
  · have hx' := h.posted x hx
    refine ⟨hx'.task, hx'.waker, ?_⟩
    rw [Desk.join_setJoin, if_neg (hne x hx)]
    exact hx'.join
  · obtain ⟨x, hx, rfl⟩ := List.mem_map.mp hj'
    exact (List.mem_cons.mp (h.known hj')).resolve_left (hne x hx)
  · have hne' : j' ≠ j := fun he => (List.nodup_cons.mp h.distinct).1 (he ▸ hj')
    rw [Desk.join_setJoin, if_neg hne']
    exact h.filled j' (List.mem_cons_of_mem _ hj')

/-- The main future waits for a task. -/
theorem asked (h : Lined code l k d ts none (j :: js)) (hj : j ∈ ts.map (·.1.join)) :
    Lined code l k (d.setJoin j ⟨none, some k⟩) ts (some j) (j :: js) := by
  refine ⟨fun x hx => ?_, h.slots, h.joins, h.alone, h.known, fun j' hj' => ?_, h.distinct⟩
  · have hx' := h.posted x hx
    refine ⟨hx'.task, hx'.waker, ?_⟩
    rw [Desk.join_setJoin]
    split
    · rename_i he
      rw [he, if_pos rfl]
    · rename_i he
      rw [if_neg (fun h => he (Option.some.inj h).symm)]
      simpa using hx'.join
  · rw [Desk.join_setJoin]
    split
    · rename_i he
      exact .inl (he ▸ hj)
    · exact h.filled j' hj'

/-- A new task stands at the back. -/
theorem spawned (h : Lined code l k d ts none js) (hslot : d.task T.slot = none)
    (hk : d.waker T.waker = none) (hj : d.join T.join = none) {c : G.Coroutine}
    (hc : Segments code l n c) :
    Lined code l k (d.seated l T (.own c)) (ts ++ [(T, n)]) none (js ++ [T.join]) := by
  have hslots : ∀ x ∈ ts, x.1.slot ≠ T.slot := by
    intro x hx he
    obtain ⟨_, _, ht, -⟩ := (h.posted x hx).task
    cases (he ▸ ht).symm.trans hslot
  have hwakers : ∀ x ∈ ts, x.1.waker ≠ T.waker := by
    intro x hx he
    cases (he ▸ (h.posted x hx).waker).symm.trans hk
  have hfresh : T.join ∉ js := by
    intro hm
    rcases h.filled _ hm with hm | ⟨o, ho⟩
    · obtain ⟨x, hx, he⟩ := List.mem_map.mp hm
      cases (he ▸ (h.posted x hx).join).symm.trans hj
    · cases ho.symm.trans hj
  have hjoins : ∀ x ∈ ts, x.1.join ≠ T.join := fun x hx he =>
    hfresh (he ▸ h.known (List.mem_map.mpr ⟨x, hx, rfl⟩))
  refine Lined.perm ?_ (List.perm_append_singleton (T, n) ts).symm
  refine ⟨fun x hx => ?_, ?_, ?_, fun slot t ht => ?_, ?_, fun j hj' => ?_, ?_⟩
  · rcases List.mem_cons.mp hx with rfl | hx
    · exact ⟨⟨false, c, Desk.task_setTask_self .., hc⟩, Desk.waker_setWaker_self ..,
        Desk.join_setJoin_self ..⟩
    · have hx' := h.posted x hx
      refine ⟨?_, ?_, ?_⟩
      · rw [Desk.seated, Desk.task_setTask, if_neg (hslots x hx)]
        exact hx'.task
      · exact (Desk.waker_setWaker ..).trans ((if_neg (hwakers x hx)).trans hx'.waker)
      · exact (Desk.join_setJoin ..).trans ((if_neg (hjoins x hx)).trans hx'.join)
  · refine List.nodup_cons.mpr ⟨fun hm => ?_, h.slots⟩
    obtain ⟨x, hx, he⟩ := List.mem_map.mp hm
    exact hslots x hx he
  · refine List.nodup_cons.mpr ⟨fun hm => ?_, h.joins⟩
    obtain ⟨x, hx, he⟩ := List.mem_map.mp hm
    exact hjoins x hx he
  · rw [Desk.seated, Desk.task_setTask] at ht
    split at ht
    · rename_i hs
      exact hs ▸ List.mem_cons_self
    · exact List.mem_cons_of_mem _ (h.alone slot t ht)
  · intro j hm
    rcases List.mem_cons.mp hm with rfl | hm
    · simp
    · exact List.mem_append_left _ (h.known hm)
  · rcases List.mem_append.mp hj' with hm | hm
    · refine (h.filled j hm).imp (List.mem_cons_of_mem _) ?_
      rintro ⟨o, ho⟩
      refine ⟨o, (Desk.join_setJoin ..).trans ((if_neg ?_).trans ho)⟩
      rintro rfl
      exact hfresh hm
    · obtain rfl := List.mem_singleton.mp hm
      exact .inl List.mem_cons_self
  · refine List.nodup_append.mpr ⟨h.distinct, List.nodup_singleton _, ?_⟩
    intro j hm j' hm'
    obtain rfl := List.mem_singleton.mp hm'
    rintro rfl
    exact hfresh hm

end Lined

end RunLoop
