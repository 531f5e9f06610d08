import Mathlib.Data.List.Perm.Basic
import Mathlib.Data.List.Nodup
import Mathlib.Data.List.Perm.Lattice
import RunLoop.Proofs.View

/-!
# The slots of a slab

A slab is valid if exactly the cells that are marked as used hold a value and its free indices are
those of the other cells. Then a value that is inserted gets a slot of its own and no stored value
is touched, so that what is stored is what was inserted and not removed since.

* `Slab.entries` lists what is stored, with the indices.
* `Slab.Valid` is kept by every operation.
* `Slab.Valid.entries_insert`, `Slab.entries_remove`, `Slab.entries_modify` and `Slab.drain_snd` say
  what the operations do to the entries.
-/

namespace RunLoop.Slab

variable {α : Type} {s : Slab α}

/-- What is stored, with the indices, in ascending order. -/
def entries (s : Slab α) : List (Nat × α) :=
  (List.range s.items.size).filterMap (fun i => (s.get? i).map (i, ·))

/-- The parts of a slab fit together. There is a mark for every cell; exactly the cells that are
marked as used hold a value; the free indices are those of the other cells, each of them once; and
the size is the number of used cells. -/
structure Valid (s : Slab α) : Prop where
  marks : s.used.size = s.items.size
  filled : ∀ i, s.contains i = true ↔ ∃ v, s.items[i]? = some (some v)
  nodup : s.free.Nodup
  vacant : ∀ i, i ∈ s.free ↔ i < s.items.size ∧ s.contains i = false
  size : s.size = s.used.count true

/-! ## Entries -/

theorem lt_size_of_get? {i : Nat} {v : α} (h : s.get? i = some v) : i < s.items.size := by
  by_contra hlt
  have hnone : s.items[i]? = none := Array.getElem?_eq_none (by omega)
  simp [get?, cell?, hnone] at h

theorem mem_entries {i : Nat} {v : α} : (i, v) ∈ s.entries ↔ s.get? i = some v := by
  unfold entries
  rw [List.mem_filterMap]
  constructor
  · rintro ⟨j, _, hj⟩
    obtain ⟨v', hv, he⟩ := Option.map_eq_some_iff.mp hj
    cases he
    exact hv
  · intro h
    exact ⟨i, List.mem_range.mpr (lt_size_of_get? h), by simp [h]⟩

/-- No index has two entries. -/
theorem nodup_map_fst_entries (s : Slab α) : (s.entries.map Prod.fst).Nodup := by
  have hsub : (s.entries.map Prod.fst).Sublist (List.range s.items.size) := by
    unfold entries
    rw [List.map_filterMap]
    generalize List.range s.items.size = is
    induction is with
    | nil => simp
    | cons i is ih =>
      cases hi : s.get? i with
      | none => simpa [hi] using ih.cons i
      | some v => simpa [hi] using ih.cons_cons i
  exact hsub.nodup List.nodup_range

/-- The entries stand in the order of their indices. -/
theorem pairwise_entries (s : Slab α) : s.entries.Pairwise (fun e e' => e.1 < e'.1) := by
  unfold entries
  refine List.pairwise_lt_range.filterMap _ fun i i' hi e he e' he' => ?_
  obtain ⟨_, _, rfl⟩ := Option.map_eq_some_iff.mp he
  obtain ⟨_, _, rfl⟩ := Option.map_eq_some_iff.mp he'
  exact hi

theorem nodup_entries (s : Slab α) : s.entries.Nodup :=
  (nodup_map_fst_entries s).of_map _

/-- Slabs that store the same values under the same indices have the same entries, up to order. -/
theorem entries_perm {es : List (Nat × α)} (hes : (es.map Prod.fst).Nodup)
    (h : ∀ i v, s.get? i = some v ↔ (i, v) ∈ es) : s.entries.Perm es := by
  rw [List.perm_ext_iff_of_nodup (nodup_entries s) (hes.of_map _)]
  rintro ⟨i, v⟩
  rw [mem_entries, h]

theorem entries_congr {t : Slab α} (hsize : s.items.size = t.items.size)
    (h : ∀ i, s.get? i = t.get? i) : s.entries = t.entries := by
  unfold entries
  rw [hsize, funext h]

/-- A slab that stores one value more has its entry more. -/
theorem entries_perm_cons {t : Slab α} {i : Nat} {v : α} (hi : t.get? i = none)
    (hv : s.get? i = some v) (hrest : ∀ j, i ≠ j → s.get? j = t.get? j) :
    s.entries.Perm ((i, v) :: t.entries) := by
  apply entries_perm
  · refine List.nodup_cons.mpr ⟨?_, nodup_map_fst_entries t⟩
    intro hm
    obtain ⟨⟨j, v'⟩, he, rfl⟩ := List.mem_map.mp hm
    rw [mem_entries.mp he] at hi
    cases hi
  · intro j v'
    rw [List.mem_cons, mem_entries]
    by_cases hj : i = j
    · subst hj
      simp [hv, hi, eq_comm]
    · have hne : (j, v') ≠ (i, v) := fun he => hj (congrArg Prod.fst he).symm
      simp [hrest j hj, hne]

theorem size_modify (s : Slab α) (i : Nat) (f : α → α) :
    (s.modify i f).items.size = s.items.size := by
  unfold modify
  split <;> simp

theorem entries_modify (s : Slab α) (i : Nat) (f : α → α) :
    (s.modify i f).entries = s.entries.map (fun e => (e.1, if i = e.1 then f e.2 else e.2)) := by
  unfold entries
  rw [size_modify, List.map_filterMap]
  congr 1
  funext j
  rw [get?_modify]
  split <;> cases s.get? j <;> simp [*]

/-! ## Valid slabs -/

/-- A cell that is read has a value in it. -/
theorem Valid.isSome_get? (h : s.Valid) (i : Nat) : (s.get? i).isSome = s.contains i := by
  cases hi : s.contains i with
  | false => simp [get?, hi]
  | true =>
    obtain ⟨v, hv⟩ := (h.filled i).mp hi
    simp [get?, cell?, hi, hv]

theorem Valid.get?_eq_none_iff (h : s.Valid) {i : Nat} :
    s.get? i = none ↔ s.contains i = false := by
  rw [← h.isSome_get?, Option.isSome_eq_false_iff, Option.isNone_iff_eq_none]

/-- The marks tell which indices have an entry. -/
theorem Valid.toList_used (h : s.Valid) :
    s.used.toList = (List.range s.items.size).map s.contains := by
  apply List.ext_getElem?
  intro i
  rw [List.getElem?_map, Array.getElem?_toList, ← h.marks]
  by_cases hi : i < s.used.size
  · simp [contains, hi]
  · simp [hi]

theorem Valid.count_used (h : s.Valid) : s.used.count true = s.entries.length := by
  rw [← Array.count_toList, h.toList_used, entries, List.length_filterMap_eq_countP,
    List.count_eq_countP, List.countP_map]
  apply List.countP_congr
  intro i _
  simp [← h.isSome_get?]

theorem Valid.size_eq (h : s.Valid) : s.size = s.entries.length :=
  h.size.trans h.count_used

/-! ## Operations on valid slabs -/

@[simp] theorem entries_new (n : Nat) : (new n : Slab α).entries = [] := by
  simp [entries]

theorem valid_new (n : Nat) : (new n : Slab α).Valid := by
  refine ⟨by simp [new], fun i => ?_, List.nodup_range, fun i => ?_, ?_⟩
  · rw [contains_new]
    simp only [Bool.false_eq_true, false_iff, not_exists, new, Array.getElem?_replicate]
    intro v
    split <;> simp
  · rw [contains_new]
    simp [new]
  · simp [new, Array.count_replicate]

theorem Valid.modify (h : s.Valid) (i : Nat) (f : α → α) : (s.modify i f).Valid := by
  have hsame : (s.modify i f).used = s.used ∧ (s.modify i f).free = s.free ∧
      (s.modify i f).size = s.size := by
    unfold Slab.modify
    split <;> simp
  obtain ⟨hused, hfree, hsize⟩ := hsame
  refine ⟨?_, fun j => ?_, ?_, fun j => ?_, ?_⟩
  · rw [hused, size_modify, h.marks]
  · rw [contains_modify, h.filled]
    unfold Slab.modify
    split
    · rw [Array.getElem?_modify]
      split
      · cases hj : s.items[j]? with
        | none => simp
        | some x => cases x <;> simp
      · rfl
    · rfl
  · rw [hfree]
    exact h.nodup
  · rw [hfree, size_modify, contains_modify]
    exact h.vacant j
  · rw [hsize, hused]
    exact h.size

/-- Nothing is stored under the vacant index. -/
theorem Valid.contains_vacant (h : s.Valid) : s.contains s.vacant = false := by
  unfold Slab.vacant
  cases hf : s.free with
  | nil => simp [contains, ← h.marks]
  | cons i rest =>
    have hi : i ∈ s.free := hf ▸ List.mem_cons_self
    exact ((h.vacant i).mp hi).2

theorem Valid.get?_vacant (h : s.Valid) : s.get? s.vacant = none :=
  h.get?_eq_none_iff.mpr h.contains_vacant

/-- An index that was taken off the stack has a cell and is not free any more; all other cells that
are not in use are free. -/
structure Allotted (s : Slab α) (i : Nat) : Prop where
  marks : s.used.size = s.items.size
  filled : ∀ j, s.contains j = true ↔ ∃ v, s.items[j]? = some (some v)
  nodup : s.free.Nodup
  vacant : ∀ j, j ∈ s.free ↔ j ≠ i ∧ j < s.items.size ∧ s.contains j = false
  size : s.size = s.used.count true
  room : i < s.items.size
  unused : s.contains i = false

/-- Where no index is free, every cell is in use. -/
theorem Valid.contains_of_full (h : s.Valid) (hf : s.free = []) (i : Nat) :
    s.contains i = true ↔ i < s.items.size := by
  constructor
  · intro hi
    by_contra hlt
    simp [contains, Array.getElem?_eq_none (h.marks ▸ Nat.le_of_not_lt hlt)] at hi
  · intro hlt
    by_contra hi
    have hm := (h.vacant i).mpr ⟨hlt, by simpa using hi⟩
    rw [hf] at hm
    cases hm

theorem Valid.double (h : s.Valid) (hf : s.free = []) : Allotted s.double s.items.size := by
  have hlt := lt_doubled s.items.size
  have hitems : s.double.items = s.items.rightpad (doubled s.items.size) none := rfl
  have hused : s.double.used = s.used.rightpad (doubled s.items.size) false := rfl
  have hsize : s.double.items.size = doubled s.items.size := by
    simp [hitems]
    omega
  refine ⟨?_, fun i => ?_, List.nodup_range', fun i => ?_, ?_, ?_, ?_⟩
  · rw [hsize]
    simp [hused, h.marks]
    omega
  · rw [contains_double, h.filled, hitems, Array.rightpad, Array.getElem?_append,
      Array.getElem?_replicate]
    split
    · rfl
    · rw [Array.getElem?_eq_none (by omega)]
      split <;> simp
  · have hi := h.contains_of_full hf i
    rw [hsize, contains_double, Slab.double, List.mem_range'_1]
    cases hc : s.contains i with
    | true =>
      have := hi.mp hc
      simp only [Bool.true_eq_false, and_false, iff_false]
      omega
    | false =>
      have : ¬i < s.items.size := by simp [← hi, hc]
      simp only [and_true]
      omega
  · rw [hused, Array.rightpad, Array.count_append, Array.count_replicate]
    simpa [Slab.double] using h.size
  · omega
  · rw [contains_double]
    simpa using (h.contains_of_full hf s.items.size).not

theorem Valid.allot (h : s.Valid) : Allotted s.allot.1 s.vacant := by
  cases hf : s.free with
  | nil =>
    have hi : s.vacant = s.items.size := by simp [Slab.vacant, hf]
    have hallot : s.allot.1 = s.double := by simp [Slab.allot, hf]
    rw [hallot, hi]
    exact h.double hf
  | cons i rest =>
    have hi : s.vacant = i := by simp [Slab.vacant, hf]
    have hallot : s.allot.1 = { s with free := rest } := by simp [Slab.allot, hf]
    have hnodup := hf ▸ h.nodup
    rw [List.nodup_cons] at hnodup
    have hmem : i ∈ s.free := hf ▸ List.mem_cons_self
    obtain ⟨hlt, hunused⟩ := (h.vacant i).mp hmem
    rw [hallot, hi]
    refine ⟨h.marks, h.filled, hnodup.2, fun j => ?_, h.size, hlt, hunused⟩
    have hj := h.vacant j
    rw [hf, List.mem_cons] at hj
    change j ∈ rest ↔ j ≠ i ∧ j < s.items.size ∧ s.contains j = false
    rw [← hj]
    by_cases he : j = i
    · subst he
      simpa using hnodup.1
    · simp [he]

theorem Allotted.contains_occupy {i : Nat} (h : Allotted s i) (v : α) (j : Nat) :
    (s.occupy i v).contains j = if i = j then true else s.contains j := by
  simp only [contains, occupy, Array.getElem?_setIfInBounds]
  split
  · simp [h.marks, h.room]
  · rfl

theorem Allotted.get?_occupy {i : Nat} (h : Allotted s i) (v : α) (j : Nat) :
    (s.occupy i v).get? j = if i = j then some v else s.get? j := by
  by_cases hj : i = j
  · subst hj
    rw [get?, h.contains_occupy]
    simp [cell?, Slab.occupy, h.room]
  · rw [get?_occupy_of_ne s v hj, if_neg hj]

theorem Allotted.occupy {i : Nat} (h : Allotted s i) (v : α) : (s.occupy i v).Valid := by
  have hsize : (s.occupy i v).items.size = s.items.size := by simp [Slab.occupy]
  refine ⟨?_, fun j => ?_, h.nodup, fun j => ?_, ?_⟩
  · simpa [Slab.occupy] using h.marks
  · rw [h.contains_occupy]
    simp only [Slab.occupy, Array.getElem?_setIfInBounds]
    split
    · simp [h.room]
    · exact h.filled j
  · rw [hsize, h.contains_occupy]
    refine (h.vacant j).trans ?_
    by_cases hj : i = j
    · simp [hj]
    · simp [hj, Ne.symm hj]
  · have hlt : i < s.used.size := h.marks ▸ h.room
    have hfalse : s.used[i] = false := by simpa [contains, hlt] using h.unused
    simp [Slab.occupy, h.size, Array.setIfInBounds, hlt, Array.count_set, hfalse]

theorem Valid.get?_insert (h : s.Valid) (v : α) (j : Nat) :
    (s.insert v).1.get? j = if s.vacant = j then some v else s.get? j := by
  rw [insert_fst, h.allot.get?_occupy, get?_allot]

theorem Valid.insert (h : s.Valid) (v : α) : (s.insert v).1.Valid := by
  rw [insert_fst]
  exact h.allot.occupy v

/-- What is stored after an insertion is what was stored before, and the new value. -/
theorem Valid.entries_insert (h : s.Valid) (v : α) :
    (s.insert v).1.entries.Perm ((s.vacant, v) :: s.entries) := by
  apply entries_perm_cons h.get?_vacant
  · rw [h.get?_insert, if_pos rfl]
  · intro j hj
    rw [h.get?_insert, if_neg hj]

/-- What is stored is what is left after a removal, and the value that was removed. -/
theorem entries_remove {i : Nat} {v : α} (h : s.get? i = some v) :
    s.entries.Perm ((i, v) :: (s.remove i).1.entries) := by
  apply entries_perm_cons _ h
  · intro j hj
    rw [get?_remove, if_neg hj]
  · rw [get?_remove, if_pos rfl]

/-- Where nothing is stored, nothing is removed. -/
theorem entries_remove_of_none {i : Nat} (h : s.get? i = none) :
    (s.remove i).1.entries = s.entries := by
  apply entries_congr
  · unfold Slab.remove
    split <;> simp [Slab.release]
  · intro j
    rw [get?_remove]
    split
    · rename_i hj
      rw [← hj, h]
    · rfl

/-- What is stored after a change is what is left after a removal, and the changed value. -/
theorem entries_modify_perm {i : Nat} {v : α} (h : s.get? i = some v) (f : α → α) :
    (s.modify i f).entries.Perm ((i, f v) :: (s.remove i).1.entries) := by
  apply entries_perm_cons
  · rw [get?_remove, if_pos rfl]
  · rw [get?_modify, if_pos rfl, h]
    rfl
  · intro j hj
    rw [get?_modify, if_neg hj, get?_remove, if_neg hj]

/-- Where nothing is stored, nothing is changed. -/
theorem entries_modify_of_none {i : Nat} (h : s.get? i = none) (f : α → α) :
    (s.modify i f).entries = s.entries := by
  apply entries_congr
  · exact size_modify s i f
  · intro j
    rw [get?_modify]
    split
    · rename_i hj
      rw [← hj, h]
      rfl
    · rfl

theorem Valid.release (h : s.Valid) {i : Nat} (hi : s.contains i = true) :
    (s.release i).Valid := by
  have hsize : (s.release i).items.size = s.items.size := by simp [Slab.release]
  obtain ⟨v, hv⟩ := (h.filled i).mp hi
  have hlt : i < s.items.size := (Array.getElem?_eq_some_iff.mp hv).1
  have hused : i < s.used.size := h.marks ▸ hlt
  have hnot : i ∉ s.free := by
    intro hm
    have := ((h.vacant i).mp hm).2
    rw [hi] at this
    cases this
  refine ⟨?_, fun j => ?_, List.nodup_cons.mpr ⟨hnot, h.nodup⟩, fun j => ?_, ?_⟩
  · simpa [Slab.release] using h.marks
  · rw [contains_release]
    simp only [Slab.release, Array.getElem?_setIfInBounds]
    split
    · simp
    · exact h.filled j
  · rw [hsize, contains_release]
    change j ∈ i :: s.free ↔ _
    rw [List.mem_cons, h.vacant]
    by_cases hj : i = j
    · subst hj
      simp [hlt]
    · simp [hj, Ne.symm hj]
  · have htrue : s.used[i] = true := by simpa [contains, hused] using hi
    simp [Slab.release, h.size, Array.setIfInBounds, hused, Array.count_set, htrue]

theorem Valid.remove (h : s.Valid) (i : Nat) : (s.remove i).1.Valid := by
  unfold Slab.remove
  split
  · rename_i hi
    exact h.release hi
  · exact h

/-! ## Taking everything out -/

theorem get?_removeAll (is : List Nat) (s : Slab α) (j : Nat) :
    (s.removeAll is).1.get? j = if j ∈ is then none else s.get? j := by
  induction is generalizing s with
  | nil => simp [removeAll]
  | cons i is ih =>
    have hstep : (s.removeAll (i :: is)).1 = ((s.remove i).1.removeAll is).1 := rfl
    rw [hstep, ih, get?_remove]
    by_cases hj : j ∈ is
    · simp [hj]
    · by_cases hi : i = j
      · simp [hi]
      · simp [hj, hi, Ne.symm hi]

theorem removeAll_snd {is : List Nat} (h : is.Nodup) (s : Slab α) :
    (s.removeAll is).2 = is.filterMap s.get? := by
  induction is generalizing s with
  | nil => rfl
  | cons i is ih =>
    obtain ⟨hi, his⟩ := List.nodup_cons.mp h
    have hstep : (s.removeAll (i :: is)).2 =
        (s.remove i).2.toList ++ ((s.remove i).1.removeAll is).2 := rfl
    have hrest : is.filterMap (s.remove i).1.get? = is.filterMap s.get? := by
      apply List.filterMap_congr
      intro j hj
      rw [get?_remove, if_neg]
      rintro rfl
      exact hi hj
    rw [hstep, ih his, remove_snd, hrest]
    cases hv : s.get? i <;> simp [hv]

theorem Valid.removeAll (h : s.Valid) (is : List Nat) : (s.removeAll is).1.Valid := by
  induction is generalizing s with
  | nil => exact h
  | cons i is ih => exact ih (h.remove i)

theorem Valid.drain (h : s.Valid) : s.drain.1.Valid :=
  h.removeAll _

/-- Nothing is left. -/
theorem get?_drain (s : Slab α) (j : Nat) : s.drain.1.get? j = none := by
  unfold drain
  rw [get?_removeAll]
  split
  · rfl
  · rename_i hj
    cases hv : s.get? j with
    | none => rfl
    | some v => exact absurd (List.mem_range.mpr (lt_size_of_get? hv)) hj

@[simp] theorem entries_drain (s : Slab α) : s.drain.1.entries = [] := by
  rw [List.eq_nil_iff_forall_not_mem]
  rintro ⟨i, v⟩ hm
  have hv := mem_entries.mp hm
  rw [get?_drain] at hv
  cases hv

/-- What is taken out is what was stored, by ascending index. -/
theorem drain_snd (s : Slab α) : s.drain.2 = s.entries.map Prod.snd := by
  unfold drain entries
  rw [removeAll_snd List.nodup_range, List.map_filterMap]
  congr 1
  funext i
  cases s.get? i <;> rfl

end RunLoop.Slab
