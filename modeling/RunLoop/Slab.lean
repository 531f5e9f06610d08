/-!
# Slabs

A slab stores values in cells under small indices and hands the indices out again after removal.
What a cell holds is to be read only while the cell is marked as used. The free indices form a
stack: the index freed last is handed out first, and a slab without a free index doubles. A loop
gives every spawned task such an index.

* `Slab.insert` stores a value under the index `Slab.vacant`.
* `Slab.remove` takes a value out and frees its index.
* `Slab.drain` takes all values out, by ascending index.
* `Slab.get?_allot`, `Slab.get?_modify`, `Slab.get?_remove` say what the operations do to the
  values stored.
-/

namespace RunLoop

/-- Values under reusable indices. -/
structure Slab (α : Type) where
  /-- The cells, with what was put into them. -/
  items : Array (Option α)
  /-- The free indices, the next one to be handed out first. -/
  free : List Nat
  /-- Which cells are in use. -/
  used : Array Bool
  /-- The number of cells in use. -/
  size : Nat

namespace Slab

variable {α : Type}

/-- A slab with `n` free indices, to be handed out from the lowest. -/
def new (n : Nat) : Slab α :=
  ⟨Array.replicate n none, List.range n, Array.replicate n false, 0⟩

instance : Inhabited (Slab α) := ⟨new 0⟩

/-! ## Reading -/

/-- Whether a value is stored under an index. -/
def contains (s : Slab α) (i : Nat) : Bool :=
  s.used[i]?.getD false

/-- What is in the cell of an index. -/
def cell? (s : Slab α) (i : Nat) : Option α :=
  s.items[i]?.join

/-- The value under an index, if there is one. -/
def get? (s : Slab α) (i : Nat) : Option α :=
  if s.contains i then s.cell? i else none

/-- The index that the next value will get. -/
def vacant (s : Slab α) : Nat :=
  s.free.headD s.items.size

/-- The stored values, by ascending index: what is dropped with the slab. -/
def toList (s : Slab α) : List α :=
  (s.items.toList.zip s.used.toList).filterMap (fun (item, used) => if used then item else none)

/-! ## Writing -/

/-- The number of indices after a slab with `n` of them has doubled. -/
def doubled (n : Nat) : Nat :=
  if n = 0 then 1 else 2 * n

/-- Doubles a slab that has no free index. The first of the new indices is taken, and the others
are free. -/
def double (s : Slab α) : Slab α :=
  let n := s.items.size
  { s with
    items := s.items.rightpad (doubled n) none
    free := List.range' (n + 1) (doubled n - (n + 1))
    used := s.used.rightpad (doubled n) false }

/-- Takes a free index off the stack; a slab that has none doubles. -/
def allot (s : Slab α) : Slab α × Nat :=
  match s.free with
  | i :: rest => ({ s with free := rest }, i)
  | [] => (s.double, s.items.size)

/-- Puts a value into the cell of an index that was taken off the stack. -/
def occupy (s : Slab α) (i : Nat) (v : α) : Slab α :=
  { s with
    items := s.items.setIfInBounds i (some v)
    used := s.used.setIfInBounds i true
    size := s.size + 1 }

/-- Stores a value under a free index. -/
def insert (s : Slab α) (v : α) : Slab α × Nat :=
  let (s, i) := s.allot
  (s.occupy i v, i)

/-- Frees an index and clears its cell. -/
def release (s : Slab α) (i : Nat) : Slab α :=
  { items := s.items.setIfInBounds i none
    free := i :: s.free
    used := s.used.setIfInBounds i false
    size := s.size - 1 }

/-- Takes the value under an index out and frees the index. -/
def remove (s : Slab α) (i : Nat) : Slab α × Option α :=
  if s.contains i then (s.release i, s.cell? i) else (s, none)

/-- Changes the value under an index, if there is one. -/
def modify (s : Slab α) (i : Nat) (f : α → α) : Slab α :=
  if s.contains i then { s with items := s.items.modify i (·.map f) } else s

/-- Takes the values under `indices` out, in that order. -/
def removeAll (s : Slab α) : List Nat → Slab α × List α
  | [] => (s, [])
  | i :: rest =>
      let (s, v) := s.remove i
      let (s, vs) := s.removeAll rest
      (s, v.toList ++ vs)

/-- Takes all values out, by ascending index. -/
def drain (s : Slab α) : Slab α × List α :=
  s.removeAll (List.range s.items.size)

/-! ## Laws -/

@[simp] theorem contains_new (n i : Nat) : (new n : Slab α).contains i = false := by
  simp only [contains, new, Array.getElem?_replicate]
  split <;> rfl

@[simp] theorem get?_new (n i : Nat) : (new n : Slab α).get? i = none := by
  simp [get?]

theorem lt_doubled (n : Nat) : n < doubled n := by
  unfold doubled
  split <;> omega

@[simp] theorem allot_snd (s : Slab α) : s.allot.2 = s.vacant := by
  unfold allot vacant
  split <;> simp [*]

@[simp] theorem contains_double (s : Slab α) (i : Nat) : s.double.contains i = s.contains i := by
  simp only [double, contains, Array.rightpad, Array.getElem?_append, Array.getElem?_replicate]
  split
  · rfl
  · rw [Array.getElem?_eq_none (by omega)]
    split <;> rfl

@[simp] theorem cell?_double (s : Slab α) (i : Nat) : s.double.cell? i = s.cell? i := by
  simp only [double, cell?, Array.rightpad, Array.getElem?_append, Array.getElem?_replicate]
  split
  · rfl
  · rw [Array.getElem?_eq_none (by omega)]
    split <;> rfl

@[simp] theorem contains_allot (s : Slab α) (i : Nat) : s.allot.1.contains i = s.contains i := by
  unfold allot
  split
  · rfl
  · exact s.contains_double i

@[simp] theorem cell?_allot (s : Slab α) (i : Nat) : s.allot.1.cell? i = s.cell? i := by
  unfold allot
  split
  · rfl
  · exact s.cell?_double i

/-- Growing stores nothing and loses nothing. -/
@[simp] theorem get?_allot (s : Slab α) (i : Nat) : s.allot.1.get? i = s.get? i := by
  simp [get?]

/-- To put a value into one cell is nothing to the others. -/
theorem get?_occupy_of_ne (s : Slab α) (v : α) {i j : Nat} (h : i ≠ j) :
    (s.occupy i v).get? j = s.get? j := by
  have hcontains : (s.occupy i v).contains j = s.contains j := by simp [contains, occupy, h]
  have hcell : (s.occupy i v).cell? j = s.cell? j := by simp [cell?, occupy, h]
  rw [get?, get?, hcontains, hcell]

/-- The next value gets the vacant index. -/
@[simp] theorem insert_snd (s : Slab α) (v : α) : (s.insert v).2 = s.vacant :=
  s.allot_snd

theorem insert_fst (s : Slab α) (v : α) : (s.insert v).1 = s.allot.1.occupy s.vacant v := by
  rw [← allot_snd]
  rfl

theorem contains_release (s : Slab α) (i j : Nat) :
    (s.release i).contains j = if i = j then false else s.contains j := by
  simp only [contains, release, Array.getElem?_setIfInBounds]
  split
  · split <;> rfl
  · rfl

@[simp] theorem contains_remove (s : Slab α) (i j : Nat) :
    (s.remove i).1.contains j = if i = j then false else s.contains j := by
  unfold remove
  split
  · exact contains_release s i j
  · grind

@[simp] theorem contains_modify (s : Slab α) (i j : Nat) (f : α → α) :
    (s.modify i f).contains j = s.contains j := by
  unfold modify
  split <;> rfl

@[simp] theorem get?_modify (s : Slab α) (i j : Nat) (f : α → α) :
    (s.modify i f).get? j = if i = j then (s.get? j).map f else s.get? j := by
  simp only [get?, contains_modify]
  cases hj : s.contains j with
  | false => simp
  | true =>
    by_cases hi : i = j
    · subst hi
      simp only [modify, hj, if_true, cell?, Array.getElem?_modify]
      cases s.items[i]? <;> rfl
    · simp only [modify, cell?, if_true, hi, if_false]
      split
      · rw [Array.getElem?_modify, if_neg hi]
      · rfl

/-- What is taken out is what was stored. -/
@[simp] theorem remove_snd (s : Slab α) (i : Nat) : (s.remove i).2 = s.get? i := by
  unfold remove get?
  split <;> rfl

@[simp] theorem get?_remove (s : Slab α) (i j : Nat) :
    (s.remove i).1.get? j = if i = j then none else s.get? j := by
  simp only [get?, contains_remove]
  by_cases hi : i = j
  · simp [hi]
  · have hcell : (s.remove i).1.cell? j = s.cell? j := by
      unfold remove cell?
      split
      · simp [release, hi]
      · rfl
    simp [hi, hcell]

end Slab

end RunLoop
