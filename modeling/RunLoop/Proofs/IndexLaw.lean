import Mathlib.Data.Nat.Find
import RunLoop.Proofs.SlabMap

/-!
# The law of slab indices

Which index a value gets depends on the indices that were taken and freed before and on nothing
else: it is the one freed last of those that were not taken again, or else the smallest one that was
never taken. How much room a slab had at first, and when it doubled, cannot be told from its
answers.

* `Slab.Books` is a finite map that keeps the history of its indices, `Slab.Books.next` is the law.
* `Slab.Kept` relates a slab to its books: its free indices are those that the history leaves to be
  reused and, below them, those that were never taken.
* `Slab.trial_eq_books` compares the answers of slabs of any two first sizes with the law.
-/

namespace RunLoop.Slab

variable {α : Type} {s : Slab α}

/-! ## The law -/

/-- What happens to an index. -/
inductive Use where
  | taken (i : Nat)
  | freed (i : Nat)
deriving DecidableEq

/-- The indices that were freed and not taken again, the one freed last first; the history has its
latest event first. -/
def reusable : List Use → List Nat
  | [] => []
  | .taken i :: uses => (reusable uses).erase i
  | .freed i :: uses => i :: reusable uses

theorem exists_unused (uses : List Use) : ∃ i, Use.taken i ∉ uses := by
  suffices h : ∃ n, ∀ i, n ≤ i → Use.taken i ∉ uses by
    obtain ⟨n, hn⟩ := h
    exact ⟨n, hn n le_rfl⟩
  induction uses with
  | nil => exact ⟨0, fun _ _ => List.not_mem_nil⟩
  | cons use uses ih =>
    obtain ⟨n, hn⟩ := ih
    cases use with
    | taken j =>
      refine ⟨max n (j + 1), fun i hi => ?_⟩
      have hne : i ≠ j := by omega
      simpa [hne] using hn i (by omega)
    | freed j =>
      refine ⟨n, fun i hi => ?_⟩
      simpa using hn i hi

/-- The smallest index that was never taken. -/
def unused (uses : List Use) : Nat :=
  Nat.find (exists_unused uses)

/-- A finite map with the history of its indices, the latest event first. -/
structure Books (α : Type) where
  stored : Finmap (fun _ : Nat => α)
  uses : List Use

namespace Books

/-- Nothing is stored and nothing ever was. -/
def empty : Books α :=
  ⟨∅, []⟩

/-- The index of the next value: of those that were freed and not taken again, the one freed last;
if there is none, the smallest that was never taken. -/
def next (b : Books α) : Nat :=
  (reusable b.uses).headD (unused b.uses)

/-- Performs an operation. To take everything out frees the indices in ascending order. -/
def perform (b : Books α) : Op α → Books α × Answer α
  | .insert v => (⟨b.stored.insert b.next v, .taken b.next :: b.uses⟩, .index b.next)
  | .remove i =>
      (if i ∈ b.stored then ⟨b.stored.erase i, .freed i :: b.uses⟩ else b,
        .found (b.stored.lookup i))
  | .get i => (b, .found (b.stored.lookup i))
  | .set i v =>
      (if i ∈ b.stored then { b with stored := b.stored.insert i v } else b,
        .found (b.stored.lookup i))
  | .contains i => (b, .flag (i ∈ b.stored))
  | .vacant => (b, .index b.next)
  | .drain =>
      (⟨∅, ((b.stored.keys.sort (· ≤ ·)).map .freed).reverse ++ b.uses⟩,
        .values (ascending b.stored))
  | .renew _ => (empty, .values (ascending b.stored))

/-- Performs operations in order; each answer comes with the number of entries after it. -/
def trial (b : Books α) : List (Op α) → List (Answer α × Nat)
  | [] => []
  | op :: ops =>
      let (b, a) := b.perform op
      (a, b.stored.keys.card) :: b.trial ops

end Books

theorem unused_eq {uses : List Use} {n : Nat} (h : ∀ i, .taken i ∈ uses ↔ i < n) :
    unused uses = n := by
  rw [unused, Nat.find_eq_iff]
  constructor
  · simp [h]
  · intro i hi
    simpa [h] using hi

/-! ## Slabs keep the law -/

/-- A slab and its books. The indices below the smallest one that was never taken were taken; those
from there on are free, below the ones to be reused. -/
structure Kept (s : Slab α) (b : Books α) : Prop where
  valid : s.Valid
  stored : s.stored = b.stored
  free : s.free = reusable b.uses ++ List.range' (unused b.uses) (s.items.size - unused b.uses)
  room : unused b.uses ≤ s.items.size
  taken : ∀ i, .taken i ∈ b.uses ↔ i < unused b.uses

theorem kept_new (n : Nat) : Kept (new n : Slab α) Books.empty := by
  have hunused : unused [] = 0 := unused_eq (by simp)
  have huses : (Books.empty : Books α).uses = [] := rfl
  refine ⟨valid_new n, stored_new n, ?_, ?_, ?_⟩
  · rw [huses, hunused]
    simp [reusable, new, List.range_eq_range']
  · rw [huses, hunused]
    exact Nat.zero_le _
  · rw [huses, hunused]
    simp

theorem vacant_of_free {n : Nat} (hfree : s.free = List.range' n (s.items.size - n))
    (hroom : n ≤ s.items.size) : s.vacant = n := by
  rw [vacant, hfree]
  cases hk : s.items.size - n with
  | zero =>
    simp
    omega
  | succ k => simp [List.range'_succ]

/-- A slab without an index to be reused goes on with the smallest one that was never taken, whether
it has to double for it or not. -/
theorem allot_of_free {n : Nat} (hfree : s.free = List.range' n (s.items.size - n))
    (hroom : n ≤ s.items.size) :
    s.allot.1.free = List.range' (n + 1) (s.allot.1.items.size - (n + 1)) ∧
      n + 1 ≤ s.allot.1.items.size := by
  cases hk : s.items.size - n with
  | zero =>
    have hn : s.items.size = n := by omega
    have hnil : s.free = [] := by simp [hfree, hk]
    have hallot : s.allot.1 = s.double := by simp [allot, hnil]
    have hlt := lt_doubled s.items.size
    rw [hallot]
    simp only [double, Array.size_rightpad, hn]
    rw [hn] at hlt
    constructor
    · congr 1
      omega
    · omega
  | succ k =>
    have hcons : s.free = n :: List.range' (n + 1) k := by simp [hfree, hk, List.range'_succ]
    have hallot : s.allot.1 = { s with free := List.range' (n + 1) k } := by simp [allot, hcons]
    rw [hallot]
    constructor
    · change List.range' (n + 1) k = List.range' (n + 1) (s.items.size - (n + 1))
      congr 1
      omega
    · change n + 1 ≤ s.items.size
      omega

theorem free_insert (s : Slab α) (v : α) : (s.insert v).1.free = s.allot.1.free := by
  rw [insert_fst]
  rfl

theorem size_items_insert (s : Slab α) (v : α) :
    (s.insert v).1.items.size = s.allot.1.items.size := by
  rw [insert_fst]
  simp [occupy]

/-- An index that can be reused was taken before. -/
theorem Kept.lt_of_reusable {b : Books α} (h : Kept s b) {i : Nat} (hi : i ∈ reusable b.uses) :
    i < unused b.uses := by
  have hnodup := h.free ▸ h.valid.nodup
  have hfree : i ∈ s.free := by
    rw [h.free]
    exact List.mem_append_left _ hi
  have hlt := ((h.valid.vacant i).mp hfree).1
  by_contra hge
  refine List.disjoint_of_nodup_append hnodup hi (List.mem_range'_1.mpr ?_)
  omega

/-- The vacant index is the one that the law gives to the next value. -/
theorem Kept.vacant_eq {b : Books α} (h : Kept s b) : s.vacant = b.next := by
  unfold Books.next
  cases hr : reusable b.uses with
  | nil => exact vacant_of_free (by simpa [hr] using h.free) h.room
  | cons i rest => simp [vacant, h.free, hr]

theorem Kept.insert {b : Books α} (h : Kept s b) (v : α) :
    Kept (s.insert v).1 (b.perform (.insert v)).1 := by
  have hvacant := h.vacant_eq
  have hstored : (s.insert v).1.stored = b.stored.insert b.next v := by
    rw [h.valid.stored_insert, h.stored, hvacant]
  -- Either a fresh index is taken, which may double the slab, or one is taken again.
  cases hr : reusable b.uses with
  | nil =>
    have hnext : b.next = unused b.uses := by simp [Books.next, hr]
    have htaken : ∀ i, .taken i ∈ Use.taken b.next :: b.uses ↔ i < unused b.uses + 1 := by
      intro i
      rw [List.mem_cons, Use.taken.injEq, h.taken, hnext]
      omega
    have hunused := unused_eq htaken
    have hallot := allot_of_free (by simpa [hr] using h.free) h.room
    have hreusable : reusable (.taken b.next :: b.uses) = [] := by simp [reusable, hr]
    refine ⟨h.valid.insert v, hstored, ?_, ?_, ?_⟩ <;>
      simp only [Books.perform, hunused, hreusable, free_insert, size_items_insert]
    · exact hallot.1
    · exact hallot.2
    · exact htaken
  | cons i rest =>
    have hnext : b.next = i := by simp [Books.next, hr]
    have hfree := h.free
    rw [hr, List.cons_append] at hfree
    have hlt : i < unused b.uses := h.lt_of_reusable (by simp [hr])
    have htaken : ∀ j, .taken j ∈ Use.taken b.next :: b.uses ↔ j < unused b.uses := by
      intro j
      rw [List.mem_cons, Use.taken.injEq, h.taken, hnext]
      omega
    have hunused := unused_eq htaken
    have hallot : s.allot.1 = { s with
        free := rest ++ List.range' (unused b.uses) (s.items.size - unused b.uses) } := by
      unfold allot
      rw [hfree]
    have hreusable : reusable (.taken b.next :: b.uses) = rest := by simp [reusable, hr, hnext]
    refine ⟨h.valid.insert v, hstored, ?_, ?_, ?_⟩ <;>
      simp only [Books.perform, hunused, hreusable, free_insert, size_items_insert, hallot]
    · exact h.room
    · exact htaken

theorem size_items_remove (s : Slab α) (i : Nat) :
    (s.remove i).1.items.size = s.items.size := by
  unfold remove
  split <;> simp [release]

theorem free_remove (s : Slab α) (i : Nat) :
    (s.remove i).1.free = if s.contains i then i :: s.free else s.free := by
  unfold remove
  split <;> rfl

/-- What is removed from a slab is freed in its books. -/
theorem Kept.remove {b : Books α} (h : Kept s b) {i : Nat} (hi : i ∈ b.stored) :
    Kept (s.remove i).1 ⟨b.stored.erase i, .freed i :: b.uses⟩ := by
  have htaken : ∀ j, .taken j ∈ Use.freed i :: b.uses ↔ j < unused b.uses := by
    intro j
    simpa using h.taken j
  have hunused := unused_eq htaken
  have hcontains : s.contains i = true := by
    rw [← h.valid.isSome_get?, ← mem_stored, h.stored]
    exact hi
  refine ⟨h.valid.remove i, by rw [stored_remove, h.stored], ?_, ?_, ?_⟩ <;>
    simp only [hunused, size_items_remove]
  · rw [free_remove, if_pos hcontains, h.free]
    rfl
  · exact h.room
  · exact htaken

theorem Kept.modify {b : Books α} (h : Kept s b) (i : Nat) (f : α → α) :
    Kept (s.modify i f) { b with stored := (s.modify i f).stored } := by
  have hfree : (s.modify i f).free = s.free := by
    unfold Slab.modify
    split <;> rfl
  refine ⟨h.valid.modify i f, rfl, ?_, ?_, h.taken⟩
  · rw [hfree, size_modify]
    exact h.free
  · rw [size_modify]
    exact h.room

/-- What is taken out of a slab is freed in its books, in the order in which it is taken out. -/
theorem Kept.removeAll {b : Books α} (h : Kept s b) {is : List Nat} (his : is.Nodup) :
    Kept (s.removeAll is).1
      ⟨(s.removeAll is).1.stored, ((is.filter s.contains).map .freed).reverse ++ b.uses⟩ := by
  induction is generalizing s b with
  | nil => exact ⟨h.valid, rfl, h.free, h.room, h.taken⟩
  | cons i is ih =>
    obtain ⟨hi, his⟩ := List.nodup_cons.mp his
    have hrest : is.filter (s.remove i).1.contains = is.filter s.contains := by
      apply List.filter_congr
      intro j hj
      rw [contains_remove, if_neg]
      rintro rfl
      exact hi hj
    cases hc : s.contains i with
    | true =>
      have hmem : i ∈ b.stored := by
        rw [← h.stored, mem_stored, h.valid.isSome_get?]
        exact hc
      have hkept := ih (h.remove hmem) his
      rw [hrest] at hkept
      simpa [removeAll, hc] using hkept
    | false =>
      have hsame : (s.remove i).1 = s := by simp [Slab.remove, hc]
      have hkept := ih h his
      simpa [removeAll, hc, hsame] using hkept

theorem Valid.map_fst_entries_eq (h : s.Valid) :
    s.entries.map Prod.fst = (List.range s.items.size).filter s.contains := by
  rw [entries, List.map_filterMap, ← List.filterMap_eq_filter]
  apply List.filterMap_congr
  intro i _
  cases hi : s.get? i <;> simp [Option.guard, ← h.isSome_get?, hi]

theorem Kept.drain {b : Books α} (h : Kept s b) :
    Kept s.drain.1 (b.perform .drain).1 := by
  have hkept := h.removeAll (List.nodup_range : (List.range s.items.size).Nodup)
  rw [← h.valid.map_fst_entries_eq, map_fst_entries, h.stored] at hkept
  have hstored : (s.removeAll (List.range s.items.size)).1.stored = ∅ := stored_drain s
  rw [hstored] at hkept
  exact hkept

/-- A slab and its books go on together, with the same answers. -/
theorem Kept.perform {b : Books α} (h : Kept s b) (op : Op α) :
    Kept (op.perform s).1 (b.perform op).1 ∧ (op.perform s).2 = (b.perform op).2 := by
  have hlookup : ∀ i, s.get? i = b.stored.lookup i := fun i => by rw [← lookup_stored, h.stored]
  have hmem : ∀ i, s.contains i = decide (i ∈ b.stored) := by
    intro i
    rw [← h.valid.isSome_get?, hlookup, Bool.eq_iff_iff, decide_eq_true_iff, Finmap.lookup_isSome]
  cases op with
  | insert v =>
    have hindex : (s.insert v).2 = b.next := by rw [insert_snd, h.vacant_eq]
    exact ⟨h.insert v, congrArg Answer.index hindex⟩
  | remove i =>
    refine ⟨?_, by simp [Op.perform, Books.perform, hlookup]⟩
    by_cases hi : i ∈ b.stored
    · simpa [Op.perform, Books.perform, hi] using h.remove hi
    · have hsame : (s.remove i).1 = s := by simp [Slab.remove, hmem, hi]
      simpa [Op.perform, Books.perform, hi, hsame] using h
  | get i => exact ⟨h, by simp [Op.perform, Books.perform, hlookup]⟩
  | set i v =>
    refine ⟨?_, by simp [Op.perform, Books.perform, hlookup]⟩
    by_cases hi : i ∈ b.stored
    · have hkept := h.modify i (fun _ => v)
      rw [stored_set (h.stored.symm ▸ hi), h.stored] at hkept
      simpa [Op.perform, Books.perform, hi] using hkept
    · have hsame : s.modify i (fun _ => v) = s := by simp [Slab.modify, hmem, hi]
      simpa [Op.perform, Books.perform, hi, hsame] using h
  | contains i => exact ⟨h, by simp [Op.perform, Books.perform, hmem]⟩
  | vacant => exact ⟨h, congrArg Answer.index h.vacant_eq⟩
  | drain =>
    have hvalues : s.drain.2 = ascending b.stored := by
      rw [drain_snd, map_snd_entries, h.stored]
    exact ⟨h.drain, congrArg Answer.values hvalues⟩
  | renew n =>
    have hvalues : s.toList = ascending b.stored := by
      rw [h.valid.toList_eq, map_snd_entries, h.stored]
    exact ⟨kept_new n, congrArg Answer.values hvalues⟩

theorem Kept.size_eq {b : Books α} (h : Kept s b) : s.size = b.stored.keys.card := by
  rw [h.valid.size_eq, ← card_keys_stored, h.stored]

theorem Kept.trial {b : Books α} (h : Kept s b) (ops : List (Op α)) :
    s.trial ops = b.trial ops := by
  induction ops generalizing s b with
  | nil => rfl
  | cons op ops ih =>
    obtain ⟨hkept, hanswer⟩ := h.perform op
    change ((op.perform s).2, (op.perform s).1.size) :: (op.perform s).1.trial ops = _
    rw [hanswer, hkept.size_eq, ih hkept]
    rfl

/-! ## Slabs without removals -/

theorem size_insert (s : Slab α) (v : α) : (s.insert v).1.size = s.size + 1 := by
  rw [insert_fst]
  unfold allot
  split <;> rfl

/-- As long as nothing is removed, the indices are handed out one after another. -/
theorem trial_map_insert {n : Nat} (hfree : s.free = List.range' n (s.items.size - n))
    (hroom : n ≤ s.items.size) (hsize : s.size = n) (vs : List α) :
    s.trial (vs.map .insert) = (List.range' n vs.length).map (fun i => (.index i, i + 1)) := by
  induction vs generalizing s n with
  | nil => rfl
  | cons v vs ih =>
    obtain ⟨hfree', hroom'⟩ := allot_of_free hfree hroom
    have hindex : (s.insert v).2 = n := by rw [insert_snd, vacant_of_free hfree hroom]
    have hsize' : (s.insert v).1.size = n + 1 := by rw [size_insert, hsize]
    rw [← size_items_insert s v] at hfree' hroom'
    have hrest := ih ((free_insert s v).trans hfree') hroom' hsize'
    change (Answer.index (s.insert v).2, (s.insert v).1.size) ::
      (s.insert v).1.trial (vs.map .insert) = _
    rw [hindex, hsize', hrest]
    rfl

/-! ## Capacity independence -/

/-- Two slabs of any first sizes give the same answers to the same operations, those of the law. In
particular `k` insertions without removals get the indices below `k` in ascending order. -/
theorem trial_eq_books (n m : Nat) (ops : List (Op α)) :
    (new n).trial ops = (new m).trial ops ∧
      (new n).trial ops = Books.empty.trial ops ∧
      ∀ vs : List α, (new n).trial (vs.map .insert) =
        (List.range vs.length).map (fun i => (.index i, i + 1)) := by
  refine ⟨?_, (kept_new n).trial ops, fun vs => ?_⟩
  · rw [(kept_new n).trial ops, (kept_new m).trial ops]
  · rw [List.range_eq_range']
    refine trial_map_insert ?_ (Nat.zero_le _) rfl vs
    simp [new, List.range_eq_range']

/-- A slab that was drained goes on with its highest index. -/
example : (new 0).trial [.insert 7, .insert 8, .drain, .vacant] =
    [(.index 0, 1), (.index 1, 2), (.values [7, 8], 0), (.index 1, 0)] := rfl

end RunLoop.Slab
