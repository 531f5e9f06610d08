import Mathlib.Data.Finmap
import Mathlib.Data.Finset.Sort
import RunLoop.Proofs.Slots
import RunLoop.Slab.Trial

/-!
# Slabs as finite maps

What a slab stores is a finite map from indices to values, and every operation does to this map what
its name says: a value goes in under an index that holds nothing, it comes out once, and an index
that holds nothing is answered by nothing.

* `Slab.stored` is the map.
* `Slab.MapStep` is an operation on a finite map, `Slab.MapRun` is a list of them.
* `Slab.Valid.mapStep` is the step lemma, `Slab.Valid.mapRun` the run lemma.
* `Slab.refines_map` says that every trial of a slab is a run of a finite map, in which no value is
  lost and none is duplicated.
-/

namespace RunLoop.Slab

open scoped List

variable {α : Type} {s : Slab α}

/-! ## The map -/

/-- What is stored, as a finite map. -/
def stored (s : Slab α) : Finmap (fun _ : Nat => α) :=
  (s.entries.map (fun e => (⟨e.1, e.2⟩ : Sigma fun _ : Nat => α))).toFinmap

@[simp] theorem lookup_stored (s : Slab α) (i : Nat) : s.stored.lookup i = s.get? i := by
  have hkeys : (s.entries.map (fun e => (⟨e.1, e.2⟩ : Sigma fun _ : Nat => α))).NodupKeys := by
    unfold List.NodupKeys List.keys
    rw [List.map_map]
    exact nodup_map_fst_entries s
  apply Option.ext
  intro v
  rw [stored, Finmap.dlookup_list_toFinmap, ← Option.mem_def, List.mem_dlookup_iff hkeys,
    List.mem_map, ← mem_entries]
  constructor
  · rintro ⟨e, he, heq⟩
    cases heq
    exact he
  · exact fun he => ⟨(i, v), he, rfl⟩

@[simp] theorem mem_stored {i : Nat} : i ∈ s.stored ↔ (s.get? i).isSome := by
  rw [← lookup_stored, Finmap.lookup_isSome]

theorem stored_new (n : Nat) : (new n : Slab α).stored = ∅ :=
  Finmap.ext_lookup fun i => by simp

/-- The values of a finite map, by ascending index. -/
def ascending (m : Finmap (fun _ : Nat => α)) : List α :=
  (m.keys.sort (· ≤ ·)).filterMap (fun i => m.lookup i)

theorem map_fst_entries (s : Slab α) : s.entries.map Prod.fst = s.stored.keys.sort (· ≤ ·) := by
  have hsorted : (s.entries.map Prod.fst).Pairwise (· ≤ ·) :=
    List.pairwise_map.mpr ((pairwise_entries s).imp Nat.le_of_lt)
  rw [← (List.toFinset_sort (· ≤ ·) (nodup_map_fst_entries s)).mpr hsorted]
  congr 1
  ext i
  rw [Finmap.mem_keys, mem_stored, Option.isSome_iff_exists]
  simp [mem_entries]

theorem card_keys_stored (s : Slab α) : s.stored.keys.card = s.entries.length := by
  rw [← Finset.length_sort (· ≤ ·), ← map_fst_entries, List.length_map]

theorem map_snd_entries (s : Slab α) : s.entries.map Prod.snd = ascending s.stored := by
  rw [ascending, ← map_fst_entries, List.filterMap_map, ← List.filterMap_eq_map]
  apply List.filterMap_congr
  rintro ⟨i, v⟩ he
  simp [mem_entries.mp he]

/-! ## Operations on maps -/

/-- What an operation does to a finite map and what it answers. An index for a new value is any that
holds nothing. -/
inductive MapStep :
    Finmap (fun _ : Nat => α) → Op α → Finmap (fun _ : Nat => α) → Answer α → Prop
  | insert {m i} (v : α) (h : i ∉ m) : MapStep m (.insert v) (m.insert i v) (.index i)
  | remove (m i) : MapStep m (.remove i) (m.erase i) (.found (m.lookup i))
  | get (m i) : MapStep m (.get i) m (.found (m.lookup i))
  | setPresent {m i} (v : α) (h : i ∈ m) :
      MapStep m (.set i v) (m.insert i v) (.found (m.lookup i))
  | setAbsent {m i} (v : α) (h : i ∉ m) : MapStep m (.set i v) m (.found none)
  | contains (m i) : MapStep m (.contains i) m (.flag (i ∈ m))
  | vacant {m i} (h : i ∉ m) : MapStep m .vacant m (.index i)
  | drain (m) : MapStep m .drain ∅ (.values (ascending m))
  | renew (m n) : MapStep m (.renew n) ∅ (.values (ascending m))

/-- Operations in order; each answer comes with the number of entries after it. -/
inductive MapRun : Finmap (fun _ : Nat => α) → List (Op α) → List (Answer α × Nat) →
    Finmap (fun _ : Nat => α) → Prop
  | done (m) : MapRun m [] [] m
  | step {m m' m'' op a ops log} (h : MapStep m op m' a) (rest : MapRun m' ops log m'') :
      MapRun m (op :: ops) ((a, m'.keys.card) :: log) m''

theorem Valid.not_mem_vacant (h : s.Valid) : s.vacant ∉ s.stored := by
  rw [mem_stored, h.get?_vacant]
  exact Bool.false_ne_true

theorem Valid.stored_insert (h : s.Valid) (v : α) :
    (s.insert v).1.stored = s.stored.insert s.vacant v := by
  apply Finmap.ext_lookup
  intro i
  rw [lookup_stored, h.get?_insert]
  split
  · rename_i hi
    rw [← hi, Finmap.lookup_insert]
  · rename_i hi
    rw [Finmap.lookup_insert_of_ne _ (Ne.symm hi), lookup_stored]

theorem stored_remove (s : Slab α) (i : Nat) : (s.remove i).1.stored = s.stored.erase i := by
  apply Finmap.ext_lookup
  intro j
  rw [lookup_stored, get?_remove]
  split
  · rename_i hj
    rw [← hj, Finmap.lookup_erase]
  · rename_i hj
    rw [Finmap.lookup_erase_ne (Ne.symm hj), lookup_stored]

theorem stored_set {i : Nat} (hi : i ∈ s.stored) (v : α) :
    (s.modify i (fun _ => v)).stored = s.stored.insert i v := by
  obtain ⟨v', hv⟩ := Option.isSome_iff_exists.mp (mem_stored.mp hi)
  apply Finmap.ext_lookup
  intro j
  rw [lookup_stored, get?_modify]
  split
  · rename_i hj
    rw [← hj, hv, Finmap.lookup_insert]
    rfl
  · rename_i hj
    rw [Finmap.lookup_insert_of_ne _ (Ne.symm hj), lookup_stored]

theorem stored_set_of_not_mem {i : Nat} (hi : i ∉ s.stored) (v : α) :
    (s.modify i (fun _ => v)).stored = s.stored := by
  apply Finmap.ext_lookup
  intro j
  rw [lookup_stored, lookup_stored, get?_modify]
  split
  · rename_i hj
    rw [← hj, ← lookup_stored, Finmap.lookup_eq_none.mpr hi]
    rfl
  · rfl

theorem stored_drain (s : Slab α) : s.drain.1.stored = ∅ :=
  Finmap.ext_lookup fun i => by simp [get?_drain]

/-! ## Values in and out -/

/-- The value that an operation puts into a map, given its answer. One that is to replace another
goes in if there is another. -/
def Op.putIn : Op α → Answer α → List α
  | .insert v, _ => [v]
  | .set _ v, .found (some _) => [v]
  | _, _ => []

/-- The values that an operation takes out of a map, or drops with it, given its answer. -/
def Op.takenOut : Op α → Answer α → List α
  | .remove _, .found v => v.toList
  | .set _ _, .found v => v.toList
  | .drain, .values vs => vs
  | .renew _, .values vs => vs
  | _, _ => []

/-- The values that operations put into a map. -/
def putIn (ops : List (Op α)) (log : List (Answer α × Nat)) : List α :=
  (ops.zip log).flatMap (fun (op, a, _) => op.putIn a)

/-- The values that operations take out of a map, or drop with it. -/
def takenOut (ops : List (Op α)) (log : List (Answer α × Nat)) : List α :=
  (ops.zip log).flatMap (fun (op, a, _) => op.takenOut a)

/-! ## Operations on slabs -/

/-- What would be dropped with a valid slab is what it stores. -/
theorem Valid.toList_eq (h : s.Valid) : s.toList = s.entries.map Prod.snd := by
  have hcells : s.items.toList = (List.range s.items.size).map s.cell? := by
    apply List.ext_getElem
    · simp
    · intro i hi _
      have hlt : i < s.items.size := by simpa using hi
      simp [cell?, hlt]
  rw [toList, hcells, h.toList_used, List.zip_map', List.filterMap_map, entries,
    List.map_filterMap]
  congr 1
  funext i
  simp [get?, Function.comp_def]

theorem Valid.perform (h : s.Valid) (op : Op α) : (op.perform s).1.Valid := by
  cases op with
  | insert v => exact h.insert v
  | remove i => exact h.remove i
  | set i v => exact h.modify i _
  | drain => exact h.drain
  | renew n => exact valid_new n
  | get | contains | vacant => exact h

theorem Valid.after (h : s.Valid) (ops : List (Op α)) : (s.after ops).Valid := by
  induction ops generalizing s with
  | nil => exact h
  | cons op ops ih => exact ih (h.perform op)

/-- What was stored or is put in is taken out or is stored afterwards. -/
theorem Valid.conserved (h : s.Valid) (op : Op α) :
    (op.putIn (op.perform s).2 ++ s.toList).Perm
      (op.takenOut (op.perform s).2 ++ (op.perform s).1.toList) := by
  rw [h.toList_eq, (h.perform op).toList_eq]
  cases op with
  | insert v => exact ((h.entries_insert v).map Prod.snd).symm
  | remove i =>
    change (s.entries.map Prod.snd).Perm
      ((s.remove i).2.toList ++ (s.remove i).1.entries.map Prod.snd)
    rw [remove_snd]
    cases hi : s.get? i with
    | none => rw [entries_remove_of_none hi]; rfl
    | some v => exact (entries_remove hi).map Prod.snd
  | set i v =>
    change (Op.putIn (.set i v) (.found (s.get? i)) ++ s.entries.map Prod.snd).Perm
      ((s.get? i).toList ++ (s.modify i (fun _ => v)).entries.map Prod.snd)
    cases hi : s.get? i with
    | none => rw [entries_modify_of_none hi]; rfl
    | some v' =>
      have hbefore := (entries_remove hi).map Prod.snd
      have hafter := (entries_modify_perm hi (fun _ => v)).map Prod.snd
      exact (hbefore.cons v).trans ((List.Perm.swap v' v _).trans (hafter.symm.cons v'))
  | drain =>
    change (s.entries.map Prod.snd).Perm (s.drain.2 ++ s.drain.1.entries.map Prod.snd)
    rw [drain_snd, entries_drain, List.map_nil, List.append_nil]
  | renew n =>
    change (s.entries.map Prod.snd).Perm (s.toList ++ (new n).entries.map Prod.snd)
    rw [entries_new, h.toList_eq, List.map_nil, List.append_nil]
  | get | contains | vacant => rfl

/-- An operation on a valid slab is one on the map that it stores. -/
theorem Valid.mapStep (h : s.Valid) (op : Op α) :
    MapStep s.stored op (op.perform s).1.stored (op.perform s).2 := by
  cases op with
  | insert v =>
    have hstep := MapStep.insert v h.not_mem_vacant
    rw [← h.stored_insert] at hstep
    simpa [Op.perform] using hstep
  | remove i =>
    have hstep := MapStep.remove s.stored i
    rw [← stored_remove] at hstep
    simpa [Op.perform] using hstep
  | get i => simpa [Op.perform] using MapStep.get s.stored i
  | set i v =>
    by_cases hi : i ∈ s.stored
    · have hstep := MapStep.setPresent v hi
      rw [← stored_set hi] at hstep
      simpa [Op.perform] using hstep
    · have hstep := MapStep.setAbsent v hi
      have hnone : s.get? i = none := by rw [← lookup_stored, Finmap.lookup_eq_none.mpr hi]
      simpa [Op.perform, stored_set_of_not_mem hi, hnone] using hstep
  | contains i => simpa [Op.perform, h.isSome_get?] using MapStep.contains s.stored i
  | vacant => exact MapStep.vacant h.not_mem_vacant
  | drain =>
    have hstep := MapStep.drain s.stored
    rw [← stored_drain s, ← map_snd_entries, ← drain_snd] at hstep
    exact hstep
  | renew n =>
    have hstep := MapStep.renew s.stored n
    rw [← stored_new n, ← map_snd_entries, ← h.toList_eq] at hstep
    exact hstep

theorem Valid.mapRun (h : s.Valid) (ops : List (Op α)) :
    MapRun s.stored ops (s.trial ops) (s.after ops).stored := by
  induction ops generalizing s with
  | nil => exact MapRun.done s.stored
  | cons op ops ih =>
    have h' := h.perform op
    have hrun := MapRun.step (h.mapStep op) (ih h')
    rw [card_keys_stored, ← h'.size_eq] at hrun
    exact hrun

theorem Valid.conserved_run (h : s.Valid) (ops : List (Op α)) :
    (putIn ops (s.trial ops) ++ s.toList).Perm
      (takenOut ops (s.trial ops) ++ (s.after ops).toList) := by
  induction ops generalizing s with
  | nil => rfl
  | cons op ops ih =>
    have hstep := h.conserved op
    have hrest := ih (h.perform op)
    change (op.putIn (op.perform s).2 ++ putIn ops ((op.perform s).1.trial ops) ++ s.toList).Perm
      (op.takenOut (op.perform s).2 ++ takenOut ops ((op.perform s).1.trial ops) ++
        ((op.perform s).1.after ops).toList)
    generalize putIn ops _ = put at hrest ⊢
    generalize takenOut ops _ = taken at hrest ⊢
    calc op.putIn (op.perform s).2 ++ put ++ s.toList
      _ ~ put ++ (op.putIn (op.perform s).2 ++ s.toList) := by
        rw [← List.append_assoc]
        exact List.perm_append_comm.append_right _
      _ ~ put ++ (op.takenOut (op.perform s).2 ++ (op.perform s).1.toList) :=
        hstep.append_left put
      _ ~ op.takenOut (op.perform s).2 ++ (put ++ (op.perform s).1.toList) :=
        List.perm_append_comm_assoc ..
      _ ~ op.takenOut (op.perform s).2 ++ (taken ++ ((op.perform s).1.after ops).toList) :=
        hrest.append_left _
      _ = _ := (List.append_assoc ..).symm

/-- Every trial of a slab, whatever its first size, is a run of a finite map that is empty at first.
At the end, and so at any time, the parts of the slab fit together, and the next value gets the
index that is said to be vacant; and the values put in are those taken out or dropped and those that
will be dropped with the slab. -/
theorem refines_map (n : Nat) (ops : List (Op α)) :
    ((new n).after ops).Valid ∧
      MapRun ∅ ops ((new n).trial ops) ((new n).after ops).stored ∧
      (∀ v, (((new n).after ops).insert v).2 = ((new n).after ops).vacant) ∧
      (putIn ops ((new n).trial ops)).Perm
        (takenOut ops ((new n).trial ops) ++ ((new n).after ops).toList) := by
  have h : (new n : Slab α).Valid := valid_new n
  refine ⟨h.after ops, ?_, fun v => insert_snd _ v, ?_⟩
  · rw [← stored_new n]
    exact h.mapRun ops
  · simpa [h.toList_eq] using h.conserved_run ops

end RunLoop.Slab
