import AclPlane.Proofs.RuleTable

/-!
Rearranging the rules of a table.

* `rule?_resize`: another capacity leaves every rule at its offset.
* `rule?_moveBlock_target`, `rule?_moveBlock_of_not_mem`: a block move takes the content of each
  slot that `relocations` lists to its target, and leaves the other slots alone.
* `rule?_setPriorities`: new priorities change nothing but priorities.

None of them changes a sum over the rules (`total_resize`, `total_moveBlock`) unless the summand
depends on priorities (`total_setPriorities`).
-/

namespace AclPlane.RuleTable

variable {t t' : RuleTable} {offset k src size dst capacity : ℕ} {r : Rule} {f : Rule → ℕ}

/-! ### Resizing -/

lemma pairwise_occupied (t : RuleTable) : t.occupied.Pairwise fun a b => a.1 < b.1 := by
  have hidx : (t.slots.toList.zipIdx).Pairwise fun a b => a.2 < b.2 := by
    rw [← List.pairwise_map (f := Prod.snd) (R := (· < ·)), List.zipIdx_map_snd]
    exact List.pairwise_lt_range'
  refine List.Pairwise.filterMap _ (fun a a' hlt b hb b' hb' => ?_) hidx
  rw [Option.map_eq_some_iff] at hb hb'
  obtain ⟨_, -, rfl⟩ := hb
  obtain ⟨_, -, rfl⟩ := hb'
  exact hlt

/-- The greatest offset of a rule bounds the others. -/
lemma le_of_highest? (hh : t.highest? = some k) (hr : t.rule? offset = some r) : offset ≤ k := by
  rw [highest?, Option.map_eq_some_iff] at hh
  obtain ⟨e, he, rfl⟩ := hh
  obtain ⟨ys, hys⟩ := List.getLast?_eq_some_iff.mp he
  have hpair := pairwise_occupied t
  have hmem := mem_occupied_iff.mpr hr
  rw [hys] at hpair hmem
  rcases List.mem_append.mp hmem with hmem | hmem
  · exact ((List.pairwise_append.mp hpair).2.2 _ hmem e (List.mem_singleton_self e)).le
  · rw [List.mem_singleton] at hmem
    rw [← hmem]

lemma exists_rule?_of_highest? (hh : t.highest? = some k) : ∃ r, t.rule? k = some r := by
  rw [highest?, Option.map_eq_some_iff] at hh
  obtain ⟨e, he, rfl⟩ := hh
  exact ⟨e.2, mem_occupied_iff.mp (List.mem_of_getLast? he)⟩

lemma rule?_of_highest?_none (hh : t.highest? = none) : t.rule? offset = none := by
  rw [highest?, Option.map_eq_none_iff, List.getLast?_eq_none_iff] at hh
  cases hr : t.rule? offset with
  | none => rfl
  | some r =>
      have hmem := mem_occupied_iff.mpr hr
      rw [hh] at hmem
      exact absurd hmem (List.not_mem_nil)

/-- A table can be resized exactly if all rules lie below the new capacity. -/
lemma resize_eq_ok : t.resize capacity = .ok t' ↔
    (∀ i r, t.rule? i = some r → i < capacity) ∧
      t' = { t with
        slots := t.slots.take capacity ++ Array.replicate (capacity - t.capacity) none } := by
  rw [resize]
  cases hh : t.highest? with
  | none =>
      simp only [pure_eq_ok]
      constructor
      · rintro rfl
        refine ⟨fun i r hr => ?_, rfl⟩
        rw [rule?_of_highest?_none hh] at hr
        cases hr
      · rintro ⟨-, rfl⟩
        rfl
  | some highest =>
      simp only [guard_eq_ok, pure_eq_ok, not_le]
      constructor
      · rintro ⟨hlt, rfl⟩
        exact ⟨fun i r hr => lt_of_le_of_lt (le_of_highest? hh hr) hlt, rfl⟩
      · rintro ⟨hlt, rfl⟩
        obtain ⟨r, hr⟩ := exists_rule?_of_highest? hh
        exact ⟨hlt _ r hr, rfl⟩

lemma capacity_resize (h : t.resize capacity = .ok t') : t'.capacity = capacity := by
  obtain ⟨-, rfl⟩ := resize_eq_ok.mp h
  simp only [RuleTable.capacity, Array.size_append, Array.size_extract, Array.take_eq_extract,
    Array.size_replicate]
  omega

/-- Another capacity leaves every rule at its offset. -/
lemma rule?_resize (h : t.resize capacity = .ok t') (i : ℕ) : t'.rule? i = t.rule? i := by
  obtain ⟨hlt, rfl⟩ := resize_eq_ok.mp h
  by_cases hi : i < capacity
  · simp only [rule?, RuleTable.capacity, Array.take_eq_extract]
    rw [Array.getElem?_append, Array.size_extract]
    split
    · next hmin =>
        rw [Array.getElem?_extract, if_pos (by omega), Nat.zero_add]
    · next hmin =>
        have hsize : t.slots.size ≤ i := by omega
        rw [Array.getElem?_replicate, Array.getElem?_eq_none hsize]
        split <;> rfl
  · cases hr : t.rule? i with
    | none =>
        refine rule?_eq_none_of_le ?_
        rw [capacity_resize h]
        exact Nat.le_of_not_lt hi
    | some r => exact absurd (hlt i r hr) hi

lemma total_resize (h : t.resize capacity = .ok t') : t'.total f = t.total f :=
  total_congr (rule?_resize h)

/-! ### Block moves -/

/-- Writes contents to slots, one after another. -/
def writeAll (slots : Array (Option Rule)) (writes : List (ℕ × Option Rule)) :
    Array (Option Rule) :=
  writes.foldl (fun slots e => slots.setIfInBounds e.1 e.2) slots

@[simp] lemma size_writeAll (slots : Array (Option Rule)) (writes : List (ℕ × Option Rule)) :
    (writeAll slots writes).size = slots.size := by
  induction writes generalizing slots with
  | nil => rfl
  | cons e writes ih => rw [writeAll, List.foldl_cons, ← writeAll, ih, Array.size_setIfInBounds]

/-- Writing to slots leaves the others alone. -/
lemma join_writeAll_of_not_mem {writes : List (ℕ × Option Rule)} (h : k ∉ writes.map Prod.fst)
    (slots : Array (Option Rule)) : (writeAll slots writes)[k]?.join = slots[k]?.join := by
  induction writes generalizing slots with
  | nil => rfl
  | cons e writes ih =>
      rw [List.map_cons, List.mem_cons, not_or] at h
      rw [writeAll, List.foldl_cons, ← writeAll, ih h.2,
        Array.getElem?_setIfInBounds_ne (Ne.symm h.1)]

/-- Writing to distinct slots leaves in each what is written there. -/
lemma join_writeAll_of_mem {writes : List (ℕ × Option Rule)} (hnodup : (writes.map Prod.fst).Nodup)
    {e : ℕ × Option Rule} (he : e ∈ writes) {slots : Array (Option Rule)} (hlt : e.1 < slots.size) :
    (writeAll slots writes)[e.1]?.join = e.2 := by
  induction writes generalizing slots with
  | nil => cases he
  | cons e' writes ih =>
      rw [List.map_cons, List.nodup_cons] at hnodup
      rw [writeAll, List.foldl_cons, ← writeAll]
      rcases List.mem_cons.mp he with rfl | he
      · rw [join_writeAll_of_not_mem hnodup.1, join_setIfInBounds hlt, if_pos rfl]
      · exact ih hnodup.2 he (by simpa using hlt)

/-- Taking distinct slots hands out their contents. -/
lemma takeMoved_eq {moves : List (ℕ × ℕ)} (hnodup : (moves.map Prod.fst).Nodup)
    (slots : Array (Option Rule)) :
    takeMoved slots moves = (moves.map fun m => (m.2, slots[m.1]?.join),
      writeAll slots (moves.map fun m => (m.1, none))) := by
  induction moves generalizing slots with
  | nil => rfl
  | cons m moves ih =>
      rw [List.map_cons, List.nodup_cons] at hnodup
      have hlater : ∀ m' ∈ moves,
          (m'.2, (slots.setIfInBounds m.1 none)[m'.1]?.join) = (m'.2, slots[m'.1]?.join) := by
        intro m' hm'
        have hne : m.1 ≠ m'.1 := by
          intro heq
          exact hnodup.1 (heq ▸ List.mem_map_of_mem hm')
        rw [Array.getElem?_setIfInBounds_ne hne]
      rw [takeMoved, ih hnodup.2, List.map_congr_left hlater]
      rfl

lemma checkBlock_eq_ok {u : Unit} : t.checkBlock src size dst = .ok u ↔
    size ≠ 0 ∧ src + size ≤ t.capacity ∧ dst + size ≤ t.capacity := by
  have hspan : ∀ start (v : Unit), t.checkSpan size start = .ok v ↔ start + size ≤ t.capacity := by
    intro start v
    rw [checkSpan]
    split
    · next h => simpa using h
    · next h => simpa using h
  simp only [checkBlock, guard_eq_ok, bind_eq_ok, hspan]
  constructor
  · rintro ⟨hsize, -, hsrc, hdst⟩
    exact ⟨hsize, hsrc, hdst⟩
  · rintro ⟨hsize, hsrc, hdst⟩
    exact ⟨hsize, (), hsrc, hdst⟩

/-- A block move takes all contents out and then puts each in its new slot. -/
lemma moveBlock_eq_ok : t.moveBlock src size dst = .ok t' ↔
    (size ≠ 0 ∧ src + size ≤ t.capacity ∧ dst + size ≤ t.capacity) ∧
      t' = { t with
        slots := writeAll
          (writeAll t.slots ((relocations src size dst).map fun m => (m.1, none)))
          ((relocations src size dst).map fun m => (m.2, t.rule? m.1)) } := by
  simp only [moveBlock, bind_eq_ok, checkBlock_eq_ok,
    takeMoved_eq (nodup_fst_relocations src size dst), pure_eq_ok]
  constructor
  · rintro ⟨-, hbounds, ht⟩
    exact ⟨hbounds, ht.symm⟩
  · rintro ⟨hbounds, ht⟩
    exact ⟨(), hbounds, ht.symm⟩

lemma capacity_moveBlock (h : t.moveBlock src size dst = .ok t') : t'.capacity = t.capacity := by
  obtain ⟨-, rfl⟩ := moveBlock_eq_ok.mp h
  simp [RuleTable.capacity]

/-- The content of a slot that is relocated arrives at its target. -/
theorem rule?_moveBlock_target (h : t.moveBlock src size dst = .ok t') {m : ℕ × ℕ}
    (hm : m ∈ relocations src size dst) : t'.rule? m.2 = t.rule? m.1 := by
  obtain ⟨⟨-, hsrc, hdst⟩, rfl⟩ := moveBlock_eq_ok.mp h
  have hlt : m.2 < t.slots.size := by
    refine lt_of_mem_relocations hsrc hdst ?_
    exact (perm_relocations src size dst).subset (List.mem_map_of_mem hm)
  have hnodup :
      (((relocations src size dst).map fun m => (m.2, t.rule? m.1)).map Prod.fst).Nodup := by
    rw [List.map_map]
    exact nodup_snd_relocations src size dst
  refine join_writeAll_of_mem hnodup (e := (m.2, t.rule? m.1))
    (List.mem_map_of_mem hm) ?_
  rw [size_writeAll]
  exact hlt

/-- A slot that is not relocated keeps its content. -/
theorem rule?_moveBlock_of_not_mem (h : t.moveBlock src size dst = .ok t')
    (hk : k ∉ (relocations src size dst).map Prod.fst) : t'.rule? k = t.rule? k := by
  obtain ⟨-, rfl⟩ := moveBlock_eq_ok.mp h
  have hk' : k ∉ (relocations src size dst).map Prod.snd := fun hmem =>
    hk ((perm_relocations src size dst).subset hmem)
  rw [rule?, join_writeAll_of_not_mem, join_writeAll_of_not_mem]
  · rfl
  · rw [List.map_map]
    exact hk
  · rw [List.map_map]
    exact hk'

/-- A block move neither loses nor doubles a rule. -/
theorem total_moveBlock (h : t.moveBlock src size dst = .ok t') : t'.total f = t.total f := by
  have hcap := capacity_moveBlock h
  obtain ⟨⟨-, hsrc, hdst⟩, -⟩ := moveBlock_eq_ok.mp h
  have hfst := nodup_fst_relocations src size dst
  -- the slots that are relocated, as a set, and the sums over them before and after
  have htouched : ∑ i ∈ ((relocations src size dst).map Prod.fst).toFinset, (t'.rule? i).elim 0 f =
      ∑ i ∈ ((relocations src size dst).map Prod.fst).toFinset, (t.rule? i).elim 0 f := by
    rw [List.sum_toFinset _ hfst, List.sum_toFinset _ hfst,
      ← ((perm_relocations src size dst).map _).sum_eq, List.map_map, List.map_map]
    refine congrArg List.sum (List.map_congr_left fun m hm => ?_)
    simp only [Function.comp_apply, rule?_moveBlock_target h hm]
  have hsub : ((relocations src size dst).map Prod.fst).toFinset ⊆ Finset.range t.capacity := by
    intro i hi
    rw [Finset.mem_range]
    exact lt_of_mem_relocations hsrc hdst (List.mem_toFinset.mp hi)
  rw [total_eq_sum f hcap.le, total_eq_sum f le_rfl, ← Finset.sum_sdiff hsub,
    ← Finset.sum_sdiff hsub, htouched]
  congr 1
  refine Finset.sum_congr rfl fun i hi => ?_
  rw [rule?_moveBlock_of_not_mem h]
  exact fun hmem => (Finset.mem_sdiff.mp hi).2 (List.mem_toFinset.mpr hmem)

/-! ### Priorities -/

lemma setPriorities_cons (u : ℕ × ℕ) (updates : List (ℕ × ℕ)) :
    t.setPriorities (u :: updates) = (t.setPriorities [u]).setPriorities updates := rfl

lemma rule?_setPriorities_singleton (u : ℕ × ℕ) : (t.setPriorities [u]).rule? k =
    if k = u.1 then (t.rule? k).map fun r => { r with priority := u.2 } else t.rule? k := by
  simp only [setPriorities, rule?, List.foldl_cons, List.foldl_nil, Array.getElem?_modify]
  by_cases hk : k = u.1
  · subst hk
    rw [if_pos rfl, if_pos rfl]
    cases t.slots[u.1]? with
    | none => rfl
    | some x => rfl
  · rw [if_neg (Ne.symm hk), if_neg hk]

/-- Updates that give each offset one priority give it to the rule there. -/
lemma rule?_setPriorities (priority : ℕ → ℕ) {updates : List (ℕ × ℕ)}
    (h : ∀ u ∈ updates, u.2 = priority u.1) : (t.setPriorities updates).rule? k =
      if k ∈ updates.map Prod.fst then
        (t.rule? k).map fun r => { r with priority := priority k }
      else t.rule? k := by
  induction updates generalizing t with
  | nil => rfl
  | cons u updates ih =>
      obtain ⟨hhead, htail⟩ := List.forall_mem_cons.mp h
      rw [setPriorities_cons, ih htail, rule?_setPriorities_singleton, List.map_cons]
      by_cases hk : k = u.1
      · -- an offset that comes again gets the same priority again
        rw [if_pos hk, hhead, ← hk, if_pos List.mem_cons_self]
        cases t.rule? k <;> simp
      · simp only [List.mem_cons, hk, false_or, if_false]

lemma capacity_setPriorities (updates : List (ℕ × ℕ)) :
    (t.setPriorities updates).capacity = t.capacity := by
  induction updates generalizing t with
  | nil => rfl
  | cons u updates ih =>
      rw [setPriorities_cons, ih]
      simp [setPriorities, RuleTable.capacity]

/-- New priorities change no sum whose terms do not depend on priorities. -/
lemma total_setPriorities (hf : ∀ r p, f { r with priority := p } = f r)
    (updates : List (ℕ × ℕ)) : (t.setPriorities updates).total f = t.total f := by
  induction updates generalizing t with
  | nil => rfl
  | cons u updates ih =>
      rw [setPriorities_cons, ih, total_eq_sum f (capacity_setPriorities [u]).le,
        total_eq_sum f le_rfl]
      refine Finset.sum_congr rfl fun i _ => ?_
      rw [rule?_setPriorities_singleton]
      split
      · cases t.rule? i with
        | none => rfl
        | some r => exact hf r u.2
      · rfl

end AclPlane.RuleTable
