import AclPlane.Proofs.Fallible
import AclPlane.Proofs.Pools
import AclPlane.Proofs.Relocation
import AclPlane.Proofs.SlotSum
import AclPlane.RuleTable

/-!
Rule tables as finite maps from offsets to rules.

Each operation is described by the look-ups after it (`rule?_set`, `rule?_clear`, `rule?_resize`,
`rule?_moveBlock_target`, `rule?_setPriorities`) and by what it does to sums over the stored
rules:

* `RuleTable.total` sums a function of the rules, and `refs_count` writes the references of a
  table as such a sum;
* `total_setAll`, `total_clearAll`: what is stored comes in, what is handed back goes out;
* `total_moveBlock`, `total_resize`, `total_setPriorities`: rearranging rules changes no sum.
-/

namespace AclPlane.RuleTable

variable {t t' : RuleTable} {offset k n : ℕ} {r : Rule} {f : Rule → ℕ}

/-! ### Look-ups -/

/-- A rule is looked up in its slot. -/
lemma rule?_eq_some_iff : t.rule? offset = some r ↔ t.slots[offset]? = some (some r) := by
  rw [rule?]
  cases t.slots[offset]? with
  | none => simp
  | some x => simp

/-- Rules lie below the capacity. -/
lemma lt_of_rule? (hr : t.rule? offset = some r) : offset < t.capacity := by
  obtain ⟨hlt, -⟩ := Array.getElem?_eq_some_iff.mp (rule?_eq_some_iff.mp hr)
  exact hlt

lemma rule?_eq_none_of_le (h : t.capacity ≤ offset) : t.rule? offset = none := by
  cases hr : t.rule? offset with
  | none => rfl
  | some r => exact absurd (lt_of_rule? hr) (Nat.not_lt.mpr h)

@[simp] lemma rule?_empty (capacity : ℕ) : (empty capacity).rule? offset = none := by
  cases hr : (empty capacity).rule? offset with
  | none => rfl
  | some r =>
      have h := rule?_eq_some_iff.mp hr
      simp [empty, Array.getElem?_replicate] at h

@[simp] lemma capacity_empty (capacity : ℕ) : (empty capacity).capacity = capacity :=
  Array.size_replicate

/-- The content of a slot after one slot has been changed. -/
lemma join_setIfInBounds {slots : Array (Option Rule)} (h : offset < slots.size) (x : Option Rule)
    (k : ℕ) :
    (slots.setIfInBounds offset x)[k]?.join = if k = offset then x else slots[k]?.join := by
  rw [Array.getElem?_setIfInBounds]
  by_cases hk : k = offset
  · subst hk
    rw [if_pos rfl, if_pos h, if_pos rfl]
    rfl
  · rw [if_neg (Ne.symm hk), if_neg hk]

/-- The occupied slots are listed with just the rules that can be looked up. -/
lemma mem_occupied_iff : (offset, r) ∈ t.occupied ↔ t.rule? offset = some r := by
  simp only [occupied, List.mem_filterMap, rule?_eq_some_iff]
  constructor
  · rintro ⟨⟨x, i⟩, hmem, hx⟩
    simp only [Option.map_eq_some_iff, Prod.mk.injEq] at hx
    obtain ⟨r', rfl, rfl, rfl⟩ := hx
    have hget := List.mem_zipIdx_iff_getElem?.mp hmem
    simpa using hget
  · intro hs
    refine ⟨(some r, offset), List.mem_zipIdx_iff_getElem?.mpr (by simpa using hs), rfl⟩

/-! ### Sums over the rules -/

/-- The sum of `f` over the rules. -/
def total (f : Rule → ℕ) (t : RuleTable) : ℕ := (t.occupied.map fun e => f e.2).sum

lemma total_eq_slotSum (f : Rule → ℕ) (t : RuleTable) : t.total f = slotSum f t.slots.toList := by
  have hmap : ∀ (l : List (Option Rule)) (i : ℕ),
      (((l.zipIdx i).filterMap fun e => e.1.map fun r => (e.2, r)).map fun e => f e.2).sum =
        slotSum f l := by
    intro l
    induction l with
    | nil => exact fun _ => rfl
    | cons o l ih =>
        intro i
        cases o with
        | none => simpa using ih (i + 1)
        | some r => simpa using ih (i + 1)
  exact hmap t.slots.toList 0

/-- The references of a table, counted, are a sum over its rules. -/
lemma refs_count (t : RuleTable) (e : PoolEntry) :
    t.refs.count e = t.total fun r => r.refs.count e := by
  rw [refs, PoolRefs.count_concat, List.map_map]
  rfl

@[simp] lemma total_empty (f : Rule → ℕ) (capacity : ℕ) : (empty capacity).total f = 0 := by
  rw [total_eq_slotSum, empty, Array.toList_replicate, slotSum_replicate_none]

/-- The sum over the rules as a sum over offsets, of which there may be more than slots. -/
lemma total_eq_sum (f : Rule → ℕ) (h : t.capacity ≤ n) :
    t.total f = ∑ i ∈ Finset.range n, (t.rule? i).elim 0 f := by
  have hsum : ∀ l : List (Option Rule),
      slotSum f l = ∑ i ∈ Finset.range l.length, (l[i]?.join).elim 0 f := by
    intro l
    induction l with
    | nil => rfl
    | cons o l ih =>
        rw [List.length_cons, Finset.sum_range_succ', slotSum_cons, ih, Nat.add_comm]
        simp
  rw [total_eq_slotSum, hsum]
  have hsub : Finset.range t.slots.toList.length ⊆ Finset.range n := by
    rw [Finset.range_subset_range]
    exact h
  rw [← Finset.sum_subset hsub]
  · simp [rule?]
  · intro i _ hi
    rw [Finset.mem_range, not_lt] at hi
    rw [rule?_eq_none_of_le hi]
    rfl

/-- A total depends on the rules at their offsets alone, and not on the number of slots. -/
lemma total_congr (h : ∀ i, t'.rule? i = t.rule? i) : t'.total f = t.total f := by
  rw [total_eq_sum f (le_max_left t'.capacity t.capacity),
    total_eq_sum f (le_max_right t'.capacity t.capacity)]
  exact Finset.sum_congr rfl fun i _ => by rw [h i]

/-- The rules at distinct offsets are among all rules. -/
lemma sum_filterMap_le_total (f : Rule → ℕ) (t : RuleTable) {offsets : List ℕ}
    (hnodup : offsets.Nodup) : ((offsets.filterMap t.rule?).map f).sum ≤ t.total f := by
  have hlist : ((offsets.filterMap t.rule?).map f).sum =
      (offsets.map fun i => (t.rule? i).elim 0 f).sum := by
    induction offsets with
    | nil => rfl
    | cons i offsets ih =>
        have htail := ih (List.nodup_cons.mp hnodup).2
        cases hr : t.rule? i with
        | none => simpa [hr] using htail
        | some r => simpa [hr] using htail
  have hbound : ∀ i ∈ offsets.toFinset, i ∉ Finset.range t.capacity →
      (t.rule? i).elim 0 f = 0 := by
    intro i _ hi
    rw [Finset.mem_range, not_lt] at hi
    rw [rule?_eq_none_of_le hi]
    rfl
  rw [hlist, ← List.sum_toFinset _ hnodup, total_eq_sum f le_rfl]
  calc ∑ i ∈ offsets.toFinset, (t.rule? i).elim 0 f
      ≤ ∑ i ∈ offsets.toFinset ∪ Finset.range t.capacity, (t.rule? i).elim 0 f :=
        Finset.sum_le_sum_of_subset Finset.subset_union_left
    _ = ∑ i ∈ Finset.range t.capacity, (t.rule? i).elim 0 f := by
        symm
        refine Finset.sum_subset Finset.subset_union_right fun i hi hn => ?_
        rcases Finset.mem_union.mp hi with hi | hi
        · exact hbound i hi hn
        · exact absurd hi hn

/-! ### Changes of single slots -/

lemma checkOffset_eq_ok {u : Unit} : t.checkOffset offset = .ok u ↔ offset < t.capacity := by
  rw [checkOffset]
  split
  · next h => simpa using h
  · next h => simpa using h

lemma checkOffset_of_lt (h : offset < t.capacity) : t.checkOffset offset = .ok () :=
  checkOffset_eq_ok.mpr h

/-- The table with other contents in one slot, and its rules counted again. -/
def put (t : RuleTable) (offset : ℕ) (x : Option Rule) : RuleTable where
  slots := t.slots.setIfInBounds offset x
  used := match x with
    | some _ => if (t.rule? offset).isNone then t.used + 1 else t.used
    | none => if (t.rule? offset).isSome then t.used - 1 else t.used

@[simp] lemma slots_put (t : RuleTable) (offset : ℕ) (x : Option Rule) :
    (t.put offset x).slots = t.slots.setIfInBounds offset x := rfl

lemma rule?_put (h : offset < t.capacity) (x : Option Rule) (k : ℕ) :
    (t.put offset x).rule? k = if k = offset then x else t.rule? k :=
  join_setIfInBounds h x k

@[simp] lemma capacity_put (t : RuleTable) (offset : ℕ) (x : Option Rule) :
    (t.put offset x).capacity = t.capacity :=
  Array.size_setIfInBounds

/-- A slot that gets other contents changes a total by their difference. -/
lemma total_put (f : Rule → ℕ) (h : offset < t.capacity) (x : Option Rule) :
    (t.put offset x).total f + (t.rule? offset).elim 0 f = t.total f + x.elim 0 f := by
  have hslot : t.slots.toList[offset]? = some t.slots[offset] := by
    simpa using Array.getElem?_eq_getElem h
  have hrule : t.rule? offset = t.slots[offset] := by
    rw [rule?, Array.getElem?_eq_getElem h]
    rfl
  rw [total_eq_slotSum, total_eq_slotSum, slots_put, Array.toList_setIfInBounds, hrule]
  exact slotSum_set f hslot x

/-- Below the capacity a rule can be stored, and the rule that was there comes out. -/
lemma set_eq (h : offset < t.capacity) (r : Rule) :
    t.set offset r = .ok (t.rule? offset, t.put offset (some r)) := by
  simp only [set, checkOffset_of_lt h, ok_bind]
  rfl

/-- Below the capacity a slot can be emptied, and the rule that was there comes out. -/
lemma clear_eq (h : offset < t.capacity) :
    t.clear offset = .ok (t.rule? offset, t.put offset none) := by
  simp only [clear, checkOffset_of_lt h, ok_bind]
  rfl

/-! ### Changes of several slots -/

/-- A batch is stored from its head on. -/
lemma setAll_cons {batch : List (ℕ × Rule)} {replaced : List Rule} (h : offset < t.capacity) :
    t.setAll ((offset, r) :: batch) = .ok (replaced, t') ↔ ∃ rest,
      (t.put offset (some r)).setAll batch = .ok (rest, t') ∧
        replaced = (t.rule? offset).toList ++ rest := by
  simp only [setAll, set_eq h, ok_bind, bind_eq_ok, pure_eq_ok, Prod.mk.injEq, Prod.exists]
  constructor
  · rintro ⟨rest, t'', hrest, rfl, rfl⟩
    exact ⟨rest, hrest, rfl⟩
  · rintro ⟨rest, hrest, rfl⟩
    exact ⟨rest, t', hrest, rfl, rfl⟩

/-- Slots are emptied one after another, too. -/
lemma clearAll_cons {offsets : List ℕ} {cleared : List Rule} (h : offset < t.capacity) :
    t.clearAll (offset :: offsets) = .ok (cleared, t') ↔ ∃ rest,
      (t.put offset none).clearAll offsets = .ok (rest, t') ∧
        cleared = (t.rule? offset).toList ++ rest := by
  simp only [clearAll, clear_eq h, ok_bind, bind_eq_ok, pure_eq_ok, Prod.mk.injEq, Prod.exists]
  constructor
  · rintro ⟨rest, t'', hrest, rfl, rfl⟩
    exact ⟨rest, hrest, rfl⟩
  · rintro ⟨rest, hrest, rfl⟩
    exact ⟨rest, t', hrest, rfl, rfl⟩

/-- A batch whose offsets have passed the check is stored for certain. -/
lemma exists_setAll {batch : List (ℕ × Rule)} (h : ∀ e ∈ batch, e.1 < t.capacity) :
    ∃ replaced t', t.setAll batch = .ok (replaced, t') := by
  induction batch generalizing t with
  | nil => exact ⟨[], t, rfl⟩
  | cons e batch ih =>
      obtain ⟨offset, r⟩ := e
      have hlt := h _ (List.mem_cons_self ..)
      obtain ⟨rest, t', hrest⟩ := ih (t := t.put offset (some r))
        (fun e he => by simpa using h e (List.mem_cons_of_mem _ he))
      exact ⟨_, t', (setAll_cons hlt).mpr ⟨rest, hrest, rfl⟩⟩

/-- Slots whose offsets have passed the check are emptied for certain. -/
lemma exists_clearAll {offsets : List ℕ} (h : ∀ offset ∈ offsets, offset < t.capacity) :
    ∃ cleared t', t.clearAll offsets = .ok (cleared, t') := by
  induction offsets generalizing t with
  | nil => exact ⟨[], t, rfl⟩
  | cons offset offsets ih =>
      have hlt := h _ (List.mem_cons_self ..)
      obtain ⟨rest, t', hrest⟩ := ih (t := t.put offset none)
        (fun e he => by simpa using h e (List.mem_cons_of_mem _ he))
      exact ⟨_, t', (clearAll_cons hlt).mpr ⟨rest, hrest, rfl⟩⟩

lemma lt_of_setAll {batch : List (ℕ × Rule)} {replaced : List Rule}
    (h : t.setAll ((offset, r) :: batch) = .ok (replaced, t')) : offset < t.capacity := by
  simp only [setAll, set, bind_eq_ok, checkOffset_eq_ok] at h
  obtain ⟨_, ⟨_, hlt, -⟩, -⟩ := h
  exact hlt

lemma lt_of_clearAll {offsets : List ℕ} {cleared : List Rule}
    (h : t.clearAll (offset :: offsets) = .ok (cleared, t')) : offset < t.capacity := by
  simp only [clearAll, clear, bind_eq_ok, checkOffset_eq_ok] at h
  obtain ⟨_, ⟨_, hlt, -⟩, -⟩ := h
  exact hlt

/-- Storing rules adds no slots. -/
lemma capacity_setAll {batch : List (ℕ × Rule)} {replaced : List Rule}
    (h : t.setAll batch = .ok (replaced, t')) : t'.capacity = t.capacity := by
  induction batch generalizing t replaced with
  | nil =>
      cases h
      rfl
  | cons e batch ih =>
      obtain ⟨rest, hrest, -⟩ := (setAll_cons (lt_of_setAll h)).mp h
      rw [ih hrest, capacity_put]

lemma capacity_clearAll {offsets : List ℕ} {cleared : List Rule}
    (h : t.clearAll offsets = .ok (cleared, t')) : t'.capacity = t.capacity := by
  induction offsets generalizing t cleared with
  | nil =>
      cases h
      rfl
  | cons offset offsets ih =>
      obtain ⟨rest, hrest, -⟩ := (clearAll_cons (lt_of_clearAll h)).mp h
      rw [ih hrest, capacity_put]

/-- What is stored comes into the sum, what is replaced goes out. -/
lemma total_setAll (f : Rule → ℕ) {batch : List (ℕ × Rule)} {replaced : List Rule}
    (h : t.setAll batch = .ok (replaced, t')) :
    t'.total f + (replaced.map f).sum = t.total f + (batch.map fun e => f e.2).sum := by
  induction batch generalizing t replaced with
  | nil =>
      cases h
      rfl
  | cons e batch ih =>
      have hlt := lt_of_setAll h
      obtain ⟨rest, hrest, rfl⟩ := (setAll_cons hlt).mp h
      have hput := total_put f hlt (some e.2)
      have htail := ih hrest
      have hold : ((t.rule? e.1).toList.map f).sum = (t.rule? e.1).elim 0 f := by
        cases t.rule? e.1 <;> simp
      simp only [Option.elim_some] at hput
      rw [List.map_append, List.sum_append, hold, List.map_cons, List.sum_cons]
      omega

/-- What is cleared goes out of the sum. -/
lemma total_clearAll (f : Rule → ℕ) {offsets : List ℕ} {cleared : List Rule}
    (h : t.clearAll offsets = .ok (cleared, t')) :
    t'.total f + (cleared.map f).sum = t.total f := by
  induction offsets generalizing t cleared with
  | nil =>
      cases h
      rfl
  | cons offset offsets ih =>
      have hlt := lt_of_clearAll h
      obtain ⟨rest, hrest, rfl⟩ := (clearAll_cons hlt).mp h
      have hput := total_put f hlt none
      have htail := ih hrest
      have hold : ((t.rule? offset).toList.map f).sum = (t.rule? offset).elim 0 f := by
        cases t.rule? offset <;> simp
      simp only [Option.elim_none, Nat.add_zero] at hput
      rw [List.map_append, List.sum_append, hold]
      omega

/-- A batch on distinct offsets replaces the rules that were there before. -/
lemma replaced_eq {batch : List (ℕ × Rule)} {replaced : List Rule}
    (hnodup : (batch.map Prod.fst).Nodup) (h : t.setAll batch = .ok (replaced, t')) :
    replaced = (batch.map Prod.fst).filterMap t.rule? := by
  induction batch generalizing t replaced with
  | nil =>
      cases h
      rfl
  | cons e batch ih =>
      have hlt := lt_of_setAll h
      obtain ⟨rest, hrest, rfl⟩ := (setAll_cons hlt).mp h
      rw [List.map_cons, List.nodup_cons] at hnodup
      have hsame : (batch.map Prod.fst).filterMap (t.put e.1 (some e.2)).rule? =
          (batch.map Prod.fst).filterMap t.rule? := by
        refine List.filterMap_congr fun i hi => ?_
        rw [rule?_put hlt, if_neg]
        rintro rfl
        exact hnodup.1 hi
      rw [ih hnodup.2 hrest, hsame, List.map_cons]
      cases hr : t.rule? e.1 <;> simp [hr]

end AclPlane.RuleTable
