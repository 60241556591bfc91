import AclPlane.Proofs.KeyCover.Search
import Mathlib.Data.List.Sort

/-!
The exhaustive pass as a loop that steps from one selection to the next.

The search of `smallestCover?` recurses on the candidates.  Seen as a loop, it keeps the indices
of the selected candidates in ascending order; a step raises the last index that can be raised
and lets the indices behind it follow closely.

* `next?`: the step, and `steppedCover?`, the loop around it.
* `combinations`: the combinations of indices in lexicographic order (`sorted_combinations`).
* `stepping_combinations`: from the first combination on, the steps run through the others in
  this order and end behind the last one.
* `steppedCover?_eq`: the loop finds what the recursion finds.
* `exhaustive_pass`: how the pass goes and what it returns.
-/

namespace AclPlane.KeyCover

/-! ### The loop -/

/-- The last place whose index can be raised: with `k` of `n` indices selected, the index at
place `i` is at most `n - k + i`. -/
def raisable? (n : ℕ) (idx : List ℕ) : Option ℕ :=
  (List.range idx.length).reverse.find? (fun i => idx.getD i 0 < n - idx.length + i)

/-- Lets the index at a place follow the one before it. -/
def follow (idx : List ℕ) (j : ℕ) : List ℕ := idx.set j (idx.getD (j - 1) 0 + 1)

/-- Lets every index behind a place follow the one before it. -/
def followFrom (pos : ℕ) (idx : List ℕ) : List ℕ :=
  (List.range' (pos + 1) (idx.length - (pos + 1))).foldl follow idx

/-- The combination of indices below `n` behind the given one. -/
def next? (n : ℕ) (idx : List ℕ) : Option (List ℕ) :=
  (raisable? n idx).map (fun pos => followFrom pos (idx.set pos (idx.getD pos 0 + 1)))

/-- The candidates at the given indices. -/
def pick (candidates : List KeyBlock) (idx : List ℕ) : List KeyBlock :=
  idx.filterMap (candidates[·]?)

/-- Examines the selection at the given indices and those behind it. -/
def sweep (valid : List KeyBlock → Bool) (candidates : List KeyBlock) : ℕ → List ℕ → Search
  | 0, _ => .gaveUp
  | left + 1, idx =>
    if valid (pick candidates idx) then .found (pick candidates idx)
    else match next? candidates.length idx with
      | some idx => sweep valid candidates left idx
      | none => .searching left

/-- Examines the selections of the given sizes, each from its first combination on. -/
def sweepSizes (valid : List KeyBlock → Bool) (candidates : List KeyBlock) :
    List ℕ → ℕ → Search
  | [], left => .searching left
  | k :: sizes, left =>
    (sweep valid candidates left (List.range k)).andThen (sweepSizes valid candidates sizes)

/-- The first cover of at most `limit` blocks that the loop comes to. -/
def steppedCover? (fields : FieldSet) (candidates : List KeyBlock) (limit : ℕ) :
    Option (List KeyBlock) :=
  match sweepSizes (isCover fields) candidates (List.range' 1 (min limit candidates.length))
      maxCombinations with
  | .found blocks => some blocks
  | _ => none

/-- The combination of `k` indices below `n` that is reached after `i` steps, if the steps do not
end before. -/
def visited (n k i : ℕ) : Option (List ℕ) :=
  (fun idx => idx.bind (next? n))^[i] (some (List.range k))

/-! ### Combinations in lexicographic order -/

/-- The combinations of `k` of the `m` indices from `a` on. -/
def combinations (a m k : ℕ) : List (List ℕ) := ((List.range' a m).sublistsLen k).reverse

lemma combinations_zero (a m : ℕ) : combinations a m 0 = [[]] := by
  rw [combinations, List.sublistsLen_zero, List.reverse_singleton]

lemma combinations_of_lt (a : ℕ) {m k : ℕ} (h : m < k) : combinations a m k = [] := by
  rw [combinations, List.sublistsLen_of_length_lt (by rwa [List.length_range']), List.reverse_nil]

/-- Combinations with the first index come before those without it. -/
lemma combinations_succ (a m k : ℕ) :
    combinations a (m + 1) (k + 1) =
      (combinations (a + 1) m k).map (a :: ·) ++ combinations (a + 1) m (k + 1) := by
  rw [combinations, List.range'_succ, List.sublistsLen_succ_cons, List.reverse_append,
    ← List.map_reverse]
  rfl

lemma length_combinations (a m k : ℕ) : (combinations a m k).length = m.choose k := by
  rw [combinations, List.length_reverse, List.length_sublistsLen, List.length_range']

/-- A combination is a strictly ascending list of as many indices. -/
lemma mem_combinations {a m k : ℕ} {idx : List ℕ} :
    idx ∈ combinations a m k ↔
      idx.length = k ∧ idx.Pairwise (· < ·) ∧ ∀ i ∈ idx, a ≤ i ∧ i < a + m := by
  rw [combinations, List.mem_reverse, List.mem_sublistsLen]
  constructor
  · rintro ⟨hsub, hlen⟩
    exact ⟨hlen, (List.pairwise_lt_range' ..).sublist hsub,
      fun i hi => List.mem_range'_1.mp (hsub.subset hi)⟩
  · rintro ⟨hlen, hsorted, hmem⟩
    refine ⟨?_, hlen⟩
    have hnodup : idx.Nodup := hsorted.imp fun h => h.ne
    have hsubset : idx ⊆ List.range' a m := fun i hi => List.mem_range'_1.mpr (hmem i hi)
    exact List.sublist_of_subperm_of_pairwise (List.subperm_of_subset hnodup hsubset) hsorted
      (List.pairwise_lt_range' ..)

/-- The combinations come in strictly ascending lexicographic order, hence each of them once. -/
lemma sorted_combinations (a m k : ℕ) : (combinations a m k).Pairwise (· < ·) := by
  induction m generalizing a k with
  | zero =>
      cases k with
      | zero => simp [combinations_zero]
      | succ k => simp [combinations_of_lt a k.succ_pos]
  | succ m ih =>
      cases k with
      | zero => simp [combinations_zero]
      | succ k =>
          rw [combinations_succ, List.pairwise_append, List.pairwise_map]
          refine ⟨(ih (a + 1) k).imp fun h => List.cons_lt_cons_iff.mpr (.inr ⟨rfl, h⟩),
            ih (a + 1) (k + 1), ?_⟩
          -- what begins with `a` comes before what begins with a later index
          intro idx hidx idx' hidx'
          obtain ⟨t, -, rfl⟩ := List.mem_map.mp hidx
          obtain ⟨hlen, -, hmem⟩ := mem_combinations.mp hidx'
          cases idx' with
          | nil => cases hlen
          | cons b t' =>
              have hb := (hmem b (List.mem_cons_self ..)).1
              exact List.cons_lt_cons_iff.mpr (.inl (by omega))

/-! ### The step -/

/-- The last place that can be raised is one behind the first, or else the first. -/
lemma raisable?_cons {n a : ℕ} {t : List ℕ} (h : t.length < n) :
    raisable? n (a :: t) =
      ((raisable? n t).map Nat.succ).or (if a < n - (t.length + 1) then some 0 else none) := by
  have hbehind : (fun i => decide ((a :: t).getD i 0 < n - (t.length + 1) + i)) ∘ Nat.succ =
      fun i => decide (t.getD i 0 < n - t.length + i) := by
    funext i
    have hroom : n - (t.length + 1) + (i + 1) = n - t.length + i := by omega
    simp [hroom]
  have hfirst : [0].find? (fun i => decide ((a :: t).getD i 0 < n - (t.length + 1) + i)) =
      if a < n - (t.length + 1) then some 0 else none := by
    by_cases ha : a < n - (t.length + 1) <;> simp [ha]
  rw [raisable?, List.length_cons, List.range_succ_eq_map, List.reverse_cons, ← List.map_reverse,
    List.find?_append, List.find?_map, hbehind, hfirst, raisable?]

/-- Behind the first place, following does not touch the first index. -/
lemma follow_succ_cons (a : ℕ) (t : List ℕ) {j : ℕ} (hj : 0 < j) :
    follow (a :: t) (j + 1) = a :: follow t j := by
  obtain ⟨j, rfl⟩ := Nat.exists_eq_succ_of_ne_zero hj.ne'
  rfl

lemma foldl_follow_cons (a s : ℕ) (m : ℕ) (t : List ℕ) :
    (List.range' (s + 2) m).foldl follow (a :: t) =
      a :: (List.range' (s + 1) m).foldl follow t := by
  induction m generalizing s t with
  | zero => rfl
  | succ m ih =>
      rw [List.range'_succ, List.range'_succ, List.foldl_cons, List.foldl_cons,
        follow_succ_cons a t s.succ_pos]
      exact ih (s + 1) _

lemma followFrom_succ_cons (pos a : ℕ) (t : List ℕ) :
    followFrom (pos + 1) (a :: t) = a :: followFrom pos t := by
  rw [followFrom, foldl_follow_cons, List.length_cons, Nat.add_sub_add_right]
  rfl

/-- From the first place on, all indices follow the first. -/
lemma followFrom_zero_cons (a : ℕ) (t : List ℕ) :
    followFrom 0 (a :: t) = List.range' a (t.length + 1) := by
  induction t generalizing a with
  | nil => rfl
  | cons b t ih =>
      have hrest : followFrom 0 (a :: b :: t) = a :: followFrom 0 ((a + 1) :: t) := by
        simp only [followFrom, List.length_cons, Nat.add_sub_cancel, Nat.zero_add,
          List.range'_succ, List.foldl_cons]
        exact foldl_follow_cons a 0 t.length _
      rw [hrest, ih]
      rfl

lemma next?_cons_of_some {n a : ℕ} {t t' : List ℕ} (hlen : t.length < n)
    (h : next? n t = some t') : next? n (a :: t) = some (a :: t') := by
  obtain ⟨pos, hpos, rfl⟩ := Option.map_eq_some_iff.mp h
  rw [next?, raisable?_cons hlen, hpos]
  simp [followFrom_succ_cons]

lemma next?_cons_of_none {n a : ℕ} {t : List ℕ} (hlen : t.length < n) (h : next? n t = none) :
    next? n (a :: t) =
      if a < n - (t.length + 1) then some (List.range' (a + 1) (t.length + 1)) else none := by
  rw [next?, raisable?_cons hlen, Option.map_eq_none_iff.mp h]
  by_cases ha : a < n - (t.length + 1) <;> simp [ha, followFrom_zero_cons]

/-! ### Stepping through a list -/

/-- Steps from `x` on run through a list and end behind it. -/
inductive Stepping {α : Type} (next? : α → Option α) : α → List α → Prop
  | last {x : α} (h : next? x = none) : Stepping next? x [x]
  | step {x y : α} {l : List α} (h : next? x = some y) (rest : Stepping next? y l) :
      Stepping next? x (x :: l)

namespace Stepping

variable {α : Type} {f g : α → Option α} {x y : α} {l l' : List α}

/-- Steps lift along a map that respects them. -/
lemma map {e : α → α} (h : Stepping f x l)
    (hstep : ∀ u ∈ l, ∀ v, f u = some v → g (e u) = some (e v))
    (hlast : ∀ u ∈ l, f u = none → g (e u) = none) : Stepping g (e x) (l.map e) := by
  induction h with
  | last h => exact .last (hlast _ (List.mem_singleton.mpr rfl) h)
  | step h _ ih =>
      rw [List.forall_mem_cons] at hstep hlast
      exact .step (hstep.1 _ h) (ih hstep.2 hlast.2)

/-- Steps that lift along a map go on with a second list behind the last one. -/
lemma map_append {e : α → α} (h : Stepping f x l) (h' : Stepping g y l')
    (hstep : ∀ u ∈ l, ∀ v, f u = some v → g (e u) = some (e v))
    (hlast : ∀ u ∈ l, f u = none → g (e u) = some y) : Stepping g (e x) (l.map e ++ l') := by
  induction h with
  | last h => exact .step (hlast _ (List.mem_singleton.mpr rfl) h) h'
  | step h _ ih =>
      rw [List.forall_mem_cons] at hstep hlast
      exact .step (hstep.1 _ h) (ih hstep.2 hlast.2)

/-- What is reached after `i` steps stands at place `i` of the list. -/
lemma iterate (h : Stepping f x l) (i : ℕ) : (fun o => o.bind f)^[i] (some x) = l[i]? := by
  have hend : ∀ i, (fun o => o.bind f)^[i] (none : Option α) = none :=
    fun i => Function.iterate_fixed rfl i
  induction h generalizing i with
  | last h =>
      cases i with
      | zero => rfl
      | succ i => simpa [h] using hend i
  | step h _ ih =>
      cases i with
      | zero => rfl
      | succ i => simpa [h] using ih i

end Stepping

/-- From the first combination on, the steps run through all others in their order. -/
theorem stepping_combinations (a m k : ℕ) (h : k ≤ m) :
    Stepping (next? (a + m)) (List.range' a k) (combinations a m k) := by
  induction m generalizing a k with
  | zero =>
      obtain rfl : k = 0 := Nat.le_zero.mp h
      rw [combinations_zero]
      exact .last rfl
  | succ m ih =>
      cases k with
      | zero =>
          rw [combinations_zero]
          exact .last rfl
      | succ k =>
          have hfirst := ih (a + 1) k (Nat.le_of_succ_le_succ h)
          rw [Nat.add_right_comm, Nat.add_assoc] at hfirst
          have hlen : ∀ t ∈ combinations (a + 1) m k, t.length = k :=
            fun t ht => (mem_combinations.mp ht).1
          have hstep : ∀ t ∈ combinations (a + 1) m k, ∀ t', next? (a + (m + 1)) t = some t' →
              next? (a + (m + 1)) (a :: t) = some (a :: t') :=
            fun t ht t' => next?_cons_of_some (by rw [hlen t ht]; omega)
          rw [combinations_succ, List.range'_succ]
          -- Behind the last combination with `a`, the index `a` is raised if there is room.
          by_cases hroom : k + 1 ≤ m
          · have hrest := ih (a + 1) (k + 1) hroom
            rw [Nat.add_right_comm, Nat.add_assoc] at hrest
            refine hfirst.map_append hrest hstep fun t ht hnone => ?_
            rw [next?_cons_of_none (by rw [hlen t ht]; omega) hnone, hlen t ht, if_pos (by omega)]
          · rw [combinations_of_lt (a + 1) (Nat.lt_of_not_le hroom), List.append_nil]
            refine hfirst.map hstep fun t ht hnone => ?_
            rw [next?_cons_of_none (by rw [hlen t ht]; omega) hnone, hlen t ht, if_neg (by omega)]

example : next? 5 [0, 3, 4] = some [1, 2, 3] := by decide

/-! ### The loop finds what the recursion finds -/

variable {valid : List KeyBlock → Bool} {candidates : List KeyBlock}

/-- Sweeping is examining the selections that the steps run through. -/
lemma sweep_eq {idx : List ℕ} {l : List (List ℕ)}
    (h : Stepping (next? candidates.length) idx l) (left : ℕ) :
    sweep valid candidates left idx = examine valid (l.map (pick candidates)) left := by
  induction h generalizing left with
  | last h =>
      cases left with
      | zero => rfl
      | succ left => simp [sweep, examine, h]
  | step h _ ih =>
      cases left with
      | zero => rfl
      | succ left => simp [sweep, examine, h, ih]

lemma sublistsLen_pick {l : List ℕ} (h : ∀ i ∈ l, i < candidates.length) (k : ℕ) :
    (l.sublistsLen k).map (pick candidates) = (pick candidates l).sublistsLen k := by
  induction l generalizing k with
  | nil => cases k <;> rfl
  | cons i l ih =>
      rw [List.forall_mem_cons] at h
      have hcons : ∀ t, pick candidates (i :: t) = candidates[i] :: pick candidates t :=
        fun t => List.filterMap_cons_some (List.getElem?_eq_getElem h.1)
      cases k with
      | zero => simp [pick]
      | succ k =>
          rw [hcons, List.sublistsLen_succ_cons, List.sublistsLen_succ_cons, List.map_append,
            ih h.2, ← ih h.2 k, List.map_map, List.map_map]
          exact congrArg _ (List.map_congr_left fun t _ => hcons t)

lemma pick_range (candidates : List KeyBlock) :
    pick candidates (List.range candidates.length) = candidates := by
  induction candidates with
  | nil => rfl
  | cons b rest ih =>
      rw [List.length_cons, List.range_succ_eq_map, pick,
        List.filterMap_cons_some (List.getElem?_cons_zero ..), List.filterMap_map]
      exact congrArg (b :: ·) ih

/-- The selections of the search are those at the combinations of indices, in their order. -/
lemma map_pick_combinations (candidates : List KeyBlock) (k : ℕ) :
    (combinations 0 candidates.length k).map (pick candidates) = selections k candidates := by
  rw [combinations, ← List.range_eq_range', List.map_reverse,
    sublistsLen_pick (fun i hi => List.mem_range.mp hi), pick_range, selections]

/-- The combinations of indices below `n` that the pass may visit, smaller ones first. -/
def combinationsUpTo (limit n : ℕ) : List (List ℕ) :=
  (List.range' 1 (min limit n)).flatMap (combinations 0 n)

lemma map_pick_combinationsUpTo (limit : ℕ) (candidates : List KeyBlock) :
    (combinationsUpTo limit candidates.length).map (pick candidates) =
      selectionsUpTo limit candidates := by
  rw [combinationsUpTo, selectionsUpTo, List.map_flatMap]
  exact List.flatMap_congr fun k _ => map_pick_combinations candidates k

lemma sweepSizes_eq {sizes : List ℕ} (h : ∀ k ∈ sizes, k ≤ candidates.length) (left : ℕ) :
    sweepSizes valid candidates sizes left = searchSizes valid candidates sizes left := by
  rw [searchSizes_eq]
  induction sizes generalizing left with
  | nil => rfl
  | cons k sizes ih =>
      rw [List.forall_mem_cons] at h
      have hsteps := stepping_combinations 0 candidates.length k h.1
      rw [Nat.zero_add, ← List.range_eq_range'] at hsteps
      rw [sweepSizes, sweep_eq hsteps, map_pick_combinations, List.flatMap_cons, examine_append,
        funext (ih h.2)]

/-- The loop finds what the recursion finds. -/
theorem steppedCover?_eq (fields : FieldSet) (candidates : List KeyBlock) (limit : ℕ) :
    steppedCover? fields candidates limit = smallestCover? fields candidates limit := by
  have hsizes : ∀ k ∈ List.range' 1 (min limit candidates.length), k ≤ candidates.length := by
    intro k hk
    have hlt := (List.mem_range'_1.mp hk).2
    omega
  rw [steppedCover?, sweepSizes_eq hsizes]
  rfl

/-! ### How the pass goes and what it returns -/

/-- The steps from the first combination on run through the combinations of `k` of `n` indices. -/
structure Enumerates (n k : ℕ) : Prop where
  visited_eq : ∀ i, visited n k i = (combinations 0 n k)[i]?
  /-- They end behind the last of `n.choose k` combinations. -/
  ends_iff : ∀ i, visited n k i = none ↔ n.choose k ≤ i
  /-- They ascend strictly in lexicographic order. -/
  ascends : ∀ {i j idx idx'}, i < j → visited n k i = some idx → visited n k j = some idx' →
    idx < idx'
  /-- They come to every combination, and every index is one of a candidate. -/
  visits_iff : ∀ idx, (∃ i, visited n k i = some idx) ↔
    idx.length = k ∧ idx.Pairwise (· < ·) ∧ ∀ i ∈ idx, i < n

lemma enumerates {n k : ℕ} (h : k ≤ n) : Enumerates n k := by
  have hvisited : ∀ i, visited n k i = (combinations 0 n k)[i]? := by
    have hsteps := stepping_combinations 0 n k h
    rw [Nat.zero_add, ← List.range_eq_range'] at hsteps
    exact hsteps.iterate
  refine ⟨hvisited, fun i => ?_, fun {i j idx idx'} hij hi hj => ?_, fun idx => ?_⟩
  · rw [hvisited, List.getElem?_eq_none_iff, length_combinations]
  · rw [hvisited, List.getElem?_eq_some_iff] at hi hj
    obtain ⟨hi, rfl⟩ := hi
    obtain ⟨hj, rfl⟩ := hj
    exact List.pairwise_iff_getElem.mp (sorted_combinations 0 n k) i j hi hj hij
  · simp only [hvisited, ← List.mem_iff_getElem?, mem_combinations, Nat.zero_le, true_and,
      Nat.zero_add]

/-- What is found in the first `m` places of a list, by its place. -/
lemma find?_take_eq_some_iff {α : Type} {l : List α} {p : α → Bool} {m : ℕ} {a : α} :
    (l.take m).find? p = some a ↔
      ∃ i < m, l[i]? = some a ∧ p a = true ∧ ∀ j < i, ∀ b, l[j]? = some b → p b = false := by
  rw [List.find?_eq_some_iff_getElem]
  simp only [List.length_take, lt_min_iff, List.getElem_take, Bool.not_eq_true']
  constructor
  · rintro ⟨ha, i, ⟨him, hil⟩, rfl, hbefore⟩
    refine ⟨i, him, List.getElem?_eq_getElem hil, ha, fun j hj b hb => ?_⟩
    obtain ⟨-, rfl⟩ := List.getElem?_eq_some_iff.mp hb
    exact hbefore j hj
  · rintro ⟨i, him, hi, ha, hbefore⟩
    obtain ⟨hil, rfl⟩ := List.getElem?_eq_some_iff.mp hi
    exact ⟨ha, i, ⟨him, hil⟩, rfl,
      fun j hj => hbefore j hj _ (List.getElem?_eq_getElem (hj.trans hil))⟩

/-- The loop looks for a cover among as many combinations as it may examine. -/
lemma steppedCover?_eq_map_find (fields : FieldSet) (candidates : List KeyBlock) (limit : ℕ) :
    steppedCover? fields candidates limit =
      (((combinationsUpTo limit candidates.length).take maxCombinations).find?
        (fun idx => isCover fields (pick candidates idx))).map (pick candidates) := by
  rw [steppedCover?_eq, smallestCover?_eq, ← map_pick_combinationsUpTo, ← List.map_take,
    List.find?_map]
  rfl

/-- **The exhaustive pass.**  The loop runs through every combination of each size in turn, in
lexicographic order, and returns the first cover that it may examine, which is what the search
returns. -/
theorem exhaustive_pass (fields : FieldSet) (candidates : List KeyBlock) (limit : ℕ) :
    (∀ k ≤ candidates.length, Enumerates candidates.length k) ∧
      (∀ cover, steppedCover? fields candidates limit = some cover ↔
        ∃ i < maxCombinations, ∃ idx,
          (combinationsUpTo limit candidates.length)[i]? = some idx ∧
          pick candidates idx = cover ∧ isCover fields cover = true ∧
          ∀ j < i, ∀ idx', (combinationsUpTo limit candidates.length)[j]? = some idx' →
            isCover fields (pick candidates idx') = false) ∧
      (steppedCover? fields candidates limit = none ↔
        ∀ i < maxCombinations, ∀ idx,
          (combinationsUpTo limit candidates.length)[i]? = some idx →
            isCover fields (pick candidates idx) = false) ∧
      steppedCover? fields candidates limit = smallestCover? fields candidates limit := by
  refine ⟨fun k => enumerates, fun cover => ?_, ?_, steppedCover?_eq fields candidates limit⟩
  · simp only [steppedCover?_eq_map_find, Option.map_eq_some_iff, find?_take_eq_some_iff]
    constructor
    · rintro ⟨idx, ⟨i, hi, hidx, hcover, hbefore⟩, rfl⟩
      exact ⟨i, hi, idx, hidx, rfl, hcover, hbefore⟩
    · rintro ⟨i, hi, idx, hidx, rfl, hcover, hbefore⟩
      exact ⟨idx, ⟨i, hi, hidx, hcover, hbefore⟩, rfl⟩
  · rw [steppedCover?_eq_map_find, Option.map_eq_none_iff, List.find?_eq_none]
    simp only [List.mem_iff_getElem?, List.getElem?_take, Bool.not_eq_true]
    constructor
    · intro h i hi idx hidx
      exact h idx ⟨i, by rw [if_pos hi, hidx]⟩
    · rintro h idx ⟨i, hidx⟩
      by_cases hi : i < maxCombinations
      · rw [if_pos hi] at hidx
        exact h i hi idx hidx
      · rw [if_neg hi] at hidx
        cases hidx

end AclPlane.KeyCover
