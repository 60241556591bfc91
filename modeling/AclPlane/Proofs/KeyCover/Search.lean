import AclPlane.KeyCover
import Mathlib.Tactic

/-!
The search for a smallest cover, as a search through one list.

The search recurses on the candidates and stops in the middle of a size when it has examined
`maxCombinations` selections.  `selectionsUpTo` is the list of the selections in the order in
which they are examined, and `smallestCover?_eq` says that the search finds the first cover among
as many of them as it may examine.  The list is ordered by size, so what is found first is
smallest.

* `of_smallestCover?_eq_some`: a cover that is found is no larger than any other selection.
* `of_smallestCover?_eq_none`: if nothing is found although all selections may be examined, there
  is no cover among them.
-/

namespace AclPlane.KeyCover

variable {valid : List KeyBlock → Bool} {candidates s s' : List KeyBlock} {limit : ℕ}

/-! ### Selections in the order of the search -/

/-- The selections of `k` candidates, those with an earlier candidate first. -/
def selections (k : ℕ) (candidates : List KeyBlock) : List (List KeyBlock) :=
  (candidates.sublistsLen k).reverse

/-- The selections of at least one and at most `limit` candidates, smaller ones first. -/
def selectionsUpTo (limit : ℕ) (candidates : List KeyBlock) : List (List KeyBlock) :=
  (List.range' 1 (min limit candidates.length)).flatMap (selections · candidates)

lemma mem_selections {k : ℕ} :
    s ∈ selections k candidates ↔ s.Sublist candidates ∧ s.length = k := by
  rw [selections, List.mem_reverse, List.mem_sublistsLen]

lemma selections_zero (candidates : List KeyBlock) : selections 0 candidates = [[]] := by
  rw [selections, List.sublistsLen_zero, List.reverse_singleton]

lemma selections_of_length_lt {k : ℕ} (h : candidates.length < k) :
    selections k candidates = [] := by
  rw [selections, List.sublistsLen_of_length_lt h, List.reverse_nil]

/-- Selections with the first candidate come before those without it. -/
lemma selections_succ_cons (k : ℕ) (b : KeyBlock) (rest : List KeyBlock) :
    selections (k + 1) (b :: rest) =
      (selections k rest).map (b :: ·) ++ selections (k + 1) rest := by
  rw [selections, List.sublistsLen_succ_cons, List.reverse_append, ← List.map_reverse]
  rfl

lemma mem_selectionsUpTo :
    s ∈ selectionsUpTo limit candidates ↔
      s.Sublist candidates ∧ 0 < s.length ∧ s.length ≤ limit := by
  simp only [selectionsUpTo, List.mem_flatMap, List.mem_range'_1, mem_selections]
  constructor
  · rintro ⟨k, ⟨hpos, hlt⟩, hsub, rfl⟩
    exact ⟨hsub, hpos, by omega⟩
  · rintro ⟨hsub, hpos, hle⟩
    have hlen := hsub.length_le
    exact ⟨s.length, by omega, hsub, rfl⟩

/-- Smaller selections come first. -/
lemma sorted_selectionsUpTo (limit : ℕ) (candidates : List KeyBlock) :
    (selectionsUpTo limit candidates).Pairwise (fun s s' => s.length ≤ s'.length) := by
  rw [selectionsUpTo, List.pairwise_flatMap]
  refine ⟨fun k _ => List.pairwise_of_forall_mem_list fun s hs s' hs' => ?_, ?_⟩
  · rw [(mem_selections.mp hs).2, (mem_selections.mp hs').2]
  · refine (List.pairwise_lt_range' ..).imp fun hlt s hs s' hs' => ?_
    rw [(mem_selections.mp hs).2, (mem_selections.mp hs').2]
    exact hlt.le

/-- There are as many selections of each size as the binomial coefficient says. -/
lemma length_selectionsUpTo (limit : ℕ) (candidates : List KeyBlock) :
    (selectionsUpTo limit candidates).length =
      ∑ k ∈ Finset.Icc 1 (min limit candidates.length), candidates.length.choose k := by
  rw [selectionsUpTo, List.length_flatMap, ← List.toFinset_range'_1_1,
    List.sum_toFinset _ (List.nodup_range' ..)]
  refine congrArg List.sum (List.map_congr_left fun k _ => ?_)
  rw [selections, List.length_reverse, List.length_sublistsLen]

/-! ### Searching a list -/

/-- Goes on with `f` if nothing has been found and some selections may still be examined. -/
def Search.andThen (found : Search) (f : ℕ → Search) : Search :=
  match found with
  | searching left => f left
  | done => done

/-- Examines the selections of a list one after another. -/
def examine (valid : List KeyBlock → Bool) : List (List KeyBlock) → ℕ → Search
  | [], left => .searching left
  | _ :: _, 0 => .gaveUp
  | s :: rest, left + 1 => if valid s then .found s else examine valid rest left

lemma examine_append (l l' : List (List KeyBlock)) (left : ℕ) :
    examine valid (l ++ l') left = (examine valid l left).andThen (examine valid l') := by
  induction l generalizing left with
  | nil => rfl
  | cons s l ih =>
      cases left with
      | zero => rfl
      | succ left =>
          simp only [List.cons_append, examine, ih]
          split <;> rfl

/-- A selection is found if it is the first valid one among those that may be examined. -/
lemma examine_eq_found {l : List (List KeyBlock)} {left : ℕ} :
    examine valid l left = .found s ↔ (l.take left).find? valid = some s := by
  induction l generalizing left with
  | nil => simp [examine]
  | cons s₀ l ih =>
      cases left with
      | zero => simp [examine]
      | succ left =>
          rw [examine, List.take_succ_cons, List.find?_cons]
          cases valid s₀ with
          | true => simp
          | false => simpa using ih

/-! ### The search is one through the list of selections -/

lemma searchSize_succ_cons (k : ℕ) (b : KeyBlock) (rest taken : List KeyBlock) (left : ℕ)
    (h : k ≤ rest.length) : searchSize valid (k + 1) (b :: rest) taken left =
      (searchSize valid k rest (b :: taken) left).andThen
        (searchSize valid (k + 1) rest taken) := by
  rw [searchSize, if_neg (Nat.not_lt.mpr h)]
  cases searchSize valid k rest (b :: taken) left <;> rfl

lemma searchSize_eq (k : ℕ) (candidates taken : List KeyBlock) (left : ℕ) :
    searchSize valid k candidates taken left =
      examine valid ((selections k candidates).map (taken.reverse ++ ·)) left := by
  induction candidates generalizing k taken left with
  | nil =>
      cases k with
      | zero =>
          rw [selections_zero, List.map_singleton, List.append_nil]
          cases left <;> rfl
      | succ k =>
          rw [selections_of_length_lt (Nat.succ_pos k)]
          rfl
  | cons b rest ih =>
      cases k with
      | zero =>
          rw [selections_zero, List.map_singleton, List.append_nil]
          cases left <;> rfl
      | succ k =>
          by_cases hlen : rest.length < k
          · rw [searchSize, if_pos hlen, selections_of_length_lt (Nat.succ_lt_succ hlen)]
            rfl
          · have hfun : searchSize valid (k + 1) rest taken =
                examine valid ((selections (k + 1) rest).map (taken.reverse ++ ·)) :=
              funext (ih (k + 1) taken)
            rw [searchSize_succ_cons k b rest taken left (Nat.not_lt.mp hlen), ih, hfun,
              ← examine_append, selections_succ_cons, List.map_append, List.map_map]
            simp only [List.reverse_cons, List.append_assoc, List.singleton_append]
            rfl

lemma searchSizes_eq (sizes : List ℕ) (left : ℕ) :
    searchSizes valid candidates sizes left =
      examine valid (sizes.flatMap (selections · candidates)) left := by
  induction sizes generalizing left with
  | nil => rfl
  | cons k sizes ih =>
      have hstep : searchSizes valid candidates (k :: sizes) left =
          (searchSize valid k candidates [] left).andThen
            (searchSizes valid candidates sizes) := by
        rw [searchSizes]
        cases searchSize valid k candidates [] left <;> rfl
      rw [hstep, funext ih, searchSize_eq, List.flatMap_cons, examine_append]
      simp only [List.reverse_nil, List.nil_append, List.map_id']

/-- The first cover among the selections that may be examined. -/
theorem smallestCover?_eq (fields : FieldSet) (candidates : List KeyBlock) (limit : ℕ) :
    smallestCover? fields candidates limit =
      ((selectionsUpTo limit candidates).take maxCombinations).find? (isCover fields) := by
  have hiff : ∀ s, smallestCover? fields candidates limit = some s ↔
      ((selectionsUpTo limit candidates).take maxCombinations).find? (isCover fields) = some s := by
    intro s
    rw [← examine_eq_found, selectionsUpTo, ← searchSizes_eq, smallestCover?]
    split
    · next blocks hfound => rw [hfound, Option.some.injEq, Search.found.injEq]
    · next hother =>
        refine iff_of_false (by simp) fun hfound => ?_
        exact hother s hfound
  exact Option.ext hiff

/-! ### What the search finds -/

variable {fields : FieldSet}

/-- What is found is a cover among the selections, and no cover among them is smaller, whether it
has been examined or not. -/
theorem of_smallestCover?_eq_some (h : smallestCover? fields candidates limit = some s) :
    s.Sublist candidates ∧ s.length ≤ limit ∧ isCover fields s = true ∧
      ∀ s', s'.Sublist candidates → 0 < s'.length → isCover fields s' = true →
        s.length ≤ s'.length := by
  rw [smallestCover?_eq, List.find?_eq_some_iff_append] at h
  obtain ⟨hvalid, before, behind, hsplit, hbefore⟩ := h
  have hlist : selectionsUpTo limit candidates =
      before ++ s :: (behind ++ (selectionsUpTo limit candidates).drop maxCombinations) := by
    rw [← List.cons_append, ← List.append_assoc, ← hsplit, List.take_append_drop]
  have hmem : s ∈ selectionsUpTo limit candidates := by
    rw [hlist]
    exact List.mem_append_right _ (List.mem_cons_self ..)
  obtain ⟨hsub, -, hle⟩ := mem_selectionsUpTo.mp hmem
  refine ⟨hsub, hle, hvalid, fun s' hsub' hpos hvalid' => ?_⟩
  by_cases hle' : s'.length ≤ limit
  · have hmem' : s' ∈ selectionsUpTo limit candidates :=
      mem_selectionsUpTo.mpr ⟨hsub', hpos, hle'⟩
    have hsorted := sorted_selectionsUpTo limit candidates
    rw [hlist, List.pairwise_append, List.pairwise_cons] at hsorted
    rw [hlist, List.mem_append, List.mem_cons] at hmem'
    rcases hmem' with hin | rfl | hin
    · -- an earlier selection is no cover
      have hno := hbefore s' hin
      rw [hvalid'] at hno
      cases hno
    · exact le_rfl
    · exact hsorted.2.1.1 s' hin
  · exact le_trans hle (Nat.le_of_not_le hle')

/-- If nothing is found although every selection may be examined, none is a cover. -/
theorem of_smallestCover?_eq_none (h : smallestCover? fields candidates limit = none)
    (hcount : (selectionsUpTo limit candidates).length ≤ maxCombinations) :
    ∀ s, s.Sublist candidates → 0 < s.length → s.length ≤ limit → isCover fields s = false := by
  intro s hsub hpos hle
  rw [smallestCover?_eq, List.take_of_length_le hcount, List.find?_eq_none] at h
  simpa using h s (mem_selectionsUpTo.mpr ⟨hsub, hpos, hle⟩)

end AclPlane.KeyCover
