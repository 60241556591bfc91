import AclPlane.Proofs.KeyCover.Greedy
import AclPlane.Proofs.KeyCover.Search

/-!
Choosing among candidates.

A choice is what the search finds below the size of the greedy cover, or else the greedy cover
itself (`choose?_cases`).

* `choose?_eq_some`: a choice is a cover within the budget.
* `choose?_le`, `choose?_eq_none`: if the search may examine every selection, a choice is a
  smallest cover, and a choice that fails means that no cover is within the budget.
-/

namespace AclPlane.KeyCover

variable {fields : FieldSet} {pool blocks s : List KeyBlock} {budget : ℕ}

/-! ### Choosing among candidates -/

/-- Without a greedy cover of that size the search goes up to the budget. -/
lemma choose?_eq (hne : fields.isEmpty = false) : choose? fields pool budget =
    (smallestCover? fields pool
        (((greedy? fields pool).map fun g => min (g.length - 1) budget).getD budget)).or
      ((greedy? fields pool).filter fun g => g.length ≤ budget) := by
  rw [choose?, if_neg (by simp [hne])]
  cases greedy? fields pool with
  | none =>
      simp only [Option.map_none, Option.getD_none]
      cases smallestCover? fields pool budget <;> rfl
  | some g =>
      simp only [Option.map_some, Option.getD_some]
      cases smallestCover? fields pool (min (g.length - 1) budget) <;> rfl

lemma choose?_of_isEmpty (h : fields.isEmpty = true) : choose? fields pool budget = some [] := by
  rw [choose?, if_pos h]

/-- A choice is either found by the search or the greedy cover. -/
lemma choose?_cases (h : choose? fields pool budget = some blocks) :
    (fields.isEmpty = true ∧ blocks = []) ∨
      (∃ limit ≤ budget, smallestCover? fields pool limit = some blocks) ∨
      (blocks.length ≤ budget ∧ greedy? fields pool = some blocks ∧
        smallestCover? fields pool (blocks.length - 1) = none) := by
  cases hne : fields.isEmpty with
  | true =>
      rw [choose?_of_isEmpty hne, Option.some.injEq] at h
      exact .inl ⟨rfl, h.symm⟩
  | false =>
      right
      rw [choose?_eq hne, Option.or_eq_some_iff] at h
      rcases h with h | ⟨hnone, hgreedy⟩
      · refine .inl ⟨_, ?_, h⟩
        cases greedy? fields pool with
        | none => exact le_rfl
        | some g => exact min_le_right _ _
      · obtain ⟨hg, hle⟩ := Option.filter_eq_some_iff.mp hgreedy
        have hle : blocks.length ≤ budget := by simpa using hle
        rw [hg, Option.map_some, Option.getD_some, min_eq_left (by omega)] at hnone
        exact .inr ⟨hle, hg, hnone⟩

/-- What is chosen are distinct candidates within the budget that form a cover. -/
lemma choose?_eq_some (hids : (pool.map KeyBlock.id).Nodup)
    (h : choose? fields pool budget = some blocks) :
    (∀ b ∈ blocks, b ∈ pool) ∧ (blocks.map KeyBlock.id).Nodup ∧ isCover fields blocks = true ∧
      blocks.length ≤ budget := by
  rcases choose?_cases h with ⟨hne, rfl⟩ | ⟨limit, hlimit, hfound⟩ | ⟨hle, hgreedy, -⟩
  · refine ⟨by simp, List.nodup_nil, isCover_iff.mpr ⟨.nil, fun k hk => ?_⟩, Nat.zero_le _⟩
    rw [FieldSet.isEmpty_iff.mp hne k] at hk
    cases hk
  · obtain ⟨hsub, hle, hcover, -⟩ := of_smallestCover?_eq_some hfound
    exact ⟨fun b hb => hsub.subset hb, hids.sublist (hsub.map _), hcover, le_trans hle hlimit⟩
  · obtain ⟨hsub, hnodup, hcover⟩ := of_greedy? hgreedy
    exact ⟨hsub, hnodup, hcover, hle⟩

/-! ### Smallest choices -/

/-- The number of ways to select at least one and at most `budget` of `n` candidates. -/
def ways (budget n : ℕ) : ℕ := ∑ k ∈ Finset.Icc 1 budget, n.choose k

lemma ways_mono {limit n : ℕ} (h : limit ≤ budget) : ways limit n ≤ ways budget n :=
  Finset.sum_le_sum_of_subset (Finset.Icc_subset_Icc_right h)

lemma length_selectionsUpTo_le {limit : ℕ} (h : limit ≤ budget) :
    (selectionsUpTo limit pool).length ≤ ways budget pool.length := by
  rw [length_selectionsUpTo]
  exact ways_mono (le_trans (min_le_left _ _) h)

/-- There are fewer selections than subsets. -/
lemma ways_lt (budget n : ℕ) : ways budget n < 2 ^ n := by
  have hsplit : ∑ k ∈ Finset.range (n + 1), n.choose k =
      (∑ k ∈ Finset.Icc 1 n, n.choose k) + 1 := by
    rw [Finset.range_eq_Ico, Finset.sum_eq_sum_Ico_succ_bot (Nat.succ_pos n), Nat.choose_zero_right,
      Nat.add_comm]
    rfl
  have hle : ways budget n ≤ ∑ k ∈ Finset.Icc 1 n, n.choose k := by
    refine Finset.sum_le_sum_of_ne_zero fun k hk hne => ?_
    rw [Finset.mem_Icc] at hk ⊢
    exact ⟨hk.1, Nat.le_of_not_lt fun hlt => hne (Nat.choose_eq_zero_of_lt hlt)⟩
  rw [← Nat.sum_range_choose, hsplit]
  exact Nat.lt_succ_of_le hle

/-- A selection that covers something is not empty. -/
lemma length_pos_of_isCover (hne : fields.isEmpty = false) (h : isCover fields s = true) :
    0 < s.length := by
  cases s with
  | nil =>
      have hempty : fields.isEmpty = true := by
        refine FieldSet.isEmpty_iff.mpr fun k => ?_
        rw [Bool.eq_false_iff]
        intro hk
        obtain ⟨b, hb, -⟩ := (isCover_iff.mp h).2 k hk
        cases hb
      rw [hne] at hempty
      cases hempty
  | cons b rest => exact Nat.succ_pos _

/-- If every selection may be examined, no cover among them is smaller than the choice. -/
lemma choose?_le (hcount : ways budget pool.length ≤ maxCombinations)
    (h : choose? fields pool budget = some blocks) (hs : s.Sublist pool)
    (hcover : isCover fields s = true) : blocks.length ≤ s.length := by
  cases hne : fields.isEmpty with
  | true =>
      rw [choose?_of_isEmpty hne, Option.some.injEq] at h
      subst h
      exact Nat.zero_le _
  | false =>
      have hpos := length_pos_of_isCover hne hcover
      rcases choose?_cases h with ⟨hempty, -⟩ | ⟨limit, -, hfound⟩ | ⟨hle, -, hnone⟩
      · rw [hne] at hempty
        cases hempty
      · exact (of_smallestCover?_eq_some hfound).2.2.2 s hs hpos hcover
      · by_contra hlt
        have hno := of_smallestCover?_eq_none hnone
          (le_trans (length_selectionsUpTo_le (by omega)) hcount) s hs hpos (by omega)
        rw [hcover] at hno
        cases hno

/-- If every selection may be examined and nothing is chosen, no cover is within the budget. -/
lemma choose?_eq_none (hcount : ways budget pool.length ≤ maxCombinations)
    (h : choose? fields pool budget = none) (hs : s.Sublist pool)
    (hcover : isCover fields s = true) : budget < s.length := by
  cases hne : fields.isEmpty with
  | true =>
      rw [choose?_of_isEmpty hne] at h
      cases h
  | false =>
      rw [choose?_eq hne, Option.or_eq_none_iff] at h
      obtain ⟨hnone, hgreedy⟩ := h
      -- a greedy cover lies above the budget, so it does not limit the search
      have hlimit : ((greedy? fields pool).map fun g => min (g.length - 1) budget).getD budget =
          budget := by
        cases hg : greedy? fields pool with
        | none => rfl
        | some g =>
            rw [hg] at hgreedy
            have hlt : budget < g.length := by simpa using hgreedy
            exact min_eq_right (by omega)
      rw [hlimit] at hnone
      by_contra hle
      have hno := of_smallestCover?_eq_none hnone
        (le_trans (length_selectionsUpTo_le le_rfl) hcount) s hs
        (length_pos_of_isCover hne hcover) (Nat.le_of_not_lt hle)
      rw [hcover] at hno
      cases hno

end AclPlane.KeyCover
