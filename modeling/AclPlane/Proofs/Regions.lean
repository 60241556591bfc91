import AclPlane.Proofs.Arena
import AclPlane.Proofs.Rearrange
import AclPlane.Region

/-!
Region plans, taken apart.

Each lemma says when a plan succeeds and what it gives: `hwSizeFor_eq_ok`, `checkBudget_eq_ok`,
`planCreate_eq_ok` and `planResize_eq_ok`.  A hardware size is never below the capacity that it
was computed for (`le_roundUp`).
-/

namespace AclPlane.Regions

variable {rs : Regions} {id : Handle .region} {r : Region} {capacity width hwSize : ℕ}

lemma get_eq_ok : rs.get id = .ok r ↔ rs.regions.get? id = some r := by
  rw [get]
  cases rs.regions.get? id with
  | none => simp
  | some r' => simp

lemma le_roundUp (n : ℕ) : n ≤ roundUp n := by
  rw [roundUp]
  split
  · assumption
  · have hlog : n - 1 < 2 ^ ((n - 1).log2 + 1) := Nat.lt_log2_self
    rw [Nat.shiftLeft_eq, Nat.one_mul]
    omega

/-- A capacity gets the least power of two if it is positive, within the limit, and that power fits
in 32 bits. -/
lemma hwSizeFor_eq_ok : rs.hwSizeFor capacity = .ok hwSize ↔
    (capacity ≠ 0 ∧ capacity ≤ rs.maxRulesPerRegion ∧ roundUp capacity < UInt32.size) ∧
      roundUp capacity = hwSize := by
  simp only [hwSizeFor, guard_eq_ok, pure_eq_ok, not_lt, not_le, and_assoc, ne_eq]

lemma le_of_hwSizeFor (h : rs.hwSizeFor capacity = .ok hwSize) : capacity ≤ hwSize := by
  rw [← (hwSizeFor_eq_ok.mp h).2]
  exact le_roundUp capacity

/-- The budget admits an exchange of rows if those given back are in use and the others fit. -/
lemma checkBudget_eq_ok {released needed : ℕ} {u : Unit} :
    rs.checkBudget released needed = .ok u ↔
      released ≤ rs.hwUsed ∧ rs.hwUsed - released + needed ≤ rs.hwRuleBudget := by
  simp only [checkBudget, guard_eq_ok, last_guard_eq_ok, pure_eq_ok, not_lt, and_true]

/-- A region is planned with its hardware size, room in the budget, and the next handle. -/
lemma planCreate_eq_ok : rs.planCreate width capacity = .ok (id, hwSize) ↔
    rs.hwSizeFor capacity = .ok hwSize ∧
      rs.hwUsed + Region.rowCost hwSize width ≤ rs.hwRuleBudget ∧
      rs.regions.nextHandle? = some id := by
  simp only [planCreate, bind_eq_ok, checkBudget_eq_ok, Nat.zero_le, true_and, Nat.sub_zero]
  constructor
  · rintro ⟨size, hsize, -, hbudget, h⟩
    split at h
    · next id' hn =>
        simp only [pure_eq_ok, Prod.mk.injEq] at h
        obtain ⟨rfl, rfl⟩ := h
        exact ⟨hsize, hbudget, hn⟩
    · cases h
  · rintro ⟨hsize, hbudget, hn⟩
    refine ⟨hwSize, hsize, (), hbudget, ?_⟩
    rw [hn]
    rfl

/-- A region can be resized exactly if its rules fit and the budget allows it. -/
lemma planResize_eq_ok : rs.planResize id capacity = .ok hwSize ↔
    ∃ r, rs.regions.get? id = some r ∧ rs.hwSizeFor capacity = .ok hwSize ∧
      (∀ i rule, r.table.rule? i = some rule → i < capacity) ∧
      r.cost ≤ rs.hwUsed ∧
      rs.hwUsed - r.cost + Region.rowCost hwSize r.width ≤ rs.hwRuleBudget := by
  simp only [planResize, bind_eq_ok, get_eq_ok]
  refine exists_congr fun r => and_congr_right fun _ => ?_
  constructor
  · rintro ⟨size, hsize, h⟩
    cases hh : r.table.highest? with
    | none =>
        rw [hh] at h
        simp only [bind_eq_ok, checkBudget_eq_ok, pure_eq_ok] at h
        obtain ⟨-, ⟨hused, hbudget⟩, rfl⟩ := h
        refine ⟨hsize, fun i rule hi => ?_, hused, hbudget⟩
        rw [RuleTable.rule?_of_highest?_none hh] at hi
        cases hi
    | some highest =>
        rw [hh] at h
        simp only [guard_eq_ok, bind_eq_ok, checkBudget_eq_ok, pure_eq_ok, not_le] at h
        obtain ⟨hlt, -, ⟨hused, hbudget⟩, rfl⟩ := h
        exact ⟨hsize, fun i rule hi => lt_of_le_of_lt (RuleTable.le_of_highest? hh hi) hlt,
          hused, hbudget⟩
  · rintro ⟨hsize, hrules, hused, hbudget⟩
    refine ⟨hwSize, hsize, ?_⟩
    cases hh : r.table.highest? with
    | none =>
        simp only [bind_eq_ok, checkBudget_eq_ok, pure_eq_ok]
        exact ⟨(), ⟨hused, hbudget⟩, trivial⟩
    | some highest =>
        obtain ⟨rule, hrule⟩ := RuleTable.exists_rule?_of_highest? hh
        simp only [guard_eq_ok, bind_eq_ok, checkBudget_eq_ok, pure_eq_ok, not_le]
        exact ⟨hrules _ _ hrule, (), ⟨hused, hbudget⟩, trivial⟩

/-- The region with another capacity, another hardware size and another table. -/
lemma resize_eq_ok {rs' : Regions} : rs.resize id capacity hwSize = .ok rs' ↔
    ∃ r table, rs.regions.get? id = some r ∧ r.table.resize capacity = .ok table ∧
      { rs with
        regions := rs.regions.set id
          { r with capacity := capacity, hwSize := hwSize, table := table }
        hwUsed := rs.hwUsed - r.cost + Region.rowCost hwSize r.width } = rs' := by
  simp only [resize, bind_eq_ok, get_eq_ok, pure_eq_ok, exists_and_left]

end AclPlane.Regions
