import AclPlane.Proofs.HardwareRows
import AclPlane.Proofs.Marks.Determined

/-!
Resizing a region.

A resize is checked three times: the plan and the table compare the highest rule with the capacity,
the device compares it with the rounded size.  The plan decides, since rounding only goes up.

* `Core.exists_resizeRegion_iff`: when a resize is planned.  The rows of the old size are counted as
  given back, and they are always on record.
* `Controller.Resized`, `Controller.resized_of_ok`: what a resize leaves behind.
* `Controller.resize_exact`: both together, for every reachable controller.
-/

namespace AclPlane

/-! ### The plan -/

namespace Core

variable {c : Core} {region : Handle .region} {r : Region} {capacity hwSize : ℕ}

/-- The rows of a region are on record. -/
lemma RowsExact.cost_le (h : c.RowsExact) (hr : c.regions.regions.get? region = some r) :
    r.cost ≤ c.regions.hwUsed := by
  rw [h.hwUsed_eq]
  exact Arena.le_total Region.cost hr

lemma exists_resizeRegion : (∃ change, c.resizeRegion region capacity = .ok change) ↔
    ∃ size, c.regions.planResize region capacity = .ok size := by
  rw [resizeRegion]
  exact exists_bind_pure_iff

/-- A resize is planned exactly if the size is allowed, lies above every rule, and fits the budget
once the rows of the old size are given back. -/
theorem exists_resizeRegion_iff (h : c.RowsExact) (hr : c.regions.regions.get? region = some r)
    (hsize : IsLeast {n | (∃ k, n = 2 ^ k) ∧ capacity ≤ n} hwSize) :
    (∃ change, c.resizeRegion region capacity = .ok change) ↔
      1 ≤ capacity ∧ capacity ≤ c.regions.maxRulesPerRegion ∧ hwSize < UInt32.size ∧
      (∀ k rule, r.table.rule? k = some rule → k < capacity) ∧
      c.regions.hwUsed - r.cost + Region.rowCost hwSize r.width ≤ c.regions.hwRuleBudget := by
  obtain rfl : Regions.roundUp capacity = hwSize := (Regions.isLeast_roundUp capacity).unique hsize
  rw [exists_resizeRegion, Nat.one_le_iff_ne_zero]
  constructor
  · rintro ⟨size, hplan⟩
    obtain ⟨r', hr', hsized, hrules, -, hbudget⟩ := Regions.planResize_eq_ok.mp hplan
    obtain rfl := Option.some.inj (hr.symm.trans hr')
    obtain ⟨⟨hpos, hle, hlt⟩, rfl⟩ := Regions.hwSizeFor_eq_ok.mp hsized
    exact ⟨hpos, hle, hlt, hrules, hbudget⟩
  · rintro ⟨hpos, hle, hlt, hrules, hbudget⟩
    have hsized := Regions.hwSizeFor_eq_ok.mpr ⟨⟨hpos, hle, hlt⟩, rfl⟩
    exact ⟨_, Regions.planResize_eq_ok.mpr ⟨r, hr, hsized, hrules, h.cost_le hr, hbudget⟩⟩

end Core

namespace Controller

variable {s : Controller} {region : Handle .region} {r : Region} {capacity hwSize : ℕ}

/-! ### Reachable controllers -/

lemma Reachable.configured (h : Reachable s) : s.core.Configured s.core.config := by
  obtain ⟨config, given, sink, fresh, steps, hfresh, -, rfl⟩ := h.exists_run
  have hconfigured := configured_run hfresh steps
  rw [hconfigured.config_eq]
  exact hconfigured

lemma Reachable.rowsExact (h : Reachable s) : s.core.RowsExact := by
  obtain ⟨config, given, sink, fresh, steps, hfresh, -, rfl⟩ := h.exists_run
  exact rowsExact_run hfresh steps

/-- A region has as many slots as its capacity says. -/
lemma Reachable.slots_eq (h : Reachable s) (hr : s.core.regions.regions.get? region = some r) :
    r.table.capacity = r.capacity := by
  obtain ⟨config, given, sink, fresh, steps, hfresh, -, rfl⟩ := h.exists_run
  exact (fits_run hfresh steps region r hr).slots

/-- A slot without a rule has no bit. -/
lemma Reachable.bit_eq_false (h : Reachable s) (hr : s.core.regions.regions.get? region = some r)
    {k : ℕ} (hk : r.table.rule? k = none) : s.device.bit region k = false := by
  obtain ⟨marks, hmarks⟩ := h.exists_carries
  obtain ⟨d, hd, -⟩ := h.inStep.mirrors.exists_region hr
  rw [Device.bit_eq hd]
  exact (hmarks.live region r d hr hd).bit_eq_false hk

/-! ### What a resize leaves behind -/

/-- What a resize leaves behind: the region has the slots below both capacities as they were, with
their images and bits, and no rules in the others.  Its rows are counted anew, and everything else
in model and device is as before. -/
structure Resized (s : Controller) (region : Handle .region) (r : Region) (capacity hwSize : ℕ)
    (s' : Controller) : Prop where
  region_eq : ∃ table,
    s'.core.regions.regions.get? region =
      some { r with capacity := capacity, hwSize := hwSize, table := table } ∧
    table.capacity = capacity ∧ table.used = r.table.used ∧
    ∀ k, table.rule? k = if k < min r.capacity capacity then r.table.rule? k else none
  image?_eq : ∀ k, s'.device.image? region k =
    if k < min r.capacity capacity then s.device.image? region k else none
  bit_eq : ∀ k, s'.device.bit region k =
    if k < min r.capacity capacity then s.device.bit region k else false
  hwUsed_eq : s'.core.regions.hwUsed =
    s.core.regions.hwUsed - r.cost + Region.rowCost hwSize r.width
  others_eq : ∀ id, id ≠ region →
    s'.core.regions.regions.get? id = s.core.regions.regions.get? id ∧
    s'.device.tables.regions.get? id = s.device.tables.regions.get? id
  core_eq : s'.core = { s.core with regions := s'.core.regions }
  tables_eq : s'.device.tables = { s.device.tables with regions := s'.device.tables.regions }

/-- What stays everywhere, and is nothing from `n` on, stays below `n`. -/
lemma eq_ite_of_forall_ge {α : Type} {f g : ℕ → α} {x : α} {n : ℕ} (hfg : ∀ k, g k = f k)
    (hx : ∀ k, n ≤ k → f k = x) (k : ℕ) : g k = if k < n then f k else x := by
  by_cases hk : k < n
  · rw [if_pos hk, hfg]
  · rw [if_neg hk, hfg, hx k (Nat.le_of_not_lt hk)]

/-- The model and the tables of the device after a resize. -/
lemma exists_of_resize (hr : s.core.regions.regions.get? region = some r) {answer : OpResult}
    (hok : (s.execute (.region (.resize region capacity))).result = .ok answer) :
    ∃ hwSize table d, s.core.regions.planResize region capacity = .ok hwSize ∧
      answer = .resized hwSize ∧ r.table.resize capacity = .ok table ∧
      s.device.tables.regions.get? region = some d ∧
      (s.execute (.region (.resize region capacity))).controller.core =
        { s.core with regions := { s.core.regions with
          regions := s.core.regions.regions.set region
            { r with capacity := capacity, hwSize := hwSize, table := table }
          hwUsed := s.core.regions.hwUsed - r.cost + Region.rowCost hwSize r.width } } ∧
      (s.execute (.region (.resize region capacity))).controller.device.tables =
        s.device.tables.setRegion region { d with hwSize := hwSize } := by
  obtain ⟨size, hsize, rfl⟩ := map_eq_ok.mp hok
  obtain ⟨change, done, hplan, hcommit, rfl, hcore, -, htables, -⟩ := apply_ok hsize
  simp only [Core.resizeRegion, bind_eq_ok, pure_eq_ok] at hplan
  obtain ⟨hwSize, hplan, rfl⟩ := hplan
  simp only [bind_eq_ok, pure_eq_ok] at hcommit
  obtain ⟨regions, hresize, rfl⟩ := hcommit
  obtain ⟨r', table, hr', htable, rfl⟩ := Regions.resize_eq_ok.mp hresize
  obtain rfl := Option.some.inj (hr.symm.trans hr')
  obtain ⟨⟨t', bit⟩, happly, htables⟩ := map_eq_ok.mp htables
  obtain ⟨d, hd, rfl⟩ := DeviceTables.exists_of_apply_resizeRegion happly
  exact ⟨hwSize, table, d, hplan, rfl, htable, hd, hcore, htables.symm⟩

/-- The rules are copied, so nothing of them depends on the two sizes. -/
theorem resized_of_ok (h : Reachable s) (hr : s.core.regions.regions.get? region = some r)
    {answer : OpResult}
    (hok : (s.execute (.region (.resize region capacity))).result = .ok answer) :
    ∃ hwSize, s.core.regions.planResize region capacity = .ok hwSize ∧
      answer = .resized hwSize ∧ s.Resized region r capacity hwSize
        (s.execute (.region (.resize region capacity))).controller := by
  obtain ⟨hwSize, table, d, hplan, hanswer, htable, hd, hcore, htables⟩ := exists_of_resize hr hok
  have hempty : ∀ k, min r.capacity capacity ≤ k → r.table.rule? k = none := by
    intro k hk
    rcases min_le_iff.mp hk with hold | hnew
    · exact RuleTable.rule?_eq_none_of_le ((h.slots_eq hr).trans_le hold)
    · cases hrule : r.table.rule? k with
      | none => rfl
      | some rule =>
          exact absurd ((RuleTable.resize_eq_ok.mp htable).1 k rule hrule) (Nat.not_lt.mpr hnew)
  have hget : ∀ id, (s.device.tables.setRegion region { d with hwSize := hwSize }).regions.get? id =
      if id = region then some { d with hwSize := hwSize } else s.device.tables.regions.get? id :=
    fun id => DeviceTables.get?_setRegion _ _ _ _
  refine ⟨hwSize, hplan, hanswer, ?_, fun k => ?_, fun k => ?_, ?_, fun id hid => ⟨?_, ?_⟩, ?_, ?_⟩
  · refine ⟨table, ?_, RuleTable.capacity_resize htable, ?_,
      eq_ite_of_forall_ge (RuleTable.rule?_resize htable) hempty⟩
    · rw [hcore]
      exact (Arena.get?_set hr).trans (if_pos rfl)
    · rw [(RuleTable.resize_eq_ok.mp htable).2]
  · refine eq_ite_of_forall_ge (fun k => ?_) (fun k hk => ?_) k
    · rw [Device.image?, Device.image?, htables, hget, if_pos rfl, hd]
      rfl
    · rw [image?_eq h.inStep hr, hempty k hk, Option.map_none]
  · refine eq_ite_of_forall_ge (fun k => ?_) (fun k hk => h.bit_eq_false hr (hempty k hk)) k
    rw [Device.bit_eq hd, Device.bit, htables, hget, if_pos rfl]
    rfl
  · rw [hcore]
  · rw [hcore]
    exact (Arena.get?_set hr).trans (if_neg hid)
  · rw [htables, hget, if_neg hid]
  · rw [hcore]
  · rw [htables]
    rfl

/-- Resizing a live region to a capacity, while no fault is armed for it: with the least power of
two from the capacity on as its size, the resize succeeds exactly if the capacity is positive and
within the limit, the size fits in 32 bits, no rule lies at or above the capacity, and the rows in
use stay within the budget when those of the region, all of which are on record, are replaced by the
new ones.  Then it answers with the size; every offset below both capacities has its rule, its image
and its bit, all others are empty; and no other region, no reference count, no binding and nothing
else changes in model and device. -/
theorem resize_exact (h : Reachable s) (hr : s.core.regions.regions.get? region = some r)
    (hunarmed : s.device.faults.lookup .resizeRegion = none)
    (hsize : IsLeast {n | (∃ k, n = 2 ^ k) ∧ capacity ≤ n} hwSize) :
    let after := s.execute (.region (.resize region capacity))
    (after.result.isOk = true ↔
      1 ≤ capacity ∧ capacity ≤ s.core.config.maxRulesPerRegion ∧ hwSize < UInt32.size ∧
      (∀ k rule, r.table.rule? k = some rule → k < capacity) ∧
      s.core.regions.hwUsed - r.cost + Region.rowCost hwSize r.width ≤
        s.core.config.hwRuleBudget) ∧
    r.cost ≤ s.core.regions.hwUsed ∧
    (after.result.isOk = true → after.result = .ok (.resized hwSize) ∧
      s.Resized region r capacity hwSize after.controller) := by
  intro after
  have hconfigured := h.configured
  refine ⟨?_, h.rowsExact.cost_le hr, fun hok => ?_⟩
  · rw [← hconfigured.maxRules_eq, ← hconfigured.budget_eq,
      ← Core.exists_resizeRegion_iff h.rowsExact hr hsize]
    constructor
    · intro hok
      obtain ⟨answer, hanswer⟩ := isOk_iff.mp hok
      obtain ⟨size, hplan, -⟩ := resized_of_ok h hr hanswer
      exact Core.exists_resizeRegion.mpr ⟨size, hplan⟩
    · rintro ⟨change, hplan⟩
      have hlands : change.Lands (some .resizeRegion) s.device.tables True :=
        Core.lands_resizeRegion h.inStep hplan
      obtain ⟨size, hdone⟩ := exists_result_apply hplan hlands fun o ho => by
        cases ho
        exact hunarmed
      exact isOk_iff.mpr ⟨_, map_eq_ok.mpr ⟨size, hdone, rfl⟩⟩
  · obtain ⟨answer, hanswer⟩ := isOk_iff.mp hok
    obtain ⟨size, hplan, rfl, hresized⟩ := resized_of_ok h hr hanswer
    obtain ⟨-, -, hsized, -⟩ := Regions.planResize_eq_ok.mp hplan
    obtain rfl : hwSize = size :=
      (hsize.unique (Regions.isLeast_roundUp capacity)).trans (Regions.hwSizeFor_eq_ok.mp hsized).2
    exact ⟨hanswer, hresized⟩

/-- A fresh controller with no more than 24 rows. -/
def tight : Controller :=
  { fresh with core := { fresh.core with
    config := { Config.standard with hwRuleBudget := 24 }
    regions := Regions.empty { Config.standard with hwRuleBudget := 24 } } }

lemma start_tight : Controller.start { Config.standard with hwRuleBudget := 24 } none .recording =
    .ok tight := rfl

/-- Fills half of the rows, and stores a rule that a packet hits. -/
def filling : List Step :=
  [.operation (.keyType (.create [.dstIp] none)),
   .operation (.region (.create ⟨0, 1⟩ 8)),
   .operation (.region (.create ⟨0, 1⟩ 4)),
   .operation (.rule (.set ⟨0, 1⟩ [5] [⟨5, [], []⟩])),
   .recordHit ⟨0, 1⟩ 5]

/-- The larger region has only room because its old rows are given back; a smaller one would not
hold the rule. -/
theorem resize_exact_of_filling :
    let s := tight.run filling
    let larger := s.execute (.region (.resize ⟨0, 1⟩ 12))
    s.core.regions.hwUsed = 12 ∧ larger.result = .ok (.resized 16) ∧
    larger.controller.core.regions.hwUsed = 20 ∧ larger.controller.device.bit ⟨0, 1⟩ 5 = true ∧
    larger.controller.device.bit ⟨0, 1⟩ 11 = false ∧
    (s.execute (.region (.resize ⟨0, 1⟩ 5))).result.isOk = false := by
  intro s larger
  have hs : Reachable s :=
    (Reachable.start start_tight).run (runHasRoom_of_budget start_tight (by decide) _)
  have hlive : (s.core.regions.regions.get? ⟨0, 1⟩).map (fun r =>
      (r.capacity, r.hwSize, r.width, r.table.rule? 5)) = some (8, 8, 1, some ⟨5, [], []⟩) := by
    decide +kernel
  obtain ⟨r, hr, hshape⟩ := Option.map_eq_some_iff.mp hlive
  simp only [Prod.mk.injEq] at hshape
  obtain ⟨hcapacity, hold, hwidth, hrule⟩ := hshape
  have hused : s.core.regions.hwUsed = 12 := by decide +kernel
  obtain ⟨-, -, hdone⟩ := resize_exact hs hr (by decide +kernel) (Regions.isLeast_roundUp 12)
  obtain ⟨hresult, hresized⟩ := hdone (by decide +kernel)
  obtain ⟨hiff, -, -⟩ := resize_exact hs hr (by decide +kernel) (Regions.isLeast_roundUp 5)
  refine ⟨hused, hresult, ?_, ?_, ?_, ?_⟩
  · rw [hresized.hwUsed_eq, hused, Region.cost, hold, hwidth]
    decide
  · rw [hresized.bit_eq, hcapacity]
    decide +kernel
  · rw [hresized.bit_eq, hcapacity]
    rfl
  · rw [Bool.eq_false_iff, ne_eq, hiff]
    rintro ⟨-, -, -, hbelow, -⟩
    exact absurd (hbelow 5 _ hrule) (by decide)

end Controller

end AclPlane
