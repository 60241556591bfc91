import AclPlane.Proofs.RegionLayout

/-!
Hardware rows on record.

The rows in use are not counted again when a region comes, changes or goes: what it takes is added,
and what it has taken before is subtracted, without a check.

* `Core.rowsReleased`, `Core.rowsTaken`: what an operation that succeeds gives back and takes.
* `Core.RowsExact`: the rows on record are those of the regions, and within the budget.
* `Core.Transition.rows`: a transition subtracts and adds these numbers and no more; nothing is
  subtracted that is not on record, and the result is within the budget.
* `Controller.limits_kept`: all of it in every run, with the limits on regions and on objects.
-/

namespace AclPlane

namespace Core

variable {c c' : Core} {op : Option Operation} {done : Commit OpResult}

/-! ### Rows given back and rows taken -/

/-- The rows that an operation gives back. -/
def rowsReleased (c : Core) : Option Operation → ℕ
  | some (.region (.resize id _)) => (c.regions.regions.get? id).elim 0 Region.cost
  | some (.region (.destroy id)) => (c.regions.regions.get? id).elim 0 Region.cost
  | _ => 0

/-- The rows that an operation takes. -/
def rowsTaken (c : Core) : Option Operation → ℕ
  | some (.region (.create keyType capacity)) =>
    (c.keyTypes.types.get? keyType).elim 0 fun ct =>
      Region.rowCost (Regions.roundUp capacity) ct.value.width
  | some (.region (.resize id capacity)) =>
    (c.regions.regions.get? id).elim 0 fun r => Region.rowCost (Regions.roundUp capacity) r.width
  | _ => 0

/-- The rows on record are those of the regions, and within the budget. -/
structure RowsExact (c : Core) : Prop where
  hwUsed_eq : c.regions.hwUsed = c.regions.regions.total Region.cost
  hwUsed_le : c.regions.hwUsed ≤ c.regions.hwRuleBudget

/-- The rows on record follow an operation: what it gives back is on record, and what it takes is
within the budget. -/
structure RowsFollow (c c' : Core) (released taken : ℕ) : Prop where
  released_le : released ≤ c.regions.hwUsed
  hwUsed_eq : c'.regions.hwUsed = c.regions.hwUsed - released + taken
  hwUsed_le : c'.regions.hwUsed ≤ c.regions.hwRuleBudget
  total_eq : c'.regions.regions.total Region.cost + released =
    c.regions.regions.total Region.cost + taken

/-- Where no rows come or go, nothing happens to them. -/
lemma RowsExact.follow_same (h : c.RowsExact) (hused : c'.regions.hwUsed = c.regions.hwUsed)
    (htotal : c'.regions.regions.total Region.cost = c.regions.regions.total Region.cost) :
    c.RowsFollow c' 0 0 :=
  ⟨Nat.zero_le _, hused, hused.trans_le h.hwUsed_le, htotal⟩

lemma RowsExact.follow_table (h : c.RowsExact) {id : Handle .region} {r : Region}
    {table : RuleTable} (hr : c.regions.regions.get? id = some r)
    (hregions : c'.regions = c.regions.setTable id table) : c.RowsFollow c' 0 0 := by
  refine h.follow_same ?_ ?_
  · rw [hregions]
    rfl
  · rw [hregions]
    exact Nat.add_right_cancel (total_setTable hr table Region.cost)

/-- A transition subtracts what its operation gives back and adds what it takes. -/
theorem Transition.rows (ht : Transition c op done) (h : c.RowsExact)
    (hc : c.regions.regions.Consistent) :
    c.RowsFollow done.core (c.rowsReleased op) (c.rowsTaken op) := by
  cases ht with
  | observe reading =>
      have hnone : c.rowsReleased op = 0 ∧ c.rowsTaken op = 0 := by
        cases op with
        | none => exact ⟨rfl, rfl⟩
        | some o =>
            cases o with
            | region _ => cases reading _ rfl
            | _ => exact ⟨rfl, rfl⟩
      rw [hnone.1, hnone.2]
      exact h.follow_same rfl rfl
  | @createRegion keyType capacity hwSize ct id regions keyTypes found planned inserted counted =>
      obtain ⟨hsized, hbudget, -⟩ := Regions.planCreate_eq_ok.mp planned
      obtain rfl := (Regions.hwSizeFor_eq_ok.mp hsized).2
      have htaken : c.rowsTaken (some (.region (.create keyType capacity))) =
          Region.rowCost (Regions.roundUp capacity) ct.value.width := by
        rw [rowsTaken, found]
        rfl
      rw [htaken]
      exact ⟨Nat.zero_le _, rfl, hbudget, Arena.total_insertWith? Region.cost hc inserted⟩
  | @resizeRegion id r capacity hwSize table found planned resized =>
      obtain ⟨r', hr', hsized, -, hused, hbudget⟩ := Regions.planResize_eq_ok.mp planned
      obtain rfl := Option.some.inj (found.symm.trans hr')
      obtain rfl := (Regions.hwSizeFor_eq_ok.mp hsized).2
      have hreleased : c.rowsReleased (some (.region (.resize id capacity))) = r.cost := by
        rw [rowsReleased, found]
        rfl
      have htaken : c.rowsTaken (some (.region (.resize id capacity))) =
          Region.rowCost (Regions.roundUp capacity) r.width := by
        rw [rowsTaken, found]
        rfl
      rw [hreleased, htaken]
      exact ⟨hused, rfl, hbudget, Arena.total_set Region.cost found⟩
  | @destroyRegion id r regions keyTypes pools unused removed uncounted released =>
      have found := (Arena.remove?_eq_some_iff.mp removed).1
      have hreleased : c.rowsReleased (some (.region (.destroy id))) = r.cost := by
        rw [rowsReleased, found]
        rfl
      have hle : r.cost ≤ c.regions.hwUsed := by
        rw [h.hwUsed_eq]
        exact Arena.le_total Region.cost found
      rw [hreleased]
      exact ⟨hle, rfl, (Nat.sub_le _ _).trans h.hwUsed_le, Arena.total_remove? Region.cost removed⟩
  | setRules found => exact h.follow_table found rfl
  | deleteRules found => exact h.follow_table found rfl
  | moveBlock found => exact h.follow_table found rfl
  | shiftPriority found => exact h.follow_table found rfl
  | _ => exact h.follow_same rfl rfl

end Core

/-! ### Runs -/

namespace Controller

variable {s : Controller} {config : Config} {given : Option (List KeyBlock)} {sink : Sink}

/-- In every run the rows on record are those of the regions, and within the budget. -/
theorem rowsExact_run (hs : Controller.start config given sink = .ok s) (steps : List Step) :
    (s.run steps).core.RowsExact := by
  refine run_induction (p := fun _ c => c.RowsExact) hs (fun hnew => ?_)
    (fun {steps _ _} ih _ ht => ?_) (fun _ ih _ => ⟨ih.hwUsed_eq, ih.hwUsed_le⟩) steps
  · rw [Core.new] at hnew
    split at hnew
    · cases hnew
    · cases hnew
      exact ⟨rfl, Nat.zero_le _⟩
  · have hsteady := steady_run hs steps
    have hconfigured := configured_run hs steps
    have hrows := ht.rows ih hsteady.regions
    refine ⟨?_, ?_⟩
    · have hle := hrows.released_le
      have hused := hrows.hwUsed_eq
      have htotal := hrows.total_eq
      have hold := ih.hwUsed_eq
      omega
    · rw [(hconfigured.transition hsteady ht).budget_eq, ← hconfigured.budget_eq]
      exact hrows.hwUsed_le

/-- In every run the rows on record are those of the live regions, and within the budget.  A step
subtracts from them what its operation gives back and adds what it takes, and neither passes the
bounds of 64 bits; a step that fails leaves them as they are.  Every region has a capacity within
the limit, the least power of two for it as its hardware size, as many slots, the number of its
rules on record, and a width within the limit on key blocks.  The width is the number of blocks of
its key type, as long as no key type has more regions than its count can tell: by
`usersFit_of_maxRegions` this takes 2³² regions.  And no more objects are live than the limit of
their kind, nor more comparators on custom bytes than theirs. -/
theorem limits_kept (hs : Controller.start config given sink = .ok s)
    (hbudget : config.hwRuleBudget < UInt64.size) (steps : List Step) :
    let c := (s.run steps).core
    (c.regions.hwUsed = (c.regions.regions.toList.map fun e => e.2.hwSize * e.2.width).sum ∧
      c.regions.hwUsed ≤ config.hwRuleBudget) ∧
    (∀ st, ((s.run steps).step st).result.isOk = true →
      c.rowsReleased st.operation? ≤ c.regions.hwUsed ∧
      c.regions.hwUsed - c.rowsReleased st.operation? + c.rowsTaken st.operation? < UInt64.size ∧
      ((s.run steps).step st).controller.core.regions.hwUsed =
        c.regions.hwUsed - c.rowsReleased st.operation? + c.rowsTaken st.operation?) ∧
    (∀ st, ((s.run steps).step st).result.isOk = false →
      ((s.run steps).step st).controller.core.regions.hwUsed = c.regions.hwUsed) ∧
    (∀ id r, c.regions.regions.get? id = some r →
      1 ≤ r.capacity ∧ r.capacity ≤ config.maxRulesPerRegion ∧
      IsLeast {n | (∃ k, n = 2 ^ k) ∧ r.capacity ≤ n} r.hwSize ∧ r.hwSize < UInt32.size ∧
      1 ≤ r.width ∧ r.width ≤ config.maxKeyBlocks ∧
      r.table.slots.size = r.capacity ∧ r.table.used = r.table.slots.countP Option.isSome) ∧
    (s.UsersFit steps → ∀ id r, c.regions.regions.get? id = some r →
      ∃ ct, c.keyTypes.types.get? r.keyType = some ct ∧ r.width = ct.value.blocks.length) ∧
    (∀ kind (ids : List (Handle kind)), ids.Nodup → (∀ id ∈ ids, c.isLive id = true) →
      ids.length ≤ config.maxObjects kind) ∧
    c.pools.ranges.customBytesInUse none ≤ config.maxCustomBytesRanges := by
  have hrows := rowsExact_run hs steps
  have hconfigured := configured_run hs steps
  refine ⟨⟨hrows.hwUsed_eq, hrows.hwUsed_le.trans hconfigured.budget_eq.le⟩, fun st hok => ?_,
    fun st hfailed => ?_, fun id r hr => ?_, fun hfit => keyType_width_run hs hfit,
    fun kind ids => length_le_maxObjects hs steps, hconfigured.customBytes.inUse_le⟩
  · cases (s.run steps).follows_step st with
    | done result transition delivered =>
        have hfollow := transition.rows hrows (steady_run hs steps).regions
        refine ⟨hfollow.released_le, ?_, hfollow.hwUsed_eq⟩
        calc (s.run steps).core.regions.hwUsed - (s.run steps).core.rowsReleased st.operation? +
              (s.run steps).core.rowsTaken st.operation?
            = ((s.run steps).step st).controller.core.regions.hwUsed := hfollow.hwUsed_eq.symm
          _ ≤ (s.run steps).core.regions.hwRuleBudget := hfollow.hwUsed_le
          _ = config.hwRuleBudget := hconfigured.budget_eq
          _ < UInt64.size := hbudget
    | failed result unchanged =>
        rw [result] at hok
        cases hok
  · cases (s.run steps).follows_step st with
    | done result transition delivered =>
        rw [result] at hfailed
        cases hfailed
    | failed result unchanged => rw [unchanged]
  · have hfits := fits_run hs steps id r hr
    obtain ⟨hwidth, hwidth_le⟩ := width_run hs steps id r hr
    refine ⟨hfits.capacity_pos, hfits.capacity_le, ?_, hfits.hwSize_lt, hwidth, hwidth_le,
      hfits.slots, hfits.used.trans (RuleTable.total_one r.table)⟩
    rw [hfits.hwSize_eq]
    exact Regions.isLeast_roundUp r.capacity

/-- Makes two regions of a key type, stores a rule, makes the first region larger, and destroys the
second. -/
def resizing : List Step :=
  [.operation (.keyType (.create [.srcIp, .dstIp] none)),
   .operation (.region (.create ⟨0, 1⟩ 5)),
   .operation (.region (.create ⟨0, 1⟩ 3)),
   .operation (.rule (.set ⟨0, 1⟩ [4] [⟨5, [⟨.srcIp, .ipv4 0x0a000000#32 8⟩], [.discard]⟩])),
   .operation (.region (.resize ⟨0, 1⟩ 9)),
   .operation (.region (.destroy ⟨1, 1⟩))]

/-- The region that is left has 9 slots, one of them with a rule, in 16 rows. -/
theorem rows_of_resizing :
    ∃ r ct, (fresh.run resizing).core.regions.regions.get? ⟨0, 1⟩ = some r ∧
      (fresh.run resizing).core.keyTypes.types.get? r.keyType = some ct ∧
      r.table.slots.size = 9 ∧ r.table.used = 1 ∧ r.hwSize = 16 ∧
      r.width = ct.value.blocks.length ∧
      (fresh.run resizing).core.regions.hwUsed = 16 * r.width ∧
      IsLeast {n | (∃ k, n = 2 ^ k) ∧ 9 ≤ n} r.hwSize := by
  have hlimits := limits_kept start_fresh (by decide) resizing
  obtain ⟨-, -, -, hregions, hkeyType, -, -⟩ := hlimits
  have hsome : ((fresh.run resizing).core.regions.regions.get? ⟨0, 1⟩).map (fun r =>
      (r.capacity, r.hwSize, r.table.used, r.width)) = some (9, 16, 1, 1) ∧
        (fresh.run resizing).core.regions.hwUsed = 16 := by decide +kernel
  obtain ⟨r, hr, heq⟩ := Option.map_eq_some_iff.mp hsome.1
  simp only [Prod.mk.injEq] at heq
  obtain ⟨hcapacity, hsize, hused, hwidth⟩ := heq
  have hfit := usersFit_of_maxRegions start_fresh (by decide) resizing
  obtain ⟨ct, hct, hblocks⟩ := hkeyType hfit _ r hr
  obtain ⟨-, -, hleast, -, -, -, hslots, -⟩ := hregions _ r hr
  rw [hcapacity] at hleast hslots
  exact ⟨r, ct, hr, hct, hslots, hused, hsize, hblocks, by rw [hwidth]; exact hsome.2, hleast⟩

end Controller

end AclPlane
