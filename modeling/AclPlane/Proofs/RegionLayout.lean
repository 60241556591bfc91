import AclPlane.Proofs.KeyTypes.Compiled
import AclPlane.Proofs.Limits
import AclPlane.Proofs.Transition.Regions

/-!
How the fields of a region belong together.

A region keeps its capacity, its hardware size, its slots and the number of its rules side by side,
and a resize or a batch of rules changes several of them.

* `Regions.isLeast_roundUp`: the hardware size is the least power of two for a capacity.
* `RuleTable.Exact`: the number of rules that a table has on record is the number of its rules.
* `Region.Fits`: all fields of a region agree, and its capacity is within the limit.
* `Controller.fits_run`: so it is for every region in every run.
* `Controller.width_run`: the width of a region is within the limit on key blocks.
* `Controller.eachRegion_run`: regions keep what changes keep, given their key type, as long as no
  key type has more regions than its count can tell (`Controller.UsersFit`).
* `Controller.keyType_width_run`: so the width is the number of blocks of the key type.
-/

namespace AclPlane

/-! ### Hardware sizes -/

/-- The least power of two above a capacity. -/
lemma Regions.isLeast_roundUp (n : ℕ) : IsLeast {m | (∃ k, m = 2 ^ k) ∧ n ≤ m} (roundUp n) := by
  refine ⟨⟨?_, le_roundUp n⟩, ?_⟩
  · rw [roundUp]
    split
    · exact ⟨0, rfl⟩
    · exact ⟨(n - 1).log2 + 1, by rw [Nat.shiftLeft_eq, Nat.one_mul]⟩
  · rintro _ ⟨⟨k, rfl⟩, hle⟩
    rw [roundUp]
    split
    · exact Nat.one_le_two_pow
    · next hn =>
        have hlog : (n - 1).log2 < k := (Nat.log2_lt (by omega)).mpr (by omega)
        calc 1 <<< ((n - 1).log2 + 1) = 2 ^ ((n - 1).log2 + 1) := by
              rw [Nat.shiftLeft_eq, Nat.one_mul]
          _ ≤ 2 ^ k := Nat.pow_le_pow_right (by omega) hlog

/-! ### The number of rules -/

namespace RuleTable

variable {t t' : RuleTable}

/-- The number of rules on record is the number of rules. -/
def Exact (t : RuleTable) : Prop := t.used = t.total fun _ => 1

/-- The number of rules is the number of slots that are not empty. -/
lemma total_one (t : RuleTable) : t.total (fun _ => 1) = t.slots.countP Option.isSome := by
  have hcount : ∀ l : List (Option Rule), slotSum (fun _ => 1) l = l.countP Option.isSome := by
    intro l
    induction l with
    | nil => rfl
    | cons o l ih =>
        rw [slotSum_cons, ih, List.countP_cons]
        cases o with
        | none => simp
        | some r => simp [Nat.add_comm]
  rw [total_eq_slotSum, hcount, Array.countP_toList]

lemma exact_empty (capacity : ℕ) : (empty capacity).Exact := by
  rw [Exact, total_empty]
  rfl

lemma Exact.put (h : t.Exact) {offset : ℕ} (hlt : offset < t.capacity) (x : Option Rule) :
    (t.put offset x).Exact := by
  have htotal := total_put (fun _ => 1) hlt x
  rw [Exact] at h ⊢
  generalize (t.put offset x).total (fun _ => 1) = n at htotal ⊢
  -- by whether the slot is empty before and after
  cases x with
  | none =>
      cases hr : t.rule? offset with
      | none =>
          simp only [hr, Option.elim_none] at htotal
          simp only [RuleTable.put, hr, Option.isSome_none, Bool.false_eq_true, if_false]
          omega
      | some r =>
          simp only [hr, Option.elim_none, Option.elim_some] at htotal
          simp only [RuleTable.put, hr, Option.isSome_some, if_true]
          omega
  | some r' =>
      cases hr : t.rule? offset with
      | none =>
          simp only [hr, Option.elim_none, Option.elim_some] at htotal
          simp only [RuleTable.put, hr, Option.isNone_none, if_true]
          omega
      | some r =>
          simp only [hr, Option.elim_some] at htotal
          simp only [RuleTable.put, hr, Option.isNone_some, Bool.false_eq_true, if_false]
          omega

lemma Exact.setAll (h : t.Exact) {batch : List (ℕ × Rule)} {replaced : List Rule}
    (hset : t.setAll batch = .ok (replaced, t')) : t'.Exact := by
  induction batch generalizing t replaced with
  | nil =>
      cases hset
      exact h
  | cons e batch ih =>
      have hlt := lt_of_setAll hset
      obtain ⟨rest, hrest, -⟩ := (setAll_cons hlt).mp hset
      exact ih (h.put hlt _) hrest

lemma Exact.clearAll (h : t.Exact) {offsets : List ℕ} {cleared : List Rule}
    (hclear : t.clearAll offsets = .ok (cleared, t')) : t'.Exact := by
  induction offsets generalizing t cleared with
  | nil =>
      cases hclear
      exact h
  | cons offset offsets ih =>
      have hlt := lt_of_clearAll hclear
      obtain ⟨rest, hrest, -⟩ := (clearAll_cons hlt).mp hclear
      exact ih (h.put hlt _) hrest

/-- Where the rules stay, or trade their places, the number on record may stay as well. -/
lemma Exact.resize (h : t.Exact) {capacity : ℕ} (hresize : t.resize capacity = .ok t') :
    t'.Exact := by
  have hused : t'.used = t.used := by
    obtain ⟨-, rfl⟩ := resize_eq_ok.mp hresize
    rfl
  rw [Exact, hused, total_resize hresize]
  exact h

lemma Exact.moveBlock (h : t.Exact) {src size dst : ℕ}
    (hmove : t.moveBlock src size dst = .ok t') : t'.Exact := by
  have hused : t'.used = t.used := by
    obtain ⟨-, rfl⟩ := moveBlock_eq_ok.mp hmove
    rfl
  rw [Exact, hused, total_moveBlock hmove]
  exact h

lemma Exact.setPriorities (h : t.Exact) (updates : List (ℕ × ℕ)) :
    (t.setPriorities updates).Exact := by
  rw [Exact, total_setPriorities fun _ _ => rfl]
  exact h

end RuleTable

/-! ### The fields of a region -/

/-- The fields of a region agree, and its capacity is within the limit. -/
structure Region.Fits (maxRules : ℕ) (r : Region) : Prop where
  capacity_pos : 0 < r.capacity
  capacity_le : r.capacity ≤ maxRules
  hwSize_eq : r.hwSize = Regions.roundUp r.capacity
  hwSize_lt : r.hwSize < UInt32.size
  slots : r.table.capacity = r.capacity
  used : r.table.Exact

namespace Region

variable {c c' : Core} {r r' : Region} {old : Option Region}

/-- A region with other rules in as many slots. -/
lemma Fits.withTable {maxRules : ℕ} (h : r.Fits maxRules) {table : RuleTable}
    (hcapacity : table.capacity = r.table.capacity) (hused : table.Exact) :
    { r with table := table }.Fits maxRules :=
  { h with
    slots := hcapacity.trans h.slots
    used := hused }

lemma Changed.fits (h : r.Changed c r') (hr : r.Fits c.regions.maxRulesPerRegion) :
    r'.Fits c.regions.maxRulesPerRegion := by
  cases h with
  | resized sized resized =>
      obtain ⟨⟨hpos, hle, hlt⟩, rfl⟩ := Regions.hwSizeFor_eq_ok.mp sized
      exact ⟨Nat.pos_of_ne_zero hpos, hle, rfl, hlt, RuleTable.capacity_resize resized,
        hr.used.resize resized⟩
  | stored typed checked stored =>
      exact hr.withTable (RuleTable.capacity_setAll stored) (hr.used.setAll stored)
  | emptied emptied =>
      exact hr.withTable (RuleTable.capacity_clearAll emptied) (hr.used.clearAll emptied)
  | moved moved => exact hr.withTable (RuleTable.capacity_moveBlock moved) (hr.used.moveBlock moved)
  | shifted planned =>
      exact hr.withTable (RuleTable.capacity_setPriorities _) (hr.used.setPriorities _)

lemma Evolves.fits (h : Evolves c c' old r) (hold : ∀ r ∈ old, r.Fits c.regions.maxRulesPerRegion) :
    r.Fits c.regions.maxRulesPerRegion := by
  cases h with
  | kept => exact hold r rfl
  | @changed r₀ _ change => exact change.fits (hold r₀ rfl)
  | created found kept sized =>
      obtain ⟨⟨hpos, hle, hlt⟩, rfl⟩ := Regions.hwSizeFor_eq_ok.mp sized
      exact ⟨Nat.pos_of_ne_zero hpos, hle, rfl, hlt, RuleTable.capacity_empty _,
        RuleTable.exact_empty _⟩

end Region

/-! ### Runs -/

namespace Controller

variable {s : Controller} {config : Config} {given : Option (List KeyBlock)} {sink : Sink}

/-- In every run the fields of a region agree. -/
theorem fits_run (hs : Controller.start config given sink = .ok s) (steps : List Step) :
    (s.run steps).core.regions.regions.All (Region.Fits config.maxRulesPerRegion) := by
  refine run_induction
    (p := fun _ c => c.regions.regions.All (Region.Fits config.maxRulesPerRegion)) hs
    (fun hnew => ?_) (fun {steps _ _} ih _ ht => ?_) (fun _ ih _ => ih) steps
  · rw [Core.new] at hnew
    split at hnew
    · cases hnew
    · cases hnew
      exact Arena.all_empty _
  · intro id r hr
    have hmax := (configured_run hs steps).maxRules_eq
    have hevolves := ht.region_evolves (steady_run hs steps).regions hr
    rw [← hmax] at ih ⊢
    exact hevolves.fits fun r hr => ih id r hr

/-- A key type has a block, and not more of them than the limit. -/
lemma width_of_keyType (hs : Controller.start config given sink = .ok s) (steps : List Step)
    {id : Handle .keyType} {ct : Counted KeyType}
    (hct : (s.run steps).core.keyTypes.types.get? id = some ct) :
    0 < ct.value.width ∧ ct.value.width ≤ config.maxKeyBlocks := by
  obtain ⟨hcover, hne, hle⟩ := isCover_run hs steps hct
  have hmax := (configured_run hs steps).maxBlocks_eq
  refine ⟨List.length_pos_iff.mpr fun hnil => ?_, hle.trans hmax.le⟩
  have hempty : ct.value.fields.isEmpty = true := by
    refine FieldSet.isEmpty_iff.mpr fun k => Bool.eq_false_iff.mpr fun hk => ?_
    obtain ⟨b, hb, -⟩ := Catalog.contains_fieldsOf.mp (hcover.exposed k hk)
    rw [hnil] at hb
    cases hb
  rw [hne] at hempty
  cases hempty

/-- In every run the width of a region is within the limit on key blocks. -/
theorem width_run (hs : Controller.start config given sink = .ok s) (steps : List Step) :
    (s.run steps).core.regions.regions.All fun r =>
      0 < r.width ∧ r.width ≤ config.maxKeyBlocks := by
  refine run_induction
    (p := fun _ c => c.regions.regions.All fun r => 0 < r.width ∧ r.width ≤ config.maxKeyBlocks)
    hs (fun hnew => ?_) (fun {steps _ _} ih _ ht => ?_) (fun _ ih _ => ih) steps
  · rw [Core.new] at hnew
    split at hnew
    · cases hnew
    · cases hnew
      exact Arena.all_empty _
  · intro id r hr
    have hevolves := ht.region_evolves (steady_run hs steps).regions hr
    generalize hold : (s.run steps).core.regions.regions.get? id = old at hevolves
    cases hevolves with
    | kept => exact ih id r hold
    | @changed r₀ _ change =>
        rw [change.width_eq]
        exact ih id r₀ hold
    | created found kept sized => exact width_of_keyType hs steps found

/-! ### Key types of regions -/

/-- At no time does a key type have more regions than its count can tell. -/
def UsersFit (s : Controller) (steps : List Step) : Prop :=
  ∀ before, before <+: steps → ∀ id, (s.run before).core.users id ≤ maxCount

lemma UsersFit.of_concat {steps : List Step} {st : Step} (h : s.UsersFit (steps ++ [st])) :
    s.UsersFit steps := fun before hbefore => h before (hbefore.trans (List.prefix_append ..))

/-- The counts are wide enough for any run with fewer than 2³² regions. -/
lemma usersFit_of_maxRegions (hs : Controller.start config given sink = .ok s)
    (hmax : config.maxRegions ≤ maxCount) (steps : List Step) : s.UsersFit steps := by
  intro before _ id
  have hregions := (steady_run hs before).regions
  calc (s.run before).core.users id
      ≤ (s.run before).core.regions.regions.toList.length := by
        rw [Core.users_eq_countP]
        exact List.countP_le_length
    _ = (s.run before).core.regions.regions.size := by
        rw [← Arena.length_handles hregions, Arena.handles, List.length_map]
    _ ≤ (s.run before).core.regions.regions.limit := hregions.size_le
    _ = config.maxRegions := (configured_run hs before).limit_eq .region
    _ ≤ maxCount := hmax

/-- As long as the counts are wide enough, key types count their regions. -/
theorem usersCounted_run (hs : Controller.start config given sink = .ok s) {steps : List Step}
    (hfit : s.UsersFit steps) : (s.run steps).core.UsersCounted := by
  induction steps using List.reverseRecOn with
  | nil => exact (inStep_start hs).sound.users_eq
  | append_singleton steps st ih =>
      have hlast := hfit (steps ++ [st]) List.prefix_rfl
      rw [run_concat] at hlast ⊢
      cases (s.run steps).follows_step st with
      | done result transition delivered =>
          exact (ih hfit.of_concat).transition (steady_run hs steps) transition hlast
      | failed result unchanged =>
          rw [unchanged]
          exact ih hfit.of_concat

/-- As long as the counts are wide enough, a property that new regions have and that changes keep
stays with every region, for the key type of the region. -/
theorem eachRegion_run {p : KeyType → Region → Prop}
    (hs : Controller.start config given sink = .ok s) {steps : List Step} (hfit : s.UsersFit steps)
    (hnew : ∀ (kt : KeyType) keyType capacity hwSize,
      p kt ⟨keyType, kt.width, capacity, hwSize, .empty capacity⟩)
    (hchanged : ∀ {c : Core} {ct : Counted KeyType} {r r' : Region}, c.config = config →
      c.keyTypes.types.get? r.keyType = some ct → p ct.value r → r.Changed c r' → p ct.value r') :
    (s.run steps).core.EachRegion p := by
  induction steps using List.reverseRecOn with
  | nil =>
      simp only [Controller.start, bind_eq_ok, pure_eq_ok] at hs
      obtain ⟨catalog, -, core, hcore, rfl⟩ := hs
      exact Core.eachRegion_new hcore
  | append_singleton steps st ih =>
      rw [run_concat]
      cases (s.run steps).follows_step st with
      | done result transition delivered =>
          exact (ih hfit.of_concat).transition (steady_run hs steps)
            (usersCounted_run hs hfit.of_concat) transition
            (fun ct keyType capacity hwSize _ _ => hnew ct.value keyType capacity hwSize)
            fun _ _ _ => hchanged (configured_run hs steps).config_eq
      | failed result unchanged =>
          rw [unchanged]
          exact ih hfit.of_concat

/-- As long as the counts are wide enough, a region has a live key type, and its rows are as wide as
the key type has blocks. -/
theorem keyType_width_run (hs : Controller.start config given sink = .ok s) {steps : List Step}
    (hfit : s.UsersFit steps) :
    (s.run steps).core.EachRegion fun kt r => r.width = kt.width :=
  eachRegion_run hs hfit (fun _ _ _ _ => rfl) fun _ _ hwidth change => change.width_eq.trans hwidth

end Controller

end AclPlane
