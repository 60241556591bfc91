import AclPlane.Proofs.Frame
import AclPlane.Proofs.Regions

/-!
Operations on regions go through.

The handle that a creation plans is fresh, so the device has no such region yet; a resized region
keeps its rules below the new hardware size; a region that goes gives back the references of
its rules and the use of its key type, which have all been counted.
-/

namespace AclPlane.Core

variable {c : Core} {t : DeviceTables} {room : Prop} {id : Handle .region} {r r' : Region}

/-! ### Creation -/

/-- A new region without rules joins model and device, and its key type counts it. -/
lemma InStep.insertRegion (h : c.InStep t) {ct : Counted KeyType} {capacity used : ℕ}
    (hct : c.keyTypes.types.get? r.keyType = some ct) (htable : r.table = RuleTable.empty capacity)
    (hsize : capacity ≤ r.hwSize) {regions : Arena .region Region}
    (hins : c.regions.regions.insertWith? (fun _ => r) = some (id, regions)) {kts : KeyTypes}
    (hrec : c.keyTypes.types.Recounted kts.types)
    (hcount : ∀ i, kts.types.refCount i = c.keyTypes.types.refCount i + [r.keyType].count i)
    (stats : Stats) :
    { c with
      keyTypes := kts
      regions := { c.regions with regions := regions, hwUsed := used }
      stats := stats }.InStep
        (t.setRegion id ⟨ct.value.blocks, r.hwSize, OrderedMap.empty, OrderedMap.empty⟩) := by
  have hget := Arena.get?_insertWith? h.sound.regions hins
  refine ⟨{ h.sound with
    keyTypes := hrec.consistent h.sound.keyTypes
    regions := h.sound.regions.insertWith? hins
    capacity_le := fun i r' hr' => ?_
    users_eq := fun k => ?_
    references_eq := fun e => ?_ }, { h.mirrors with regions := fun i => ?_ }⟩
  · rw [show regions.get? i = _ from hget i] at hr'
    split at hr'
    · cases hr'
      rw [htable, RuleTable.capacity_empty]
      exact hsize
    · exact h.sound.capacity_le i r' hr'
  · rw [hcount, h.sound.users_eq]
    exact (Arena.total_insertWith? (fun r : Region => [r.keyType].count k) h.sound.regions
      hins).symm
  · have htotal := Arena.total_insertWith? (fun r : Region => r.table.refs.count e)
      h.sound.regions hins
    rw [htable, RuleTable.refs_count, RuleTable.total_empty, Nat.add_zero] at htotal
    rw [h.sound.references_eq, references, references, ruleReferences, ruleReferences, htotal]
  · obtain ⟨ct', hct', hvalue⟩ := Option.map_eq_some_iff.mp ((hrec.value r.keyType).trans
      (by rw [hct, Option.map_some]))
    refine rel_setRegion (hget i) ⟨rfl, ⟨ct', hct', by rw [hvalue]⟩, fun o => ?_⟩
      ((h.mirrors.of_keyTypes fun id _ => hrec.value id).regions i)
    rw [htable, RuleTable.rule?_empty]
    rfl

/-- The commit of a creation does not fail. -/
lemma createRegion_eq_ok {keyType : Handle .keyType} {capacity : ℕ}
    {change : Change (Handle .region)} (h : c.createRegion keyType capacity = .ok change) :
    ∃ ct id hwSize regions keyTypes, c.keyTypes.types.get? keyType = some ct ∧
      c.regions.planCreate ct.value.width capacity = .ok (id, hwSize) ∧
      c.regions.regions.insertWith? (fun _ => ⟨keyType, ct.value.width, capacity, hwSize,
        RuleTable.empty capacity⟩) = some (id, regions) ∧
      c.keyTypes.acquire keyType = .ok keyTypes ∧
      change = ⟨some (.createRegion id ct.value.blocks hwSize), .ok ⟨{ c with
        keyTypes := keyTypes
        regions := { c.regions with
          regions := regions
          hwUsed := c.regions.hwUsed + Region.rowCost hwSize ct.value.width }
        stats := { c.stats with regionsCreated := c.stats.regionsCreated + 1 } }, [], id⟩⟩ := by
  simp only [createRegion, bind_eq_ok, pure_eq_ok] at h
  obtain ⟨kt, hkt, ⟨id, hwSize⟩, hplan, rfl⟩ := h
  obtain ⟨ct, hct, rfl⟩ := KeyTypes.get_eq_ok.mp hkt
  obtain ⟨-, -, hnext⟩ := Regions.planCreate_eq_ok.mp hplan
  obtain ⟨regions, hins⟩ := Arena.exists_insertWith? hnext
    fun _ => (⟨keyType, ct.value.width, capacity, hwSize, RuleTable.empty capacity⟩ : Region)
  obtain ⟨keyTypes, hcount, -⟩ := KeyTypes.exists_acquire (Arena.contains_iff.mpr ⟨ct, hct⟩)
  refine ⟨ct, id, hwSize, regions, keyTypes, hct, hplan, hins, hcount, ?_⟩
  simp only [Regions.create, Arena.insert?, hins, hcount, ok_bind]
  rfl

theorem lands_createRegion (h : c.InStep t) {keyType : Handle .keyType} {capacity : ℕ}
    {change : Change (Handle .region)} (hp : c.createRegion keyType capacity = .ok change)
    (hroom : room → c.keyTypes.types.refCount keyType + 1 ≤ maxCount) :
    change.Lands (some .createRegion) t room := by
  obtain ⟨ct, id, hwSize, regions, keyTypes, hct, hplan, hins, hacquire, rfl⟩ :=
    createRegion_eq_ok hp
  obtain ⟨hsize, -, hnext⟩ := Regions.planCreate_eq_ok.mp hplan
  let r : Region := ⟨keyType, ct.value.width, capacity, hwSize, RuleTable.empty capacity⟩
  obtain ⟨kts, hkts, hrec, hcount⟩ :=
    KeyTypes.exists_acquire (Arena.contains_iff.mpr ⟨ct, hct⟩)
  obtain rfl := Except.ok.inj (hkts.symm.trans hacquire)
  have hfresh := h.mirrors.region_eq_none (Arena.get?_of_nextHandle? h.sound.regions hnext)
  refine Change.lands_call _ ?_ fun hr => h.insertRegion (r := r) hct rfl
    (Regions.le_of_hwSizeFor hsize) hins hrec (hcount (hroom hr)) _
  simp only [DeviceTables.apply, OrderedMap.contains, hfresh]
  rfl

/-! ### Resizing -/

lemma InStep.resizeRegion (h : c.InStep t) {d : DeviceRegion} {table : RuleTable}
    {capacity hwSize used : ℕ} (hr : c.regions.regions.get? id = some r)
    (hd : t.regions.get? id = some d) (htable : r.table.resize capacity = .ok table)
    (hsize : capacity ≤ hwSize) :
    { c with
      regions := { c.regions with
        regions := c.regions.regions.set id
          { r with capacity := capacity, hwSize := hwSize, table := table }
        hwUsed := used } }.InStep (t.setRegion id { d with hwSize := hwSize }) := by
  let resized : Region := { r with capacity := capacity, hwSize := hwSize, table := table }
  have hget : ∀ i, (c.regions.regions.set id resized).get? i =
      if i = id then some resized else c.regions.regions.get? i := fun _ => Arena.get?_set hr
  obtain ⟨d₀, hd₀, hm⟩ := h.mirrors.exists_region hr
  rw [hd, Option.some.injEq] at hd₀
  subst hd₀
  refine ⟨{ h.sound with
    regions := h.sound.regions.set hr
    capacity_le := fun i r' hr' => ?_
    users_eq := fun k => ?_
    references_eq := fun e => ?_ }, { h.mirrors with regions := fun i => ?_ }⟩
  · rw [show (c.regions.regions.set id _).get? i = _ from hget i] at hr'
    split at hr'
    · cases hr'
      exact (RuleTable.capacity_resize htable).trans_le hsize
    · exact h.sound.capacity_le i r' hr'
  · have htotal := Arena.total_set (w := resized) (fun r : Region => [r.keyType].count k) hr
    rw [h.sound.users_eq]
    exact (Nat.add_right_cancel htotal).symm
  · have htotal := Arena.total_set (w := resized) (fun r : Region => r.table.refs.count e) hr
    simp only [resized, RuleTable.refs_count, RuleTable.total_resize htable] at htotal
    rw [h.sound.references_eq]
    simp only [references, ruleReferences, RuleTable.refs_count]
    omega
  · exact rel_setRegion (hget i) ⟨rfl, hm.keyBlocks, hm.rules.congr (RuleTable.rule?_resize htable)⟩
      (h.mirrors.regions i)

/-- A region of the device holds nothing at or above the capacity of its model. -/
lemma lt_of_lastKey? {d : DeviceRegion} {table : RuleTable} (hd : d.Holds table) {highest : ℕ}
    (hh : d.rules.lastKey? = some highest) : ∃ rule, table.rule? highest = some rule := by
  rw [OrderedMap.lastKey?, Option.map_eq_some_iff] at hh
  obtain ⟨⟨k, image⟩, he, rfl⟩ := hh
  have hget := OrderedMap.mem_toList_iff.mp (List.mem_of_getLast? he)
  rw [hd k, Option.map_eq_some_iff] at hget
  obtain ⟨rule, hrule, -⟩ := hget
  exact ⟨rule, hrule⟩

theorem lands_resizeRegion (h : c.InStep t) {capacity : ℕ} {change : Change ℕ}
    (hp : c.resizeRegion id capacity = .ok change) : change.Lands (some .resizeRegion) t room := by
  simp only [resizeRegion, bind_eq_ok, pure_eq_ok] at hp
  obtain ⟨hwSize, hplan, rfl⟩ := hp
  obtain ⟨r, hr, hsize, hrules, -, -⟩ := Regions.planResize_eq_ok.mp hplan
  obtain ⟨d, hd, hm⟩ := h.mirrors.exists_region hr
  have hle := Regions.le_of_hwSizeFor hsize
  obtain ⟨table, htable⟩ : ∃ table, r.table.resize capacity = .ok table :=
    ⟨_, RuleTable.resize_eq_ok.mpr ⟨hrules, rfl⟩⟩
  have hresize : c.regions.resize id capacity hwSize = _ :=
    Regions.resize_eq_ok.mpr ⟨r, table, hr, htable, rfl⟩
  simp only [hresize, ok_bind]
  refine Change.lands_call _ ?_ fun _ => h.resizeRegion hr hd htable hle
  simp only [DeviceTables.apply, DeviceTables.region, hd, ok_bind]
  cases hlast : d.rules.lastKey? with
  | none => rfl
  | some highest =>
      obtain ⟨rule, hrule⟩ := lt_of_lastKey? hm.rules hlast
      have hlt : ¬hwSize ≤ highest := Nat.not_le.mpr (lt_of_lt_of_le (hrules _ _ hrule) hle)
      simp only [hlt, if_false]
      rfl

/-! ### Destruction -/

/-- A region that goes takes its references and its use of the key type with it. -/
lemma InStep.removeRegion (h : c.InStep t) {used : ℕ} {regions : Arena .region Region}
    (hrem : c.regions.regions.remove? id = some (r, regions)) {kts : KeyTypes}
    (hkts : c.keyTypes.types.Recounted kts.types)
    (hcount : ∀ i, kts.types.refCount i + [r.keyType].count i = c.keyTypes.types.refCount i)
    {pools : Pools} (hpools : c.pools.Recounted pools)
    (hrefs : ∀ e, pools.refCount e + r.table.refs.count e = c.pools.refCount e) (stats : Stats) :
    { c with
      keyTypes := kts
      regions := { c.regions with regions := regions, hwUsed := used }
      pools := pools
      stats := stats }.InStep { t with regions := t.regions.erase id } := by
  have hget := Arena.get?_remove? hrem
  refine ⟨{ h.sound with
    keyTypes := hkts.consistent h.sound.keyTypes
    regions := h.sound.regions.remove? hrem
    pools := hpools.consistent h.sound.pools
    capacity_le := fun i r' hr' => ?_
    users_eq := fun k => ?_
    references_eq := fun e => ?_
    refCount_le := fun e => ?_ }, { h.mirrors with regions := fun i => ?_ }⟩
  · rw [show regions.get? i = _ from hget i] at hr'
    split at hr'
    · cases hr'
    · exact h.sound.capacity_le i r' hr'
  · have htotal : regions.total (fun r => [r.keyType].count k) + [r.keyType].count k = c.users k :=
      Arena.total_remove? (fun r : Region => [r.keyType].count k) hrem
    have hold := h.sound.users_eq k
    have hnew := hcount k
    simp only [users] at hold htotal ⊢
    omega
  · have htotal : regions.total (fun r => r.table.refs.count e) + r.table.refs.count e =
        c.ruleReferences e := Arena.total_remove? (fun r : Region => r.table.refs.count e) hrem
    have hold := h.sound.references_eq e
    have hnew := hrefs e
    simp only [references, ruleReferences] at hold htotal ⊢
    omega
  · exact le_trans (Nat.le_of_add_right_le (hrefs e).le) (h.sound.refCount_le e)
  · have hgetd : (t.regions.erase id).get? i = if i = id then none else t.regions.get? i :=
      OrderedMap.get?_erase _ _ _
    rw [show regions.get? i = _ from hget i, hgetd]
    by_cases hi : i = id
    · rw [if_pos hi, if_pos hi]
      exact .none
    · rw [if_neg hi, if_neg hi]
      exact (h.mirrors.of_keyTypes fun id _ => hkts.value id).regions i

theorem lands_destroyRegion (h : c.InStep t) {change : Change Unit}
    (hp : c.destroyRegion id = .ok change) : change.Lands (some .destroyRegion) t room := by
  simp only [destroyRegion, bind_eq_ok, Regions.get_eq_ok] at hp
  obtain ⟨r, hr, hp⟩ := hp
  split at hp
  · cases hp
  simp only [pure_eq_ok] at hp
  subst hp
  obtain ⟨d, hd, -⟩ := h.mirrors.exists_region hr
  obtain ⟨regions, hrem⟩ := Arena.exists_remove? hr
  have hused : 0 < c.keyTypes.types.refCount r.keyType := by
    rw [h.sound.users_eq]
    exact users_pos hr
  obtain ⟨kts, hkts, hrec, hcount⟩ := KeyTypes.exists_release hused
  obtain ⟨pools, hpools, hprec, hrefs⟩ := Pools.exists_release (h.sound.refs_le hr)
  have hdestroy : c.regions.destroy id =
      .ok (r, { c.regions with regions := regions, hwUsed := c.regions.hwUsed - r.cost }) := by
    rw [Regions.destroy, hrem]
  simp only [hdestroy, hkts, hpools, ok_bind]
  refine Change.lands_call _ ?_ fun _ => h.removeRegion hrem hrec hcount hprec hrefs _
  simp only [DeviceTables.apply, DeviceTables.region, hd, ok_bind]
  rfl

end AclPlane.Core
