import AclPlane.Proofs.Invariant

/-!
Changes of one table.

An operation changes few tables of the model.  The lemmas here say, for each kind of change,
what has to be known about the table that changes so that model and device stay in step; the
other tables play no part.

* `InStep.of_stats`, `InStep.of_pools`, `InStep.of_keyTypes`: changes that the device does not
  see and that leave every count alone.
* `InStep.setTable`: other rules in one region, with the pools that go with them.
-/

namespace AclPlane

/-! ### Key types -/

namespace KeyTypes

/-- Key types in use stay as they are, and no count changes. -/
structure SameUse (k k' : KeyTypes) : Prop where
  consistent : k'.types.Consistent
  refCount : ∀ id, k'.types.refCount id = k.types.refCount id
  value : ∀ id, 0 < k.types.refCount id →
    (k'.types.get? id).map Counted.value = (k.types.get? id).map Counted.value

variable {k k' : KeyTypes} {id : Handle .keyType}

lemma SameUse.refl (hc : k.types.Consistent) : k.SameUse k := ⟨hc, fun _ => rfl, fun _ _ => rfl⟩

lemma lookup_eq_ok {ct : Counted KeyType} : k.lookup id = .ok ct ↔ k.types.get? id = some ct := by
  rw [lookup]
  cases k.types.get? id with
  | none => simp
  | some c => simp

lemma get_eq_ok {kt : KeyType} :
    k.get id = .ok kt ↔ ∃ ct, k.types.get? id = some ct ∧ ct.value = kt := by
  simp only [get, map_eq_ok, lookup_eq_ok]

/-- A new key type is not in use. -/
lemma sameUse_register (hc : k.types.Consistent) {kt : KeyType}
    (h : k.register kt = .ok (id, k')) : k.SameUse k' := by
  rw [register] at h
  split at h
  · cases h
  · next id' types hi =>
      rw [Except.ok.injEq, Prod.mk.injEq] at h
      obtain ⟨-, rfl⟩ := h
      refine ⟨hc.insertWith? hi, Arena.refCount_insertWith? hc hi rfl, fun i hpos => ?_⟩
      have hfresh := Arena.get?_of_nextHandle? hc (Arena.nextHandle?_of_insertWith? hi)
      rw [Arena.get?_insertWith? hc hi, if_neg]
      rintro rfl
      rw [Arena.refCount_eq_zero hfresh] at hpos
      exact absurd hpos (Nat.lt_irrefl 0)

/-- A request finds its key type or registers it. -/
lemma intern_cases {catalog : Catalog} {fields : List BasicKey} {hint : Option KeyBlockId}
    (h : k.intern catalog fields hint = .ok (id, k')) :
    k' = k ∨ ∃ kt, k.register kt = .ok (id, k') := by
  unfold intern at h
  split at h
  · rw [internAny] at h
    split at h
    · cases h
      exact Or.inl rfl
    · rw [bind_eq_ok] at h
      obtain ⟨blocks, -, h⟩ := h
      exact Or.inr ⟨_, h⟩
  · rw [internHinted] at h
    split at h
    · cases h
      exact Or.inl rfl
    · rw [bind_eq_ok] at h
      obtain ⟨blocks, -, h⟩ := h
      split at h
      · cases h
        exact Or.inl rfl
      · exact Or.inr ⟨_, h⟩

lemma sameUse_intern (hc : k.types.Consistent) {catalog : Catalog} {fields : List BasicKey}
    {hint : Option KeyBlockId} (h : k.intern catalog fields hint = .ok (id, k')) :
    k.SameUse k' := by
  rcases intern_cases h with rfl | ⟨kt, h⟩
  · exact .refl hc
  · exact sameUse_register hc h

/-- Only a key type that is not in use is destroyed. -/
lemma sameUse_destroy (hc : k.types.Consistent) (h : k.destroy id = .ok k') : k.SameUse k' := by
  simp only [destroy, bind_eq_ok, guard_eq_ok, lookup_eq_ok] at h
  obtain ⟨ct, hct, hfree, h⟩ := h
  have hzero : ct.refs = 0 := Nat.eq_zero_of_not_pos hfree
  obtain ⟨types, hr⟩ := Arena.exists_remove? hct
  rw [hr] at h
  simp only [pure_eq_ok] at h
  subst h
  refine ⟨hc.remove? hr, Arena.refCount_remove? hr hzero, fun i hpos => ?_⟩
  rw [Arena.get?_remove? hr, if_neg]
  rintro rfl
  rw [Arena.refCount_eq hct, hzero] at hpos
  exact absurd hpos (Nat.lt_irrefl 0)

/-- The use of a live key type can be counted. -/
lemma exists_acquire (hid : k.types.contains id = true) :
    ∃ k', k.acquire id = .ok k' ∧ k.types.Recounted k'.types ∧
      (k.types.refCount id + 1 ≤ maxCount →
        ∀ i, k'.types.refCount i = k.types.refCount i + [id].count i) := by
  obtain ⟨types, ht, hrec, hcount⟩ := Arena.exists_retain hid
  refine ⟨{ k with types := types }, ?_, hrec, fun hroom i => ?_⟩
  · rw [acquire, ht]
  · exact Arena.refCount_retain (hcount i) hroom

/-- A use that has been counted can be given up. -/
lemma exists_release (hpos : 0 < k.types.refCount id) :
    ∃ k', k.release id = .ok k' ∧ k.types.Recounted k'.types ∧
      ∀ i, k'.types.refCount i + [id].count i = k.types.refCount i := by
  obtain ⟨types, ht, hrec, hcount⟩ := Arena.exists_release hpos
  refine ⟨{ k with types := types }, ?_, hrec, hcount⟩
  rw [release, ht]

end KeyTypes

lemma Region.Mirrored.of_value {kts kts' : KeyTypes} {r : Region} {d : DeviceRegion}
    (h : r.Mirrored kts d) (hv : (kts'.types.get? r.keyType).map Counted.value =
      (kts.types.get? r.keyType).map Counted.value) : r.Mirrored kts' d := by
  obtain ⟨kt, hkt, hblocks⟩ := h.keyBlocks
  rw [hkt, Option.map_some, Option.map_eq_some_iff] at hv
  obtain ⟨kt', hkt', hvalue⟩ := hv
  exact ⟨h.hwSize, ⟨kt', hkt', by rw [hvalue, hblocks]⟩, h.rules⟩

/-! ### Changes that the device does not see -/

namespace Core

variable {c : Core} {t : DeviceTables}

/-- Regions are mirrored as long as their key types keep their values. -/
lemma Mirrors.of_keyTypes (h : c.Mirrors t) {kts : KeyTypes}
    (hv : ∀ id, 0 < c.users id → (kts.types.get? id).map Counted.value =
      (c.keyTypes.types.get? id).map Counted.value) : { c with keyTypes := kts }.Mirrors t := by
  refine { h with regions := fun id => rel_iff.mpr ⟨h.region_eq_none, fun r hr => ?_⟩ }
  obtain ⟨d, hd, hm⟩ := h.exists_region hr
  exact ⟨d, hd, hm.of_value (hv _ (users_pos hr))⟩

lemma InStep.of_stats (h : c.InStep t) (stats : Stats) : { c with stats := stats }.InStep t :=
  ⟨{ h.sound with }, { h.mirrors with }⟩

lemma InStep.of_pools (h : c.InStep t) {pools : Pools} (hp : c.pools.SameCounts pools) :
    { c with pools := pools }.InStep t := by
  have hcount := hp.refCount h.sound.pools
  refine ⟨{ h.sound with
    pools := hp.consistent h.sound.pools
    references_eq := fun e => (hcount e).trans (h.sound.references_eq e)
    refCount_le := fun e => (hcount e).trans_le (h.sound.refCount_le e) }, { h.mirrors with }⟩

/-- Key types come and go unnoticed as long as none in use is touched. -/
lemma InStep.of_keyTypes (h : c.InStep t) {kts : KeyTypes} (hk : c.keyTypes.SameUse kts) :
    { c with keyTypes := kts }.InStep t := by
  refine ⟨{ h.sound with
    keyTypes := hk.consistent
    users_eq := fun id => (hk.refCount id).trans (h.sound.users_eq id) },
    h.mirrors.of_keyTypes fun id hid => hk.value id ?_⟩
  rw [h.sound.users_eq]
  exact hid

/-! ### Other contents of one region -/

variable {id : Handle .region} {r r' : Region} {d d' : DeviceRegion} {table : RuleTable}

/-- Storing a region in model and device keeps the regions mirrored. -/
lemma rel_setRegion {kts : KeyTypes} {x x' : Option Region} {i : Handle .region}
    (hx' : x' = if i = id then some r' else x) (hm : r'.Mirrored kts d')
    (hold : Option.Rel (Region.Mirrored kts) x (t.regions.get? i)) :
    Option.Rel (Region.Mirrored kts) x' ((t.setRegion id d').regions.get? i) := by
  have hget : (t.setRegion id d').regions.get? i = if i = id then some d' else t.regions.get? i :=
    OrderedMap.get?_insert _ _ _ _
  rw [hx', hget]
  by_cases hi : i = id
  · rw [if_pos hi, if_pos hi]
    exact .some hm
  · rw [if_neg hi, if_neg hi]
    exact hold

/-- What the device holds is the image of something in the model. -/
lemma Mirrors.exists_model (h : c.Mirrors t) (hd : t.regions.get? id = some d) :
    ∃ r, c.regions.regions.get? id = some r ∧ r.Mirrored c.keyTypes d := by
  cases hr : c.regions.regions.get? id with
  | none =>
      rw [h.region_eq_none hr] at hd
      cases hd
  | some r =>
      obtain ⟨d', hd', hm⟩ := h.exists_region hr
      rw [hd, Option.some.injEq] at hd'
      subst hd'
      exact ⟨r, rfl, hm⟩

/-- The activity bits of a region are known to the device alone. -/
lemma InStep.of_hits (h : c.InStep t) (hd : t.regions.get? id = some d) (hits : OrderedSet ℕ) :
    c.InStep (t.setRegion id { d with hits := hits }) := by
  obtain ⟨r, hr, hm⟩ := h.mirrors.exists_model hd
  have hm' : r.Mirrored c.keyTypes { d with hits := hits } := ⟨hm.hwSize, hm.keyBlocks, hm.rules⟩
  refine ⟨h.sound, { h.mirrors with regions := fun i => ?_ }⟩
  refine rel_setRegion ?_ hm' (h.mirrors.regions i)
  by_cases hi : i = id
  · rw [if_pos hi, hi, hr]
  · rw [if_neg hi]

lemma setTable_eq (hr : c.regions.regions.get? id = some r) (table : RuleTable) :
    c.regions.setTable id table =
      { c.regions with regions := c.regions.regions.set id { r with table := table } } := by
  rw [Regions.setTable, Arena.modify_eq_set hr]

/-- Sums over regions follow the table of one of them. -/
lemma total_setTable (hr : c.regions.regions.get? id = some r) (table : RuleTable)
    (f : Region → ℕ) :
    (c.regions.setTable id table).regions.total f + f r =
      c.regions.regions.total f + f { r with table := table } := by
  rw [setTable_eq hr]
  exact Arena.total_set f hr

/-- Model and device stay in step if a region gets other rules in both, and the pools count
the references that come in and those that go out. -/
lemma InStep.setTable (h : c.InStep t) (hr : c.regions.regions.get? id = some r)
    (hd : t.regions.get? id = some d) (hcap : table.capacity = r.table.capacity)
    (hsize : d'.hwSize = d.hwSize) (hblocks : d'.keyBlocks = d.keyBlocks) (hrules : d'.Holds table)
    {pools : Pools} (hpools : pools.Consistent)
    (hcount : ∀ e, pools.refCount e + r.table.refs.count e =
      c.pools.refCount e + table.refs.count e)
    (hmax : ∀ e, pools.refCount e ≤ maxCount) (stats : Stats) :
    { c with regions := c.regions.setTable id table, pools := pools, stats := stats }.InStep
      (t.setRegion id d') := by
  have hget : ∀ i, (c.regions.setTable id table).regions.get? i =
      if i = id then some { r with table := table } else c.regions.regions.get? i := by
    intro i
    rw [setTable_eq hr]
    exact Arena.get?_set hr
  obtain ⟨d₀, hd₀, hm⟩ := h.mirrors.exists_region hr
  rw [hd, Option.some.injEq] at hd₀
  subst hd₀
  refine ⟨{ h.sound with
    regions := ?_
    pools := hpools
    capacity_le := fun i r' hr' => ?_
    users_eq := fun k => ?_
    references_eq := fun e => ?_
    refCount_le := hmax }, { h.mirrors with regions := fun i => ?_ }⟩
  · rw [setTable_eq hr]
    exact h.sound.regions.set hr
  · rw [hget] at hr'
    split at hr'
    · cases hr'
      exact hcap.trans_le (h.sound.capacity_le id r hr)
    · exact h.sound.capacity_le i r' hr'
  · have htotal := total_setTable hr table fun r => [r.keyType].count k
    rw [h.sound.users_eq]
    exact (Nat.add_right_cancel htotal).symm
  · have htotal : (c.regions.setTable id table).regions.total (fun r => r.table.refs.count e) +
        r.table.refs.count e = c.ruleReferences e + table.refs.count e :=
      total_setTable hr table fun r => r.table.refs.count e
    have hold := h.sound.references_eq e
    have hnew := hcount e
    simp only [references, ruleReferences] at hold htotal ⊢
    omega
  · exact rel_setRegion (hget i) ⟨hsize.trans hm.hwSize, hblocks ▸ hm.keyBlocks, hrules⟩
      (h.mirrors.regions i)

end Core

end AclPlane
