import AclPlane.Proofs.Frame

/-!
Operations that the device does not see: those on key types and on pool entries.
-/

namespace AclPlane.Core

variable {c : Core} {t : DeviceTables} {room : Prop}

/-! ### Key types -/

/-- A key type that is found keeps its uses, and one that is compiled has none. -/
theorem lands_createKeyType (h : c.InStep t) {fields : List BasicKey} {hint : Option KeyBlockId}
    {change : Change (Handle .keyType)} (hp : c.createKeyType fields hint = .ok change) :
    change.Lands none t room := by
  simp only [createKeyType, bind_eq_ok, pure_eq_ok] at hp
  obtain ⟨⟨id, kts⟩, hi, rfl⟩ := hp
  exact Change.lands_quiet
    ((h.of_keyTypes (KeyTypes.sameUse_intern h.sound.keyTypes hi)).of_stats _)

/-- A key type that goes has had no uses, so no region of the device is of it. -/
theorem lands_destroyKeyType (h : c.InStep t) {id : Handle .keyType} {change : Change Unit}
    (hp : c.destroyKeyType id = .ok change) : change.Lands none t room := by
  simp only [destroyKeyType, bind_eq_ok, pure_eq_ok] at hp
  obtain ⟨kts, hd, rfl⟩ := hp
  exact Change.lands_inside (h.of_keyTypes (KeyTypes.sameUse_destroy h.sound.keyTypes hd))

/-! ### Pool entries -/

/-- A new pool entry is referred to by no rule and no binding. -/
theorem lands_createPoolEntry (h : c.InStep t) {value : PoolValue} {change : Change PoolEntry}
    (hp : c.createPoolEntry value = .ok change) : change.Lands none t room := by
  simp only [createPoolEntry, bind_eq_ok, pure_eq_ok] at hp
  obtain ⟨⟨entry, pools⟩, hc, rfl⟩ := hp
  exact Change.lands_quiet (h.of_pools (Pools.sameCounts_create hc))

/-- Changed pools leave model and device in step if every entry keeps its count. -/
lemma lands_withPools (h : c.InStep t) {pools : Except AclError Pools} {change : Change Unit}
    (hp : c.withPools pools = .ok change) (hs : ∀ p, pools = .ok p → c.pools.SameCounts p) :
    change.Lands none t room := by
  simp only [withPools, bind_eq_ok, pure_eq_ok] at hp
  obtain ⟨p, hp, rfl⟩ := hp
  exact Change.lands_quiet (h.of_pools (hs p hp))

/-- An edit gives an entry another value and keeps its count. -/
theorem lands_editPoolEntry (h : c.InStep t) {entry : PoolEntry} {value : PoolValue}
    {change : Change Unit} (hp : c.editPoolEntry entry value = .ok change) :
    change.Lands none t room :=
  lands_withPools h hp fun _ => Pools.sameCounts_edit

/-- Members are part of the value of an entry, so an addition keeps every count. -/
theorem lands_addPoolMembers (h : c.InStep t) {entry : PoolEntry} {value : PoolValue}
    {change : Change Unit} (hp : c.addPoolMembers entry value = .ok change) :
    change.Lands none t room :=
  lands_withPools h hp fun _ => Pools.sameCounts_add

/-- Nor does their removal touch a count. -/
theorem lands_deletePoolMembers (h : c.InStep t) {entry : PoolEntry} {value : PoolValue}
    {change : Change Unit} (hp : c.deletePoolMembers entry value = .ok change) :
    change.Lands none t room :=
  lands_withPools h hp fun _ => Pools.sameCounts_delete

/-- The ports of a PBS entry are part of its value, too. -/
theorem lands_addPbsPorts (h : c.InStep t) {id : Handle .pbs} {ports : List PortId}
    {change : Change Unit} (hp : c.addPbsPorts id ports = .ok change) :
    change.Lands none t room := by
  refine lands_withPools h hp fun pools hpools => ?_
  simp only [bind_eq_ok, pure_eq_ok] at hpools
  obtain ⟨pool, hpool, rfl⟩ := hpools
  exact .of_pbs (Pools.sameCounts_addPorts hpool)

/-- Taking ports out of a PBS entry keeps every count. -/
theorem lands_deletePbsPorts (h : c.InStep t) {id : Handle .pbs} {ports : List PortId}
    {change : Change Unit} (hp : c.deletePbsPorts id ports = .ok change) :
    change.Lands none t room := by
  refine lands_withPools h hp fun pools hpools => ?_
  simp only [bind_eq_ok, pure_eq_ok] at hpools
  obtain ⟨pool, hpool, rfl⟩ := hpools
  exact .of_pbs (Pools.sameCounts_deletePorts hpool)

/-- An entry that goes has not been referred to. -/
theorem lands_destroyPoolEntry (h : c.InStep t) {entry : PoolEntry} {change : Change Unit}
    (hp : c.destroyPoolEntry entry = .ok change) : change.Lands none t room := by
  simp only [destroyPoolEntry, bind_eq_ok, pure_eq_ok] at hp
  obtain ⟨pools, hd, rfl⟩ := hp
  exact Change.lands_inside (h.of_pools (Pools.sameCounts_destroy hd))

end AclPlane.Core
