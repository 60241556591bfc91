import AclPlane.Pools
import AclPlane.Proofs.RefCount

/-!
Reference counts over all pools.

`Pools.refCount` and `PoolRefs.count` put the pools side by side, so that a statement about the
counts is one equation for an entry of any kind.

* `Pools.exists_acquire`, `Pools.exists_release`: the references of rules are taken and given
  back without failing, provided that the entries are live and that the references are there.
* `Pools.SameCounts`: creating, editing and removing entries leave every count alone.
-/

namespace AclPlane

/-! ### References counted by entry -/

namespace PoolRefs

/-- How often an entry is referred to. -/
def count (r : PoolRefs) : PoolEntry → ℕ
  | .pbs id => r.pbs.count id
  | .range id => r.ranges.count id
  | .customBytes id => r.customBytes.count id
  | .portList id => r.portLists.count id
  | .vlanGroup _ => 0

/-- The entries referred to, each as often as it is. -/
def entries (r : PoolRefs) : List PoolEntry :=
  r.pbs.map .pbs ++ r.ranges.map .range ++ r.customBytes.map .customBytes ++
    r.portLists.map .portList

/-- Entries that are not among the references are counted zero times. -/
lemma count_eq_zero {r : PoolRefs} {e : PoolEntry} (h : e ∉ r.entries) : r.count e = 0 := by
  simp only [entries, List.mem_append, List.mem_map, not_or] at h
  obtain ⟨⟨⟨hpbs, hrange⟩, hbytes⟩, hports⟩ := h
  cases e with
  | vlanGroup id => rfl
  | pbs id => exact List.count_eq_zero.mpr fun hid => hpbs ⟨id, hid, rfl⟩
  | range id => exact List.count_eq_zero.mpr fun hid => hrange ⟨id, hid, rfl⟩
  | customBytes id => exact List.count_eq_zero.mpr fun hid => hbytes ⟨id, hid, rfl⟩
  | portList id => exact List.count_eq_zero.mpr fun hid => hports ⟨id, hid, rfl⟩

@[simp] lemma count_none (e : PoolEntry) : none.count e = 0 := by
  cases e <;> rfl

@[simp] lemma count_append (r r' : PoolRefs) (e : PoolEntry) :
    (r ++ r').count e = r.count e + r'.count e := by
  cases e with
  | vlanGroup id => rfl
  | pbs id => exact List.count_append
  | range id => exact List.count_append
  | customBytes id => exact List.count_append
  | portList id => exact List.count_append

/-- The references of several rules are counted together. -/
lemma count_concat (l : List PoolRefs) (e : PoolEntry) :
    (concat l).count e = (l.map fun r => r.count e).sum := by
  induction l with
  | nil => exact count_none e
  | cons r l ih =>
      rw [List.map_cons, List.sum_cons, ← ih]
      exact count_append r (concat l) e

end PoolRefs

namespace Pools

variable {p q : Pools} {refs : PoolRefs}

/-- The number of references to an entry; none to a handle that names nothing. -/
def refCount (p : Pools) : PoolEntry → ℕ
  | .pbs id => p.pbs.refCount id
  | .range id => p.ranges.pool.refCount id
  | .customBytes id => p.customBytes.refCount id
  | .portList id => p.portLists.refCount id
  | .vlanGroup id => p.vlanGroups.refCount id

/-- Every pool is consistent. -/
structure Consistent (p : Pools) : Prop where
  pbs : p.pbs.entries.Consistent
  ranges : p.ranges.pool.entries.Consistent
  customBytes : p.customBytes.entries.Consistent
  portLists : p.portLists.entries.Consistent
  vlanGroups : p.vlanGroups.entries.Consistent

/-- The entries of `q` are those of `p`, under counts of their own. -/
structure Recounted (p q : Pools) : Prop where
  pbs : p.pbs.entries.Recounted q.pbs.entries
  ranges : p.ranges.pool.entries.Recounted q.ranges.pool.entries
  customBytes : p.customBytes.entries.Recounted q.customBytes.entries
  portLists : p.portLists.entries.Recounted q.portLists.entries
  vlanGroups : p.vlanGroups.entries.Recounted q.vlanGroups.entries

lemma Recounted.refl (p : Pools) : p.Recounted p :=
  ⟨.refl _, .refl _, .refl _, .refl _, .refl _⟩

lemma Recounted.trans {r : Pools} (hpq : p.Recounted q) (hqr : q.Recounted r) : p.Recounted r :=
  ⟨hpq.pbs.trans hqr.pbs, hpq.ranges.trans hqr.ranges, hpq.customBytes.trans hqr.customBytes,
    hpq.portLists.trans hqr.portLists, hpq.vlanGroups.trans hqr.vlanGroups⟩

/-- Counts have no part in the consistency of the arenas. -/
lemma Recounted.consistent (h : p.Recounted q) (hp : p.Consistent) : q.Consistent :=
  ⟨h.pbs.consistent hp.pbs, h.ranges.consistent hp.ranges,
    h.customBytes.consistent hp.customBytes, h.portLists.consistent hp.portLists,
    h.vlanGroups.consistent hp.vlanGroups⟩

lemma consistent_empty (c : Config) : (empty c).Consistent :=
  ⟨Arena.consistent_empty _, Arena.consistent_empty _, Arena.consistent_empty _,
    Arena.consistent_empty _, Arena.consistent_empty _⟩

lemma refCount_empty (c : Config) (e : PoolEntry) : (empty c).refCount e = 0 := by
  cases e with
  | pbs id => exact Pool.refCount_empty "PBS" c.maxPbsEntries id
  | range id => exact Pool.refCount_empty "range comparator" c.maxRangeComparators id
  | customBytes id => exact Pool.refCount_empty "custom bytes" c.maxCustomByteSets id
  | portList id => exact Pool.refCount_empty "port list" c.maxPortLists id
  | vlanGroup id => exact Pool.refCount_empty "VLAN group" c.maxVlanGroups id

/-! ### Taking references and giving them back -/

/-- The check of several handles passes if each of them names an entry. -/
lemma checkAll_eq_ok {kind : ObjectKind} {α : Type} {pool : Pool kind α} {ids : List (Handle kind)}
    {u : Unit} : pool.checkAll ids = .ok u ↔ ∀ id ∈ ids, pool.contains id = true := by
  rw [Pool.checkAll]
  split
  · next id hfind =>
      simp only [reduceCtorEq, false_iff, not_forall]
      exact ⟨id, List.mem_of_find?_eq_some hfind, by simpa using List.find?_some hfind⟩
  · next hfind => simpa using hfind

/-- The references to live entries can be taken.  No count drops, and with room below the
greatest count each of the references counts. -/
theorem exists_acquire {u : Unit} (hmax : ∀ e, p.refCount e ≤ maxCount)
    (hrefs : p.checkRefs refs = .ok u) :
    ∃ q, p.acquire refs = .ok q ∧ p.Recounted q ∧ (∀ e, p.refCount e ≤ q.refCount e) ∧
      ((∀ e, p.refCount e + refs.count e ≤ maxCount) →
        ∀ e, q.refCount e = p.refCount e + refs.count e) := by
  simp only [checkRefs, bind_eq_ok, checkAll_eq_ok] at hrefs
  obtain ⟨_, hpbs, _, hranges, _, hbytes, hports⟩ := hrefs
  obtain ⟨pbs, hpbs, rpbs, lpbs, epbs⟩ := Pool.exists_acquireAll (fun id => hmax (.pbs id)) hpbs
  obtain ⟨ranges, hranges, rranges, lranges, eranges⟩ :=
    Pool.exists_acquireAll (fun id => hmax (.range id)) hranges
  obtain ⟨bytes, hbytes, rbytes, lbytes, ebytes⟩ :=
    Pool.exists_acquireAll (fun id => hmax (.customBytes id)) hbytes
  obtain ⟨ports, hports, rports, lports, eports⟩ :=
    Pool.exists_acquireAll (fun id => hmax (.portList id)) hports
  refine ⟨{ p with
    pbs := pbs
    ranges := { p.ranges with pool := ranges }
    customBytes := bytes
    portLists := ports }, ?_, ⟨rpbs, rranges, rbytes, rports, .refl _⟩, fun e => ?_,
    fun hroom e => ?_⟩
  · simp only [acquire, hpbs, hranges, hbytes, hports, ok_bind]
    rfl
  · cases e with
    | pbs id => exact lpbs id
    | range id => exact lranges id
    | customBytes id => exact lbytes id
    | portList id => exact lports id
    | vlanGroup id => exact le_rfl
  · cases e with
    | pbs id => exact epbs (fun id => hroom (.pbs id)) id
    | range id => exact eranges (fun id => hroom (.range id)) id
    | customBytes id => exact ebytes (fun id => hroom (.customBytes id)) id
    | portList id => exact eports (fun id => hroom (.portList id)) id
    | vlanGroup id => rfl

/-- References that have been taken can be given back. -/
theorem exists_release (hrefs : ∀ e, refs.count e ≤ p.refCount e) :
    ∃ q, p.release refs = .ok q ∧ p.Recounted q ∧
      ∀ e, q.refCount e + refs.count e = p.refCount e := by
  obtain ⟨pbs, hpbs, rpbs, epbs⟩ := Pool.exists_releaseAll (fun id => hrefs (.pbs id))
  obtain ⟨ranges, hranges, rranges, eranges⟩ :=
    Pool.exists_releaseAll (fun id => hrefs (.range id))
  obtain ⟨bytes, hbytes, rbytes, ebytes⟩ :=
    Pool.exists_releaseAll (fun id => hrefs (.customBytes id))
  obtain ⟨ports, hports, rports, eports⟩ :=
    Pool.exists_releaseAll (fun id => hrefs (.portList id))
  refine ⟨{ p with
    pbs := pbs
    ranges := { p.ranges with pool := ranges }
    customBytes := bytes
    portLists := ports }, ?_, ⟨rpbs, rranges, rbytes, rports, .refl _⟩, fun e => ?_⟩
  · simp only [release, hpbs, hranges, hbytes, hports, ok_bind]
    rfl
  · cases e with
    | pbs id => exact epbs id
    | range id => exact eranges id
    | customBytes id => exact ebytes id
    | portList id => exact eports id
    | vlanGroup id => rfl

/-- Whatever the counts, the references of rules leave the entries alone, and VLAN groups
altogether. -/
lemma recounted_of_acquire (h : p.acquire refs = .ok q) :
    p.Recounted q ∧ q.vlanGroups = p.vlanGroups := by
  simp only [acquire, bind_eq_ok, pure_eq_ok] at h
  obtain ⟨_, hpbs, _, hranges, _, hbytes, _, hports, rfl⟩ := h
  exact ⟨⟨Pool.recounted_of_acquireAll hpbs, Pool.recounted_of_acquireAll hranges,
    Pool.recounted_of_acquireAll hbytes, Pool.recounted_of_acquireAll hports, .refl _⟩, rfl⟩

/-- Rules refer to no VLAN group, so giving their references back leaves those alone. -/
lemma recounted_of_release (h : p.release refs = .ok q) :
    p.Recounted q ∧ q.vlanGroups = p.vlanGroups := by
  simp only [release, bind_eq_ok, pure_eq_ok] at h
  obtain ⟨_, hpbs, _, hranges, _, hbytes, _, hports, rfl⟩ := h
  exact ⟨⟨Pool.recounted_of_releaseAll hpbs, Pool.recounted_of_releaseAll hranges,
    Pool.recounted_of_releaseAll hbytes, Pool.recounted_of_releaseAll hports, .refl _⟩, rfl⟩

/-! ### Creating, editing and removing entries -/

/-- The entries of `q` may differ from those of `p`, but their counts do not. -/
structure SameCounts (p q : Pools) : Prop where
  consistent : p.Consistent → q.Consistent
  refCount : p.Consistent → ∀ e, q.refCount e = p.refCount e

lemma SameCounts.of_pbs {pool : PbsPool} (h : p.pbs.SameCounts pool) :
    p.SameCounts { p with pbs := pool } := by
  refine ⟨fun hp => { hp with pbs := h.consistent hp.pbs }, fun hp e => ?_⟩
  cases e with
  | pbs id => exact h.refCount hp.pbs id
  | _ => rfl

lemma SameCounts.of_ranges {pool : RangePool} (h : p.ranges.pool.SameCounts pool.pool) :
    p.SameCounts { p with ranges := pool } := by
  refine ⟨fun hp => { hp with ranges := h.consistent hp.ranges }, fun hp e => ?_⟩
  cases e with
  | range id => exact h.refCount hp.ranges id
  | _ => rfl

lemma SameCounts.of_customBytes {pool : CustomBytesPool} (h : p.customBytes.SameCounts pool) :
    p.SameCounts { p with customBytes := pool } := by
  refine ⟨fun hp => { hp with customBytes := h.consistent hp.customBytes }, fun hp e => ?_⟩
  cases e with
  | customBytes id => exact h.refCount hp.customBytes id
  | _ => rfl

lemma SameCounts.of_portLists {pool : PortListPool} (h : p.portLists.SameCounts pool) :
    p.SameCounts { p with portLists := pool } := by
  refine ⟨fun hp => { hp with portLists := h.consistent hp.portLists }, fun hp e => ?_⟩
  cases e with
  | portList id => exact h.refCount hp.portLists id
  | _ => rfl

lemma SameCounts.of_vlanGroups {pool : VlanGroupPool} (h : p.vlanGroups.SameCounts pool) :
    p.SameCounts { p with vlanGroups := pool } := by
  refine ⟨fun hp => { hp with vlanGroups := h.consistent hp.vlanGroups }, fun hp e => ?_⟩
  cases e with
  | vlanGroup id => exact h.refCount hp.vlanGroups id
  | _ => rfl

/-- A new destination comes with no references. -/
lemma sameCounts_pbs_create {pool pool' : PbsPool} {destination : PbsDestination}
    {id : Handle .pbs} (h : PbsPool.create pool destination = .ok (id, pool')) :
    pool.SameCounts pool' := by
  simp only [PbsPool.create, bind_eq_ok] at h
  obtain ⟨_, -, h⟩ := h
  split at h
  · cases h
  · exact Pool.sameCounts_insert h

lemma sameCounts_pbs_edit {pool pool' : PbsPool} {destination : PbsDestination}
    {id : Handle .pbs} (h : PbsPool.edit pool id destination = .ok pool') :
    pool.SameCounts pool' := by
  simp only [PbsPool.edit, bind_eq_ok, guard_eq_ok] at h
  obtain ⟨_, -, -, h⟩ := h
  exact Pool.sameCounts_set h

/-- The ports are part of the value, which has no count. -/
lemma sameCounts_addPorts {pool pool' : PbsPool} {ports : List PortId}
    {id : Handle .pbs} (h : PbsPool.addPorts pool id ports = .ok pool') :
    pool.SameCounts pool' := by
  simp only [PbsPool.addPorts, bind_eq_ok] at h
  obtain ⟨_, -, h⟩ := h
  exact Pool.sameCounts_set h

lemma sameCounts_deletePorts {pool pool' : PbsPool} {ports : List PortId}
    {id : Handle .pbs} (h : PbsPool.deletePorts pool id ports = .ok pool') :
    pool.SameCounts pool' := by
  simp only [PbsPool.deletePorts, bind_eq_ok] at h
  obtain ⟨_, -, h⟩ := h
  split at h
  · cases h
  · rw [guard_eq_ok] at h
    exact Pool.sameCounts_set h.2

lemma sameCounts_range_create {pool pool' : RangePool} {r : RangeComparator} {id : Handle .range}
    (h : pool.create r = .ok (id, pool')) : pool.pool.SameCounts pool'.pool := by
  simp only [RangePool.create, bind_eq_ok, pure_eq_ok, Prod.mk.injEq] at h
  obtain ⟨_, -, _, -, ⟨id', inner⟩, hi, -, rfl⟩ := h
  exact Pool.sameCounts_insert hi

/-- A comparator that is edited has no references, and gets none. -/
lemma sameCounts_range_edit {pool pool' : RangePool} {r : RangeComparator} {id : Handle .range}
    (h : pool.edit id r = .ok pool') : pool.pool.SameCounts pool'.pool := by
  simp only [RangePool.edit, bind_eq_ok, pure_eq_ok] at h
  obtain ⟨_, -, _, -, _, -, inner, hi, rfl⟩ := h
  exact Pool.sameCounts_set hi

/-- A new entry of any kind has no references, and the other entries keep theirs. -/
theorem sameCounts_create {value : PoolValue} {entry : PoolEntry}
    (h : p.create value = .ok (entry, q)) : p.SameCounts q := by
  cases value with
  | pbs destination =>
      simp only [create, bind_eq_ok, pure_eq_ok, Prod.mk.injEq] at h
      obtain ⟨⟨id, pool⟩, hp, -, rfl⟩ := h
      exact .of_pbs (sameCounts_pbs_create hp)
  | range r =>
      simp only [create, bind_eq_ok, pure_eq_ok, Prod.mk.injEq] at h
      obtain ⟨⟨id, pool⟩, hp, -, rfl⟩ := h
      exact .of_ranges (sameCounts_range_create hp)
  | customBytes s =>
      simp only [create, CustomBytesPool.create, bind_eq_ok, pure_eq_ok, Prod.mk.injEq] at h
      obtain ⟨⟨id, pool⟩, ⟨_, -, hp⟩, -, rfl⟩ := h
      exact .of_customBytes (Pool.sameCounts_insert hp)
  | portList ports =>
      simp only [create, PortListPool.create, bind_eq_ok, pure_eq_ok, Prod.mk.injEq] at h
      obtain ⟨⟨id, pool⟩, ⟨_, -, hp⟩, -, rfl⟩ := h
      exact .of_portLists (Pool.sameCounts_insert hp)
  | vlanGroup vlans =>
      simp only [create, VlanGroupPool.create, bind_eq_ok, pure_eq_ok, Prod.mk.injEq] at h
      obtain ⟨⟨id, pool⟩, ⟨_, -, hp⟩, -, rfl⟩ := h
      exact .of_vlanGroups (Pool.sameCounts_insert hp)

/-- An edit changes a value and no count. -/
theorem sameCounts_edit {entry : PoolEntry} {value : PoolValue} (h : p.edit entry value = .ok q) :
    p.SameCounts q := by
  unfold edit at h
  split at h
  · simp only [bind_eq_ok, pure_eq_ok] at h
    obtain ⟨pool, hp, rfl⟩ := h
    exact .of_pbs (sameCounts_pbs_edit hp)
  · simp only [bind_eq_ok, pure_eq_ok] at h
    obtain ⟨pool, hp, rfl⟩ := h
    exact .of_ranges (sameCounts_range_edit hp)
  · simp only [CustomBytesPool.edit, bind_eq_ok, pure_eq_ok] at h
    obtain ⟨pool, ⟨_, -, _, -, hp⟩, rfl⟩ := h
    exact .of_customBytes (Pool.sameCounts_set hp)
  · simp only [PortListPool.replace, bind_eq_ok, pure_eq_ok] at h
    obtain ⟨pool, ⟨_, -, hp⟩, rfl⟩ := h
    exact .of_portLists (Pool.sameCounts_set hp)
  · cases h
  · cases h

theorem sameCounts_add {entry : PoolEntry} {value : PoolValue} (h : p.add entry value = .ok q) :
    p.SameCounts q := by
  unfold add at h
  split at h
  · simp only [PortListPool.add, bind_eq_ok, pure_eq_ok] at h
    obtain ⟨pool, ⟨_, -, hp⟩, rfl⟩ := h
    exact .of_portLists (Pool.sameCounts_set hp)
  · simp only [VlanGroupPool.add, bind_eq_ok, pure_eq_ok] at h
    obtain ⟨pool, ⟨_, -, _, -, hp⟩, rfl⟩ := h
    exact .of_vlanGroups (Pool.sameCounts_set hp)
  · cases h

theorem sameCounts_delete {entry : PoolEntry} {value : PoolValue}
    (h : p.delete entry value = .ok q) : p.SameCounts q := by
  unfold delete at h
  split at h
  · simp only [PortListPool.delete, bind_eq_ok, pure_eq_ok] at h
    obtain ⟨pool, ⟨_, -, hp⟩, rfl⟩ := h
    split at hp
    · cases hp
    · exact .of_portLists (Pool.sameCounts_set hp)
  · simp only [VlanGroupPool.delete, bind_eq_ok, pure_eq_ok] at h
    obtain ⟨pool, ⟨_, -, hp⟩, rfl⟩ := h
    split at hp
    · cases hp
    · exact .of_vlanGroups (Pool.sameCounts_set hp)
  · cases h

/-- An entry that goes has had no references. -/
theorem sameCounts_destroy {entry : PoolEntry} (h : p.destroy entry = .ok q) :
    p.SameCounts q := by
  cases entry with
  | pbs id =>
      simp only [destroy, bind_eq_ok, pure_eq_ok] at h
      obtain ⟨⟨v, pool⟩, hp, rfl⟩ := h
      exact .of_pbs (Pool.sameCounts_remove hp)
  | range id =>
      simp only [destroy, bind_eq_ok, pure_eq_ok] at h
      obtain ⟨⟨v, pool⟩, hp, rfl⟩ := h
      exact .of_ranges (Pool.sameCounts_remove hp)
  | customBytes id =>
      simp only [destroy, bind_eq_ok, pure_eq_ok] at h
      obtain ⟨⟨v, pool⟩, hp, rfl⟩ := h
      exact .of_customBytes (Pool.sameCounts_remove hp)
  | portList id =>
      simp only [destroy, bind_eq_ok, pure_eq_ok] at h
      obtain ⟨⟨v, pool⟩, hp, rfl⟩ := h
      exact .of_portLists (Pool.sameCounts_remove hp)
  | vlanGroup id =>
      simp only [destroy, bind_eq_ok, pure_eq_ok] at h
      obtain ⟨⟨v, pool⟩, hp, rfl⟩ := h
      exact .of_vlanGroups (Pool.sameCounts_remove hp)

end Pools

end AclPlane
