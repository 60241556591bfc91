import AclPlane.Pool.CustomBytes
import AclPlane.Pool.Pbs
import AclPlane.Pool.PortList
import AclPlane.Pool.Range
import AclPlane.Pool.VlanGroup
import AclPlane.Rule

/-!
All shared pools of a device.

* `Pools.checkRefs`, `Pools.acquire`, `Pools.release` — the references that rules hold.
* `Pools.create`, `Pools.edit`, `Pools.add`, `Pools.delete`, `Pools.destroy` — changes of
  entries of any kind.
-/

namespace AclPlane

/-- The shared pools of a device. -/
structure Pools where
  pbs : PbsPool
  ranges : RangePool
  customBytes : CustomBytesPool
  portLists : PortListPool
  vlanGroups : VlanGroupPool
  deriving DecidableEq

namespace Pools

/-- Pools without entries. -/
def empty (c : Config) : Pools where
  pbs := PbsPool.empty c.maxPbsEntries
  ranges := RangePool.empty c.maxRangeComparators c.maxCustomBytesRanges
  customBytes := CustomBytesPool.empty c.maxCustomByteSets
  portLists := PortListPool.empty c.maxPortLists
  vlanGroups := VlanGroupPool.empty c.maxVlanGroups

/-! ### References of rules -/

/-- Checks that every entry referred to exists. -/
def checkRefs (p : Pools) (refs : PoolRefs) : Except AclError Unit := do
  p.pbs.checkAll refs.pbs
  p.ranges.pool.checkAll refs.ranges
  p.customBytes.checkAll refs.customBytes
  p.portLists.checkAll refs.portLists

/-- Counts further references. -/
def acquire (p : Pools) (refs : PoolRefs) : Except AclError Pools := do
  let pbs ← refs.pbs.foldlM Pool.acquire p.pbs
  let ranges ← refs.ranges.foldlM Pool.acquire p.ranges.pool
  let customBytes ← refs.customBytes.foldlM Pool.acquire p.customBytes
  let portLists ← refs.portLists.foldlM Pool.acquire p.portLists
  return { p with
    pbs := pbs
    ranges := { p.ranges with pool := ranges }
    customBytes := customBytes
    portLists := portLists }

/-- Counts references given back. -/
def release (p : Pools) (refs : PoolRefs) : Except AclError Pools := do
  let pbs ← refs.pbs.foldlM Pool.release p.pbs
  let ranges ← refs.ranges.foldlM Pool.release p.ranges.pool
  let customBytes ← refs.customBytes.foldlM Pool.release p.customBytes
  let portLists ← refs.portLists.foldlM Pool.release p.portLists
  return { p with
    pbs := pbs
    ranges := { p.ranges with pool := ranges }
    customBytes := customBytes
    portLists := portLists }

/-! ### Entries of any kind -/

/-- Creates an entry. -/
def create (p : Pools) : PoolValue → Except AclError (PoolEntry × Pools)
  | .pbs destination => do
    let (id, pbs) ← PbsPool.create p.pbs destination
    return (.pbs id, { p with pbs := pbs })
  | .range r => do
    let (id, ranges) ← p.ranges.create r
    return (.range id, { p with ranges := ranges })
  | .customBytes s => do
    let (id, sets) ← CustomBytesPool.create p.customBytes s
    return (.customBytes id, { p with customBytes := sets })
  | .portList ports => do
    let (id, lists) ← PortListPool.create p.portLists ports
    return (.portList id, { p with portLists := lists })
  | .vlanGroup vlans => do
    let (id, groups) ← VlanGroupPool.create p.vlanGroups vlans
    return (.vlanGroup id, { p with vlanGroups := groups })

/-- Replaces the contents of an entry.  VLAN groups are changed by their members only. -/
def edit (p : Pools) : PoolEntry → PoolValue → Except AclError Pools
  | .pbs id, .pbs destination => do
    return { p with pbs := ← PbsPool.edit p.pbs id destination }
  | .range id, .range r => do
    return { p with ranges := ← p.ranges.edit id r }
  | .customBytes id, .customBytes s => do
    return { p with customBytes := ← CustomBytesPool.edit p.customBytes id s }
  | .portList id, .portList ports => do
    return { p with portLists := ← PortListPool.replace p.portLists id ports }
  | .vlanGroup _, _ => .error (.unsupported .edit .vlanGroup)
  | entry, _ => .error (.invalidParam (.valueMismatch entry))

/-- Adds members to a port list or a VLAN group. -/
def add (p : Pools) : PoolEntry → PoolValue → Except AclError Pools
  | .portList id, .portList ports => do
    return { p with portLists := ← PortListPool.add p.portLists id ports }
  | .vlanGroup id, .vlanGroup vlans => do
    return { p with vlanGroups := ← VlanGroupPool.add p.vlanGroups id vlans }
  | entry, _ => .error (.invalidParam (.valueMismatch entry))

/-- Takes members out of a port list or a VLAN group. -/
def delete (p : Pools) : PoolEntry → PoolValue → Except AclError Pools
  | .portList id, .portList ports => do
    return { p with portLists := ← PortListPool.delete p.portLists id ports }
  | .vlanGroup id, .vlanGroup vlans => do
    return { p with vlanGroups := ← VlanGroupPool.delete p.vlanGroups id vlans }
  | entry, _ => .error (.invalidParam (.valueMismatch entry))

/-- Removes an entry that nothing refers to. -/
def destroy (p : Pools) : PoolEntry → Except AclError Pools
  | .pbs id => do
    let (_, pbs) ← p.pbs.remove id
    return { p with pbs := pbs }
  | .range id => do
    let (_, ranges) ← p.ranges.pool.remove id
    return { p with ranges := { p.ranges with pool := ranges } }
  | .customBytes id => do
    let (_, sets) ← p.customBytes.remove id
    return { p with customBytes := sets }
  | .portList id => do
    let (_, lists) ← p.portLists.remove id
    return { p with portLists := lists }
  | .vlanGroup id => do
    let (_, groups) ← p.vlanGroups.remove id
    return { p with vlanGroups := groups }

end Pools

end AclPlane
