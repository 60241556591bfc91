import AclPlane.Core

/-!
Operations on regions.
-/

namespace AclPlane.Core

/-- Creates a region of a key type. -/
def createRegion (c : Core) (keyType : Handle .keyType) (capacity : Nat) :
    Except AclError (Change (Handle .region)) := do
  let kt ← c.keyTypes.get keyType
  let (planned, hwSize) ← c.regions.planCreate kt.width capacity
  return {
    call := some (.createRegion planned kt.blocks hwSize)
    commit := do
      let (id, regions) ← c.regions.create keyType kt.width capacity hwSize
      let keyTypes ← c.keyTypes.acquire keyType
      return {
        core := { c with
          keyTypes := keyTypes
          regions := regions
          stats := { c.stats with regionsCreated := c.stats.regionsCreated + 1 } }
        events := []
        result := id } }

/-- Gives a region another capacity, with every rule at its offset.  The result is the new
hardware size. -/
def resizeRegion (c : Core) (region : Handle .region) (capacity : Nat) :
    Except AclError (Change Nat) := do
  let hwSize ← c.regions.planResize region capacity
  return {
    call := some (.resizeRegion region hwSize)
    commit := do
      let regions ← c.regions.resize region capacity hwSize
      return ⟨{ c with regions := regions }, [.regionResized region hwSize], hwSize⟩ }

/-- Destroys a region that no ACL uses, and its rules with it. -/
def destroyRegion (c : Core) (region : Handle .region) : Except AclError (Change Unit) := do
  let _ ← c.regions.get region
  match c.acls.userOf? region with
  | some acl => throw (.inUse (.usedByAcl region acl))
  | none => pure ()
  return {
    call := some (.destroyRegion region)
    commit := do
      let (removed, regions) ← c.regions.destroy region
      let keyTypes ← c.keyTypes.release removed.keyType
      let pools ← c.pools.release removed.table.refs
      return {
        core := { c with
          keyTypes := keyTypes
          regions := regions
          pools := pools
          stats := { c.stats with regionsDestroyed := c.stats.regionsDestroyed + 1 } }
        events := [.objectDeleted region.ref]
        result := () } }

end AclPlane.Core
