import AclPlane.Core

/-!
Operations on pool entries.  The device takes no part in them.
-/

namespace AclPlane.Core

/-- Puts changed pools into the model. -/
def withPools (c : Core) (pools : Except AclError Pools) : Except AclError (Change Unit) := do
  return .quiet { c with pools := ← pools } ()

/-- Creates a pool entry. -/
def createPoolEntry (c : Core) (value : PoolValue) : Except AclError (Change PoolEntry) := do
  let (entry, pools) ← c.pools.create value
  return .quiet { c with pools := pools } entry

/-- Replaces the contents of a pool entry. -/
def editPoolEntry (c : Core) (entry : PoolEntry) (value : PoolValue) :
    Except AclError (Change Unit) :=
  c.withPools (c.pools.edit entry value)

/-- Adds members to a port list or a VLAN group. -/
def addPoolMembers (c : Core) (entry : PoolEntry) (value : PoolValue) :
    Except AclError (Change Unit) :=
  c.withPools (c.pools.add entry value)

/-- Takes members out of a port list or a VLAN group. -/
def deletePoolMembers (c : Core) (entry : PoolEntry) (value : PoolValue) :
    Except AclError (Change Unit) :=
  c.withPools (c.pools.delete entry value)

/-- Adds ports to the port group of a PBS entry. -/
def addPbsPorts (c : Core) (id : Handle .pbs) (ports : List PortId) :
    Except AclError (Change Unit) :=
  c.withPools (do return { c.pools with pbs := ← PbsPool.addPorts c.pools.pbs id ports })

/-- Takes ports out of the port group of a PBS entry. -/
def deletePbsPorts (c : Core) (id : Handle .pbs) (ports : List PortId) :
    Except AclError (Change Unit) :=
  c.withPools (do return { c.pools with pbs := ← PbsPool.deletePorts c.pools.pbs id ports })

/-- Removes a pool entry that nothing refers to. -/
def destroyPoolEntry (c : Core) (entry : PoolEntry) : Except AclError (Change Unit) := do
  let pools ← c.pools.destroy entry
  return .inside { c with pools := pools } [.objectDeleted entry.ref] ()

end AclPlane.Core
