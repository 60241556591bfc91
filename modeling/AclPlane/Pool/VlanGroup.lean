import AclPlane.Pool

/-!
VLAN groups.  They are attachment points, referred to by the bindings made on them.
-/

namespace AclPlane

/-- The pool of VLAN groups. -/
abbrev VlanGroupPool := Pool .vlanGroup (OrderedSet UInt16)

namespace VlanGroupPool

/-- A pool without VLAN groups. -/
def empty (limit : Nat) : VlanGroupPool := Pool.empty "VLAN group" limit

/-- Checks that VLAN numbers lie between 1 and 4094. -/
def checkVlans (vlans : List UInt16) : Except AclError Unit :=
  match vlans.find? (fun v => v < 1 || 4094 < v) with
  | some v => .error (.invalidParam (.vlanOutOfRange v))
  | none => .ok ()

/-- Creates a VLAN group. -/
def create (p : VlanGroupPool) (vlans : List UInt16) :
    Except AclError (Handle .vlanGroup × VlanGroupPool) := do
  checkVlans vlans
  p.insert (OrderedSet.of vlans)

/-- Adds VLANs to a group. -/
def add (p : VlanGroupPool) (id : Handle .vlanGroup) (vlans : List UInt16) :
    Except AclError VlanGroupPool := do
  checkVlans vlans
  let current ← p.get id
  p.set id (OrderedSet.addAll current vlans)

/-- Takes VLANs out of a group; each of them must be in it. -/
def delete (p : VlanGroupPool) (id : Handle .vlanGroup) (vlans : List UInt16) :
    Except AclError VlanGroupPool := do
  let current ← p.get id
  match vlans.find? (fun v => !OrderedSet.has current v) with
  | some v => throw (.notFound (.vlan v id))
  | none => p.set id (OrderedSet.removeAll current vlans)

end VlanGroupPool

end AclPlane
