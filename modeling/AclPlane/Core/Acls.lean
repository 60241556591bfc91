import AclPlane.Core

/-!
Operations on ACLs.
-/

namespace AclPlane.Core

/-- Creates an ACL over a list of regions. -/
def createAcl (c : Core) (aclType : AclType) (direction : Direction) (bitmap : DirectionSet)
    (regions : List (Handle .region)) : Except AclError (Change (Handle .acl)) := do
  let planned ← c.acls.planCreate c.regions direction bitmap regions
  return {
    call := some (.programAcl planned regions)
    commit := do
      let (id, acls) ← c.acls.create ⟨aclType, direction, bitmap, regions⟩
      return ⟨{ c with acls := acls }, [], id⟩ }

/-- Replaces the regions of an ACL and, while it is empty, the bitmap. -/
def editAcl (c : Core) (acl : Handle .acl) (regions : List (Handle .region))
    (bitmap : DirectionSet) : Except AclError (Change Unit) := do
  let bitmap ← c.acls.planEdit c.regions acl regions bitmap
  return {
    call := some (.programAcl acl regions)
    commit := do
      let acls ← c.acls.edit acl regions bitmap
      return ⟨{ c with acls := acls }, [], ()⟩ }

/-- Destroys an ACL that no group lists and no binding targets. -/
def destroyAcl (c : Core) (acl : Handle .acl) : Except AclError (Change Unit) := do
  let _ ← c.acls.get acl
  match c.groups.holderOf? acl with
  | some group => throw (.inUse (.memberOf acl group))
  | none => pure ()
  if c.bindings.isBound (.acl acl) then throw (.inUse (.bound acl.ref))
  return {
    call := some (.removeAcl acl)
    commit := do
      let acls ← c.acls.destroy acl
      return ⟨{ c with acls := acls }, [.objectDeleted acl.ref], ()⟩ }

end AclPlane.Core
