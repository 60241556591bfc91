import AclPlane.Core

/-!
What is in force: the ACLs, groups and regions that some binding reaches.
-/

namespace AclPlane.Core

/-- The ACLs that a target enforces, directly or through a chain of groups. -/
def enforcedBy (c : Core) : BindTarget → List (Handle .acl)
  | .acl id => [id]
  | .group head =>
    (c.groups.chainFrom head).flatMap (fun id => match c.groups.groups.get? id with
      | some g => g.acls
      | none => [])

/-- The ACLs that some binding enforces. -/
def boundAcls (c : Core) : List (Handle .acl) :=
  c.bindings.allEntries.flatMap (fun e => c.enforcedBy e.target)

/-- Whether an ACL that some binding enforces searches a region. -/
def isRegionBound (c : Core) (region : Handle .region) : Bool :=
  c.boundAcls.any (fun id => match c.acls.acls.get? id with
    | some a => a.usesRegion region
    | none => false)

/-- Whether a group belongs to a bound chain. -/
def isGroupBound (c : Core) (group : Handle .group) : Bool :=
  c.bindings.allEntries.any (fun e => match e.target with
    | .group head => (c.groups.chainFrom head).contains group
    | .acl _ => false)

/-- Checks that the activity of the listed offsets is defined: they lie in a region that some
binding reaches. -/
def checkActivity (c : Core) (region : Handle .region) (offsets : List Nat) :
    Except AclError Unit := do
  let r ← c.regions.get region
  offsets.forM r.table.checkOffset
  if !c.isRegionBound region then throw (.invalidParam (.regionNotBound region))

end AclPlane.Core
