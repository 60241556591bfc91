import AclPlane.Core.Activity

/-!
Operations on groups and their chains.
-/

namespace AclPlane.Core

/-- Creates a group without members. -/
def createGroup (c : Core) (direction : Direction) :
    Except AclError (Change (Handle .group)) := do
  let planned ← c.groups.planCreate direction
  return {
    call := some (.programGroup planned [] none)
    commit := do
      let (id, groups) ← c.groups.create direction
      return ⟨{ c with groups := groups }, [], id⟩ }

/-! ### Members -/

/-- Programs a list of members that has been checked. -/
def programMembers (c : Core) (group : Handle .group) (acls : List (Handle .acl)) :
    Except AclError (Change Unit) := do
  let g ← c.groups.get group
  return {
    call := some (.programGroup group acls g.next)
    commit := do
      let groups ← c.groups.setMembers group acls
      return ⟨{ c with groups := groups }, [], ()⟩ }

/-- Replaces the members of a group. -/
def setGroupAcls (c : Core) (group : Handle .group) (acls : List (Handle .acl)) :
    Except AclError (Change Unit) := do
  c.groups.checkMembers c.acls group acls
  c.programMembers group acls

/-- Appends a member; one that is a member already is passed over. -/
def addGroupAcl (c : Core) (group : Handle .group) (acl : Handle .acl) :
    Except AclError (Change Unit) := do
  match ← c.groups.planAdd c.acls group acl with
  | some acls => c.programMembers group acls
  | none => return .quiet c ()

/-- Takes a member out of a group. -/
def deleteGroupAcl (c : Core) (group : Handle .group) (acl : Handle .acl) :
    Except AclError (Change Unit) := do
  let acls ← c.groups.planDelete group acl
  c.programMembers group acls

/-! ### Chains -/

/-- Lets `child` follow `parent`. -/
def chainGroups (c : Core) (parent child : Handle .group) : Except AclError (Change Unit) := do
  c.groups.planChain (fun g => c.bindings.isBound (.group g)) parent child
  let p ← c.groups.get parent
  return {
    call := some (.programGroup parent p.acls (some child))
    commit := do
      let groups ← c.groups.setNext parent (some child)
      return ⟨{ c with groups := groups }, [], ()⟩ }

/-- Cuts a chain behind a group. -/
def unchainGroup (c : Core) (parent : Handle .group) : Except AclError (Change Unit) := do
  let p ← c.groups.get parent
  if p.next.isNone then throw (.notFound (.successor parent))
  return {
    call := some (.programGroup parent p.acls none)
    commit := do
      let groups ← c.groups.setNext parent none
      return ⟨{ c with groups := groups }, [], ()⟩ }

/-! ### Priorities and destruction -/

/-- Gives a group the priority that it will be bound with; present bindings keep theirs. -/
def setGroupPriority (c : Core) (group : Handle .group) (priority : Nat) :
    Except AclError (Change Unit) := do
  let groups ← c.groups.setPriority group priority
  return .quiet { c with groups := groups } ()

/-- Destroys a group that is not bound and follows no other. -/
def destroyGroup (c : Core) (group : Handle .group) : Except AclError (Change Unit) := do
  let _ ← c.groups.get group
  if c.isGroupBound group then throw (.inUse (.bound group.ref))
  match c.groups.parentOf? group with
  | some parent => throw (.inUse (.follows group parent))
  | none => pure ()
  return {
    call := some (.removeGroup group)
    commit := do
      let groups ← c.groups.destroy group
      return ⟨{ c with groups := groups }, [.objectDeleted group.ref], ()⟩ }

end AclPlane.Core
