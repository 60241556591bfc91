import AclPlane.Acl

/-!
Groups of ACLs and their chains.

A group lists ACLs that serve its direction.  Groups are linked into chains that the device
searches in parallel; only the head of a chain is ever bound.

* `Groups.chainFrom` — the groups from a given one on.
* `Groups.planChain` — whether a group may follow another.
-/

namespace AclPlane

/-- A group of ACLs. -/
structure Group where
  direction : Direction
  acls : List (Handle .acl)
  priority : Nat
  /-- The group that follows in the chain. -/
  next : Option (Handle .group)
  deriving DecidableEq, Repr

/-- The groups of a device. -/
structure Groups where
  groups : Arena .group Group
  maxAclsPerGroup : Nat
  priorities : PriorityRange
  deriving DecidableEq

namespace Groups

/-- No groups yet. -/
def empty (c : Config) : Groups := ⟨Arena.empty c.maxGroups, c.maxAclsPerGroup, c.groupPriority⟩

/-- The group, or the error that there is none. -/
def get (gs : Groups) (id : Handle .group) : Except AclError Group :=
  match gs.groups.get? id with
  | some g => .ok g
  | none => .error (.notFound (.object id.ref))

/-- The first group that lists an ACL. -/
def holderOf? (gs : Groups) (acl : Handle .acl) : Option (Handle .group) :=
  gs.groups.find? (·.acls.contains acl)

/-- The group that a group follows. -/
def parentOf? (gs : Groups) (id : Handle .group) : Option (Handle .group) :=
  gs.groups.find? (·.next == some id)

/-! ### Creation -/

/-- The handle of a new group. -/
def planCreate (gs : Groups) (direction : Direction) : Except AclError (Handle .group) := do
  if direction = .multiPoints then throw (.invalidParam (.groupDirection direction))
  match gs.groups.nextHandle? with
  | some id => return id
  | none => throw (.exhausted (.full .groups))

/-- Adds a group without members. -/
def create (gs : Groups) (direction : Direction) : Except AclError (Handle .group × Groups) :=
  match gs.groups.insert? ⟨direction, [], gs.priorities.usual, none⟩ with
  | some (id, groups) => .ok (id, { gs with groups := groups })
  | none => .error (.exhausted (.full .groups))

/-! ### Members -/

/-- Checks members one after another; `seen` holds the earlier ones. -/
def checkMembersFrom (store : Acls) (group : Handle .group) (direction : Direction) :
    List (Handle .acl) → List (Handle .acl) → Except AclError Unit
  | _, [] => .ok ()
  | seen, id :: rest => do
    let a ← store.get id
    if !a.serves direction then
      throw (.invalidParam (.memberDirection id direction group))
    if seen.contains id then throw (.invalidParam (.listedTwice id.ref))
    checkMembersFrom store group direction (id :: seen) rest

/-- Checks a list of members for a group. -/
def checkMembers (gs : Groups) (store : Acls) (group : Handle .group)
    (acls : List (Handle .acl)) : Except AclError Unit := do
  let g ← gs.get group
  if gs.maxAclsPerGroup < acls.length then
    throw (.exhausted (.members group acls.length gs.maxAclsPerGroup))
  checkMembersFrom store group g.direction [] acls

/-- The members of a group after one has been appended, or nothing if it is one already. -/
def planAdd (gs : Groups) (store : Acls) (group : Handle .group) (acl : Handle .acl) :
    Except AclError (Option (List (Handle .acl))) := do
  let g ← gs.get group
  if g.acls.contains acl then return none
  gs.checkMembers store group (g.acls ++ [acl])
  return some (g.acls ++ [acl])

/-- The members of a group without one of them. -/
def planDelete (gs : Groups) (group : Handle .group) (acl : Handle .acl) :
    Except AclError (List (Handle .acl)) := do
  let g ← gs.get group
  if !g.acls.contains acl then throw (.notFound (.member acl group))
  return g.acls.filter (· != acl)

/-- Gives a group other members. -/
def setMembers (gs : Groups) (group : Handle .group) (acls : List (Handle .acl)) :
    Except AclError Groups := do
  let g ← gs.get group
  return { gs with groups := gs.groups.set group { g with acls := acls } }

/-! ### Chains -/

/-- Follows `next` from a group, at most `steps` times, until a group comes up again. -/
def walk (gs : Groups) : Nat → List (Handle .group) → Option (Handle .group) → List (Handle .group)
  | steps + 1, visited, some id =>
    if visited.contains id then visited.reverse
    else match gs.groups.get? id with
      | some g => walk gs steps (id :: visited) g.next
      | none => visited.reverse
  | _, visited, _ => visited.reverse

/-- The groups from `head` on, in the order of the chain. -/
def chainFrom (gs : Groups) (head : Handle .group) : List (Handle .group) :=
  gs.walk (gs.groups.size + 1) [] (some head)

/-- Checks that `child` may follow `parent`; `bound` tells the groups that are bound. -/
def planChain (gs : Groups) (bound : Handle .group → Bool) (parent child : Handle .group) :
    Except AclError Unit := do
  let p ← gs.get parent
  let c ← gs.get child
  if parent = child then throw (.invalidParam (.selfChain parent))
  match p.next with
  | some next => throw (.invalidParam (.alreadyFollowed parent next))
  | none => pure ()
  match gs.parentOf? child with
  | some other => throw (.invalidParam (.alreadyFollows child other))
  | none => pure ()
  if p.direction ≠ c.direction then
    throw (.invalidParam (.chainDirections c.direction child p.direction parent))
  if bound child then throw (.invalidParam (.boundChild child))
  if (gs.chainFrom child).contains parent then
    throw (.invalidParam (.chainCycle child parent))

/-- Gives a group another successor. -/
def setNext (gs : Groups) (group : Handle .group) (next : Option (Handle .group)) :
    Except AclError Groups := do
  let g ← gs.get group
  return { gs with groups := gs.groups.set group { g with next := next } }

/-! ### Priorities, destruction and listing -/

/-- Gives a group the priority it will be bound with. -/
def setPriority (gs : Groups) (group : Handle .group) (priority : Nat) :
    Except AclError Groups := do
  let g ← gs.get group
  if !gs.priorities.contains priority then
    throw (.invalidParam (.groupPriority priority gs.priorities))
  return { gs with groups := gs.groups.set group { g with priority := priority } }

/-- Removes a group. -/
def destroy (gs : Groups) (id : Handle .group) : Except AclError Groups :=
  match gs.groups.remove? id with
  | some (_, groups) => .ok { gs with groups := groups }
  | none => .error (.notFound (.object id.ref))

/-- Lists groups. -/
def query (gs : Groups) (q : Query (Handle .group)) : Except AclError (Page (Handle .group)) :=
  match gs.groups.select q with
  | some page => .ok page
  | none => .error (.notFound (.queried .group))

end Groups

end AclPlane
