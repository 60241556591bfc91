import AclPlane.Pool

/-!
PBS entries.  No two of them have the same destination when they are created or edited.
-/

namespace AclPlane

/-- Checks that a port group is not empty and lists no port twice. -/
def PbsDestination.check : PbsDestination → Except AclError Unit
  | portGroup ports =>
    if ports.isEmpty then .error (.invalidParam .emptyPortGroup)
    else if ports.eraseDups.length ≠ ports.length then .error (.invalidParam .portGroupTwice)
    else .ok ()
  | _ => .ok ()

/-- The pool of PBS entries. -/
abbrev PbsPool := Pool .pbs PbsDestination

namespace PbsPool

/-- A pool without PBS entries. -/
def empty (limit : Nat) : PbsPool := Pool.empty "PBS" limit

/-- Creates an entry for a destination that none has yet. -/
def create (p : PbsPool) (destination : PbsDestination) :
    Except AclError (Handle .pbs × PbsPool) := do
  destination.check
  match p.toList.find? (fun e => e.2 == destination) with
  | some (existing, _) => throw (.alreadyExists (.created destination existing))
  | none => p.insert destination

/-- Gives an entry a destination that no other has. -/
def edit (p : PbsPool) (id : Handle .pbs) (destination : PbsDestination) :
    Except AclError PbsPool := do
  destination.check
  if p.toList.any (fun e => e.1 != id && e.2 == destination) then
    throw (.alreadyExists (.edited destination))
  p.set id destination

/-- The ports of an entry that is a port group. -/
def portGroup (p : PbsPool) (id : Handle .pbs) : Except AclError (List PortId) := do
  match ← p.get id with
  | .portGroup ports => return ports
  | _ => throw (.invalidParam (.notPortGroup id))

/-- Puts ports that are not in a list yet behind it. -/
def appendPorts (current ports : List PortId) : List PortId :=
  ports.foldl (fun l port => if l.contains port then l else l ++ [port]) current

/-- Adds ports to a port group. -/
def addPorts (p : PbsPool) (id : Handle .pbs) (ports : List PortId) : Except AclError PbsPool := do
  let current ← portGroup p id
  p.set id (.portGroup (appendPorts current ports))

/-- Takes ports out of a port group, which must not become empty. -/
def deletePorts (p : PbsPool) (id : Handle .pbs) (ports : List PortId) :
    Except AclError PbsPool := do
  let current ← portGroup p id
  match ports.find? (fun port => !current.contains port) with
  | some port => throw (.notFound (.port port id.ref))
  | none => pure ()
  let remaining := current.filter (fun port => !ports.contains port)
  if remaining.isEmpty then throw (.invalidParam (.portGroupWouldBeEmpty id))
  p.set id (.portGroup remaining)

end PbsPool

end AclPlane
