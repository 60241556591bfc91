import AclPlane.Pool

/-!
Port lists.
-/

namespace AclPlane

instance : Ord PortId := ⟨compareOn PortId.number⟩

instance : Std.TransOrd PortId := inferInstanceAs (Std.TransCmp (compareOn PortId.number))

instance : Std.LawfulEqOrd PortId where
  eq_of_compare {a b} h := by
    cases a
    cases b
    exact congrArg PortId.mk (Std.LawfulEqOrd.eq_of_compare h)

/-- The pool of port lists. -/
abbrev PortListPool := Pool .portList (OrderedSet PortId)

namespace PortListPool

/-- A pool without port lists. -/
def empty (limit : Nat) : PortListPool := Pool.empty "port list" limit

/-- The set of the listed ports, each of which may be listed once. -/
def unique (ports : List PortId) : Except AclError (OrderedSet PortId) :=
  let set := OrderedSet.of ports
  if set.size ≠ ports.length then .error (.invalidParam .portListTwice) else .ok set

/-- Creates a port list. -/
def create (p : PortListPool) (ports : List PortId) :
    Except AclError (Handle .portList × PortListPool) := do
  let set ← unique ports
  p.insert set

/-- Replaces the ports of a list. -/
def replace (p : PortListPool) (id : Handle .portList) (ports : List PortId) :
    Except AclError PortListPool := do
  let set ← unique ports
  p.set id set

/-- Adds ports to a list. -/
def add (p : PortListPool) (id : Handle .portList) (ports : List PortId) :
    Except AclError PortListPool := do
  let current ← p.get id
  p.set id (OrderedSet.addAll current ports)

/-- Takes ports out of a list; each of them must be in it. -/
def delete (p : PortListPool) (id : Handle .portList) (ports : List PortId) :
    Except AclError PortListPool := do
  let current ← p.get id
  match ports.find? (fun port => !OrderedSet.has current port) with
  | some port => throw (.notFound (.port port id.ref))
  | none => p.set id (OrderedSet.removeAll current ports)

end PortListPool

end AclPlane
