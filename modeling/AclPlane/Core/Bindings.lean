import AclPlane.Core

/-!
Operations on bindings.

A VLAN group counts the keys on which it carries a binding.
-/

namespace AclPlane.Core

/-! ### Checks -/

/-- Checks that a key can carry a binding. -/
def checkBindingKey (c : Core) (key : BindingKey) : Except AclError Unit := do
  Bindings.checkPoint key
  match key.point with
  | .vlanGroup id =>
    if !c.pools.vlanGroups.contains id then throw (.notFound (.object id.ref))
  | _ => pure ()

/-- The priority that a target is bound with, if it can be bound in a direction. -/
def targetPriority (c : Core) (direction : Direction) : BindTarget → Except AclError Nat
  | .acl id => do
    let a ← c.acls.get id
    if a.isMultiPoint ∧ a.bitmap.isEmpty then throw (.invalidParam (.bitmapUnset id))
    if !a.serves direction then throw (.invalidParam (.directionNotServed id direction))
    return c.groups.priorities.usual
  | .group id => do
    let g ← c.groups.get id
    if g.direction ≠ direction then throw (.invalidParam (.directionOfGroup id g.direction))
    match c.groups.parentOf? id with
    | some parent => throw (.invalidParam (.notChainHead id parent))
    | none => return g.priority

/-! ### Changing the entries of a key -/

/-- The pools after a key has got other entries: a VLAN group is counted while a key of it is
bound. -/
def countBinding (c : Core) (key : BindingKey) (list : List BoundEntry) : Except AclError Pools :=
  match key.point with
  | .vlanGroup id =>
    match c.bindings.isBoundAt key, !list.isEmpty with
    | false, true => do return { c.pools with vlanGroups := ← c.pools.vlanGroups.acquire id }
    | true, false => do return { c.pools with vlanGroups := ← c.pools.vlanGroups.release id }
    | _, _ => .ok c.pools
  | _ => .ok c.pools

/-- Gives a key other entries, with the statistics that go with it. -/
def rebind (c : Core) (key : BindingKey) (list : List BoundEntry) (stats : Stats) :
    Change Unit where
  call := some (.programBinding key (Bindings.rawTargets list))
  commit := do
    let pools ← c.countBinding key list
    return {
      core := { c with
        pools := pools
        bindings := c.bindings.commit key list
        stats := stats }
      events := [.bindingChanged key]
      result := () }

/-- The statistics with one more binding made. -/
def oneBind (c : Core) : Stats := { c.stats with binds := c.stats.binds + 1 }

/-- The statistics with one more binding undone. -/
def oneUnbind (c : Core) : Stats := { c.stats with unbinds := c.stats.unbinds + 1 }

/-! ### Operations -/

/-- Binds a target as the only entry of a key. -/
def bindTarget (c : Core) (key : BindingKey) (target : BindTarget) :
    Except AclError (Change Unit) := do
  c.checkBindingKey key
  let priority ← c.targetPriority key.direction target
  return c.rebind key [⟨target, priority⟩] c.oneBind

/-- Removes every entry of a key. -/
def unbind (c : Core) (key : BindingKey) : Except AclError (Change Unit) := do
  c.checkBindingKey key
  if !c.bindings.isBoundAt key then throw (.notFound (.binding key))
  return c.rebind key [] c.oneUnbind

/-- Adds a chain of groups in the order of priorities; one that is bound is passed over. -/
def bindAdd (c : Core) (key : BindingKey) (group : Handle .group) :
    Except AclError (Change Unit) := do
  c.checkBindingKey key
  let priority ← c.targetPriority key.direction (.group group)
  match ← c.bindings.planAdd key ⟨.group group, priority⟩ with
  | some list => return c.rebind key list c.oneBind
  | none => return .quiet c ()

/-- Takes a chain of groups out of a key. -/
def bindDelete (c : Core) (key : BindingKey) (group : Handle .group) :
    Except AclError (Change Unit) := do
  c.checkBindingKey key
  let list ← c.bindings.planDelete key group
  return c.rebind key list c.oneUnbind

end AclPlane.Core
