import AclPlane.Command

/-!
Commands on pool entries.
-/

namespace AclPlane

/-- The parameters of commands on pool entries. -/
structure PoolParams where
  entry : Option PoolEntry
  value : Option PoolValue
  deriving DecidableEq, Repr

/-- Operations on pool entries. -/
inductive PoolOp where
  | create (value : PoolValue)
  /-- Replaces the contents of an entry. -/
  | edit (entry : PoolEntry) (value : PoolValue)
  /-- Adds members to a port list or a VLAN group. -/
  | add (entry : PoolEntry) (value : PoolValue)
  /-- Takes members out of a port list or a VLAN group. -/
  | delete (entry : PoolEntry) (value : PoolValue)
  | destroy (entry : PoolEntry)
  deriving DecidableEq, Repr

namespace PoolOp

/-- The command of an operation. -/
def command : PoolOp → AccessCommand
  | create _ => .create
  | edit .. => .edit
  | add .. => .add
  | delete .. => .delete
  | destroy _ => .destroy

/-- The operation of a command. -/
def ofCommand (cmd : AccessCommand) (p : PoolParams) : Except AclError PoolOp :=
  let entry := Command.required cmd .entry p.entry
  match cmd with
  | .create => do return create (← Command.required cmd .value p.value)
  | .edit => do
    let e ← entry
    return edit e (← Command.required cmd .value p.value)
  | .add => do
    let e ← entry
    return add e (← Command.required cmd .members p.value)
  | .delete => do
    let e ← entry
    return delete e (← Command.required cmd .members p.value)
  | .destroy => do return destroy (← entry)
  | _ => .error (.unsupported cmd .poolEntry)

end PoolOp

end AclPlane
