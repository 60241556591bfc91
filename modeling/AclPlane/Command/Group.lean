import AclPlane.Command

/-!
Commands on groups of ACLs.
-/

namespace AclPlane

/-- The parameters of commands on groups. -/
structure GroupParams where
  group : Option (Handle .group)
  direction : Option Direction
  acls : List (Handle .acl)
  /-- The successor to bind. -/
  next : Option (Handle .group)
  /-- The priority to edit. -/
  priority : Option Nat
  deriving DecidableEq, Repr

/-- Operations on groups. -/
inductive GroupOp where
  | create (direction : Direction)
  | set (group : Handle .group) (acls : List (Handle .acl))
  | add (group : Handle .group) (acl : Handle .acl)
  | delete (group : Handle .group) (acl : Handle .acl)
  /-- Binding a group lets `child` follow it. -/
  | chain (parent child : Handle .group)
  | unchain (parent : Handle .group)
  | setPriority (group : Handle .group) (priority : Nat)
  | destroy (group : Handle .group)
  deriving DecidableEq, Repr

namespace GroupOp

/-- The command of an operation. -/
def command : GroupOp → AccessCommand
  | create _ => .create
  | set .. => .set
  | add .. => .add
  | delete .. => .delete
  | chain .. => .bind
  | unchain _ => .unbind
  | setPriority .. => .edit
  | destroy _ => .destroy

/-- The one ACL of a list, or the error that the command takes exactly one. -/
def singleAcl (cmd : AccessCommand) : List (Handle .acl) → Except AclError (Handle .acl)
  | [acl] => .ok acl
  | acls => .error (.invalidParam (.singleAcl cmd acls.length))

/-- The operation of a command. -/
def ofCommand (cmd : AccessCommand) (p : GroupParams) : Except AclError GroupOp :=
  let group := Command.required cmd .group p.group
  match cmd with
  | .create => do return create (← Command.required cmd .direction p.direction)
  | .set => do return set (← group) p.acls
  | .add => do
    let g ← group
    return add g (← singleAcl cmd p.acls)
  | .delete => do
    let g ← group
    return delete g (← singleAcl cmd p.acls)
  | .bind => do
    let g ← group
    return chain g (← Command.required cmd .successor p.next)
  | .unbind => do return unchain (← group)
  | .edit => do
    let g ← group
    return setPriority g (← Command.required cmd .priority p.priority)
  | .destroy => do return destroy (← group)
  | _ => .error (.unsupported cmd .group)

end GroupOp

end AclPlane
