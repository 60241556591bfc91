import AclPlane.Command

/-!
Commands on bindings.
-/

namespace AclPlane

/-- The parameters of commands on bindings. -/
structure BindParams where
  point : Option AttachPoint
  direction : Option Direction
  target : Option BindTarget
  deriving DecidableEq, Repr

/-- Operations on bindings. -/
inductive BindOp where
  | bind (key : BindingKey) (target : BindTarget)
  | unbind (key : BindingKey)
  | add (key : BindingKey) (group : Handle .group)
  | delete (key : BindingKey) (group : Handle .group)
  deriving DecidableEq, Repr

namespace BindOp

/-- The command of an operation. -/
def command : BindOp → AccessCommand
  | bind .. => .bind
  | unbind _ => .unbind
  | add .. => .add
  | delete .. => .delete

/-- The binding key that the parameters give. -/
def bindingKey (cmd : AccessCommand) (p : BindParams) : Except AclError BindingKey := do
  let point ← Command.required cmd .point p.point
  let direction ← Command.required cmd .direction p.direction
  return ⟨point, direction⟩

/-- The group that the parameters give as the target. -/
def targetGroup (cmd : AccessCommand) (p : BindParams) : Except AclError (Handle .group) := do
  match ← Command.required cmd .target p.target with
  | .group group => return group
  | .acl acl => throw (.invalidParam (.groupExpected cmd acl))

/-- The operation of a command. -/
def ofCommand (cmd : AccessCommand) (p : BindParams) : Except AclError BindOp :=
  match cmd with
  | .bind => do
    let key ← bindingKey cmd p
    return bind key (← Command.required cmd .target p.target)
  | .unbind => do return unbind (← bindingKey cmd p)
  | .add => do
    let key ← bindingKey cmd p
    return add key (← targetGroup cmd p)
  | .delete => do
    let key ← bindingKey cmd p
    return delete key (← targetGroup cmd p)
  | _ => .error (.unsupported cmd .binding)

end BindOp

end AclPlane
