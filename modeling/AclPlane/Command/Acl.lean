import AclPlane.Acl
import AclPlane.Command

/-!
Commands on ACLs.
-/

namespace AclPlane

/-- The parameters of commands on ACLs. -/
structure AclParams where
  acl : Option (Handle .acl)
  aclType : AclType
  direction : Option Direction
  bitmap : DirectionSet
  regions : List (Handle .region)
  deriving DecidableEq, Repr

/-- Operations on ACLs. -/
inductive AclOp where
  | create (aclType : AclType) (direction : Direction) (bitmap : DirectionSet)
      (regions : List (Handle .region))
  | edit (acl : Handle .acl) (regions : List (Handle .region)) (bitmap : DirectionSet)
  | destroy (acl : Handle .acl)
  deriving DecidableEq, Repr

namespace AclOp

/-- The command of an operation. -/
def command : AclOp → AccessCommand
  | create .. => .create
  | edit .. => .edit
  | destroy _ => .destroy

/-- The operation of a command. -/
def ofCommand (cmd : AccessCommand) (p : AclParams) : Except AclError AclOp :=
  match cmd with
  | .create => do
    let direction ← Command.required cmd .direction p.direction
    return create p.aclType direction p.bitmap p.regions
  | .edit => do
    let acl ← Command.required cmd .acl p.acl
    return edit acl p.regions p.bitmap
  | .destroy => do return destroy (← Command.required cmd .acl p.acl)
  | _ => .error (.unsupported cmd .acl)

end AclOp

end AclPlane
