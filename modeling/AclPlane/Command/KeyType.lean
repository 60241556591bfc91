import AclPlane.Command

/-!
Commands on key types.
-/

namespace AclPlane

/-- The parameters of commands on key types. -/
structure KeyTypeParams where
  id : Option (Handle .keyType)
  fields : List BasicKey
  hint : Option KeyBlockId
  deriving DecidableEq, Repr

/-- Operations on key types. -/
inductive KeyTypeOp where
  | create (fields : List BasicKey) (hint : Option KeyBlockId)
  | destroy (id : Handle .keyType)
  deriving DecidableEq, Repr

namespace KeyTypeOp

/-- The command of an operation. -/
def command : KeyTypeOp → AccessCommand
  | create .. => .create
  | destroy _ => .destroy

/-- The operation of a command. -/
def ofCommand (cmd : AccessCommand) (p : KeyTypeParams) : Except AclError KeyTypeOp :=
  match cmd with
  | .create => .ok (create p.fields p.hint)
  | .destroy => do return destroy (← Command.required cmd .keyType p.id)
  | _ => .error (.unsupported cmd .keyType)

end KeyTypeOp

end AclPlane
