import AclPlane.Command

/-!
Commands on regions.
-/

namespace AclPlane

/-- The parameters of commands on regions. -/
structure RegionParams where
  region : Option (Handle .region)
  keyType : Option (Handle .keyType)
  capacity : Option Nat
  deriving DecidableEq, Repr

/-- Operations on regions. -/
inductive RegionOp where
  | create (keyType : Handle .keyType) (capacity : Nat)
  /-- Editing a region changes its capacity. -/
  | resize (region : Handle .region) (capacity : Nat)
  | destroy (region : Handle .region)
  deriving DecidableEq, Repr

namespace RegionOp

/-- The command of an operation. -/
def command : RegionOp → AccessCommand
  | create .. => .create
  | resize .. => .edit
  | destroy _ => .destroy

/-- The operation of a command. -/
def ofCommand (cmd : AccessCommand) (p : RegionParams) : Except AclError RegionOp :=
  match cmd with
  | .create => do
    let keyType ← Command.required cmd .keyType p.keyType
    let capacity ← Command.required cmd .capacity p.capacity
    return create keyType capacity
  | .edit => do
    let region ← Command.required cmd .region p.region
    let capacity ← Command.required cmd .capacity p.capacity
    return resize region capacity
  | .destroy => do return destroy (← Command.required cmd .region p.region)
  | _ => .error (.unsupported cmd .region)

end RegionOp

end AclPlane
