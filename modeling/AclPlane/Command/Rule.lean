import AclPlane.Command
import AclPlane.Rule

/-!
Commands on rules.
-/

namespace AclPlane

/-- A block of `size` slots moved from `src` to `dst`. -/
structure BlockMove where
  src : Nat
  size : Nat
  dst : Nat
  deriving DecidableEq, Repr

/-- `delta` added to every priority from `low` to `high`. -/
structure PriorityShift where
  low : Nat
  high : Nat
  delta : Int
  deriving DecidableEq, Repr

/-- The parameters of commands on rules. -/
structure RuleParams where
  region : Option (Handle .region)
  offsets : List Nat
  rules : List Rule
  /-- Editing takes either a block move or a priority shift. -/
  block : Option BlockMove
  shift : Option PriorityShift
  deriving DecidableEq, Repr

/-- Operations on the rules of a region. -/
inductive RuleOp where
  | set (region : Handle .region) (offsets : List Nat) (rules : List Rule)
  | delete (region : Handle .region) (offsets : List Nat)
  | deleteAll (region : Handle .region)
  | move (region : Handle .region) (block : BlockMove)
  | shiftPriority (region : Handle .region) (shift : PriorityShift)
  deriving DecidableEq, Repr

namespace RuleOp

/-- The command of an operation. -/
def command : RuleOp → AccessCommand
  | set .. => .set
  | delete .. => .delete
  | deleteAll _ => .deleteAll
  | move .. => .edit
  | shiftPriority .. => .edit

/-- The operation of a command. -/
def ofCommand (cmd : AccessCommand) (p : RuleParams) : Except AclError RuleOp :=
  let region := Command.required cmd .region p.region
  match cmd with
  | .set => do return set (← region) p.offsets p.rules
  | .delete => do return delete (← region) p.offsets
  | .deleteAll => do return deleteAll (← region)
  | .edit =>
    match p.block, p.shift with
    | some block, none => do return move (← region) block
    | none, some shift => do return shiftPriority (← region) shift
    | _, _ => .error (.invalidParam .editChoice)
  | _ => .error (.unsupported cmd .rule)

end RuleOp

end AclPlane
