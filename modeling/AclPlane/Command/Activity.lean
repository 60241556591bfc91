import AclPlane.Command

/-!
Commands on the activity of rules.
-/

namespace AclPlane

/-- The parameters of commands on activity. -/
structure ActivityParams where
  region : Option (Handle .region)
  offsets : List Nat
  deriving DecidableEq, Repr

/-- Operations on activity. -/
inductive ActivityOp where
  | read (region : Handle .region) (offsets : List Nat)
  /-- Reads the bits and clears them. -/
  | readClear (region : Handle .region) (offsets : List Nat)
  deriving DecidableEq, Repr

namespace ActivityOp

/-- The command of an operation. -/
def command : ActivityOp → AccessCommand
  | read .. => .read
  | readClear .. => .readClear

/-- The operation of a command. -/
def ofCommand (cmd : AccessCommand) (p : ActivityParams) : Except AclError ActivityOp :=
  match cmd with
  | .read => do return read (← Command.required cmd .region p.region) p.offsets
  | .readClear => do return readClear (← Command.required cmd .region p.region) p.offsets
  | _ => .error (.unsupported cmd .activity)

end ActivityOp

end AclPlane
