import AclPlane.Error

/-!
What the operations of the command surface have in common.

A command and a record of parameters make an operation on a resource.  A command that means
nothing for the resource is unsupported, whatever the parameters; otherwise the only failure is
a parameter that is missing or that does not fit.
-/

namespace AclPlane.Command

/-- The parameter, or the error that the command requires it. -/
def required {α : Type} (command : AccessCommand) (parameter : Parameter) :
    Option α → Except AclError α
  | some value => .ok value
  | none => .error (.invalidParam (.missingParameter command parameter))

end AclPlane.Command
