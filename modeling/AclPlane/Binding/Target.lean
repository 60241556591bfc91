import AclPlane.AttachPoint

/-!
What a binding enforces: an ACL, or the chain of groups behind a group.
-/

namespace AclPlane

/-- What a binding enforces. -/
inductive BindTarget where
  | acl (id : Handle .acl)
  /-- The head of a chain of groups. -/
  | group (id : Handle .group)
  deriving DecidableEq, Repr

namespace BindTarget

/-- The value handed to the device. -/
def raw : BindTarget → RawHandle
  | acl id => id.raw
  | group id => id.raw

/-- The text of a target. -/
def text : BindTarget → String
  | acl id => id.text
  | group id => id.text

/-- Whether the target is an ACL. -/
def isAcl : BindTarget → Bool
  | acl _ => true
  | group _ => false

end BindTarget

end AclPlane
