import AclPlane.Region

/-!
ACLs: a direction and an ordered list of regions.

A multi-point ACL serves the directions of its bitmap, which can be set once; any other ACL
serves its own direction.

* `Acls.planCreate`, `Acls.create` — a new ACL.
* `Acls.planEdit`, `Acls.edit` — other regions, and the bitmap while it is empty.
-/

namespace AclPlane

/-! ### ACLs -/

/-- The types of ACL. -/
inductive AclType where
  | agnostic
  deriving DecidableEq, Repr

/-- The spelling of an ACL type. -/
def AclType.name : AclType → String
  | agnostic => "AGNOSTIC"

/-- An ACL. -/
structure Acl where
  aclType : AclType
  direction : Direction
  /-- The directions that a multi-point ACL serves. -/
  bitmap : DirectionSet
  /-- The regions, in the order in which they are searched. -/
  regions : List (Handle .region)
  deriving DecidableEq, Repr

namespace Acl

/-- Whether the ACL carries a bitmap of directions. -/
def isMultiPoint (a : Acl) : Bool := a.direction == .multiPoints

/-- Whether the ACL can be enforced in a direction. -/
def serves (a : Acl) (d : Direction) : Bool :=
  if a.isMultiPoint then a.bitmap.includes d else a.direction == d

/-- Whether the ACL searches a region. -/
def usesRegion (a : Acl) (region : Handle .region) : Bool := a.regions.contains region

end Acl

/-- The ACLs of a device. -/
structure Acls where
  acls : Arena .acl Acl
  deriving DecidableEq

namespace Acls

/-- No ACLs yet. -/
def empty (limit : Nat) : Acls := ⟨Arena.empty limit⟩

/-- The ACL, or the error that there is none. -/
def get (s : Acls) (id : Handle .acl) : Except AclError Acl :=
  match s.acls.get? id with
  | some a => .ok a
  | none => .error (.notFound (.object id.ref))

/-- The first ACL that searches a region. -/
def userOf? (s : Acls) (region : Handle .region) : Option (Handle .acl) :=
  s.acls.find? (·.usesRegion region)

/-! ### Creation -/

/-- Checks a list of regions one after another; `seen` holds the earlier ones. -/
def checkRegionsFrom (rs : Regions) :
    List (Handle .region) → List (Handle .region) → Except AclError Unit
  | _, [] => .ok ()
  | seen, r :: rest => do
    if !rs.contains r then throw (.notFound (.object r.ref))
    if seen.contains r then throw (.invalidParam (.listedTwice r.ref))
    checkRegionsFrom rs (r :: seen) rest

/-- Checks that a list of regions is not empty and names live regions, each once. -/
def checkRegions (rs : Regions) (regions : List (Handle .region)) : Except AclError Unit :=
  if regions.isEmpty then .error (.invalidParam .noRegions) else checkRegionsFrom rs [] regions

/-- The handle of a new ACL. -/
def planCreate (s : Acls) (rs : Regions) (direction : Direction) (bitmap : DirectionSet)
    (regions : List (Handle .region)) : Except AclError (Handle .acl) := do
  if direction ≠ .multiPoints ∧ !bitmap.isEmpty then
    throw (.invalidParam .bitmapOnSingleDirection)
  checkRegions rs regions
  match s.acls.nextHandle? with
  | some id => return id
  | none => throw (.exhausted (.full .acls))

/-- Adds an ACL. -/
def create (s : Acls) (a : Acl) : Except AclError (Handle .acl × Acls) :=
  match s.acls.insert? a with
  | some (id, acls) => .ok (id, ⟨acls⟩)
  | none => .error (.exhausted (.full .acls))

/-! ### Editing -/

/-- The bitmap that an ACL has after an edit.  An empty bitmap leaves it as it is; another one
can be set while it is empty, and repeated afterwards. -/
def planEdit (s : Acls) (rs : Regions) (id : Handle .acl) (regions : List (Handle .region))
    (bitmap : DirectionSet) : Except AclError DirectionSet := do
  let a ← s.get id
  checkRegions rs regions
  if bitmap.isEmpty then return a.bitmap
  if !a.isMultiPoint then throw (.invalidParam (.notMultiPoint id))
  if !a.bitmap.isEmpty ∧ a.bitmap ≠ bitmap then
    throw (.invalidParam (.bitmapFixed id a.bitmap))
  return bitmap

/-- Gives an ACL other regions and another bitmap. -/
def edit (s : Acls) (id : Handle .acl) (regions : List (Handle .region))
    (bitmap : DirectionSet) : Except AclError Acls := do
  let a ← s.get id
  return ⟨s.acls.set id { a with regions := regions, bitmap := bitmap }⟩

/-! ### Destruction and listing -/

/-- Removes an ACL. -/
def destroy (s : Acls) (id : Handle .acl) : Except AclError Acls :=
  match s.acls.remove? id with
  | some (_, acls) => .ok ⟨acls⟩
  | none => .error (.notFound (.object id.ref))

/-- Lists ACLs. -/
def query (s : Acls) (q : Query (Handle .acl)) : Except AclError (Page (Handle .acl)) :=
  match s.acls.select q with
  | some page => .ok page
  | none => .error (.notFound (.queried .acl))

end Acls

end AclPlane
