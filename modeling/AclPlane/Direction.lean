/-!
Pipeline directions and sets of them.

An ACL applies either to one real direction or, with the direction `multiPoints`, to the set of
real directions it carries.
-/

namespace AclPlane

/-! ### Directions -/

/-- The pipeline stage that an ACL, a group or a binding applies to. -/
inductive Direction where
  | ingress | egress | rifIngress | rifEgress
  /-- Stands for the directions of a set that the ACL carries. -/
  | multiPoints
  deriving DecidableEq, Repr

namespace Direction

/-- Every direction. -/
def all : List Direction := [ingress, egress, rifIngress, rifEgress, multiPoints]

/-- The spelling of a direction. -/
def name : Direction → String
  | ingress => "INGRESS"
  | egress => "EGRESS"
  | rifIngress => "RIF_INGRESS"
  | rifEgress => "RIF_EGRESS"
  | multiPoints => "MULTI_POINTS"

/-- The place of a direction in the order of directions. -/
def ordinal : Direction → Nat
  | ingress => 0
  | egress => 1
  | rifIngress => 2
  | rifEgress => 3
  | multiPoints => 4

/-- Whether the direction is one of a router interface. -/
def isRif (d : Direction) : Bool := d == rifIngress || d == rifEgress

theorem ordinal_inj {a b : Direction} : a.ordinal = b.ordinal ↔ a = b := by
  cases a <;> cases b <;> decide

end Direction

/-! ### Sets of real directions -/

/-- A set of real directions. -/
structure DirectionSet where
  ingress : Bool
  egress : Bool
  rifIngress : Bool
  rifEgress : Bool
  deriving DecidableEq, Repr

namespace DirectionSet

/-- The set without directions. -/
def empty : DirectionSet := ⟨false, false, false, false⟩

/-- Whether the set has no direction. -/
def isEmpty (s : DirectionSet) : Bool := s == empty

/-- Whether a direction belongs to the set; `multiPoints` belongs to none. -/
def includes (s : DirectionSet) : Direction → Bool
  | .ingress => s.ingress
  | .egress => s.egress
  | .rifIngress => s.rifIngress
  | .rifEgress => s.rifEgress
  | .multiPoints => false

/-- The set of one real direction. -/
def single? : Direction → Option DirectionSet
  | .ingress => some ⟨true, false, false, false⟩
  | .egress => some ⟨false, true, false, false⟩
  | .rifIngress => some ⟨false, false, true, false⟩
  | .rifEgress => some ⟨false, false, false, true⟩
  | .multiPoints => none

/-- The bitmap of the set: bit 0 for ingress up to bit 3 for router-interface egress. -/
def toBits (s : DirectionSet) : Nat :=
  s.ingress.toNat + 2 * s.egress.toNat + 4 * s.rifIngress.toNat + 8 * s.rifEgress.toNat

/-- The set with the given bitmap; bits above the fourth are ignored. -/
def ofBits (bits : Nat) : DirectionSet :=
  ⟨bits.testBit 0, bits.testBit 1, bits.testBit 2, bits.testBit 3⟩

/-- The members of the set, in the order of their bits. -/
def members (s : DirectionSet) : List Direction := Direction.all.filter s.includes

/-- The set as error messages show it, such as `DirectionSet(INGRESS | EGRESS)`. -/
def text (s : DirectionSet) : String :=
  if s.isEmpty then "DirectionSet(0x0)"
  else "DirectionSet(" ++ String.intercalate " | " (s.members.map Direction.name) ++ ")"

theorem ofBits_toBits (s : DirectionSet) : ofBits s.toBits = s := by
  rcases s with ⟨_ | _, _ | _, _ | _, _ | _⟩ <;> decide

end DirectionSet

end AclPlane
