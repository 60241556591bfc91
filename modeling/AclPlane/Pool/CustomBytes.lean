import AclPlane.Pool

/-!
Custom-byte sets.
-/

namespace AclPlane

/-- The offset behind the last byte of a set.  Offsets have 16 bits, and so has the sum: a set that
reaches past the greatest offset ends at a low one. -/
def CustomByteSet.reach (s : CustomByteSet) : Nat := (s.offset + s.size) % UInt16.size

/-- Checks that a set has one to four bytes and that its end is in reach. -/
def CustomByteSet.check (s : CustomByteSet) : Except AclError Unit := do
  if s.size < 1 ∨ 4 < s.size then throw (.invalidParam (.customBytesSize s.size))
  if maxReach < s.reach then throw (.invalidParam (.customBytesReach s.offset s.size))

/-- The pool of custom-byte sets. -/
abbrev CustomBytesPool := Pool .customBytes CustomByteSet

namespace CustomBytesPool

/-- A pool without custom-byte sets. -/
def empty (limit : Nat) : CustomBytesPool := Pool.empty "custom bytes" limit

/-- Creates a custom-byte set. -/
def create (p : CustomBytesPool) (s : CustomByteSet) :
    Except AclError (Handle .customBytes × CustomBytesPool) := do
  s.check
  p.insert s

/-- Changes a set that nothing refers to. -/
def edit (p : CustomBytesPool) (id : Handle .customBytes) (s : CustomByteSet) :
    Except AclError CustomBytesPool := do
  s.check
  p.checkFree id
  p.set id s

end CustomBytesPool

end AclPlane
