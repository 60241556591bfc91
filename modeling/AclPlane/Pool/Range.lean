import AclPlane.Pool

/-!
Range comparators.  Only few of them may work on custom bytes at the same time.
-/

namespace AclPlane

/-- Checks the interval of a comparator against the limit of its field. -/
def RangeComparator.check (r : RangeComparator) : Except AclError Unit := do
  if r.max < r.min then throw (.invalidParam (.rangeInverted r.min r.max))
  if r.field.limit < r.max then throw (.invalidParam (.rangeTooLarge r))

/-- The pool of range comparators. -/
structure RangePool where
  pool : Pool .range RangeComparator
  /-- The number of comparators that may work on custom bytes. -/
  maxCustomBytes : Nat
  deriving DecidableEq

namespace RangePool

/-- A pool without comparators. -/
def empty (limit maxCustomBytes : Nat) : RangePool :=
  ⟨Pool.empty "range comparator" limit, maxCustomBytes⟩

/-- The number of comparators on custom bytes, one of them left out. -/
def customBytesInUse (p : RangePool) (except : Option (Handle .range)) : Nat :=
  (p.pool.toList.filter (fun e => some e.1 != except && e.2.isCustomBytes)).length

/-- Checks that one more comparator on custom bytes is allowed. -/
def checkCustomBytes (p : RangePool) (r : RangeComparator) (except : Option (Handle .range)) :
    Except AclError Unit :=
  if r.isCustomBytes ∧ p.maxCustomBytes ≤ p.customBytesInUse except then
    .error (.exhausted (.customBytesRanges p.maxCustomBytes))
  else .ok ()

/-- Creates a comparator. -/
def create (p : RangePool) (r : RangeComparator) : Except AclError (Handle .range × RangePool) := do
  r.check
  p.checkCustomBytes r none
  let (id, pool) ← p.pool.insert r
  return (id, { p with pool := pool })

/-- Changes a comparator that nothing refers to. -/
def edit (p : RangePool) (id : Handle .range) (r : RangeComparator) :
    Except AclError RangePool := do
  r.check
  p.pool.checkFree id
  p.checkCustomBytes r (some id)
  let pool ← p.pool.set id r
  return { p with pool := pool }

/-- The first comparator with the same field and interval. -/
def find? (p : RangePool) (r : RangeComparator) : Option (Handle .range) :=
  (p.pool.toList.find? (fun e => e.2 == r)).map Prod.fst

end RangePool

end AclPlane
