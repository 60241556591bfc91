import AclPlane.Relocation
import AclPlane.Rule

/-!
The rules of one region, by their offsets.

* `RuleTable.get` — the rule at an offset, which must lie below the capacity.
* `RuleTable.set`, `RuleTable.clear` — change one slot and keep the number of rules up to date.
* `RuleTable.moveBlock` — moves a block of slots, as `relocations` says.
* `RuleTable.planShift` — the new priorities of a shift, or the reason to refuse it.
-/

namespace AclPlane

/-- Slots, some of them holding a rule. -/
structure RuleTable where
  slots : Array (Option Rule)
  /-- The number of rules. -/
  used : Nat
  deriving DecidableEq

namespace RuleTable

/-- A table of empty slots. -/
def empty (capacity : Nat) : RuleTable := ⟨Array.replicate capacity none, 0⟩

/-- The number of slots. -/
def capacity (t : RuleTable) : Nat := t.slots.size

/-- The rule at an offset; none if the slot is empty or there is no such slot. -/
def rule? (t : RuleTable) (offset : Nat) : Option Rule := t.slots[offset]?.join

/-- The rules with their offsets, ascending. -/
def occupied (t : RuleTable) : List (Nat × Rule) :=
  t.slots.toList.zipIdx.filterMap (fun e => e.1.map (fun r => (e.2, r)))

/-- The greatest offset of a rule. -/
def highest? (t : RuleTable) : Option Nat := t.occupied.getLast?.map Prod.fst

/-- The pool entries that the rules refer to. -/
def refs (t : RuleTable) : PoolRefs := PoolRefs.concat (t.occupied.map (fun e => e.2.refs))

/-- Checks that an offset lies below the capacity. -/
def checkOffset (t : RuleTable) (offset : Nat) : Except AclError Unit :=
  if t.capacity ≤ offset then .error (.outOfRange offset t.capacity) else .ok ()

/-- The rule at an offset, if there is one. -/
def get (t : RuleTable) (offset : Nat) : Except AclError (Option Rule) := do
  t.checkOffset offset
  return t.rule? offset

/-! ### Changes of single slots -/

/-- Stores a rule.  The result is the rule that it replaces. -/
def set (t : RuleTable) (offset : Nat) (r : Rule) : Except AclError (Option Rule × RuleTable) := do
  t.checkOffset offset
  let old := t.rule? offset
  return (old, ⟨t.slots.setIfInBounds offset (some r), if old.isNone then t.used + 1 else t.used⟩)

/-- Empties a slot.  The result is the rule that it held. -/
def clear (t : RuleTable) (offset : Nat) : Except AclError (Option Rule × RuleTable) := do
  t.checkOffset offset
  let old := t.rule? offset
  return (old, ⟨t.slots.setIfInBounds offset none, if old.isSome then t.used - 1 else t.used⟩)

/-- Stores several rules, one after another.  The result are the rules that they replace. -/
def setAll (t : RuleTable) : List (Nat × Rule) → Except AclError (List Rule × RuleTable)
  | [] => .ok ([], t)
  | (offset, r) :: rest => do
    let (old, t) ← t.set offset r
    let (replaced, t) ← t.setAll rest
    return (old.toList ++ replaced, t)

/-- Empties several slots, one after another.  The result are the rules that they held. -/
def clearAll (t : RuleTable) : List Nat → Except AclError (List Rule × RuleTable)
  | [] => .ok ([], t)
  | offset :: rest => do
    let (old, t) ← t.clear offset
    let (cleared, t) ← t.clearAll rest
    return (old.toList ++ cleared, t)

/-- Gives the table another number of slots; the slots that go must be empty. -/
def resize (t : RuleTable) (capacity : Nat) : Except AclError RuleTable := do
  match t.highest? with
  | some highest =>
    if capacity ≤ highest then throw (.exhausted (.ruleMisfit highest capacity))
  | none => pure ()
  return { t with
    slots := t.slots.take capacity ++ Array.replicate (capacity - t.capacity) none }

/-! ### Block moves -/

/-- The greatest number of 32 bits. -/
def maxOffset : Nat := UInt32.size - 1

/-- Checks that `size` slots from `start` lie below the capacity. -/
def checkSpan (t : RuleTable) (size start : Nat) : Except AclError Unit :=
  if start + size ≤ t.capacity then .ok ()
  else .error (.outOfRange (min (start + (size - 1)) maxOffset) t.capacity)

/-- Checks the bounds of a block move. -/
def checkBlock (t : RuleTable) (src size dst : Nat) : Except AclError Unit := do
  if size = 0 then throw (.invalidParam .zeroBlock)
  t.checkSpan size src
  t.checkSpan size dst

/-- Takes the contents out of the slots that are relocated, each with the slot it goes to. -/
def takeMoved (slots : Array (Option Rule)) :
    List (Nat × Nat) → List (Nat × Option Rule) × Array (Option Rule)
  | [] => ([], slots)
  | (slot, target) :: rest =>
    let content := slots[slot]?.join
    let (moved, left) := takeMoved (slots.setIfInBounds slot none) rest
    ((target, content) :: moved, left)

/-- Moves a block of slots; the contents of its destination take over the slots that it
leaves. -/
def moveBlock (t : RuleTable) (src size dst : Nat) : Except AclError RuleTable := do
  t.checkBlock src size dst
  let (moved, left) := takeMoved t.slots (relocations src size dst)
  return { t with slots := moved.foldl (fun slots e => slots.setIfInBounds e.1 e.2) left }

/-! ### Priority shifts -/

/-- Whether a priority lies in a band. -/
def inBand (low high priority : Nat) : Bool := low ≤ priority && priority ≤ high

/-- The priority that a shift gives a rule: it must stay within the bounds and must not meet a
rule outside the band, whose priorities are `fixed`. -/
def shifted (fixed : List Nat) (delta : Int) (bounds : PriorityRange) (priority : Nat) :
    Except AclError Nat :=
  let target := (priority : Int) + delta
  if target < 0 ∨ !bounds.contains target.toNat then
    .error (.invalidParam (.shiftOutside priority delta bounds))
  else if fixed.contains target.toNat then
    .error (.invalidParam (.shiftCollision target.toNat))
  else .ok target.toNat

/-- The offsets and new priorities of the rules in a band that is shifted by `delta`. -/
def planShift (t : RuleTable) (low high : Nat) (delta : Int) (bounds : PriorityRange) :
    Except AclError (List (Nat × Nat)) := do
  if high < low then throw (.invalidParam (.emptyBand low high))
  let fixed := (t.occupied.map (fun e => e.2.priority)).filter (fun p => !inBand low high p)
  (t.occupied.filter (fun e => inBand low high e.2.priority)).mapM (fun e => do
    let priority ← shifted fixed delta bounds e.2.priority
    return (e.1, priority))

/-- Gives the rules at the listed offsets new priorities. -/
def setPriorities (t : RuleTable) (updates : List (Nat × Nat)) : RuleTable :=
  { t with
    slots := updates.foldl
      (fun slots u => slots.modify u.1 (Option.map (fun r => { r with priority := u.2 })))
      t.slots }

end RuleTable

end AclPlane
