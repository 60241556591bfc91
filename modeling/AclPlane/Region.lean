import AclPlane.KeyType
import AclPlane.RuleTable

/-!
Regions: hardware rule tables of one key type.

A region takes `hwSize` hardware rows, its capacity rounded up to a power of two, and each row
counts once per key block.  All regions together stay within the row budget.

* `Regions.planCreate`, `Regions.create` — a new region.
* `Regions.planResize`, `Regions.resize` — another capacity, with every rule in its place.
* `Regions.destroy` — removes a region and gives its rows back.
-/

namespace AclPlane

/-! ### Regions -/

/-- A region and the rules it holds. -/
structure Region where
  keyType : Handle .keyType
  /-- Key blocks per row. -/
  width : Nat
  /-- The number of rules that the region has room for. -/
  capacity : Nat
  hwSize : Nat
  table : RuleTable
  deriving DecidableEq

namespace Region

/-- The budget that `hwSize` rows of `width` blocks take. -/
def rowCost (hwSize width : Nat) : Nat := hwSize * width

/-- The budget that the region takes. -/
def cost (r : Region) : Nat := rowCost r.hwSize r.width

end Region

/-- The regions of a device and the hardware rows that they take. -/
structure Regions where
  regions : Arena .region Region
  maxRulesPerRegion : Nat
  hwRuleBudget : Nat
  hwUsed : Nat
  deriving DecidableEq

namespace Regions

/-- No regions yet. -/
def empty (c : Config) : Regions :=
  ⟨Arena.empty c.maxRegions, c.maxRulesPerRegion, c.hwRuleBudget, 0⟩

/-- The number of regions. -/
def size (rs : Regions) : Nat := rs.regions.size

/-- The region, or the error that there is none. -/
def get (rs : Regions) (id : Handle .region) : Except AclError Region :=
  match rs.regions.get? id with
  | some r => .ok r
  | none => .error (.notFound (.object id.ref))

/-- Whether a handle names a region. -/
def contains (rs : Regions) (id : Handle .region) : Bool := rs.regions.contains id

/-! ### Sizes and the budget -/

/-- The least power of two that is at least `n`. -/
def roundUp (n : Nat) : Nat := if n ≤ 1 then 1 else 1 <<< ((n - 1).log2 + 1)

/-- The hardware size of a region, which must fit in 32 bits. -/
def hwSizeFor (rs : Regions) (capacity : Nat) : Except AclError Nat := do
  if capacity = 0 then throw (.invalidParam .zeroCapacity)
  if rs.maxRulesPerRegion < capacity then
    throw (.exhausted (.capacity capacity rs.maxRulesPerRegion))
  if UInt32.size ≤ roundUp capacity then throw (.exhausted (.capacityRounding capacity))
  return roundUp capacity

/-- Checks that giving `released` rows back and taking `needed` rows stays within the budget. -/
def checkBudget (rs : Regions) (released needed : Nat) : Except AclError Unit := do
  if rs.hwUsed < released then throw (.invalidParam (.rowsNotInUse released rs.hwUsed))
  let kept := rs.hwUsed - released
  if rs.hwRuleBudget < kept + needed then
    throw (.exhausted (.hardwareRows kept rs.hwRuleBudget needed))

/-! ### Creation -/

/-- The handle and the hardware size of a new region. -/
def planCreate (rs : Regions) (width capacity : Nat) : Except AclError (Handle .region × Nat) := do
  let hwSize ← rs.hwSizeFor capacity
  rs.checkBudget 0 (Region.rowCost hwSize width)
  match rs.regions.nextHandle? with
  | some id => return (id, hwSize)
  | none => throw (.exhausted (.full .regions))

/-- Adds an empty region. -/
def create (rs : Regions) (keyType : Handle .keyType) (width capacity hwSize : Nat) :
    Except AclError (Handle .region × Regions) :=
  match rs.regions.insert? ⟨keyType, width, capacity, hwSize, RuleTable.empty capacity⟩ with
  | some (id, regions) =>
    .ok (id, { rs with
      regions := regions
      hwUsed := rs.hwUsed + Region.rowCost hwSize width })
  | none => .error (.exhausted (.full .regions))

/-! ### Resizing -/

/-- The hardware size for another capacity, which must lie above every rule. -/
def planResize (rs : Regions) (id : Handle .region) (capacity : Nat) : Except AclError Nat := do
  let r ← rs.get id
  let hwSize ← rs.hwSizeFor capacity
  match r.table.highest? with
  | some highest =>
    if capacity ≤ highest then throw (.exhausted (.ruleBeyond id highest capacity))
  | none => pure ()
  rs.checkBudget r.cost (Region.rowCost hwSize r.width)
  return hwSize

/-- Gives a region another capacity. -/
def resize (rs : Regions) (id : Handle .region) (capacity hwSize : Nat) :
    Except AclError Regions := do
  let r ← rs.get id
  let table ← r.table.resize capacity
  return { rs with
    regions := rs.regions.set id { r with capacity := capacity, hwSize := hwSize, table := table }
    hwUsed := rs.hwUsed - r.cost + Region.rowCost hwSize r.width }

/-! ### Rules, destruction and listing -/

/-- Gives a region other rules. -/
def setTable (rs : Regions) (id : Handle .region) (table : RuleTable) : Regions :=
  { rs with regions := rs.regions.modify id (fun r => { r with table := table }) }

/-- Removes a region and gives its rows back. -/
def destroy (rs : Regions) (id : Handle .region) : Except AclError (Region × Regions) :=
  match rs.regions.remove? id with
  | some (r, regions) => .ok (r, { rs with regions := regions, hwUsed := rs.hwUsed - r.cost })
  | none => .error (.notFound (.object id.ref))

/-- Lists regions. -/
def query (rs : Regions) (q : Query (Handle .region)) : Except AclError (Page (Handle .region)) :=
  match rs.regions.select q with
  | some page => .ok page
  | none => .error (.notFound (.queried .region))

end Regions

end AclPlane
