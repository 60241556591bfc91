import AclPlane.BasicKey
import AclPlane.OrderedSet

/-!
Key blocks: the fixed-width hardware key segments that key types are put together from.
-/

namespace AclPlane

/-- The number of a key block. -/
structure KeyBlockId where
  number : UInt16
  deriving DecidableEq, Repr

namespace KeyBlockId

/-- The text of a key block number. -/
def text (id : KeyBlockId) : String := "KB" ++ toString id.number.toNat

instance : Ord KeyBlockId := ⟨compareOn number⟩

instance : Std.TransOrd KeyBlockId := inferInstanceAs (Std.TransCmp (compareOn number))

instance : Std.LawfulEqOrd KeyBlockId where
  eq_of_compare {a b} h := by
    cases a
    cases b
    exact congrArg KeyBlockId.mk (Std.LawfulEqOrd.eq_of_compare h)

end KeyBlockId

/-- A hardware key segment: the fields it exposes and the blocks it cannot be combined with. -/
structure KeyBlock where
  id : KeyBlockId
  name : String
  fields : FieldSet
  exclusive : OrderedSet KeyBlockId
  deriving DecidableEq

namespace KeyBlock

/-- The block with the listed fields and exclusions. -/
def new (number : UInt16) (name : String) (fields : List BasicKey) (exclusive : List UInt16) :
    KeyBlock :=
  ⟨⟨number⟩, name, FieldSet.ofList fields, OrderedSet.of (exclusive.map KeyBlockId.mk)⟩

/-- Whether the block exposes a field. -/
def exposes (b : KeyBlock) (k : BasicKey) : Bool := b.fields.contains k

/-- Whether the block names another as one it cannot be combined with. -/
def excludes (b : KeyBlock) (other : KeyBlockId) : Bool := b.exclusive.has other

/-- The text of a block: number, name and fields. -/
def text (b : KeyBlock) : String :=
  b.id.text ++ "(" ++ b.name ++ "): " ++ String.intercalate "," (b.fields.toList.map BasicKey.name)

end KeyBlock

end AclPlane
