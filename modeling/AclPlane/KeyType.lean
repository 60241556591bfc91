import AclPlane.Arena
import AclPlane.KeyCover

/-!
Key types: covers that have been given a handle.

A key type is found again by the set of fields it was requested for, so that requests for the
same fields share one key type.  Each key type counts the regions that use it.

* `KeyTypes.intern` — the key type for a request, found or compiled.
* `KeyTypes.destroy` — removes a key type that no region uses.
-/

namespace AclPlane

/-- The requested fields and the blocks that cover them, the first block in front. -/
structure KeyType where
  fields : FieldSet
  blocks : List KeyBlockId
  deriving DecidableEq

namespace KeyType

/-- The number of key blocks, which is the hardware width of a rule. -/
def width (t : KeyType) : Nat := t.blocks.length

/-- The first block. -/
def firstBlock? (t : KeyType) : Option KeyBlockId := t.blocks.head?

/-- Whether the key type begins with a block and has all the given fields. -/
def suits (t : KeyType) (fields : FieldSet) (first : KeyBlockId) : Bool :=
  t.firstBlock? == some first && fields.subset t.fields

end KeyType

/-- The key types of a device. -/
structure KeyTypes where
  types : Arena .keyType (Counted KeyType)
  /-- The key type to use for a set of fields when no first block is asked for. -/
  interned : OrderedMap FieldSet (Handle .keyType)
  maxBlocks : Nat
  deriving DecidableEq

namespace KeyTypes

/-- No key types yet. -/
def empty (maxKeyTypes maxBlocks : Nat) : KeyTypes :=
  ⟨Arena.empty maxKeyTypes, OrderedMap.empty, maxBlocks⟩

/-- The number of key types. -/
def size (t : KeyTypes) : Nat := t.types.size

/-- The key type with its count, or the error that there is none. -/
def lookup (t : KeyTypes) (id : Handle .keyType) : Except AclError (Counted KeyType) :=
  match t.types.get? id with
  | some kt => .ok kt
  | none => .error (.notFound (.object id.ref))

/-- The key type, or the error that there is none. -/
def get (t : KeyTypes) (id : Handle .keyType) : Except AclError KeyType :=
  (t.lookup id).map Counted.value

/-! ### Interning -/

/-- A live key type that begins with the hinted block and has all the fields, one with exactly
these fields if there is one. -/
def findHinted? (t : KeyTypes) (fields : FieldSet) (first : KeyBlockId) :
    Option (Handle .keyType) :=
  (t.types.find? (fun c => c.value.suits fields first && c.value.fields == fields)).or
    (t.types.find? (fun c => c.value.suits fields first))

/-- Gives a new key type a handle. -/
def register (t : KeyTypes) (kt : KeyType) : Except AclError (Handle .keyType × KeyTypes) :=
  match t.types.insert? (Counted.new kt) with
  | none => .error (.exhausted (.full .keyTypes))
  | some (id, types) =>
    let interned := if t.interned.contains kt.fields then t.interned
      else t.interned.insert kt.fields id
    .ok (id, { t with types := types, interned := interned })

/-- The key type for a set of fields, in any blocks. -/
def internAny (t : KeyTypes) (catalog : Catalog) (fields : FieldSet) :
    Except AclError (Handle .keyType × KeyTypes) :=
  match t.interned.get? fields with
  | some id => .ok (id, t)
  | none => do
    let blocks ← KeyCover.compile catalog t.maxBlocks fields none
    t.register ⟨fields, blocks⟩

/-- The interned key type of a set of fields, provided that it has the given blocks. -/
def internedAs? (t : KeyTypes) (fields : FieldSet) (blocks : List KeyBlockId) :
    Option (Handle .keyType) :=
  (t.interned.get? fields).filter (fun id =>
    match t.types.get? id with
    | some c => c.value.blocks == blocks
    | none => false)

/-- The key type for a set of fields that begins with a given block. -/
def internHinted (t : KeyTypes) (catalog : Catalog) (fields : FieldSet) (first : KeyBlockId) :
    Except AclError (Handle .keyType × KeyTypes) :=
  match t.findHinted? fields first with
  | some id => .ok (id, t)
  | none => do
    let blocks ← KeyCover.compile catalog t.maxBlocks fields (some first)
    match t.internedAs? fields blocks with
    | some id => return (id, t)
    | none => t.register ⟨fields, blocks⟩

/-- The key type for the listed fields, in any order and with repetitions, beginning with the
hinted block if one is given. -/
def intern (t : KeyTypes) (catalog : Catalog) (fields : List BasicKey)
    (hint : Option KeyBlockId) : Except AclError (Handle .keyType × KeyTypes) :=
  match hint with
  | none => t.internAny catalog (FieldSet.ofList fields)
  | some first => t.internHinted catalog (FieldSet.ofList fields) first

/-! ### Destruction and counts -/

/-- Removes a key type that no region uses. -/
def destroy (t : KeyTypes) (id : Handle .keyType) : Except AclError KeyTypes := do
  let kt ← t.lookup id
  if 0 < kt.refs then throw (.inUse (.usedByRegions id kt.refs))
  match t.types.remove? id with
  | none => throw (.notFound (.object id.ref))
  | some (_, types) =>
    let interned := if t.interned.get? kt.value.fields = some id
      then t.interned.erase kt.value.fields else t.interned
    return { t with types := types, interned := interned }

/-- Counts one more region on a key type. -/
def acquire (t : KeyTypes) (id : Handle .keyType) : Except AclError KeyTypes :=
  match t.types.retain id with
  | .ok types => .ok { t with types := types }
  | .error e => .error (.ofCount e id.ref)

/-- Counts one region less on a key type. -/
def release (t : KeyTypes) (id : Handle .keyType) : Except AclError KeyTypes :=
  match t.types.release id with
  | .ok types => .ok { t with types := types }
  | .error e => .error (.ofCount e id.ref)

/-- Lists key types. -/
def query (t : KeyTypes) (q : Query (Handle .keyType)) :
    Except AclError (Page (Handle .keyType)) :=
  match t.types.select q with
  | some page => .ok page
  | none => .error (.notFound (.queried .keyType))

end KeyTypes

end AclPlane
