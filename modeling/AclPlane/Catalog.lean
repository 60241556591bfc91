import AclPlane.Error

/-!
Catalogs of key blocks.

Blocks that share hardware lanes exclude each other.  An exclusion may be declared on either
side; in a catalog it holds on both.

* `Catalog.ofBlocks` — the catalog of a list of blocks, or the first fault of the list.
* `Catalog.builtIn` — the key blocks of the device.
* `Catalog.exclusive` — whether two blocks exclude each other.
-/

namespace AclPlane

/-- Key blocks by their numbers, with exclusions that hold both ways. -/
structure Catalog where
  blocks : OrderedMap KeyBlockId KeyBlock
  deriving DecidableEq

namespace Catalog

/-! ### Building catalogs -/

/-- The blocks with every exclusion noted on both of its sides. -/
def symmetric (blocks : OrderedMap KeyBlockId KeyBlock) : OrderedMap KeyBlockId KeyBlock :=
  blocks.mapValues (fun id b =>
    let excluders := (blocks.values.filter (·.excludes id)).map KeyBlock.id
    { b with exclusive := OrderedSet.addAll b.exclusive excluders })

/-- Adds a block, which must expose a field, must not exclude itself and must be new. -/
def addBlock (blocks : OrderedMap KeyBlockId KeyBlock) (b : KeyBlock) :
    Except AclError (OrderedMap KeyBlockId KeyBlock) := do
  if b.fields.isEmpty then throw (.invalidParam (.blockWithoutFields b.id))
  if b.excludes b.id then throw (.invalidParam (.blockExcludesItself b.id))
  if blocks.contains b.id then throw (.invalidParam (.duplicateBlock b.id))
  return blocks.insert b.id b

/-- Checks that a block excludes only blocks of the catalog. -/
def checkExclusions (blocks : OrderedMap KeyBlockId KeyBlock) (b : KeyBlock) :
    Except AclError Unit :=
  match (OrderedSet.members b.exclusive).find? (fun id => !blocks.contains id) with
  | some unknown => .error (.invalidParam (.unknownExclusion b.id unknown))
  | none => .ok ()

/-- The catalog of a list of blocks. -/
def ofBlocks (list : List KeyBlock) : Except AclError Catalog := do
  let blocks ← list.foldlM addBlock OrderedMap.empty
  blocks.values.forM (checkExclusions blocks)
  return ⟨symmetric blocks⟩

/-- The key blocks of the device, with one side of each exclusion. -/
def builtInBlocks : List KeyBlock :=
  [.new 0 "L2_DMAC" [.dmac, .ethertype, .vlanId, .pcp] [],
   .new 1 "L2_SMAC" [.smac, .ethertype, .vlanId] [],
   .new 2 "L2_VLAN" [.vlanId, .pcp, .innerVlanId, .srcPort] [],
   .new 3 "IPV4_EX" [.srcIp, .dstIp, .ipProto, .dscp, .ecn] [8, 9],
   .new 4 "IPV4_SIP" [.srcIp, .ipProto, .ttl] [],
   .new 5 "IPV4_DIP" [.dstIp, .ipProto, .ttl] [],
   .new 6 "L4" [.l4SrcPort, .l4DstPort, .tcpFlags, .ipProto] [],
   .new 7 "L4_RANGE" [.l4PortRange, .ipProto, .ipFragmented] [],
   .new 8 "IPV6_SIP" [.srcIpv6] [],
   .new 9 "IPV6_DIP" [.dstIpv6] [],
   .new 10 "IPV6_EX" [.ipProto, .dscp, .ecn, .ttl, .ipLength] [],
   .new 11 "RX_PORTS" [.srcPort, .rxList, .irifId] [12],
   .new 12 "TX_PORTS" [.txList, .erifId] [],
   .new 13 "CUSTOM_0" [.customBytes0] [],
   .new 14 "CUSTOM_1" [.customBytes1] []]

/-- The catalog of the device. -/
def builtIn : Catalog :=
  ⟨symmetric (OrderedMap.ofList (builtInBlocks.map (fun b => (b.id, b))))⟩

/-- The catalog of a list of blocks, or that of the device if no list is given. -/
def ofGiven : Option (List KeyBlock) → Except AclError Catalog
  | some list => ofBlocks list
  | none => .ok builtIn

/-! ### Look-ups -/

/-- The number of blocks. -/
def size (c : Catalog) : Nat := c.blocks.size

/-- The block with the given number. -/
def get? (c : Catalog) (id : KeyBlockId) : Option KeyBlock := c.blocks.get? id

/-- The blocks in ascending order of their numbers. -/
def toList (c : Catalog) : List KeyBlock := c.blocks.values

/-- Whether some block exposes a field. -/
def exposes (c : Catalog) (k : BasicKey) : Bool := c.toList.any (·.exposes k)

/-- Whether two blocks cannot be combined. -/
def exclusive (c : Catalog) (a b : KeyBlockId) : Bool :=
  match c.get? a with
  | some block => block.excludes b
  | none => false

/-- The fields that some of the given blocks exposes. -/
def fieldsOf (c : Catalog) (ids : List KeyBlockId) : FieldSet :=
  FieldSet.ofPred (fun k => (ids.filterMap c.get?).any (·.exposes k))

end Catalog

end AclPlane
