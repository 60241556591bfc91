import AclPlane.AttachPoint
import AclPlane.Handle

/-!
What the shared pools hold: PBS destinations, range comparators, custom-byte sets, port lists
and VLAN groups.
-/

namespace AclPlane

/-! ### PBS destinations -/

/-- Where policy-based switching sends a packet. -/
inductive PbsDestination where
  | port (id : PortId)
  | lag (id : LagId)
  | portGroup (ports : List PortId)
  | router (vrid : UInt16)
  deriving DecidableEq, Repr

/-- The text of a destination. -/
def PbsDestination.text : PbsDestination → String
  | port id => id.text
  | lag id => id.text
  | portGroup ports => "[" ++ toString ports.length ++ " ports]"
  | router vrid => "VR" ++ toString vrid.toNat

/-! ### Range comparators -/

/-- The field that a range comparator applies to. -/
inductive RangeField where
  | l4SrcPort | l4DstPort | l4Port | outerVlan | innerVlan | packetLength | ttl | customBytes
  deriving DecidableEq, Repr

namespace RangeField

/-- Every range field. -/
def all : List RangeField :=
  [l4SrcPort, l4DstPort, l4Port, outerVlan, innerVlan, packetLength, ttl, customBytes]

/-- The spelling of a range field. -/
def name : RangeField → String
  | l4SrcPort => "L4_SRC_PORT"
  | l4DstPort => "L4_DST_PORT"
  | l4Port => "L4_PORT"
  | outerVlan => "OUTER_VLAN"
  | innerVlan => "INNER_VLAN"
  | packetLength => "PACKET_LENGTH"
  | ttl => "TTL"
  | customBytes => "CUSTOM_BYTES"

/-- The greatest value that a range on the field may reach. -/
def limit : RangeField → Nat
  | l4SrcPort | l4DstPort | l4Port => 65535
  | outerVlan | innerVlan => 4094
  | packetLength => 65535
  | ttl => 255
  | customBytes => UInt32.size - 1

end RangeField

/-- An inclusive interval on one field. -/
structure RangeComparator where
  field : RangeField
  min : Nat
  max : Nat
  deriving DecidableEq, Repr

namespace RangeComparator

/-- Whether the comparator works on custom bytes. -/
def isCustomBytes (r : RangeComparator) : Bool := r.field == .customBytes

/-- The text of a comparator. -/
def text (r : RangeComparator) : String :=
  r.field.name ++ ":" ++ toString r.min ++ "-" ++ toString r.max

end RangeComparator

/-! ### Custom-byte sets -/

/-- The header that an extraction offset is relative to. -/
inductive ExtractionPoint where
  | l2Start | l3Start | l4Start | payloadStart
  deriving DecidableEq, Repr

namespace ExtractionPoint

/-- Every extraction point. -/
def all : List ExtractionPoint := [l2Start, l3Start, l4Start, payloadStart]

/-- The spelling of an extraction point. -/
def name : ExtractionPoint → String
  | l2Start => "L2_START"
  | l3Start => "L3_START"
  | l4Start => "L4_START"
  | payloadStart => "PAYLOAD_START"

end ExtractionPoint

/-- `size` bytes taken from the packet, `offset` bytes after the extraction point. -/
structure CustomByteSet where
  point : ExtractionPoint
  offset : Nat
  size : Nat
  deriving DecidableEq, Repr

namespace CustomByteSet

/-- The furthest byte that can be reached from an extraction point. -/
def maxReach : Nat := 128

/-- The mask of the extracted bytes. -/
def valueMask (s : CustomByteSet) : Nat := 1 <<< (8 * s.size) - 1

/-- The text of a custom-byte set. -/
def text (s : CustomByteSet) : String :=
  s.point.name ++ "+" ++ toString s.offset ++ "/" ++ toString s.size

end CustomByteSet

/-! ### Entries and contents of any pool -/

/-- A handle into one of the pools. -/
inductive PoolEntry where
  | pbs (id : Handle .pbs)
  | range (id : Handle .range)
  | customBytes (id : Handle .customBytes)
  | portList (id : Handle .portList)
  | vlanGroup (id : Handle .vlanGroup)
  deriving DecidableEq, Repr

namespace PoolEntry

/-- The entry as an object of its kind. -/
def ref : PoolEntry → ObjectRef
  | pbs id => id.ref
  | range id => id.ref
  | customBytes id => id.ref
  | portList id => id.ref
  | vlanGroup id => id.ref

/-- The text of an entry, such as `Range(Range(0#1))`. -/
def text (e : PoolEntry) : String := e.ref.kind.label ++ "(" ++ e.ref.text ++ ")"

end PoolEntry

/-- What a pool entry is created from or changed to. -/
inductive PoolValue where
  | pbs (destination : PbsDestination)
  | range (range : RangeComparator)
  | customBytes (set : CustomByteSet)
  | portList (ports : List PortId)
  | vlanGroup (vlans : List UInt16)
  deriving DecidableEq, Repr

end AclPlane
