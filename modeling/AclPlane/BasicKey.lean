import AclPlane.Text.Uppercase

/-!
The packet fields that rules match on.

* `BasicKey.all` — every field, in the order of the field codes.
* `BasicKey.parse?` — reads a field name in any case, aliases included.
* `FieldSet` — a set of fields, listed in the order of the codes.
-/

namespace AclPlane

/-- A logical packet field. -/
inductive BasicKey where
  | srcIp | dstIp | srcIpv6 | dstIpv6
  | ipProto | dscp | ecn | ttl | ipFragmented | ipLength
  | l4SrcPort | l4DstPort | tcpFlags | l4PortRange
  | smac | dmac | ethertype | vlanId | pcp | innerVlanId
  | srcPort | rxList | txList | irifId | erifId
  | customBytes0 | customBytes1
  deriving DecidableEq, Repr

namespace BasicKey

/-- Every field, in the order of the codes. -/
def all : List BasicKey :=
  [srcIp, dstIp, srcIpv6, dstIpv6, ipProto, dscp, ecn, ttl, ipFragmented, ipLength,
   l4SrcPort, l4DstPort, tcpFlags, l4PortRange, smac, dmac, ethertype, vlanId, pcp, innerVlanId,
   srcPort, rxList, txList, irifId, erifId, customBytes0, customBytes1]

/-- The field code that rule images carry. -/
def code : BasicKey → Nat
  | srcIp => 0
  | dstIp => 1
  | srcIpv6 => 2
  | dstIpv6 => 3
  | ipProto => 4
  | dscp => 5
  | ecn => 6
  | ttl => 7
  | ipFragmented => 8
  | ipLength => 9
  | l4SrcPort => 10
  | l4DstPort => 11
  | tcpFlags => 12
  | l4PortRange => 13
  | smac => 14
  | dmac => 15
  | ethertype => 16
  | vlanId => 17
  | pcp => 18
  | innerVlanId => 19
  | srcPort => 20
  | rxList => 21
  | txList => 22
  | irifId => 23
  | erifId => 24
  | customBytes0 => 25
  | customBytes1 => 26

/-- The width of the field in bits.  Fields that refer to objects are 64 bits wide. -/
def width : BasicKey → Nat
  | srcIp | dstIp => 32
  | srcIpv6 | dstIpv6 => 128
  | ipProto | ttl | tcpFlags => 8
  | dscp => 6
  | ecn => 2
  | ipFragmented => 1
  | ipLength | l4SrcPort | l4DstPort | ethertype => 16
  | smac | dmac => 48
  | vlanId | innerVlanId => 12
  | pcp => 3
  | customBytes0 | customBytes1 => 32
  | l4PortRange | srcPort | rxList | txList | irifId | erifId => 64

/-- The spelling of a field. -/
def name : BasicKey → String
  | srcIp => "SIP"
  | dstIp => "DIP"
  | srcIpv6 => "SIPV6"
  | dstIpv6 => "DIPV6"
  | ipProto => "IP_PROTO"
  | dscp => "DSCP"
  | ecn => "ECN"
  | ttl => "TTL"
  | ipFragmented => "IP_FRAGMENTED"
  | ipLength => "IP_LENGTH"
  | l4SrcPort => "L4_SOURCE_PORT"
  | l4DstPort => "L4_DESTINATION_PORT"
  | tcpFlags => "TCP_CONTROL"
  | l4PortRange => "L4_PORT_RANGE"
  | smac => "SMAC"
  | dmac => "DMAC"
  | ethertype => "ETHERTYPE"
  | vlanId => "VLAN_ID"
  | pcp => "PCP"
  | innerVlanId => "INNER_VLAN_ID"
  | srcPort => "SRC_PORT"
  | rxList => "RX_LIST"
  | txList => "TX_LIST"
  | irifId => "IRIF"
  | erifId => "ERIF"
  | customBytes0 => "CUSTOM_BYTES_0"
  | customBytes1 => "CUSTOM_BYTES_1"

/-- Further spellings that are read, but never written. -/
def aliases : List (String × BasicKey) :=
  [("SRC_IP", srcIp), ("DST_IP", dstIp), ("L4_SRC_PORT", l4SrcPort), ("L4_DST_PORT", l4DstPort)]

/-- Reads a field name in any case. -/
def parse? (s : String) : Option BasicKey :=
  (upper? s).bind (fun upper => (aliases.lookup upper).or (all.find? (fun k => k.name == upper)))

theorem mem_all (k : BasicKey) : k ∈ all := by cases k <;> decide

theorem code_inj {a b : BasicKey} (h : a.code = b.code) : a = b := by
  cases a <;> cases b <;> first | rfl | exact absurd h (by decide)

instance : Ord BasicKey := ⟨compareOn code⟩

instance : Std.TransOrd BasicKey := inferInstanceAs (Std.TransCmp (compareOn code))

instance : Std.LawfulEqOrd BasicKey where
  eq_of_compare {a b} h :=
    code_inj (Std.LawfulEqOrd.eq_of_compare (show compare a.code b.code = .eq from h))

end BasicKey

/-! ### Sets of fields -/

/-- A set of fields, listed in the order of the field codes, each once. -/
structure FieldSet where
  toList : List BasicKey
  canonical : toList = BasicKey.all.filter (toList.contains ·)

namespace FieldSet

instance : DecidableEq FieldSet := fun a b =>
  if h : a.toList = b.toList then isTrue (by cases a; cases b; simpa using h)
  else isFalse (fun hab => h (by rw [hab]))

/-- The set of fields that satisfy `p`. -/
def ofPred (p : BasicKey → Bool) : FieldSet where
  toList := BasicKey.all.filter p
  canonical := by
    refine List.filter_congr (fun k hk => ?_)
    simp [List.mem_filter, hk]

/-- The set of the listed fields. -/
def ofList (keys : List BasicKey) : FieldSet := ofPred (keys.contains ·)

/-- Whether a field belongs to the set. -/
def contains (s : FieldSet) (k : BasicKey) : Bool := s.toList.contains k

/-- Whether the set has no field. -/
def isEmpty (s : FieldSet) : Bool := s.toList.isEmpty

/-- The number of fields in the set. -/
def size (s : FieldSet) : Nat := s.toList.length

/-- Whether every field of `s` belongs to `t`. -/
def subset (s t : FieldSet) : Bool := s.toList.all t.contains

/-- The fields of `s` that do not satisfy `p`. -/
def without (s : FieldSet) (p : BasicKey → Bool) : FieldSet :=
  ofPred (fun k => s.contains k && !p k)

@[simp] theorem contains_ofPred (p : BasicKey → Bool) (k : BasicKey) :
    (ofPred p).contains k = p k := by
  simp [contains, ofPred, List.mem_filter, BasicKey.mem_all]

@[simp] theorem contains_ofList (keys : List BasicKey) (k : BasicKey) :
    (ofList keys).contains k = keys.contains k := contains_ofPred _ k

/-- Sets with the same members are equal. -/
theorem ext_contains {s t : FieldSet} (h : ∀ k, s.contains k = t.contains k) : s = t := by
  have hl : s.toList = t.toList := by
    rw [s.canonical, t.canonical]
    exact List.filter_congr (fun k _ => h k)
  cases s
  cases t
  simpa using hl

instance : Ord FieldSet := ⟨compareOn toList⟩

instance : Std.TransOrd FieldSet := inferInstanceAs (Std.TransCmp (compareOn toList))

instance : Std.LawfulEqOrd FieldSet where
  eq_of_compare {a b} h := by
    have hl : a.toList = b.toList := Std.LawfulEqOrd.eq_of_compare h
    cases a
    cases b
    simpa using hl

end FieldSet

end AclPlane
