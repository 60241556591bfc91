import AclPlane.Address
import AclPlane.BasicKey
import AclPlane.Handle

/-!
Match conditions of rules.

A condition compares one basic key with a prefix, a masked value or a shared object.

* `Match.fits` — the keys that each kind of match can be used on.
* `KeyMatch.word` — the value and mask by which the device compares the key.
-/

namespace AclPlane

/-! ### Matches -/

/-- What a key is compared with. -/
inductive Match where
  /-- The first `length` bits of an IPv4 address. -/
  | ipv4 (addr : Ipv4) (length : Nat)
  /-- The first `length` bits of an IPv6 address. -/
  | ipv6 (addr : Ipv6) (length : Nat)
  /-- The masked bits of a MAC address. -/
  | mac (addr mask : Mac)
  /-- The masked bits of a scalar. -/
  | value (value mask : BitVec 64)
  /-- The interval of a range comparator. -/
  | range (id : Handle .range)
  /-- The ports of a port list. -/
  | portList (id : Handle .portList)
  /-- The masked bytes that a custom-byte set extracts. -/
  | customBytes (set : Handle .customBytes) (value mask : BitVec 32)
  deriving DecidableEq, Repr

/-- The kinds of match. -/
inductive MatchKind where
  | ipv4 | ipv6 | mac | value | range | portList | customBytes
  deriving DecidableEq, Repr

/-- The kind of match in words. -/
def MatchKind.name : MatchKind → String
  | ipv4 => "IPv4 prefix"
  | ipv6 => "IPv6 prefix"
  | mac => "MAC"
  | value => "value"
  | range => "range"
  | portList => "port list"
  | customBytes => "custom bytes"

/-- The fields compared as plain numbers: neither addresses nor references to shared objects. -/
def BasicKey.isScalar : BasicKey → Bool
  | srcIp | dstIp | srcIpv6 | dstIpv6 | smac | dmac | l4PortRange | rxList | txList
  | customBytes0 | customBytes1 => false
  | _ => true

namespace Match

/-- The kind of a match. -/
def kind : Match → MatchKind
  | ipv4 .. => .ipv4
  | ipv6 .. => .ipv6
  | mac .. => .mac
  | value .. => .value
  | range _ => .range
  | portList _ => .portList
  | customBytes .. => .customBytes

/-- Whether the match can be used on a key. -/
def fits (m : Match) (key : BasicKey) : Bool :=
  match m with
  | ipv4 _ length => (key == .srcIp || key == .dstIp) && length ≤ 32
  | ipv6 _ length => (key == .srcIpv6 || key == .dstIpv6) && length ≤ 128
  | mac .. => key == .smac || key == .dmac
  | range _ => key == .l4PortRange
  | portList _ => key == .rxList || key == .txList
  | customBytes .. => key == .customBytes0 || key == .customBytes1
  | value v _ => key.isScalar && v >>> key.width == 0#64

end Match

/-! ### Words -/

/-- A match field of a rule image: the field code, and the bits to find under the mask. -/
structure KeyWord where
  field : Nat
  value : BitVec 128
  mask : BitVec 128
  deriving DecidableEq, Repr

/-- The mask of the first `length` of `width` bits. -/
def prefixMask (width length : Nat) : BitVec width :=
  BitVec.allOnes width <<< (width - length)

/-- The bits and the mask that a match compares. -/
def Match.bits : Match → BitVec 128 × BitVec 128
  | ipv4 addr length => (addr.setWidth 128, (prefixMask 32 length).setWidth 128)
  | ipv6 addr length => (addr, prefixMask 128 length)
  | mac addr mask => (addr.setWidth 128, mask.setWidth 128)
  | value v mask => (v.setWidth 128, mask.setWidth 128)
  | range id => (id.raw.toBitVec.setWidth 128, (BitVec.allOnes 64).setWidth 128)
  | portList id => (id.raw.toBitVec.setWidth 128, (BitVec.allOnes 64).setWidth 128)
  | customBytes set v mask =>
    ((set.raw.toBitVec ++ v).setWidth 128, (BitVec.allOnes 64 ++ mask).setWidth 128)

/-! ### Conditions on keys -/

/-- One match condition of a rule. -/
structure KeyMatch where
  key : BasicKey
  matcher : Match
  deriving DecidableEq, Repr

namespace KeyMatch

/-- The word of a condition; bits outside the mask are zero. -/
def word (k : KeyMatch) : KeyWord :=
  ⟨k.key.code, k.matcher.bits.1 &&& k.matcher.bits.2, k.matcher.bits.2⟩

/-- The text of a condition. -/
def text (k : KeyMatch) : String :=
  k.key.name ++ "=" ++
    match k.matcher with
    | .ipv4 addr length => Ipv4.text addr ++ "/" ++ toString length
    | .ipv6 addr length => Ipv6.text addr ++ "/" ++ toString length
    | .value v mask => "0x" ++ hexDigits v.toNat ++ "/0x" ++ hexDigits mask.toNat
    | m => "<" ++ m.kind.name ++ ">"

end KeyMatch

end AclPlane
