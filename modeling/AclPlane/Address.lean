import AclPlane.Text.Hex

/-!
Network addresses as bit vectors, and their text.

* `Ipv4.text` — dotted decimal.
* `Ipv6.text` — hexadecimal segments, with the first of the longest runs of at least two zero
  segments written `::`, and an embedded IPv4 address in dotted decimal.
-/

namespace AclPlane

/-! ### IPv4 -/

/-- An IPv4 address, its first octet in the highest bits. -/
abbrev Ipv4 := BitVec 32

namespace Ipv4

/-- The four octets, first to last. -/
def octets (a : Ipv4) : List Nat :=
  [24, 16, 8, 0].map (fun low => (a.extractLsb' low 8).toNat)

/-- The address in dotted decimal. -/
def text (a : Ipv4) : String := String.intercalate "." (a.octets.map toString)

end Ipv4

/-! ### IPv6 -/

/-- An IPv6 address, its first segment in the highest bits. -/
abbrev Ipv6 := BitVec 128

namespace Ipv6

/-- The eight 16-bit segments, first to last. -/
def segments (a : Ipv6) : List Nat :=
  [112, 96, 80, 64, 48, 32, 16, 0].map (fun low => (a.extractLsb' low 16).toNat)

/-- The IPv4 address embedded in an address of the form `::ffff:a.b.c.d`. -/
def embedded? (a : Ipv6) : Option Ipv4 :=
  if a >>> 32 = 0xffff#128 then some (a.setWidth 32) else none

/-- Start and length of the first longest run of zeros in a list that begins at position `i`. -/
def zeroRun (i : Nat) : List Nat → Nat × Nat
  | [] => (i, 0)
  | s :: rest =>
    let here := ((s :: rest).takeWhile (· == 0)).length
    let later := zeroRun (i + 1) rest
    if here < later.2 then later else (i, here)

/-- Segments in hexadecimal, separated by colons. -/
def segmentsText (segments : List Nat) : String :=
  String.intercalate ":" (segments.map hexDigits)

/-- The canonical text of an address. -/
def text (a : Ipv6) : String :=
  match a.embedded? with
  | some v4 => "::ffff:" ++ Ipv4.text v4
  | none =>
    let run := zeroRun 0 a.segments
    if 1 < run.2 then
      segmentsText (a.segments.take run.1) ++ "::" ++ segmentsText (a.segments.drop (run.1 + run.2))
    else segmentsText a.segments

end Ipv6

/-! ### MAC -/

/-- A MAC address, its first byte in the highest bits. -/
abbrev Mac := BitVec 48

/-- The six bytes of a MAC address, first to last. -/
def Mac.bytes (a : Mac) : List Nat :=
  [40, 32, 24, 16, 8, 0].map (fun low => (a.extractLsb' low 8).toNat)

end AclPlane
