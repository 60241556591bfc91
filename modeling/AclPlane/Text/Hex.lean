/-!
Hexadecimal text: the digits of a number in lower case, with and without padding.

* `hexDigits n` — the digits of `n`, most significant first, `0` for zero.
* `hexPadded w n` — the same, padded with zeros to at least `w` digits.
-/

namespace AclPlane

/-- The lower-case hexadecimal digits of `n`. -/
def hexDigits (n : Nat) : String :=
  String.ofList (Nat.toDigits 16 n)

/-- The lower-case hexadecimal digits of `n`, at least `width` of them. -/
def hexPadded (width n : Nat) : String :=
  let digits := Nat.toDigits 16 n
  String.ofList (List.replicate (width - digits.length) '0' ++ digits)

end AclPlane
