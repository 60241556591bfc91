import AclPlane.OrderedMap

/-!
Finite sets kept in ascending order: the keys of a map without values.
-/

namespace AclPlane

/-- A finite set of `κ`, listed in ascending order. -/
abbrev OrderedSet (κ : Type) [Ord κ] := OrderedMap κ Unit

namespace OrderedSet

variable {κ : Type} [Ord κ]

/-- The members, ascending. -/
def members (s : OrderedSet κ) : List κ := s.toList.map Prod.fst

/-- Whether `k` belongs to the set. -/
def has (s : OrderedSet κ) (k : κ) : Bool := s.contains k

/-- The set without the listed elements. -/
def removeAll (s : OrderedSet κ) (ks : List κ) : OrderedSet κ :=
  ks.foldl (fun t k => t.erase k) s

variable [Std.LawfulEqOrd κ] [Std.TransOrd κ]

/-- The set with the listed elements in it. -/
def addAll (s : OrderedSet κ) (ks : List κ) : OrderedSet κ :=
  ks.foldl (fun t k => t.insert k ()) s

/-- The set of the listed elements. -/
def of (ks : List κ) : OrderedSet κ := addAll OrderedMap.empty ks

end OrderedSet

end AclPlane
