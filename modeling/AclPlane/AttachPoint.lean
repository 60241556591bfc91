import AclPlane.Direction
import AclPlane.Handle

/-!
Attachment points, and the keys of bindings.

The identifiers of ports, LAGs, router interfaces and flow counters belong to the platform; a
VLAN group is an object of the control plane.
-/

namespace AclPlane

/-! ### Identifiers of the platform -/

/-- A physical port. -/
structure PortId where
  number : UInt32
  deriving DecidableEq, Repr

/-- A link aggregation group. -/
structure LagId where
  number : UInt32
  deriving DecidableEq, Repr

/-- A router interface. -/
structure RifId where
  number : UInt32
  deriving DecidableEq, Repr

/-- A flow counter. -/
structure FlowCounterId where
  number : UInt32
  deriving DecidableEq, Repr

/-- The text of a port. -/
def PortId.text (p : PortId) : String := "P" ++ toString p.number.toNat

/-- The text of a LAG. -/
def LagId.text (l : LagId) : String := "LAG" ++ toString l.number.toNat

/-- The text of a router interface. -/
def RifId.text (r : RifId) : String := "RIF" ++ toString r.number.toNat

/-- The text of a flow counter. -/
def FlowCounterId.text (c : FlowCounterId) : String := "FC" ++ toString c.number.toNat

/-! ### Attachment points -/

/-- A point that an ACL or a chain of groups can be bound to. -/
inductive AttachPoint where
  | port (id : PortId)
  | lag (id : LagId)
  | vlanGroup (id : Handle .vlanGroup)
  | rif (id : RifId)
  deriving DecidableEq, Repr

namespace AttachPoint

/-- Whether the point can carry bindings in a direction: router interfaces take the
router-interface directions, every other point takes ingress and egress. -/
def supports : AttachPoint → Direction → Bool
  | rif _, d => d.isRif
  | _, d => d == .ingress || d == .egress

/-- The text of an attachment point. -/
def text : AttachPoint → String
  | port id => id.text
  | lag id => id.text
  | vlanGroup id => "VLAN_GROUP(" ++ toString id.index.toNat ++ ")"
  | rif id => id.text

/-- The numbers that tell attachment points apart, in the order that lists them. -/
def rank : AttachPoint → List Nat
  | port id => [0, id.number.toNat]
  | lag id => [1, id.number.toNat]
  | vlanGroup id => [2, id.index.toNat, id.generation.toNat]
  | rif id => [3, id.number.toNat]

end AttachPoint

/-! ### Keys of bindings -/

/-- What a binding is made on: a point and a direction. -/
structure BindingKey where
  point : AttachPoint
  direction : Direction
  deriving DecidableEq, Repr

namespace BindingKey

/-- The numbers that tell binding keys apart. -/
def rank (k : BindingKey) : List Nat := k.direction.ordinal :: k.point.rank

theorem rank_inj {a b : BindingKey} (h : a.rank = b.rank) : a = b := by
  rcases a with ⟨p, d⟩
  rcases b with ⟨q, e⟩
  simp only [rank, List.cons.injEq] at h
  have hd : d = e := Direction.ordinal_inj.1 h.1
  subst hd
  rcases p with ⟨⟨p⟩⟩ | ⟨⟨p⟩⟩ | ⟨i, g⟩ | ⟨⟨p⟩⟩ <;> rcases q with ⟨⟨q⟩⟩ | ⟨⟨q⟩⟩ | ⟨j, k⟩ | ⟨⟨q⟩⟩ <;>
    simp_all [AttachPoint.rank, UInt32.toNat_inj]

instance : Ord BindingKey := ⟨compareOn rank⟩

instance : Std.TransOrd BindingKey := inferInstanceAs (Std.TransCmp (compareOn rank))

instance : Std.LawfulEqOrd BindingKey where
  eq_of_compare {a b} h :=
    rank_inj (Std.LawfulEqOrd.eq_of_compare (show compare a.rank b.rank = .eq from h))

end BindingKey

end AclPlane
