import AclPlane.AttachPoint
import AclPlane.Handle

/-!
Actions of rules.

A rule takes at most one action of each class.

* `Action.actionClass` — the class of an action.
* `Action.word` — the operation code and argument that the device executes.
-/

namespace AclPlane

/-! ### Actions and their classes -/

/-- What happens to a packet that a rule matches. -/
inductive Action where
  | nextHop (id : UInt32)
  | port (id : PortId)
  | discard
  /-- Policy-based switching through an entry of the pool. -/
  | pbs (id : Handle .pbs)
  | mirror (session : UInt32)
  | mirrorSampled (session rate : UInt32)
  /-- To the CPU only. -/
  | trap (id : UInt16)
  /-- To the CPU and onwards. -/
  | trapForward (id : UInt16)
  | counter (id : FlowCounterId)
  | setDscp (dscp : UInt8)
  | setPcp (pcp : UInt8)
  | setVlan (vlan : UInt16)
  | policer (id : UInt32)
  deriving DecidableEq, Repr

/-- Classes of mutually exclusive actions. -/
inductive ActionClass where
  | forward | mirror | trap | counter | setDscp | setPcp | setVlan | policer
  deriving DecidableEq, Repr

/-- The spelling of an action class. -/
def ActionClass.name : ActionClass → String
  | forward => "FORWARD"
  | mirror => "MIRROR"
  | trap => "TRAP"
  | counter => "COUNTER"
  | setDscp => "SET_DSCP"
  | setPcp => "SET_PCP"
  | setVlan => "SET_VLAN"
  | policer => "POLICER"

/-- An action of a rule image. -/
structure ActionWord where
  opcode : Nat
  arg : UInt64
  deriving DecidableEq, Repr

namespace Action

/-- The class of an action. -/
def actionClass : Action → ActionClass
  | nextHop _ | port _ | discard | pbs _ => .forward
  | mirror _ | mirrorSampled .. => .mirror
  | trap _ | trapForward _ => .trap
  | counter _ => .counter
  | setDscp _ => .setDscp
  | setPcp _ => .setPcp
  | setVlan _ => .setVlan
  | policer _ => .policer

/-- The word of an action.  A sampled mirror has the session in the upper half of its argument
and the rate in the lower half. -/
def word : Action → ActionWord
  | nextHop id => ⟨0x10, id.toUInt64⟩
  | port id => ⟨0x11, id.number.toUInt64⟩
  | discard => ⟨0x12, 0⟩
  | pbs id => ⟨0x13, id.raw⟩
  | mirror session => ⟨0x20, session.toUInt64⟩
  | mirrorSampled session rate => ⟨0x21, ofHalves session rate⟩
  | trap id => ⟨0x30, id.toUInt64⟩
  | trapForward id => ⟨0x31, id.toUInt64⟩
  | counter id => ⟨0x40, id.number.toUInt64⟩
  | setDscp dscp => ⟨0x50, dscp.toUInt64⟩
  | setPcp pcp => ⟨0x51, pcp.toUInt64⟩
  | setVlan vlan => ⟨0x52, vlan.toUInt64⟩
  | policer id => ⟨0x60, id.toUInt64⟩

end Action

end AclPlane
