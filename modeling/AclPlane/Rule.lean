import AclPlane.Error

/-!
Rules: conditions on keys, actions, and a priority.

* `Rule.check` — whether a rule may be stored under a key type, or the first fault.
* `Rule.refs` — the pool entries that a rule refers to.
* `Rule.image` — the form in which the device holds a rule.
-/

namespace AclPlane

/-- A rule. -/
structure Rule where
  priority : Nat
  keys : List KeyMatch
  actions : List Action
  deriving DecidableEq, Repr

/-- A rule as the device holds it. -/
structure RuleImage where
  offset : Nat
  priority : Nat
  keys : List KeyWord
  actions : List ActionWord
  deriving DecidableEq, Repr

/-! ### Validation -/

/-- Checks the argument of an action. -/
def Action.check : Action → Except AclError Unit
  | setDscp dscp => if 63 < dscp then .error (.invalidParam (.dscpTooLarge dscp)) else .ok ()
  | setPcp pcp => if 7 < pcp then .error (.invalidParam (.pcpTooLarge pcp)) else .ok ()
  | setVlan vlan =>
    if vlan < 1 ∨ 4094 < vlan then .error (.invalidParam (.vlanOutOfRange vlan)) else .ok ()
  | mirrorSampled _ rate => if rate = 0 then .error (.invalidParam .zeroSampleRate) else .ok ()
  | _ => .ok ()

namespace Rule

/-- Checks conditions one after another; `seen` holds the keys of the earlier ones. -/
def checkKeys (fields : FieldSet) : List BasicKey → List KeyMatch → Except AclError Unit
  | _, [] => .ok ()
  | seen, k :: rest => do
    if !fields.contains k.key then throw (.invalidParam (.keyOutsideType k.key))
    if seen.contains k.key then throw (.invalidParam (.keyTwice k.key))
    if !k.matcher.fits k.key then throw (.invalidParam (.matchMisfit k.matcher.kind k.key))
    checkKeys fields (k.key :: seen) rest

/-- Checks actions one after another; `seen` holds the classes of the earlier ones. -/
def checkActions : List ActionClass → List Action → Except AclError Unit
  | _, [] => .ok ()
  | seen, a :: rest => do
    a.check
    if seen.contains a.actionClass then throw (.invalidParam (.classTwice a.actionClass))
    checkActions (a.actionClass :: seen) rest

/-- Checks a rule against the fields of a key type and the bounds of priorities. -/
def check (r : Rule) (fields : FieldSet) (bounds : PriorityRange) : Except AclError Unit := do
  if !bounds.contains r.priority then throw (.invalidParam (.rulePriority r.priority bounds))
  checkKeys fields [] r.keys
  checkActions [] r.actions

/-! ### The device's form -/

/-- The image of a rule at an offset. -/
def image (r : Rule) (offset : Nat) : RuleImage :=
  ⟨offset, r.priority, r.keys.map KeyMatch.word, r.actions.map Action.word⟩

/-- The flow counter of a rule. -/
def flowCounter? (r : Rule) : Option FlowCounterId :=
  r.actions.findSome? (fun a => match a with
    | .counter id => some id
    | _ => none)

/-- The text of a rule. -/
def text (r : Rule) : String :=
  "prio=" ++ toString r.priority ++ " keys=" ++ toString r.keys.length ++ " actions=" ++
    toString r.actions.length

end Rule

/-! ### References to pool entries -/

/-- Pool entries referred to, each as often as it is referred to. -/
structure PoolRefs where
  pbs : List (Handle .pbs)
  ranges : List (Handle .range)
  customBytes : List (Handle .customBytes)
  portLists : List (Handle .portList)
  deriving DecidableEq, Repr

namespace PoolRefs

/-- No references. -/
def none : PoolRefs := ⟨[], [], [], []⟩

/-- Whether there are no references. -/
def isEmpty (r : PoolRefs) : Bool := r == none

/-- The references of both. -/
def append (a b : PoolRefs) : PoolRefs :=
  ⟨a.pbs ++ b.pbs, a.ranges ++ b.ranges, a.customBytes ++ b.customBytes,
    a.portLists ++ b.portLists⟩

instance : Append PoolRefs := ⟨append⟩

/-- The references of all in a list. -/
def concat (refs : List PoolRefs) : PoolRefs := refs.foldr (· ++ ·) none

/-- The references of each kind, counted. -/
def text (r : PoolRefs) : String :=
  "pbs=" ++ toString r.pbs.length ++ " ranges=" ++ toString r.ranges.length ++
    " custom_bytes=" ++ toString r.customBytes.length ++ " port_lists=" ++
    toString r.portLists.length

end PoolRefs

namespace Rule

/-- The pool entries that a rule refers to. -/
def refs (r : Rule) : PoolRefs where
  pbs := r.actions.filterMap (fun a => match a with
    | .pbs id => some id
    | _ => none)
  ranges := r.keys.filterMap (fun k => match k.matcher with
    | .range id => some id
    | _ => none)
  customBytes := r.keys.filterMap (fun k => match k.matcher with
    | .customBytes set _ _ => some set
    | _ => none)
  portLists := r.keys.filterMap (fun k => match k.matcher with
    | .portList id => some id
    | _ => none)

end Rule

end AclPlane
