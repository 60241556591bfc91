/-!
Limits and priority ranges of the control plane.

* `Config.standard` — the limits that hold where nothing else is said.
* `Config.check` — what a configuration has to satisfy, and which fault is reported first.
-/

namespace AclPlane

/-! ### Priority ranges -/

/-- An inclusive range of priorities, with the one that is given where none is asked for. -/
structure PriorityRange where
  min : Nat
  max : Nat
  usual : Nat
  deriving DecidableEq, Repr

namespace PriorityRange

/-- Whether a priority lies in the range. -/
def contains (r : PriorityRange) (priority : Nat) : Bool := r.min ≤ priority && priority ≤ r.max

/-- The range as error messages show it. -/
def text (r : PriorityRange) : String := toString r.min ++ "..=" ++ toString r.max

end PriorityRange

/-! ### Configurations -/

/-- The fields of a configuration. -/
inductive ConfigField where
  | maxKeyBlocks | maxKeyTypes | maxRegions | maxRulesPerRegion | hwRuleBudget
  | maxAcls | maxGroups | maxAclsPerGroup | maxRuleBatch
  | maxRangeComparators | maxCustomBytesRanges | maxCustomByteSets
  | maxPbsEntries | maxPortLists | maxVlanGroups | groupPriority | rulePriority
  deriving DecidableEq, Repr

namespace ConfigField

/-- Every field, in the order of declaration. -/
def all : List ConfigField :=
  [maxKeyBlocks, maxKeyTypes, maxRegions, maxRulesPerRegion, hwRuleBudget, maxAcls, maxGroups,
   maxAclsPerGroup, maxRuleBatch, maxRangeComparators, maxCustomBytesRanges, maxCustomByteSets,
   maxPbsEntries, maxPortLists, maxVlanGroups, groupPriority, rulePriority]

/-- The name of a field in a document. -/
def name : ConfigField → String
  | maxKeyBlocks => "max_key_blocks"
  | maxKeyTypes => "max_key_types"
  | maxRegions => "max_regions"
  | maxRulesPerRegion => "max_rules_per_region"
  | hwRuleBudget => "hw_rule_budget"
  | maxAcls => "max_acls"
  | maxGroups => "max_groups"
  | maxAclsPerGroup => "max_acls_per_group"
  | maxRuleBatch => "max_rule_batch"
  | maxRangeComparators => "max_range_comparators"
  | maxCustomBytesRanges => "max_custom_bytes_ranges"
  | maxCustomByteSets => "max_custom_byte_sets"
  | maxPbsEntries => "max_pbs_entries"
  | maxPortLists => "max_port_lists"
  | maxVlanGroups => "max_vlan_groups"
  | groupPriority => "group_priority"
  | rulePriority => "rule_priority"

/-- Whether zero is refused for a field by itself.  The capacity limits of regions are checked
together, and pools of comparators and custom bytes may be empty. -/
def mustBePositive : ConfigField → Bool
  | maxKeyBlocks | maxKeyTypes | maxRegions | maxAcls | maxGroups | maxAclsPerGroup
  | maxRuleBatch | maxPbsEntries | maxPortLists | maxVlanGroups => true
  | _ => false

end ConfigField

/-- The limits of the control plane. -/
structure Config where
  /-- Key blocks in one key type. -/
  maxKeyBlocks : Nat
  maxKeyTypes : Nat
  maxRegions : Nat
  /-- Capacity of one region. -/
  maxRulesPerRegion : Nat
  /-- Hardware rows, each counted once per key block, available to all regions. -/
  hwRuleBudget : Nat
  maxAcls : Nat
  maxGroups : Nat
  maxAclsPerGroup : Nat
  /-- Rules in one batch. -/
  maxRuleBatch : Nat
  maxRangeComparators : Nat
  /-- Range comparators on custom bytes at the same time. -/
  maxCustomBytesRanges : Nat
  maxCustomByteSets : Nat
  maxPbsEntries : Nat
  maxPortLists : Nat
  maxVlanGroups : Nat
  groupPriority : PriorityRange
  rulePriority : PriorityRange
  deriving DecidableEq, Repr

/-- Why a configuration is refused. -/
inductive ConfigError where
  | zeroLimit (field : ConfigField)
  | zeroCapacity
  | customBytesRanges
  | priorities (field : ConfigField)
  deriving DecidableEq, Repr

namespace ConfigError

/-- The reason in words. -/
def message : ConfigError → String
  | zeroLimit field => "Invalid configuration: " ++ field.name ++ " must be > 0"
  | zeroCapacity => "Invalid configuration: region capacity limits must be > 0"
  | customBytesRanges =>
    "Invalid configuration: max_custom_bytes_ranges exceeds max_range_comparators"
  | priorities field =>
    "Invalid configuration: " ++ field.name ++ " must satisfy min <= default <= max"

end ConfigError

namespace Config

/-- The limits that hold where nothing else is said. -/
def standard : Config where
  maxKeyBlocks := 6
  maxKeyTypes := 64
  maxRegions := 400
  maxRulesPerRegion := 8192
  hwRuleBudget := 65536
  maxAcls := 512
  maxGroups := 256
  maxAclsPerGroup := 16
  maxRuleBatch := 1024
  maxRangeComparators := 16
  maxCustomBytesRanges := 2
  maxCustomByteSets := 16
  maxPbsEntries := 1024
  maxPortLists := 256
  maxVlanGroups := 64
  groupPriority := ⟨1, 0xff, 8⟩
  rulePriority := ⟨1, 0xffffff, 1⟩

/-- The numbers of a configuration, in the order of declaration. -/
def limits (c : Config) : List (ConfigField × Nat) :=
  [(.maxKeyBlocks, c.maxKeyBlocks), (.maxKeyTypes, c.maxKeyTypes), (.maxRegions, c.maxRegions),
   (.maxRulesPerRegion, c.maxRulesPerRegion), (.hwRuleBudget, c.hwRuleBudget),
   (.maxAcls, c.maxAcls), (.maxGroups, c.maxGroups), (.maxAclsPerGroup, c.maxAclsPerGroup),
   (.maxRuleBatch, c.maxRuleBatch), (.maxRangeComparators, c.maxRangeComparators),
   (.maxCustomBytesRanges, c.maxCustomBytesRanges), (.maxCustomByteSets, c.maxCustomByteSets),
   (.maxPbsEntries, c.maxPbsEntries), (.maxPortLists, c.maxPortLists),
   (.maxVlanGroups, c.maxVlanGroups)]

/-- The priority ranges of a configuration, in the order of declaration. -/
def ranges (c : Config) : List (ConfigField × PriorityRange) :=
  [(.groupPriority, c.groupPriority), (.rulePriority, c.rulePriority)]

/-- The limits of which each must not be zero, in the order in which they are checked. -/
def positiveLimits (c : Config) : List (ConfigField × Nat) :=
  c.limits.filter (fun l => l.1.mustBePositive)

/-- Checks that the usual priority of a range lies in it. -/
def checkPriorities (field : ConfigField) (r : PriorityRange) : Except ConfigError Unit :=
  if r.contains r.usual then .ok () else .error (.priorities field)

/-- Checks the limits against each other. -/
def check (c : Config) : Except ConfigError Unit := do
  match c.positiveLimits.find? (fun l => l.2 == 0) with
  | some (field, _) => throw (.zeroLimit field)
  | none => pure ()
  if c.maxRulesPerRegion = 0 ∨ c.hwRuleBudget = 0 then throw .zeroCapacity
  if c.maxRangeComparators < c.maxCustomBytesRanges then throw .customBytesRanges
  checkPriorities .groupPriority c.groupPriority
  checkPriorities .rulePriority c.rulePriority

end Config

end AclPlane
