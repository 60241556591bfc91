import AclPlane.AccessCommand
import AclPlane.Arena
import AclPlane.Binding.Target
import AclPlane.Config
import AclPlane.DeviceError
import AclPlane.KeyBlock
import AclPlane.Pool.Value
import AclPlane.Rule.Action
import AclPlane.Rule.Match

/-!
Why an operation is refused.

An error has a category and, within it, a cause; `AclError.message` puts both into words.

* `BadParameter` — a request that contradicts itself, the model or a fixed rule.
* `Missing` — something that is not there.
* `Shortage` — a limit that would be exceeded.
* `Occupancy` — a use that keeps an object alive.
-/

namespace AclPlane

/-! ### Things that a request names -/

/-- The resources that commands act on. -/
inductive Resource where
  | keyType | region | acl | rule | group | binding | poolEntry | activity | objectQuery | vlanGroup
  deriving DecidableEq, Repr

/-- The resource in words. -/
def Resource.name : Resource → String
  | keyType => "key type"
  | region => "region"
  | acl => "ACL"
  | rule => "rule"
  | group => "ACL group"
  | binding => "binding"
  | poolEntry => "pool entry"
  | activity => "rule activity"
  | objectQuery => "object query"
  | vlanGroup => "VLAN group"

/-- The parameters that a command can require. -/
inductive Parameter where
  | keyType | capacity | region | acl | direction | group | successor | priority
  | point | target | value | entry | members | referenceKey | count
  deriving DecidableEq, Repr

/-- The parameter in words. -/
def Parameter.name : Parameter → String
  | keyType => "a key type"
  | capacity => "a capacity"
  | region => "a region"
  | acl => "an ACL"
  | direction => "a direction"
  | group => "a group"
  | successor => "a successor group"
  | priority => "a priority"
  | point => "an attachment point"
  | target => "a target"
  | value => "a value"
  | entry => "a pool entry"
  | members => "members"
  | referenceKey => "a reference key"
  | count => "a count"

/-- The tables and pools that can be full. -/
inductive Table where
  | keyTypes | regions | acls | groups
  | pool (name : String)
  deriving DecidableEq, Repr

/-- The table in words. -/
def Table.name : Table → String
  | keyTypes => "key type table"
  | regions => "region table"
  | acls => "ACL table"
  | groups => "group table"
  | pool name => name ++ " pool"

/-! ### Bad parameters -/

/-- Why a parameter is refused. -/
inductive BadParameter where
  -- Catalogs and key types
  | blockWithoutFields (block : KeyBlockId)
  | blockExcludesItself (block : KeyBlockId)
  | duplicateBlock (block : KeyBlockId)
  | unknownExclusion (block unknown : KeyBlockId)
  | noFields
  | fieldNotExposed (field : BasicKey)
  | unknownBlock (block : KeyBlockId)
  -- Configuration and counts
  | config (error : ConfigError)
  | countUnderflow (object : ObjectRef)
  -- Regions
  | zeroCapacity
  | rowsNotInUse (released used : Nat)
  | regionNotBound (region : Handle .region)
  -- Rules
  | rulePriority (priority : Nat) (bounds : PriorityRange)
  | keyOutsideType (key : BasicKey)
  | keyTwice (key : BasicKey)
  | matchMisfit (kind : MatchKind) (key : BasicKey)
  | dscpTooLarge (dscp : UInt8)
  | pcpTooLarge (pcp : UInt8)
  | vlanOutOfRange (vlan : UInt16)
  | zeroSampleRate
  | classTwice (actionClass : ActionClass)
  | batchLengths (offsets rules : Nat)
  | offsetTwice (offset : Nat)
  | zeroBlock
  | emptyBand (min max : Nat)
  | shiftOutside (priority : Nat) (delta : Int) (bounds : PriorityRange)
  | shiftCollision (priority : Nat)
  -- ACLs and groups
  | noRegions
  | listedTwice (object : ObjectRef)
  | bitmapOnSingleDirection
  | notMultiPoint (acl : Handle .acl)
  | bitmapFixed (acl : Handle .acl) (bitmap : DirectionSet)
  | groupDirection (direction : Direction)
  | memberDirection (acl : Handle .acl) (direction : Direction) (group : Handle .group)
  | selfChain (group : Handle .group)
  | alreadyFollowed (parent next : Handle .group)
  | alreadyFollows (child parent : Handle .group)
  | chainDirections (childDirection : Direction) (child : Handle .group)
      (parentDirection : Direction) (parent : Handle .group)
  | boundChild (child : Handle .group)
  | chainCycle (child parent : Handle .group)
  | groupPriority (priority : Nat) (bounds : PriorityRange)
  -- Bindings
  | notBindingDirection (direction : Direction)
  | unsupportedDirection (key : BindingKey)
  | bareAcl (key : BindingKey) (target : BindTarget)
  | bitmapUnset (acl : Handle .acl)
  | directionNotServed (acl : Handle .acl) (direction : Direction)
  | directionOfGroup (group : Handle .group) (direction : Direction)
  | notChainHead (group parent : Handle .group)
  -- Pools
  | emptyPortGroup
  | portGroupTwice
  | notPortGroup (entry : Handle .pbs)
  | portGroupWouldBeEmpty (entry : Handle .pbs)
  | rangeInverted (min max : Nat)
  | rangeTooLarge (range : RangeComparator)
  | customBytesSize (size : Nat)
  | customBytesReach (offset size : Nat)
  | portListTwice
  | valueMismatch (entry : PoolEntry)
  -- Commands
  | missingParameter (command : AccessCommand) (parameter : Parameter)
  | singleAcl (command : AccessCommand) (given : Nat)
  | groupExpected (command : AccessCommand) (acl : Handle .acl)
  | editChoice
  | notHandle (raw : RawHandle)
  deriving DecidableEq, Repr

/-- The refusal in words. -/
def BadParameter.message : BadParameter → String
  | blockWithoutFields block => block.text ++ " exposes no fields"
  | blockExcludesItself block => block.text ++ " excludes itself"
  | duplicateBlock block => "duplicate key block " ++ block.text
  | unknownExclusion block unknown => block.text ++ " excludes unknown block " ++ unknown.text
  | noFields => "key type needs at least one field"
  | fieldNotExposed field => "no key block exposes field " ++ field.name
  | unknownBlock block => "unknown key block " ++ block.text
  | config error => error.message
  | countUnderflow object => "reference count underflow on " ++ object.text
  | zeroCapacity => "region capacity must be > 0"
  | rowsNotInUse released used =>
    "cannot release " ++ toString released ++ " hardware rows, " ++ toString used ++ " in use"
  | regionNotBound region => region.text ++ " is not bound, activity is undefined"
  | rulePriority priority bounds =>
    "rule priority " ++ toString priority ++ " not in " ++ bounds.text
  | keyOutsideType key => "basic key " ++ key.name ++ " is not part of the key type"
  | keyTwice key => "basic key " ++ key.name ++ " given twice"
  | matchMisfit kind key => kind.name ++ " match cannot be used on " ++ key.name
  | dscpTooLarge dscp => "DSCP " ++ toString dscp.toNat ++ " exceeds 63"
  | pcpTooLarge pcp => "PCP " ++ toString pcp.toNat ++ " exceeds 7"
  | vlanOutOfRange vlan => "VLAN " ++ toString vlan.toNat ++ " not in 1..=4094"
  | zeroSampleRate => "mirror sample rate must be > 0"
  | classTwice actionClass => "more than one " ++ actionClass.name ++ " action"
  | batchLengths offsets rules =>
    toString offsets ++ " offsets given for " ++ toString rules ++ " rules"
  | offsetTwice offset => "offset " ++ toString offset ++ " given twice"
  | zeroBlock => "block size must be > 0"
  | emptyBand min max =>
    "priority band " ++ toString min ++ "..=" ++ toString max ++ " is empty"
  | shiftOutside priority delta bounds =>
    "priority " ++ toString priority ++ " shifted by " ++ toString delta ++ " leaves " ++
      bounds.text
  | shiftCollision priority =>
    "shifted priority " ++ toString priority ++ " collides with an existing rule"
  | noRegions => "an ACL needs at least one region"
  | listedTwice object => object.text ++ " listed twice"
  | bitmapOnSingleDirection => "direction bitmap only applies to MULTI_POINTS ACLs"
  | notMultiPoint acl => acl.text ++ " is not a MULTI_POINTS ACL"
  | bitmapFixed acl bitmap => "direction bitmap of " ++ acl.text ++ " is already " ++ bitmap.text
  | groupDirection direction => "a group cannot have direction " ++ direction.name
  | memberDirection acl direction group =>
    acl.text ++ " does not serve " ++ direction.name ++ " of " ++ group.text
  | selfChain group => group.text ++ " cannot follow itself"
  | alreadyFollowed parent next => parent.text ++ " is already followed by " ++ next.text
  | alreadyFollows child parent => child.text ++ " already follows " ++ parent.text
  | chainDirections childDirection child parentDirection parent =>
    "cannot chain " ++ childDirection.name ++ " group " ++ child.text ++ " after " ++
      parentDirection.name ++ " group " ++ parent.text
  | boundChild child => child.text ++ " is bound and must stay a chain head"
  | chainCycle child parent =>
    "chaining " ++ child.text ++ " after " ++ parent.text ++ " forms a cycle"
  | groupPriority priority bounds =>
    "group priority " ++ toString priority ++ " not in " ++ bounds.text
  | notBindingDirection direction => direction.name ++ " is not a binding direction"
  | unsupportedDirection key =>
    key.point.text ++ " cannot be bound in direction " ++ key.direction.name
  | bareAcl key target =>
    key.point.text ++ " " ++ key.direction.name ++ " is bound to a bare ACL " ++ target.text
  | bitmapUnset acl => "direction bitmap of " ++ acl.text ++ " was never set"
  | directionNotServed acl direction => acl.text ++ " does not serve " ++ direction.name
  | directionOfGroup group direction => group.text ++ " is a " ++ direction.name ++ " group"
  | notChainHead group parent =>
    group.text ++ " follows " ++ parent.text ++ " and is not a chain head"
  | emptyPortGroup => "PBS port group needs at least one port"
  | portGroupTwice => "PBS port group lists a port twice"
  | notPortGroup entry => entry.text ++ " is not a port group"
  | portGroupWouldBeEmpty entry => entry.text ++ " would be left without ports"
  | rangeInverted min max =>
    "Invalid range: min (" ++ toString min ++ ") > max (" ++ toString max ++ ")"
  | rangeTooLarge range =>
    range.field.name ++ " range max (" ++ toString range.max ++ ") exceeds " ++
      toString range.field.limit
  | customBytesSize size => "custom byte set size " ++ toString size ++ " not in 1..=4"
  | customBytesReach offset size =>
    "custom bytes " ++ toString offset ++ "+" ++ toString size ++ " reach beyond " ++
      toString CustomByteSet.maxReach ++ " bytes"
  | portListTwice => "port list names a port twice"
  | valueMismatch entry => "value does not fit " ++ entry.text
  | missingParameter command parameter => command.name ++ " requires " ++ parameter.name
  | singleAcl command given =>
    command.name ++ " takes exactly one ACL, " ++ toString given ++ " given"
  | groupExpected command acl => command.name ++ " takes a group, " ++ acl.text ++ " given"
  | editChoice => "rule EDIT takes either a block move or a priority shift"
  | notHandle raw => "0x" ++ hexDigits raw.toNat ++ " is not a handle"

/-! ### Missing things -/

/-- What was not found. -/
inductive Missing where
  | object (ref : ObjectRef)
  /-- The key of a query over objects of a kind, or over a pool with the given name. -/
  | queried (resource : Resource)
  | queriedEntry (pool : String)
  | member (acl : Handle .acl) (group : Handle .group)
  | binding (key : BindingKey)
  | boundGroup (group : Handle .group) (key : BindingKey)
  | successor (group : Handle .group)
  | rule (region : Handle .region) (offset : Nat)
  | port (id : PortId) (entry : ObjectRef)
  | vlan (id : UInt16) (group : Handle .vlanGroup)
  deriving DecidableEq, Repr

/-- The missing thing in words. -/
def Missing.message : Missing → String
  | object ref => ref.text
  | queried resource => resource.name
  | queriedEntry pool => pool ++ " entry"
  | member acl group => acl.text ++ " in " ++ group.text
  | binding key => "binding on " ++ key.point.text ++ " " ++ key.direction.name
  | boundGroup group key =>
    group.text ++ " on " ++ key.point.text ++ " " ++ key.direction.name
  | successor group => "successor of " ++ group.text
  | rule region offset => "rule at " ++ region.text ++ "@" ++ toString offset
  | port id entry => id.text ++ " in " ++ entry.text
  | vlan id group => "VLAN " ++ toString id.toNat ++ " in " ++ group.text

/-! ### Shortages -/

/-- Which limit would be exceeded. -/
inductive Shortage where
  | full (table : Table)
  | zeroBlockBudget
  | noCover (fields maxBlocks : Nat)
  | capacity (wanted limit : Nat)
  | capacityRounding (wanted : Nat)
  | hardwareRows (used budget needed : Nat)
  | ruleBeyond (region : Handle .region) (highest size : Nat)
  | ruleMisfit (offset capacity : Nat)
  | members (group : Handle .group) (count limit : Nat)
  | ruleBatch (count limit : Nat)
  | customBytesRanges (limit : Nat)
  deriving DecidableEq, Repr

/-- The shortage in words. -/
def Shortage.message : Shortage → String
  | full table => table.name ++ " is full"
  | zeroBlockBudget => "key block budget is zero"
  | noCover fields maxBlocks =>
    "no cover of " ++ toString fields ++ " fields within " ++ toString maxBlocks ++ " key blocks"
  | capacity wanted limit =>
    "capacity " ++ toString wanted ++ " exceeds " ++ toString limit ++ " rules per region"
  | capacityRounding wanted => "capacity " ++ toString wanted ++ " cannot be rounded"
  | hardwareRows used budget needed =>
    "hardware rows exhausted: " ++ toString used ++ " of " ++ toString budget ++ " in use, " ++
      toString needed ++ " more needed"
  | ruleBeyond region highest size =>
    region.text ++ " holds a rule at offset " ++ toString highest ++ ", cannot shrink to " ++
      toString size
  | ruleMisfit offset size =>
    "rule at offset " ++ toString offset ++ " does not fit a capacity of " ++ toString size
  | members group count limit =>
    group.text ++ " would hold " ++ toString count ++ " ACLs, limit is " ++ toString limit
  | ruleBatch count limit =>
    "batch of " ++ toString count ++ " rules exceeds " ++ toString limit
  | customBytesRanges limit =>
    "at most " ++ toString limit ++ " custom-bytes ranges may exist"

/-! ### Occupancy and duplicates -/

/-- Which use keeps an object alive. -/
inductive Occupancy where
  | usedByRegions (keyType : Handle .keyType) (count : Nat)
  | usedByAcl (region : Handle .region) (acl : Handle .acl)
  | memberOf (acl : Handle .acl) (group : Handle .group)
  | bound (object : ObjectRef)
  | follows (group parent : Handle .group)
  | referenced (entry : ObjectRef) (count : Nat)
  deriving DecidableEq, Repr

/-- The use in words. -/
def Occupancy.message : Occupancy → String
  | usedByRegions keyType count =>
    keyType.text ++ " is used by " ++ toString count ++ " region(s)"
  | usedByAcl region acl => region.text ++ " is used by " ++ acl.text
  | memberOf acl group => acl.text ++ " is a member of " ++ group.text
  | bound object => object.text ++ " is bound"
  | follows group parent => group.text ++ " follows " ++ parent.text
  | referenced entry count => entry.text ++ " is referenced " ++ toString count ++ " time(s)"

/-- What exists already. -/
inductive Duplicate where
  /-- A new destination that another entry has. -/
  | created (destination : PbsDestination) (existing : Handle .pbs)
  /-- A changed destination that another entry has. -/
  | edited (destination : PbsDestination)
  deriving DecidableEq, Repr

/-- The duplicate in words. -/
def Duplicate.message : Duplicate → String
  | created destination existing =>
    "PBS " ++ destination.text ++ " already exists as " ++ existing.text
  | edited destination => "PBS " ++ destination.text

/-! ### Errors -/

/-- Why an operation is refused. -/
inductive AclError where
  | invalidParam (why : BadParameter)
  /-- An offset beyond the capacity of the object it addresses. -/
  | outOfRange (offset capacity : Nat)
  | notFound (what : Missing)
  | exhausted (what : Shortage)
  | inUse (why : Occupancy)
  | alreadyExists (what : Duplicate)
  | unsupported (command : AccessCommand) (resource : Resource)
  | device (error : DeviceError)
  deriving DecidableEq, Repr

/-- The categories of error. -/
inductive ErrorKind where
  | invalidParam | notFound | exhausted | inUse | alreadyExists | unsupported | device
  deriving DecidableEq, Repr

/-- The spelling of a category. -/
def ErrorKind.name : ErrorKind → String
  | invalidParam => "INVALID_PARAM"
  | notFound => "ENTRY_NOT_FOUND"
  | exhausted => "NO_RESOURCES"
  | inUse => "RESOURCE_IN_USE"
  | alreadyExists => "ALREADY_EXISTS"
  | unsupported => "CMD_UNSUPPORTED"
  | device => "HW_FAILURE"

namespace AclError

/-- The category of an error. -/
def kind : AclError → ErrorKind
  | invalidParam _ => .invalidParam
  | outOfRange _ _ => .invalidParam
  | notFound _ => .notFound
  | exhausted _ => .exhausted
  | inUse _ => .inUse
  | alreadyExists _ => .alreadyExists
  | unsupported _ _ => .unsupported
  | device _ => .device

/-- A count of an object that could not be changed. -/
def ofCount (e : Arena.CountError) (object : ObjectRef) : AclError :=
  match e with
  | .notFound => .notFound (.object object)
  | .underflow => .invalidParam (.countUnderflow object)

/-- The error in words. -/
def message : AclError → String
  | invalidParam why => "Invalid parameter: " ++ why.message
  | outOfRange offset capacity =>
    "Offset " ++ toString offset ++ " out of range (capacity " ++ toString capacity ++ ")"
  | notFound what => "Entry not found: " ++ what.message
  | exhausted what => "Resources exhausted: " ++ what.message
  | inUse why => "Resource in use: " ++ why.message
  | alreadyExists what => "Already exists: " ++ what.message
  | unsupported command resource =>
    "Unsupported command: " ++ command.name ++ " on " ++ resource.name
  | device error => "Hardware failure: " ++ error.message

end AclError

end AclPlane
