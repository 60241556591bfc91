import AclPlane.Handle

/-!
Operations of the device, its status codes and its errors.
-/

namespace AclPlane

/-! ### Operations -/

/-- The operations that a device offers. -/
inductive DeviceOp where
  | createRegion | resizeRegion | destroyRegion
  | writeRules | clearRules | moveRules | setRulePriorities | readActivity
  | programAcl | removeAcl | programGroup | removeGroup | programBinding
  deriving DecidableEq, Repr

namespace DeviceOp

/-- Every device operation. -/
def all : List DeviceOp :=
  [createRegion, resizeRegion, destroyRegion, writeRules, clearRules, moveRules,
   setRulePriorities, readActivity, programAcl, removeAcl, programGroup, removeGroup,
   programBinding]

/-- The operation as errors name it. -/
def name : DeviceOp → String
  | createRegion => "create_region"
  | resizeRegion => "resize_region"
  | destroyRegion => "destroy_region"
  | writeRules => "write_rules"
  | clearRules => "clear_rules"
  | moveRules => "move_rules"
  | setRulePriorities => "set_rule_priorities"
  | readActivity => "read_activity"
  | programAcl => "program_acl"
  | removeAcl => "remove_acl"
  | programGroup => "program_group"
  | removeGroup => "remove_group"
  | programBinding => "program_binding"

end DeviceOp

/-! ### Status codes -/

/-- The status codes of the device. -/
inductive DeviceStatus where
  | success | failure | notSupported | noMemory | insufficientResources | invalidParameter
  | itemAlreadyExists | itemNotFound | tableFull | objectInUse | timeout
  deriving DecidableEq, Repr

namespace DeviceStatus

/-- The numeric code of a status. -/
def code : DeviceStatus → Int
  | success => 0
  | failure => -1
  | notSupported => -2
  | noMemory => -3
  | insufficientResources => -4
  | invalidParameter => -5
  | itemAlreadyExists => -6
  | itemNotFound => -7
  | tableFull => -8
  | objectInUse => -9
  | timeout => -10

/-- Every status. -/
def all : List DeviceStatus :=
  [success, failure, notSupported, noMemory, insufficientResources, invalidParameter,
   itemAlreadyExists, itemNotFound, tableFull, objectInUse, timeout]

/-- The status with the given code; an unknown code is a `failure`. -/
def ofCode (c : Int) : DeviceStatus := (all.find? (fun s => s.code == c)).getD failure

/-- The spelling of a status. -/
def name : DeviceStatus → String
  | success => "HW_STATUS_SUCCESS"
  | failure => "HW_STATUS_FAILURE"
  | notSupported => "HW_STATUS_NOT_SUPPORTED"
  | noMemory => "HW_STATUS_NO_MEMORY"
  | insufficientResources => "HW_STATUS_INSUFFICIENT_RESOURCES"
  | invalidParameter => "HW_STATUS_INVALID_PARAMETER"
  | itemAlreadyExists => "HW_STATUS_ITEM_ALREADY_EXISTS"
  | itemNotFound => "HW_STATUS_ITEM_NOT_FOUND"
  | tableFull => "HW_STATUS_TABLE_FULL"
  | objectInUse => "HW_STATUS_OBJECT_IN_USE"
  | timeout => "HW_STATUS_TIMEOUT"

/-- Whether the status reports success. -/
def isSuccess (s : DeviceStatus) : Bool := s == success

theorem ofCode_code (s : DeviceStatus) : ofCode s.code = s := by cases s <;> rfl

end DeviceStatus

/-! ### Errors -/

/-- Why a device operation failed. -/
inductive DeviceError where
  /-- The device answered with a status. -/
  | status (operation : Option DeviceOp) (status : DeviceStatus)
  /-- The device has no object with the given raw handle. -/
  | unknownObject (raw : RawHandle)
  /-- An offset or a size lies outside the region. -/
  | outOfBounds (offset size : Nat)
  deriving DecidableEq, Repr

namespace DeviceError

/-- The status that an error corresponds to. -/
def statusOf : DeviceError → DeviceStatus
  | status _ s => s
  | unknownObject _ => .itemNotFound
  | outOfBounds _ _ => .invalidParameter

/-- The error in words. -/
def message : DeviceError → String
  | status operation s =>
    "device operation " ++ (operation.map DeviceOp.name).getD "unknown" ++ " failed: " ++ s.name
  | unknownObject raw => "device object not found: 0x" ++ hexPadded 16 raw.toNat
  | outOfBounds offset size =>
    "offset " ++ toString offset ++ " outside region of " ++ toString size ++ " entries"

end DeviceError

/-- A status as the result of a call: success, or the error it reports. -/
def DeviceStatus.toResult (s : DeviceStatus) : Except DeviceError Unit :=
  if s.isSuccess then .ok () else .error (.status none s)

end AclPlane
