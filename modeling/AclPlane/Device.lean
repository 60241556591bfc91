import AclPlane.Binding.Target
import AclPlane.DeviceError
import AclPlane.OrderedSet
import AclPlane.Relocation
import AclPlane.Rule

/-!
A simulated device.

The device holds regions of rule images, ACLs, groups and bindings under the raw values it is
given.  A call either takes effect as a whole or fails and changes nothing but the number of
calls and the fault that it met.  An armed fault makes the next call of its operation fail.

* `DeviceCall` — the calls, with their arguments.
* `Device.call` — carries out a call.
* `Device.failNext`, `Device.recordHit` — what a test does to the device from outside.
-/

namespace AclPlane

/-! ### Calls -/

/-- A call of the device. -/
inductive DeviceCall where
  /-- Allocates a region of `hwSize` entries made of key blocks. -/
  | createRegion (region : Handle .region) (keyBlocks : List KeyBlockId) (hwSize : Nat)
  /-- Changes the size of a region and leaves its rules in place. -/
  | resizeRegion (region : Handle .region) (hwSize : Nat)
  | destroyRegion (region : Handle .region)
  /-- Writes rules over whatever is at their offsets. -/
  | writeRules (region : Handle .region) (images : List RuleImage)
  | clearRules (region : Handle .region) (offsets : List Nat)
  /-- Moves a block of slots, activity bits included. -/
  | moveRules (region : Handle .region) (src size dst : Nat)
  | setRulePriorities (region : Handle .region) (updates : List (Nat × Nat))
  /-- Reads the activity bit of a slot, and clears it if asked to. -/
  | readActivity (region : Handle .region) (offset : Nat) (clear : Bool)
  | programAcl (acl : Handle .acl) (regions : List (Handle .region))
  | removeAcl (acl : Handle .acl)
  | programGroup (group : Handle .group) (acls : List (Handle .acl)) (next : Option (Handle .group))
  | removeGroup (group : Handle .group)
  /-- Replaces the targets of a binding; no targets unbind. -/
  | programBinding (key : BindingKey) (targets : List RawHandle)
  deriving DecidableEq, Repr

/-- The operation that a call invokes. -/
def DeviceCall.op : DeviceCall → DeviceOp
  | createRegion .. => .createRegion
  | resizeRegion .. => .resizeRegion
  | destroyRegion .. => .destroyRegion
  | writeRules .. => .writeRules
  | clearRules .. => .clearRules
  | moveRules .. => .moveRules
  | setRulePriorities .. => .setRulePriorities
  | readActivity .. => .readActivity
  | programAcl .. => .programAcl
  | removeAcl .. => .removeAcl
  | programGroup .. => .programGroup
  | removeGroup .. => .removeGroup
  | programBinding .. => .programBinding

/-! ### State -/

/-- A region in the device: the images of its rules by their offsets, and the offsets whose
activity bit is set. -/
structure DeviceRegion where
  keyBlocks : List KeyBlockId
  hwSize : Nat
  rules : OrderedMap Nat RuleImage
  hits : OrderedSet Nat
  deriving DecidableEq

/-- What the device has been programmed with. -/
structure DeviceTables where
  regions : OrderedMap (Handle .region) DeviceRegion
  acls : OrderedMap (Handle .acl) (List (Handle .region))
  groups : OrderedMap (Handle .group) (List (Handle .acl) × Option (Handle .group))
  bindings : OrderedMap BindingKey (List RawHandle)
  deriving DecidableEq

/-- The device: its tables, the faults armed in it and the number of calls so far. -/
structure Device where
  tables : DeviceTables
  faults : List (DeviceOp × DeviceStatus)
  calls : Nat
  deriving DecidableEq

namespace DeviceRegion

/-- Writes an image, with its activity bit clear. -/
def write (r : DeviceRegion) (image : RuleImage) : DeviceRegion :=
  { r with
    rules := r.rules.insert image.offset image
    hits := r.hits.erase image.offset }

/-- Empties a slot. -/
def clear (r : DeviceRegion) (offset : Nat) : DeviceRegion :=
  { r with rules := r.rules.erase offset, hits := r.hits.erase offset }

/-- Takes the images out of the slots that are relocated, each with the offset that it goes to
and its activity bit. -/
def takeMoved (r : DeviceRegion) : List (Nat × Nat) → List (RuleImage × Bool) × DeviceRegion
  | [] => ([], r)
  | (slot, target) :: rest =>
    match r.rules.get? slot with
    | some image =>
      let (moved, left) := (r.clear slot).takeMoved rest
      (({ image with offset := target }, r.hits.has slot) :: moved, left)
    | none => r.takeMoved rest

/-- Puts an image in its slot, with its activity bit. -/
def putMoved (r : DeviceRegion) (moved : RuleImage × Bool) : DeviceRegion :=
  { r with
    rules := r.rules.insert moved.1.offset moved.1
    hits := if moved.2 then r.hits.insert moved.1.offset () else r.hits }

/-- Moves a block of slots. -/
def moveBlock (r : DeviceRegion) (src size dst : Nat) : DeviceRegion :=
  let (moved, left) := r.takeMoved (relocations src size dst)
  moved.foldl putMoved left

/-- Gives the image at an offset another priority. -/
def setPriority (r : DeviceRegion) (update : Nat × Nat) : DeviceRegion :=
  { r with
    rules := r.rules.modify update.1 (fun image => { image with priority := update.2 }) }

/-- Whether the activity bit of an offset is set. -/
def isHit (r : DeviceRegion) (offset : Nat) : Bool := r.hits.has offset

/-- Sets the activity bit of an offset. -/
def hit (r : DeviceRegion) (offset : Nat) : DeviceRegion :=
  { r with hits := r.hits.insert offset () }

/-- Clears the activity bit of an offset. -/
def clearHit (r : DeviceRegion) (offset : Nat) : DeviceRegion :=
  { r with hits := r.hits.erase offset }

/-- The images that lie below the size of the region, ascending. -/
def images (r : DeviceRegion) : List RuleImage :=
  (r.rules.toList.filter (fun e => e.1 < r.hwSize)).map Prod.snd

/-- Checks that an offset lies in the region. -/
def checkOffset (r : DeviceRegion) (offset : Nat) : Except DeviceError Unit :=
  if r.hwSize ≤ offset then .error (.outOfBounds offset r.hwSize) else .ok ()

end DeviceRegion

namespace DeviceTables

/-- Tables without objects. -/
def empty : DeviceTables :=
  ⟨OrderedMap.empty, OrderedMap.empty, OrderedMap.empty, OrderedMap.empty⟩

/-- The region, or the error that there is none. -/
def region (t : DeviceTables) (id : Handle .region) : Except DeviceError DeviceRegion :=
  match t.regions.get? id with
  | some r => .ok r
  | none => .error (.unknownObject id.raw)

/-- Stores a region. -/
def setRegion (t : DeviceTables) (id : Handle .region) (r : DeviceRegion) : DeviceTables :=
  { t with regions := t.regions.insert id r }

/-! ### What each call does -/

/-- Moves a block of slots that lies in the region before and after. -/
def moveRules (t : DeviceTables) (id : Handle .region) (src size dst : Nat) :
    Except DeviceError DeviceTables := do
  let r ← t.region id
  if r.hwSize < src + size ∨ r.hwSize < dst + size then
    throw (.outOfBounds (min (max src dst + size) (UInt32.size - 1)) r.hwSize)
  return t.setRegion id (r.moveBlock src size dst)

/-- Gives rules new priorities, provided that each of them exists. -/
def setRulePriorities (t : DeviceTables) (id : Handle .region) (updates : List (Nat × Nat)) :
    Except DeviceError DeviceTables := do
  let r ← t.region id
  if updates.any (fun u => !r.rules.contains u.1) then
    throw (.status (some .setRulePriorities) .itemNotFound)
  return t.setRegion id (updates.foldl DeviceRegion.setPriority r)

/-- Reads an activity bit. -/
def readActivity (t : DeviceTables) (id : Handle .region) (offset : Nat) (clear : Bool) :
    Except DeviceError (DeviceTables × Bool) := do
  let r ← t.region id
  r.checkOffset offset
  let tables := if clear then t.setRegion id (r.clearHit offset) else t
  return (tables, r.isHit offset)

/-- The tables after a call that meets no fault, and the bit that it reads, if any. -/
def apply (t : DeviceTables) : DeviceCall → Except DeviceError (DeviceTables × Bool)
  | .createRegion id keyBlocks hwSize =>
    if t.regions.contains id then .error (.status (some .createRegion) .itemAlreadyExists)
    else .ok (t.setRegion id ⟨keyBlocks, hwSize, OrderedMap.empty, OrderedMap.empty⟩, false)
  | .resizeRegion id hwSize => do
    let r ← t.region id
    match r.rules.lastKey? with
    | some highest =>
      if hwSize ≤ highest then throw (.outOfBounds highest hwSize)
    | none => pure ()
    return (t.setRegion id { r with hwSize := hwSize }, false)
  | .destroyRegion id => do
    let _ ← t.region id
    return ({ t with regions := t.regions.erase id }, false)
  | .writeRules id images => do
    let r ← t.region id
    images.forM (fun image => r.checkOffset image.offset)
    return (t.setRegion id (images.foldl DeviceRegion.write r), false)
  | .clearRules id offsets => do
    let r ← t.region id
    return (t.setRegion id (offsets.foldl DeviceRegion.clear r), false)
  | .moveRules id src size dst => do
    return (← t.moveRules id src size dst, false)
  | .setRulePriorities id updates => do
    return (← t.setRulePriorities id updates, false)
  | .readActivity id offset clear => t.readActivity id offset clear
  | .programAcl id regions =>
    match regions.find? (fun r => !t.regions.contains r) with
    | some r => .error (.unknownObject r.raw)
    | none => .ok ({ t with acls := t.acls.insert id regions }, false)
  | .removeAcl id =>
    if t.acls.contains id then .ok ({ t with acls := t.acls.erase id }, false)
    else .error (.unknownObject id.raw)
  | .programGroup id acls next =>
    .ok ({ t with groups := t.groups.insert id (acls, next) }, false)
  | .removeGroup id =>
    if t.groups.contains id then .ok ({ t with groups := t.groups.erase id }, false)
    else .error (.unknownObject id.raw)
  | .programBinding key targets =>
    let bindings := if targets.isEmpty then t.bindings.erase key else t.bindings.insert key targets
    .ok ({ t with bindings := bindings }, false)

end DeviceTables

namespace Device

/-- A device that nothing has been programmed into. -/
def new : Device := ⟨DeviceTables.empty, [], 0⟩

/-- The device with the fault of an operation disarmed. -/
def disarm (d : Device) (op : DeviceOp) : Device :=
  { d with faults := d.faults.filter (fun f => f.1 != op) }

/-- Carries out a call.  The answer is the bit that the call reads, if it reads one. -/
def call (d : Device) (c : DeviceCall) : Except DeviceError Bool × Device :=
  let counted := { d with calls := d.calls + 1 }
  match d.faults.lookup c.op with
  | some status => (.error (.status (some c.op) status), counted.disarm c.op)
  | none =>
    match d.tables.apply c with
    | .ok (tables, bit) => (.ok bit, { counted with tables := tables })
    | .error e => (.error e, counted)

/-! ### From outside -/

/-- Makes the next call of an operation fail with a status. -/
def failNext (d : Device) (op : DeviceOp) (status : DeviceStatus) : Device :=
  let disarmed := d.disarm op
  { disarmed with faults := (op, status) :: disarmed.faults }

/-- Lets a packet hit the rule at an offset; the answer tells whether there is one. -/
def recordHit (d : Device) (region : Handle .region) (offset : Nat) : Bool × Device :=
  match d.tables.regions.get? region with
  | some r =>
    if r.rules.contains offset then
      (true, { d with tables := d.tables.setRegion region (r.hit offset) })
    else (false, d)
  | none => (false, d)

/-- The image that has been written at an offset. -/
def image? (d : Device) (region : Handle .region) (offset : Nat) : Option RuleImage :=
  (d.tables.regions.get? region).bind (fun r => r.rules.get? offset)

/-- The targets that a binding has been programmed with; none if it is not bound. -/
def binding (d : Device) (key : BindingKey) : List RawHandle :=
  (d.tables.bindings.get? key).getD []

end Device

end AclPlane
