import AclPlane.Command.Acl
import AclPlane.Command.Activity
import AclPlane.Command.Binding
import AclPlane.Command.Group
import AclPlane.Command.KeyType
import AclPlane.Command.ObjectQuery
import AclPlane.Command.Pool
import AclPlane.Command.Region
import AclPlane.Command.Rule
import AclPlane.Controller

/-!
The operations of the control plane as data, and what carries them out.

* `Operation` — an operation on any resource; `Operation.command` is its command, and
  `Operation.ofCommand` the operation of a command with its parameters.
* `Controller.execute` — carries an operation out.
* `Step` and `Controller.step` — everything that can happen to a controller from outside.
-/

namespace AclPlane

/-! ### Operations -/

/-- An operation on any resource. -/
inductive Operation where
  | keyType (op : KeyTypeOp)
  | region (op : RegionOp)
  | acl (op : AclOp)
  | rule (op : RuleOp)
  | group (op : GroupOp)
  | binding (op : BindOp)
  | pool (op : PoolOp)
  | activity (op : ActivityOp)
  | query (op : ObjectQuery)
  deriving DecidableEq, Repr

/-- The command of an operation. -/
def Operation.command : Operation → AccessCommand
  | keyType op => op.command
  | region op => op.command
  | acl op => op.command
  | rule op => op.command
  | group op => op.command
  | binding op => op.command
  | pool op => op.command
  | activity op => op.command
  | query op => op.command

/-- The parameters of a command, for the resource that it acts on. -/
inductive CommandParams where
  | keyType (p : KeyTypeParams)
  | region (p : RegionParams)
  | acl (p : AclParams)
  | rule (p : RuleParams)
  | group (p : GroupParams)
  | binding (p : BindParams)
  | pool (p : PoolParams)
  | activity (p : ActivityParams)
  | query (p : QueryParams)
  deriving DecidableEq, Repr

/-- The operation that a command means for the resource of its parameters. -/
def Operation.ofCommand (cmd : AccessCommand) : CommandParams → Except AclError Operation
  | .keyType p => (KeyTypeOp.ofCommand cmd p).map keyType
  | .region p => (RegionOp.ofCommand cmd p).map region
  | .acl p => (AclOp.ofCommand cmd p).map acl
  | .rule p => (RuleOp.ofCommand cmd p).map rule
  | .group p => (GroupOp.ofCommand cmd p).map group
  | .binding p => (BindOp.ofCommand cmd p).map binding
  | .pool p => (PoolOp.ofCommand cmd p).map pool
  | .activity p => (ActivityOp.ofCommand cmd p).map activity
  | .query p => (ObjectQuery.ofCommand cmd p).map query

/-- The result of an operation. -/
inductive OpResult where
  /-- The raw handle of a new object. -/
  | created (raw : RawHandle)
  /-- The hardware size of a resized region. -/
  | resized (hwSize : Nat)
  | activity (bits : List Bool)
  | listing (page : Page RawHandle)
  | done
  deriving DecidableEq, Repr

namespace Controller

/-! ### Carrying operations out -/

/-- Carries out a change whose only result is that it is done. -/
def applyDone (s : Controller) (plan : Except AclError (Change Unit)) : Outcome OpResult :=
  (s.apply plan).map (fun () => .done)

/-- Carries out the creation of an object with a handle. -/
def applyCreate {kind : ObjectKind} (s : Controller)
    (plan : Except AclError (Change (Handle kind))) : Outcome OpResult :=
  (s.apply plan).map (fun id => .created id.raw)

/-- Carries out an operation on key types. -/
def executeKeyType (s : Controller) : KeyTypeOp → Outcome OpResult
  | .create fields hint => s.applyCreate (s.core.createKeyType fields hint)
  | .destroy id => s.applyDone (s.core.destroyKeyType id)

/-- Carries out an operation on regions. -/
def executeRegion (s : Controller) : RegionOp → Outcome OpResult
  | .create keyType capacity => s.applyCreate (s.core.createRegion keyType capacity)
  | .resize region capacity =>
    (s.apply (s.core.resizeRegion region capacity)).map .resized
  | .destroy region => s.applyDone (s.core.destroyRegion region)

/-- Carries out an operation on ACLs. -/
def executeAcl (s : Controller) : AclOp → Outcome OpResult
  | .create aclType direction bitmap regions =>
    s.applyCreate (s.core.createAcl aclType direction bitmap regions)
  | .edit acl regions bitmap => s.applyDone (s.core.editAcl acl regions bitmap)
  | .destroy acl => s.applyDone (s.core.destroyAcl acl)

/-- Carries out an operation on rules. -/
def executeRule (s : Controller) : RuleOp → Outcome OpResult
  | .set region offsets rules => s.applyDone (s.core.setRules region offsets rules)
  | .delete region offsets => s.applyDone (s.core.deleteRules region offsets)
  | .deleteAll region => s.applyDone (s.core.deleteAllRules region)
  | .move region block => s.applyDone (s.core.moveBlock region block.src block.size block.dst)
  | .shiftPriority region shift =>
    s.applyDone (s.core.shiftPriority region shift.low shift.high shift.delta)

/-- Carries out an operation on groups. -/
def executeGroup (s : Controller) : GroupOp → Outcome OpResult
  | .create direction => s.applyCreate (s.core.createGroup direction)
  | .set group acls => s.applyDone (s.core.setGroupAcls group acls)
  | .add group acl => s.applyDone (s.core.addGroupAcl group acl)
  | .delete group acl => s.applyDone (s.core.deleteGroupAcl group acl)
  | .chain parent child => s.applyDone (s.core.chainGroups parent child)
  | .unchain parent => s.applyDone (s.core.unchainGroup parent)
  | .setPriority group priority => s.applyDone (s.core.setGroupPriority group priority)
  | .destroy group => s.applyDone (s.core.destroyGroup group)

/-- Carries out an operation on bindings. -/
def executeBinding (s : Controller) : BindOp → Outcome OpResult
  | .bind key target => s.applyDone (s.core.bindTarget key target)
  | .unbind key => s.applyDone (s.core.unbind key)
  | .add key group => s.applyDone (s.core.bindAdd key group)
  | .delete key group => s.applyDone (s.core.bindDelete key group)

/-- Carries out an operation on pool entries. -/
def executePool (s : Controller) : PoolOp → Outcome OpResult
  | .create value =>
    (s.apply (s.core.createPoolEntry value)).map (fun entry => .created entry.ref.raw)
  | .edit entry value => s.applyDone (s.core.editPoolEntry entry value)
  | .add entry value => s.applyDone (s.core.addPoolMembers entry value)
  | .delete entry value => s.applyDone (s.core.deletePoolMembers entry value)
  | .destroy entry => s.applyDone (s.core.destroyPoolEntry entry)

/-- Carries out an operation on activity. -/
def executeActivity (s : Controller) : ActivityOp → Outcome OpResult
  | .read region offsets => (s.readActivity region offsets false).map .activity
  | .readClear region offsets => (s.readActivity region offsets true).map .activity

/-- Carries out an operation. -/
def execute (s : Controller) : Operation → Outcome OpResult
  | .keyType op => s.executeKeyType op
  | .region op => s.executeRegion op
  | .acl op => s.executeAcl op
  | .rule op => s.executeRule op
  | .group op => s.executeGroup op
  | .binding op => s.executeBinding op
  | .pool op => s.executePool op
  | .activity op => s.executeActivity op
  | .query op => ⟨(s.core.queryObjects op).map .listing, [], s⟩

end Controller

/-! ### Steps -/

/-- Something that happens to a controller. -/
inductive Step where
  | operation (op : Operation)
  | command (cmd : AccessCommand) (params : CommandParams)
  | addPbsPorts (id : Handle .pbs) (ports : List PortId)
  | deletePbsPorts (id : Handle .pbs) (ports : List PortId)
  | peekActivity (region : Handle .region) (offsets : List Nat)
  | subscribe (kind : EventKind)
  | unsubscribe (kind : EventKind)
  | failNext (op : DeviceOp) (status : DeviceStatus)
  | recordHit (region : Handle .region) (offset : Nat)
  deriving DecidableEq, Repr

namespace Controller

/-- What comes of a step. -/
def step (s : Controller) : Step → Outcome OpResult
  | .operation op => s.execute op
  | .command cmd params =>
    match Operation.ofCommand cmd params with
    | .ok op => s.execute op
    | .error e => ⟨.error e, [], s⟩
  | .addPbsPorts id ports => s.applyDone (s.core.addPbsPorts id ports)
  | .deletePbsPorts id ports => s.applyDone (s.core.deletePbsPorts id ports)
  | .peekActivity region offsets => (s.peekActivity region offsets).map .activity
  | .subscribe kind => ⟨.ok .done, [], s.subscribe kind⟩
  | .unsubscribe kind => ⟨.ok .done, [], s.unsubscribe kind⟩
  | .failNext op status => ⟨.ok .done, [], s.failNext op status⟩
  | .recordHit region offset => ⟨.ok .done, [], (s.recordHit region offset).2⟩

end Controller

end AclPlane
