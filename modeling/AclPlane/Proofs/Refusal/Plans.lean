import AclPlane.Proofs.Refusal.Checks

/-!
Plans of operations refuse.

The error of a plan is that of one of its checks.  So the operation that an error ends has been
refused: it does not speak of the device, which has not been called.

* `Core.refuses_setRules` and its like, one for each operation on the model.
* `Core.refuses_queryObjects`, `Operation.refuses_ofCommand`: neither a query nor the reading of a
  command speaks of the device.
-/

namespace AclPlane

namespace Core

variable (c : Core)

/-! ### Key types and pools -/

/-- A key type is created as it is interned. -/
@[simp] lemma refuses_createKeyType (fields : List BasicKey) (hint : Option KeyBlockId) :
    Refuses (c.createKeyType fields hint) := by
  simp [createKeyType]

@[simp] lemma refuses_destroyKeyType (id : Handle .keyType) : Refuses (c.destroyKeyType id) := by
  simp [destroyKeyType]

/-- A plan that puts changed pools into the model refuses just as the change itself does. -/
@[simp] lemma refuses_withPools {pools : Except AclError Pools} :
    Refuses (c.withPools pools) ↔ Refuses pools := by
  simp [withPools]

/-- A pool entry is refused by its own pool. -/
@[simp] lemma refuses_createPoolEntry (value : PoolValue) : Refuses (c.createPoolEntry value) := by
  simp [createPoolEntry]

@[simp] lemma refuses_editPoolEntry (entry : PoolEntry) (value : PoolValue) :
    Refuses (c.editPoolEntry entry value) := by
  simp [editPoolEntry]

@[simp] lemma refuses_addPoolMembers (entry : PoolEntry) (value : PoolValue) :
    Refuses (c.addPoolMembers entry value) := by
  simp [addPoolMembers]

@[simp] lemma refuses_deletePoolMembers (entry : PoolEntry) (value : PoolValue) :
    Refuses (c.deletePoolMembers entry value) := by
  simp [deletePoolMembers]

/-- The ports of a PBS entry are changed by a step of its own, whose plan refuses too. -/
@[simp] lemma refuses_addPbsPorts (id : Handle .pbs) (ports : List PortId) :
    Refuses (c.addPbsPorts id ports) := by
  simp [addPbsPorts]

@[simp] lemma refuses_deletePbsPorts (id : Handle .pbs) (ports : List PortId) :
    Refuses (c.deletePbsPorts id ports) := by
  simp [deletePbsPorts]

/-- An entry that is referred to is not destroyed. -/
@[simp] lemma refuses_destroyPoolEntry (entry : PoolEntry) :
    Refuses (c.destroyPoolEntry entry) := by
  simp [destroyPoolEntry]

/-! ### Regions and rules -/

variable (region : Handle .region)

/-- A region is refused for its key type or by the store of regions.  The commit, which counts, is
no part of the plan. -/
@[simp] lemma refuses_createRegion (keyType : Handle .keyType) (capacity : ℕ) :
    Refuses (c.createRegion keyType capacity) := by
  simp [createRegion]

@[simp] lemma refuses_resizeRegion (capacity : ℕ) : Refuses (c.resizeRegion region capacity) := by
  simp [resizeRegion]

/-- A region that some ACL searches is not destroyed. -/
@[simp] lemma refuses_destroyRegion : Refuses (c.destroyRegion region) := by
  cases hn : c.acls.userOf? region with
  | none => simp [destroyRegion, hn]
  | some acl => simp [destroyRegion, hn]

/-- The first pair of a batch whose offset or rule is refused refuses the batch. -/
@[simp] lemma refuses_checkBatch (t : RuleTable) (fields : FieldSet) (bounds : PriorityRange)
    (seen : List ℕ) (batch : List (ℕ × Rule)) :
    Refuses (checkBatch t fields bounds seen batch) := by
  induction batch generalizing seen with
  | nil => simp [checkBatch]
  | cons e batch ih => simp [checkBatch, ih]

/-- Rules are checked one and all before any is stored; the references they hold are looked up and
not yet counted. -/
@[simp] lemma refuses_setRules (offsets : List ℕ) (rules : List Rule) :
    Refuses (c.setRules region offsets rules) := by
  simp [setRules]

/-- Every listed offset is checked, occupied or not. -/
@[simp] lemma refuses_occupiedOffsets (t : RuleTable) (offsets : List ℕ) :
    Refuses (occupiedOffsets t offsets) := by
  have hchecks := refuses_forM t.refuses_checkOffset offsets
  simp only [occupiedOffsets, refuses_bind, refuses_pure, implies_true, and_true]
  exact hchecks

/-- A deletion is refused for its region, or for an offset beyond the capacity. -/
@[simp] lemma refuses_deleteRules (offsets : List ℕ) : Refuses (c.deleteRules region offsets) := by
  simp [deleteRules]

@[simp] lemma refuses_deleteAllRules : Refuses (c.deleteAllRules region) := by
  simp [deleteAllRules]

/-- A move is refused for the bounds of its block. -/
@[simp] lemma refuses_moveBlock (src size dst : ℕ) : Refuses (c.moveBlock region src size dst) := by
  simp [moveBlock]

/-- A shift is refused as its table plans it. -/
@[simp] lemma refuses_shiftPriority (low high : ℕ) (delta : ℤ) :
    Refuses (c.shiftPriority region low high delta) := by
  simp [shiftPriority]

/-! ### ACLs and groups -/

variable (acl : Handle .acl) (group : Handle .group)

/-- An ACL is refused for its bitmap or its regions, or because the store is full. -/
@[simp] lemma refuses_createAcl (aclType : AclType) (direction : Direction)
    (bitmap : DirectionSet) (regions : List (Handle .region)) :
    Refuses (c.createAcl aclType direction bitmap regions) := by
  simp [createAcl]

@[simp] lemma refuses_editAcl (regions : List (Handle .region)) (bitmap : DirectionSet) :
    Refuses (c.editAcl acl regions bitmap) := by
  simp [editAcl]

/-- An ACL that a group lists or a binding targets is not destroyed. -/
@[simp] lemma refuses_destroyAcl : Refuses (c.destroyAcl acl) := by
  cases hn : c.groups.holderOf? acl with
  | none => simp [destroyAcl, hn]
  | some group => simp [destroyAcl, hn]

@[simp] lemma refuses_createGroup (direction : Direction) : Refuses (c.createGroup direction) := by
  simp [createGroup]

/-- Members that have been checked are programmed if the group is live. -/
@[simp] lemma refuses_programMembers (acls : List (Handle .acl)) :
    Refuses (c.programMembers group acls) := by
  simp [programMembers]

@[simp] lemma refuses_setGroupAcls (acls : List (Handle .acl)) :
    Refuses (c.setGroupAcls group acls) := by
  simp [setGroupAcls]

/-- Whether the ACL is a member already or not, only its checks can fail. -/
@[simp] lemma refuses_addGroupAcl : Refuses (c.addGroupAcl group acl) := by
  simp only [addGroupAcl, refuses_bind, Groups.refuses_planAdd, true_and]
  intro planned _
  split <;> simp

@[simp] lemma refuses_deleteGroupAcl : Refuses (c.deleteGroupAcl group acl) := by
  simp [deleteGroupAcl]

/-- A group follows another as far as the check of both allows it. -/
@[simp] lemma refuses_chainGroups (parent child : Handle .group) :
    Refuses (c.chainGroups parent child) := by
  simp [chainGroups]

/-- A group may have no successor. -/
@[simp] lemma refuses_unchainGroup : Refuses (c.unchainGroup group) := by
  simp [unchainGroup]

/-- A priority may lie outside its range; the device is not asked. -/
@[simp] lemma refuses_setGroupPriority (priority : ℕ) :
    Refuses (c.setGroupPriority group priority) := by
  simp [setGroupPriority]

/-- A group in a bound chain, or one that follows another, is not destroyed. -/
@[simp] lemma refuses_destroyGroup : Refuses (c.destroyGroup group) := by
  cases hn : c.groups.parentOf? group with
  | none => simp [destroyGroup, hn]
  | some parent => simp [destroyGroup, hn]

/-! ### Bindings -/

variable (key : BindingKey)

/-- A key is refused for its direction, or for a VLAN group that is not live. -/
@[simp] lemma refuses_checkBindingKey : Refuses (c.checkBindingKey key) := by
  simp only [checkBindingKey, refuses_bind, Bindings.refuses_checkPoint, true_and]
  intro _ _
  split <;> simp

/-- A target may not be live, not serve the direction, or not be the head of its chain. -/
@[simp] lemma refuses_targetPriority (direction : Direction) (target : BindTarget) :
    Refuses (c.targetPriority direction target) := by
  cases target with
  | acl id => simp [targetPriority]
  | group id =>
      cases hn : c.groups.parentOf? id with
      | none => simp [targetPriority, hn]
      | some parent => simp [targetPriority, hn]

/-- A binding is refused for its key or its target. -/
@[simp] lemma refuses_bindTarget (target : BindTarget) : Refuses (c.bindTarget key target) := by
  simp [bindTarget]

/-- A key may carry no binding. -/
@[simp] lemma refuses_unbind : Refuses (c.unbind key) := by
  simp [unbind]

/-- Whether the chain is bound already or not, only its checks can fail. -/
@[simp] lemma refuses_bindAdd : Refuses (c.bindAdd key group) := by
  simp only [bindAdd, refuses_bind, refuses_checkBindingKey, refuses_targetPriority,
    Bindings.refuses_planAdd, true_and]
  intro _ _ _ _ planned _
  split <;> simp

/-- The chain must be bound on the key. -/
@[simp] lemma refuses_bindDelete : Refuses (c.bindDelete key group) := by
  simp [bindDelete]

/-! ### Reading -/

/-- A reading is refused for its region, which a binding must reach, or for an offset. -/
@[simp] lemma refuses_checkActivity (offsets : List ℕ) :
    Refuses (c.checkActivity region offsets) := by
  simp only [checkActivity, refuses_bind, Regions.refuses_get, true_and]
  intro r _
  refine ⟨refuses_forM r.table.refuses_checkOffset offsets, ?_⟩
  simp

/-- The key of a query must be a handle. -/
lemma refuses_typed (kind : ObjectKind) (q : Query RawHandle) :
    Refuses (ObjectQuery.typed kind q) := by
  cases q with
  | count => exact refuses_ok _
  | get raw =>
      simp only [ObjectQuery.typed, Query.mapKeyM, refuses_map]
      split <;> simp
  | first n => exact refuses_ok _
  | next after n =>
      simp only [ObjectQuery.typed, Query.mapKeyM, refuses_map]
      split <;> simp

/-- A listing refuses if it does so on every query that its handles make. -/
lemma refuses_listing {kind : ObjectKind} (q : Query RawHandle)
    {run : Query (Handle kind) → Except AclError (Page (Handle kind))}
    (hrun : ∀ q, Refuses (run q)) : Refuses (listing q run) := by
  simp [listing, refuses_typed, hrun]

/-- A query may ask for an object that is not live, whatever the kind. -/
@[simp] lemma refuses_queryObjects (q : ObjectQuery) : Refuses (c.queryObjects q) := by
  rw [queryObjects]
  split <;> refine refuses_listing _ fun q => ?_
  · rw [KeyTypes.query]
    split <;> simp
  · rw [Regions.query]
    split <;> simp
  · rw [Acls.query]
    split <;> simp
  · rw [Groups.query]
    split <;> simp
  all_goals
    rw [Pool.query]
    split <;> simp

end Core

/-! ### Commands -/

/-- A parameter may be missing. -/
@[simp] lemma Command.refuses_required {α : Type} (cmd : AccessCommand) (p : Parameter)
    (value : Option α) : Refuses (required cmd p value) := by
  cases value <;> simp [required]

/-- An edit of rules must choose between a move and a shift. -/
lemma RuleOp.refuses_ofCommand (cmd : AccessCommand) (p : RuleParams) :
    Refuses (ofCommand cmd p) := by
  unfold ofCommand
  dsimp only
  split
  · simp
  · simp
  · simp
  · split <;> simp
  · simp

/-- Just one ACL must be named. -/
lemma GroupOp.refuses_singleAcl (cmd : AccessCommand) (acls : List (Handle .acl)) :
    Refuses (singleAcl cmd acls) := by
  unfold singleAcl
  split <;> simp

/-- The target of an addition or a removal must be a group. -/
lemma BindOp.refuses_targetGroup (cmd : AccessCommand) (p : BindParams) :
    Refuses (targetGroup cmd p) := by
  simp only [targetGroup, refuses_bind, Command.refuses_required, true_and]
  intro target _
  split <;> simp

/-- Reading a command only refuses. -/
lemma Operation.refuses_ofCommand (cmd : AccessCommand) (params : CommandParams) :
    Refuses (ofCommand cmd params) := by
  cases params with
  | keyType p => cases cmd <;> simp [ofCommand, KeyTypeOp.ofCommand]
  | region p => cases cmd <;> simp [ofCommand, RegionOp.ofCommand]
  | acl p => cases cmd <;> simp [ofCommand, AclOp.ofCommand]
  | rule p => simp [ofCommand, RuleOp.refuses_ofCommand]
  | group p => cases cmd <;> simp [ofCommand, GroupOp.ofCommand, GroupOp.refuses_singleAcl]
  | binding p =>
      cases cmd <;>
        simp [ofCommand, BindOp.ofCommand, BindOp.bindingKey, BindOp.refuses_targetGroup]
  | pool p => cases cmd <;> simp [ofCommand, PoolOp.ofCommand]
  | activity p => cases cmd <;> simp [ofCommand, ActivityOp.ofCommand]
  | query p => cases cmd <;> simp [ofCommand, ObjectQuery.ofCommand]

end AclPlane
