import AclPlane.Operation
import AclPlane.Proofs.Fallible

/-!
Planning refuses.

The errors of a plan come from checks of the model: no plan fails with an error of the device or
with a count that would fall below zero.  There is one lemma for each check and each plan; the
plans of the operations come last, after the checks that they are made of.
-/

namespace AclPlane

attribute [simp] AclError.isRefusal

/-! ### Key types -/

/-- No cover comes out when there are no fields, a field or the hinted block is unknown, or the
blocks do not suffice. -/
@[simp] lemma KeyCover.refuses_compile (catalog : Catalog) (maxBlocks : ℕ) (fields : FieldSet)
    (first : Option KeyBlockId) : Refuses (compile catalog maxBlocks fields first) := by
  have hforced : Refuses (forcedBlock catalog maxBlocks first) := by
    unfold forcedBlock
    split
    · simp
    · split <;> simp
  rw [compile]
  split
  · simp
  · split
    · simp
    · simp only [refuses_bind, hforced, true_and]
      intro forced _
      split <;> simp

namespace KeyTypes

variable (k : KeyTypes) (id : Handle .keyType)

/-- The only error is that the handle names no key type. -/
@[simp] lemma refuses_lookup : Refuses (k.lookup id) := by
  rw [lookup]
  split <;> simp

@[simp] lemma refuses_get : Refuses (k.get id) := by
  simp [get]

/-- A new key type may find the store full. -/
@[simp] lemma refuses_register (kt : KeyType) : Refuses (k.register kt) := by
  rw [register]
  split <;> simp

/-- Interning compiles and registers at most, on either path, and both only refuse. -/
@[simp] lemma refuses_intern (catalog : Catalog) (fields : List BasicKey)
    (hint : Option KeyBlockId) : Refuses (k.intern catalog fields hint) := by
  unfold intern
  split
  · rw [internAny]
    split <;> simp
  · rw [internHinted]
    split
    · simp
    · simp only [refuses_bind, KeyCover.refuses_compile, true_and]
      intro blocks _
      split <;> simp

/-- A key type in use is not destroyed; its count is looked at and not changed. -/
@[simp] lemma refuses_destroy : Refuses (k.destroy id) := by
  simp only [destroy, refuses_bind, refuses_lookup, true_and]
  intro kt _
  split
  · simp
  · split <;> simp

end KeyTypes

/-! ### Regions and rule tables -/

namespace RuleTable

variable (t : RuleTable)

/-- An offset may lie beyond the capacity. -/
@[simp] lemma refuses_checkOffset (offset : ℕ) : Refuses (t.checkOffset offset) := by
  rw [checkOffset]
  split <;> simp

/-- A block may have no slots, or slots beyond the capacity at either end. -/
@[simp] lemma refuses_checkBlock (src size dst : ℕ) : Refuses (t.checkBlock src size dst) := by
  have hspan : ∀ start, Refuses (t.checkSpan size start) := by
    intro start
    rw [checkSpan]
    split <;> simp
  simp [checkBlock, hspan]

/-- A shift is refused for its band, or for a new priority that is out of bounds or taken. -/
@[simp] lemma refuses_planShift (low high : ℕ) (delta : ℤ) (bounds : PriorityRange) :
    Refuses (t.planShift low high delta bounds) := by
  have hshifted : ∀ fixed priority, Refuses (shifted fixed delta bounds priority) := by
    intro fixed priority
    rw [shifted]
    split
    · simp
    · split <;> simp
  rw [planShift]
  split
  · simp
  · refine refuses_mapM (fun e => ?_) _
    simp [hshifted]

end RuleTable

namespace Regions

variable (rs : Regions) (id : Handle .region)

/-- The only error is that the handle names no region. -/
@[simp] lemma refuses_get : Refuses (rs.get id) := by
  rw [get]
  split <;> simp

/-- A capacity may be zero, beyond the limit, or too large to be rounded up in 32 bits. -/
@[simp] lemma refuses_hwSizeFor (capacity : ℕ) : Refuses (rs.hwSizeFor capacity) := by
  simp [hwSizeFor]

/-- Rows that are not in use cannot be given back, and those that are needed must fit the budget. -/
@[simp] lemma refuses_checkBudget (released needed : ℕ) :
    Refuses (rs.checkBudget released needed) := by
  simp [checkBudget]

/-- A new region is refused for its capacity, for the budget, or because the store is full. -/
@[simp] lemma refuses_planCreate (width capacity : ℕ) : Refuses (rs.planCreate width capacity) := by
  simp only [planCreate, refuses_bind, refuses_hwSizeFor, refuses_checkBudget, true_and]
  intro hwSize _ _ _
  split <;> simp

/-- A region is not resized below its highest rule. -/
@[simp] lemma refuses_planResize (capacity : ℕ) : Refuses (rs.planResize id capacity) := by
  simp only [planResize, refuses_bind, refuses_get, refuses_hwSizeFor, true_and]
  intro r _ hwSize _
  split <;> simp

end Regions

/-! ### ACLs and groups -/

namespace Acls

variable (s : Acls) (rs : Regions)

@[simp] lemma refuses_get (id : Handle .acl) : Refuses (s.get id) := by
  rw [get]
  split <;> simp

/-- A list of regions may be empty, name a region that is not live, or name one twice. -/
@[simp] lemma refuses_checkRegions (regions : List (Handle .region)) :
    Refuses (checkRegions rs regions) := by
  have hfrom : ∀ seen, Refuses (checkRegionsFrom rs seen regions) := by
    induction regions with
    | nil => simp [checkRegionsFrom]
    | cons r regions ih => simp [checkRegionsFrom, ih]
  rw [checkRegions]
  split
  · simp
  · exact hfrom []

/-- A new ACL is refused for its bitmap, for its regions, or because the store is full. -/
@[simp] lemma refuses_planCreate (direction : Direction) (bitmap : DirectionSet)
    (regions : List (Handle .region)) : Refuses (s.planCreate rs direction bitmap regions) := by
  cases hn : s.acls.nextHandle? with
  | none => simp [planCreate, hn]
  | some id => simp [planCreate, hn]

/-- An edit is refused for the regions, or for a bitmap that cannot be set any more. -/
@[simp] lemma refuses_planEdit (id : Handle .acl) (regions : List (Handle .region))
    (bitmap : DirectionSet) : Refuses (s.planEdit rs id regions bitmap) := by
  simp [planEdit]

end Acls

namespace Groups

variable (gs : Groups) (store : Acls) (group : Handle .group)

@[simp] lemma refuses_get : Refuses (gs.get group) := by
  rw [get]
  split <;> simp

/-- A new group is refused for its direction, or because the store is full. -/
@[simp] lemma refuses_planCreate (direction : Direction) : Refuses (gs.planCreate direction) := by
  cases hn : gs.groups.nextHandle? with
  | none => simp [planCreate, hn]
  | some id => simp [planCreate, hn]

/-- Members may be too many, not live, listed twice, or unable to serve in the direction. -/
@[simp] lemma refuses_checkMembers (acls : List (Handle .acl)) :
    Refuses (gs.checkMembers store group acls) := by
  have hfrom : ∀ direction seen, Refuses (checkMembersFrom store group direction seen acls) := by
    intro direction
    induction acls with
    | nil => simp [checkMembersFrom]
    | cons a acls ih => simp [checkMembersFrom, ih]
  simp [checkMembers, hfrom]

/-- An addition is checked as the whole list that it makes. -/
@[simp] lemma refuses_planAdd (acl : Handle .acl) : Refuses (gs.planAdd store group acl) := by
  simp [planAdd]

/-- Only a member can be taken out. -/
@[simp] lemma refuses_planDelete (acl : Handle .acl) : Refuses (gs.planDelete group acl) := by
  simp [planDelete]

/-- A chain is refused for its ends, their directions, a bound child, or the cycle it would make. -/
@[simp] lemma refuses_planChain (bound : Handle .group → Bool) (parent child : Handle .group) :
    Refuses (gs.planChain bound parent child) := by
  simp only [planChain, refuses_bind, refuses_get, true_and]
  intro p _ c _
  split
  · simp
  · split
    · simp
    · split <;> simp

/-- A priority may lie outside the range of the configuration. -/
@[simp] lemma refuses_setPriority (priority : ℕ) : Refuses (gs.setPriority group priority) := by
  simp [setPriority]

end Groups

/-! ### Pools -/

namespace Pool

variable {kind : ObjectKind} {α : Type} (p : Pool kind α) (id : Handle kind)

/-- The only error is that the handle names no entry. -/
@[simp] lemma refuses_lookup : Refuses (p.lookup id) := by
  rw [lookup]
  split <;> simp

@[simp] lemma refuses_get : Refuses (p.get id) := by
  simp [get]

/-- A pool may be full. -/
@[simp] lemma refuses_insert (value : α) : Refuses (p.insert value) := by
  rw [insert]
  split <;> simp

/-- Only an entry that is there gets another value. -/
@[simp] lemma refuses_set (value : α) : Refuses (p.set id value) := by
  simp [set]

/-- An entry may be referred to. -/
@[simp] lemma refuses_checkFree : Refuses (p.checkFree id) := by
  simp [checkFree]

/-- An entry that is referred to stays.  Its count is looked at and not changed. -/
@[simp] lemma refuses_remove : Refuses (p.remove id) := by
  simp only [remove, refuses_bind, refuses_checkFree, true_and]
  intro _ _
  split <;> simp

/-- The first handle that names no entry is the error. -/
@[simp] lemma refuses_checkAll (ids : List (Handle kind)) : Refuses (p.checkAll ids) := by
  rw [checkAll]
  split <;> simp

end Pool

namespace Pools

variable (p : Pools) (entry : PoolEntry) (value : PoolValue)

/-- References are checked kind by kind, and the first that names no entry is the error. -/
@[simp] lemma refuses_checkRefs (refs : PoolRefs) : Refuses (p.checkRefs refs) := by
  simp [checkRefs]

/-- A port group may be empty or list a port twice; no other destination is refused. -/
@[simp] lemma refuses_pbs_check (destination : PbsDestination) : Refuses destination.check := by
  unfold PbsDestination.check
  split
  · split
    · simp
    · split <;> simp
  · simp

/-- An interval may be inverted or go beyond its field. -/
@[simp] lemma refuses_range_check (r : RangeComparator) : Refuses r.check := by
  simp [RangeComparator.check]

/-- A set of custom bytes may have a bad size or reach too far. -/
@[simp] lemma refuses_customBytes_check (s : CustomByteSet) : Refuses s.check := by
  simp [CustomByteSet.check]

/-- Comparators on custom bytes have a limit of their own. -/
@[simp] lemma refuses_checkCustomBytes (pool : RangePool) (r : RangeComparator)
    (except : Option (Handle .range)) : Refuses (pool.checkCustomBytes r except) := by
  rw [RangePool.checkCustomBytes]
  split <;> simp

/-- A port may be listed twice. -/
@[simp] lemma refuses_unique (ports : List PortId) : Refuses (PortListPool.unique ports) := by
  rw [PortListPool.unique]
  split <;> simp

/-- A VLAN number may lie outside 1 to 4094. -/
@[simp] lemma refuses_checkVlans (vlans : List UInt16) :
    Refuses (VlanGroupPool.checkVlans vlans) := by
  rw [VlanGroupPool.checkVlans]
  split <;> simp

/-- A destination may have an entry already. -/
@[simp] lemma refuses_pbs_create (pool : PbsPool) (destination : PbsDestination) :
    Refuses (PbsPool.create pool destination) := by
  simp only [PbsPool.create, refuses_bind, refuses_pbs_check, true_and]
  intro _ _
  split <;> simp

/-- An entry may be no port group. -/
@[simp] lemma refuses_portGroup (pool : PbsPool) (id : Handle .pbs) :
    Refuses (PbsPool.portGroup pool id) := by
  simp only [PbsPool.portGroup, refuses_bind, Pool.refuses_get, true_and]
  intro _ _
  split <;> simp

/-- Ports can be added to any port group: those it has are passed over. -/
@[simp] lemma refuses_addPorts (pool : PbsPool) (id : Handle .pbs) (ports : List PortId) :
    Refuses (PbsPool.addPorts pool id ports) := by
  simp [PbsPool.addPorts]

/-- Only ports of the group are taken out, and not the last one. -/
@[simp] lemma refuses_deletePorts (pool : PbsPool) (id : Handle .pbs) (ports : List PortId) :
    Refuses (PbsPool.deletePorts pool id ports) := by
  simp only [PbsPool.deletePorts, refuses_bind, refuses_portGroup, true_and]
  intro _ _
  split <;> simp

/-- A new entry of any kind is refused for its value, or because its pool is full. -/
@[simp] lemma refuses_create : Refuses (p.create value) := by
  cases value with
  | pbs destination => simp [create]
  | range r => simp [create, RangePool.create]
  | customBytes s => simp [create, CustomBytesPool.create]
  | portList ports => simp [create, PortListPool.create]
  | vlanGroup vlans => simp [create, VlanGroupPool.create]

/-- An edit is refused for the value, or because the entry is of another kind or a VLAN group. -/
@[simp] lemma refuses_edit : Refuses (p.edit entry value) := by
  unfold edit
  split
  · simp [PbsPool.edit]
  · simp [RangePool.edit]
  · simp [CustomBytesPool.edit]
  · simp [PortListPool.replace]
  · simp
  · simp

/-- Members are added to port lists and VLAN groups only. -/
@[simp] lemma refuses_add : Refuses (p.add entry value) := by
  unfold add
  split
  · simp [PortListPool.add]
  · simp [VlanGroupPool.add]
  · simp

/-- Members are taken out of port lists and VLAN groups only, and only those that are in it. -/
@[simp] lemma refuses_delete : Refuses (p.delete entry value) := by
  unfold delete
  split
  · simp only [PortListPool.delete, refuses_bind, Pool.refuses_get, true_and]
    refine ⟨fun _ _ => ?_, by simp⟩
    split <;> simp
  · simp only [VlanGroupPool.delete, refuses_bind, Pool.refuses_get, true_and]
    refine ⟨fun _ _ => ?_, by simp⟩
    split <;> simp
  · simp

/-- An entry of any kind is destroyed as its pool removes it. -/
@[simp] lemma refuses_destroy : Refuses (p.destroy entry) := by
  cases entry <;> simp [destroy]

end Pools

/-! ### Rules and bindings -/

/-- A rule is refused for its priority, or for the first key or action that is bad or repeated. -/
@[simp] lemma Rule.refuses_check (r : Rule) (fields : FieldSet) (bounds : PriorityRange) :
    Refuses (r.check fields bounds) := by
  have hkeys : ∀ seen keys, Refuses (checkKeys fields seen keys) := by
    intro seen keys
    induction keys generalizing seen with
    | nil => simp [checkKeys]
    | cons k keys ih => simp [checkKeys, ih]
  have haction : ∀ a : Action, Refuses a.check := by
    intro a
    unfold Action.check
    split
    · split <;> simp
    · split <;> simp
    · split <;> simp
    · split <;> simp
    · simp
  have hactions : ∀ seen actions, Refuses (checkActions seen actions) := by
    intro seen actions
    induction actions generalizing seen with
    | nil => simp [checkActions]
    | cons a actions ih => simp [checkActions, ih, haction]
  simp [check, hkeys, hactions]

namespace Bindings

variable (b : Bindings) (key : BindingKey)

/-- A point may not support the direction. -/
@[simp] lemma refuses_checkPoint : Refuses (checkPoint key) := by
  simp [checkPoint]

/-- A chain of groups cannot join an ACL that is bound by itself. -/
@[simp] lemma refuses_planAdd (entry : BoundEntry) : Refuses (b.planAdd key entry) := by
  rw [planAdd]
  split
  · simp
  · split <;> simp

/-- Only a chain that is bound on the key is taken out. -/
@[simp] lemma refuses_planDelete (group : Handle .group) : Refuses (b.planDelete key group) := by
  have hbound : Refuses (b.bound key) := by
    rw [bound]
    split <;> simp
  simp [planDelete, hbound]

end Bindings

end AclPlane
