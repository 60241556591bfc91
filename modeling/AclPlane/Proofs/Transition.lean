import AclPlane.Operation
import AclPlane.Proofs.Fallible

/-!
What a step can do to the model, said once.

`Core.Transition` lists every change of the model, with the checks that it has passed and the model
that it leaves behind; invariants of the model are proved by cases over it.
-/

namespace AclPlane

/-- Whether an operation only reads. -/
def Operation.isReading : Operation → Bool
  | activity _ => true
  | query _ => true
  | _ => false

namespace Core

/-! ### The transitions -/

/-- The model after a key has got other entries. -/
def rebound (c : Core) (key : BindingKey) (list : List BoundEntry) (pools : Pools)
    (stats : Stats) : Core :=
  { c with pools := pools, bindings := c.bindings.commit key list, stats := stats }

/-- The model after a region has got other rules. -/
def withTable (c : Core) (region : Handle .region) (table : RuleTable) : Core :=
  { c with regions := c.regions.setTable region table }

/-- The model after a group has been replaced. -/
def withGroup (c : Core) (id : Handle .group) (g : Group) : Core :=
  { c with groups := { c.groups with groups := c.groups.groups.set id g } }

/-- The changes of the model.  A change that no operation asks for is marked by none. -/
inductive Transition (c : Core) : Option Operation → Commit OpResult → Prop where
  /-- Something is read, or something happens outside the model. -/
  | observe {op : Option Operation} {events : List Event} {result : OpResult}
      (reading : ∀ o ∈ op, o.isReading = true) : Transition c op ⟨c, events, result⟩
  | createKeyType {fields : List BasicKey} {hint : Option KeyBlockId} {id : Handle .keyType}
      {keyTypes : KeyTypes}
      (found : c.keyTypes.intern c.catalog fields hint = .ok (id, keyTypes)) :
      Transition c (some (.keyType (.create fields hint)))
        ⟨{ c with
          keyTypes := keyTypes
          stats := { c.stats with keyTypesCreated := c.stats.keyTypesCreated +
            if c.keyTypes.size < keyTypes.size then 1 else 0 } }, [], .created id.raw⟩
  | destroyKeyType {id : Handle .keyType} {keyTypes : KeyTypes}
      (destroyed : c.keyTypes.destroy id = .ok keyTypes) :
      Transition c (some (.keyType (.destroy id)))
        ⟨{ c with keyTypes := keyTypes }, [.objectDeleted id.ref], .done⟩
  | createRegion {keyType : Handle .keyType} {capacity hwSize : ℕ} {ct : Counted KeyType}
      {id : Handle .region} {regions : Arena .region Region} {keyTypes : KeyTypes}
      (found : c.keyTypes.types.get? keyType = some ct)
      (planned : c.regions.planCreate ct.value.width capacity = .ok (id, hwSize))
      (inserted : c.regions.regions.insertWith?
        (fun _ => ⟨keyType, ct.value.width, capacity, hwSize, RuleTable.empty capacity⟩) =
          some (id, regions))
      (counted : c.keyTypes.acquire keyType = .ok keyTypes) :
      Transition c (some (.region (.create keyType capacity)))
        ⟨{ c with
          keyTypes := keyTypes
          regions := { c.regions with
            regions := regions
            hwUsed := c.regions.hwUsed + Region.rowCost hwSize ct.value.width }
          stats := { c.stats with regionsCreated := c.stats.regionsCreated + 1 } },
          [], .created id.raw⟩
  | resizeRegion {id : Handle .region} {r : Region} {capacity hwSize : ℕ} {table : RuleTable}
      (found : c.regions.regions.get? id = some r)
      (planned : c.regions.planResize id capacity = .ok hwSize)
      (resized : r.table.resize capacity = .ok table) :
      Transition c (some (.region (.resize id capacity)))
        ⟨{ c with regions := { c.regions with
            regions := c.regions.regions.set id
              { r with capacity := capacity, hwSize := hwSize, table := table }
            hwUsed := c.regions.hwUsed - r.cost + Region.rowCost hwSize r.width } },
          [.regionResized id hwSize], .resized hwSize⟩
  | destroyRegion {id : Handle .region} {r : Region} {regions : Arena .region Region}
      {keyTypes : KeyTypes} {pools : Pools}
      (unused : c.acls.userOf? id = none)
      (removed : c.regions.regions.remove? id = some (r, regions))
      (uncounted : c.keyTypes.release r.keyType = .ok keyTypes)
      (released : c.pools.release r.table.refs = .ok pools) :
      Transition c (some (.region (.destroy id)))
        ⟨{ c with
          keyTypes := keyTypes
          regions := { c.regions with regions := regions, hwUsed := c.regions.hwUsed - r.cost }
          pools := pools
          stats := { c.stats with regionsDestroyed := c.stats.regionsDestroyed + 1 } },
          [.objectDeleted id.ref], .done⟩
  | createAcl {aclType : AclType} {direction : Direction} {bitmap : DirectionSet}
      {regions : List (Handle .region)} {id : Handle .acl} {acls : Arena .acl Acl}
      (planned : c.acls.planCreate c.regions direction bitmap regions = .ok id)
      (inserted : c.acls.acls.insertWith? (fun _ => ⟨aclType, direction, bitmap, regions⟩) =
        some (id, acls)) :
      Transition c (some (.acl (.create aclType direction bitmap regions)))
        ⟨{ c with acls := ⟨acls⟩ }, [], .created id.raw⟩
  | editAcl {id : Handle .acl} {regions : List (Handle .region)} {asked bitmap : DirectionSet}
      {a : Acl} (found : c.acls.acls.get? id = some a)
      (planned : c.acls.planEdit c.regions id regions asked = .ok bitmap) :
      Transition c (some (.acl (.edit id regions asked)))
        ⟨{ c with acls := ⟨c.acls.acls.set id { a with regions := regions, bitmap := bitmap }⟩ },
          [], .done⟩
  | destroyAcl {id : Handle .acl} {a : Acl} {acls : Arena .acl Acl}
      (unlisted : c.groups.holderOf? id = none) (unbound : c.bindings.isBound (.acl id) = false)
      (removed : c.acls.acls.remove? id = some (a, acls)) :
      Transition c (some (.acl (.destroy id)))
        ⟨{ c with acls := ⟨acls⟩ }, [.objectDeleted id.ref], .done⟩
  | setRules {region : Handle .region} {r : Region} {offsets : List ℕ} {rules replaced : List Rule}
      {ct : Counted KeyType} {acquired pools : Pools} {table : RuleTable}
      (found : c.regions.regions.get? region = some r)
      (lengths : offsets.length = rules.length)
      (typed : c.keyTypes.types.get? r.keyType = some ct)
      (checked : checkBatch r.table ct.value.fields c.config.rulePriority []
        (offsets.zip rules) = .ok ())
      (live : c.pools.checkRefs (PoolRefs.concat (rules.map Rule.refs)) = .ok ())
      (taken : c.pools.acquire (PoolRefs.concat (rules.map Rule.refs)) = .ok acquired)
      (stored : r.table.setAll (offsets.zip rules) = .ok (replaced, table))
      (released : acquired.release (PoolRefs.concat (replaced.map Rule.refs)) = .ok pools) :
      Transition c (some (.rule (.set region offsets rules)))
        ⟨{ c.withTable region table with
          pools := pools
          stats := { c.stats with rulesSet := c.stats.rulesSet + rules.length } }, [], .done⟩
  | setNoRules {region : Handle .region} {r : Region} {offsets : List ℕ}
      (found : c.regions.regions.get? region = some r) :
      Transition c (some (.rule (.set region offsets []))) ⟨c, [], .done⟩
  | deleteRules {op : RuleOp} {region : Handle .region} {r : Region} {offsets occupied : List ℕ}
      {cleared : List Rule} {pools : Pools} {table : RuleTable}
      (found : c.regions.regions.get? region = some r)
      (asked : op = .delete region offsets ∨
        op = .deleteAll region ∧ offsets = r.table.occupied.map Prod.fst)
      (listed : occupiedOffsets r.table offsets = .ok occupied)
      (emptied : r.table.clearAll occupied = .ok (cleared, table))
      (released : c.pools.release (PoolRefs.concat (cleared.map Rule.refs)) = .ok pools) :
      Transition c (some (.rule op))
        ⟨{ c.withTable region table with
          pools := pools
          stats := { c.stats with rulesDeleted := c.stats.rulesDeleted + occupied.length } },
          [], .done⟩
  | deleteNoRules {op : RuleOp} {region : Handle .region} {r : Region} {offsets : List ℕ}
      (found : c.regions.regions.get? region = some r)
      (asked : op = .delete region offsets ∨
        op = .deleteAll region ∧ offsets = r.table.occupied.map Prod.fst)
      (listed : occupiedOffsets r.table offsets = .ok []) :
      Transition c (some (.rule op)) ⟨c, [], .done⟩
  | moveBlock {region : Handle .region} {r : Region} {block : BlockMove} {table : RuleTable}
      (found : c.regions.regions.get? region = some r)
      (moved : r.table.moveBlock block.src block.size block.dst = .ok table) :
      Transition c (some (.rule (.move region block))) ⟨c.withTable region table, [], .done⟩
  | shiftPriority {region : Handle .region} {r : Region} {shift : PriorityShift}
      {updates : List (ℕ × ℕ)} (found : c.regions.regions.get? region = some r)
      (planned : r.table.planShift shift.low shift.high shift.delta c.config.rulePriority =
        .ok updates) :
      Transition c (some (.rule (.shiftPriority region shift)))
        ⟨c.withTable region (r.table.setPriorities updates), [], .done⟩
  | shiftNothing {region : Handle .region} {r : Region} {shift : PriorityShift}
      (found : c.regions.regions.get? region = some r)
      (planned : r.table.planShift shift.low shift.high shift.delta c.config.rulePriority =
        .ok []) :
      Transition c (some (.rule (.shiftPriority region shift))) ⟨c, [], .done⟩
  | createGroup {direction : Direction} {id : Handle .group} {groups : Arena .group Group}
      (planned : c.groups.planCreate direction = .ok id)
      (inserted : c.groups.groups.insertWith?
        (fun _ => ⟨direction, [], c.groups.priorities.usual, none⟩) = some (id, groups)) :
      Transition c (some (.group (.create direction)))
        ⟨{ c with groups := { c.groups with groups := groups } }, [], .created id.raw⟩
  | setGroupAcls {id : Handle .group} {g : Group} {acls : List (Handle .acl)}
      (found : c.groups.groups.get? id = some g)
      (checked : c.groups.checkMembers c.acls id acls = .ok ()) :
      Transition c (some (.group (.set id acls)))
        ⟨c.withGroup id { g with acls := acls }, [], .done⟩
  | addGroupAcl {id : Handle .group} {g : Group} {acl : Handle .acl} {acls : List (Handle .acl)}
      (found : c.groups.groups.get? id = some g)
      (planned : c.groups.planAdd c.acls id acl = .ok (some acls)) :
      Transition c (some (.group (.add id acl)))
        ⟨c.withGroup id { g with acls := acls }, [], .done⟩
  | addMember {id : Handle .group} {acl : Handle .acl}
      (planned : c.groups.planAdd c.acls id acl = .ok none) :
      Transition c (some (.group (.add id acl))) ⟨c, [], .done⟩
  | deleteGroupAcl {id : Handle .group} {g : Group} {acl : Handle .acl} {acls : List (Handle .acl)}
      (found : c.groups.groups.get? id = some g)
      (planned : c.groups.planDelete id acl = .ok acls) :
      Transition c (some (.group (.delete id acl)))
        ⟨c.withGroup id { g with acls := acls }, [], .done⟩
  | chainGroups {parent child : Handle .group} {p : Group}
      (found : c.groups.groups.get? parent = some p)
      (planned : c.groups.planChain (fun g => c.bindings.isBound (.group g)) parent child =
        .ok ()) :
      Transition c (some (.group (.chain parent child)))
        ⟨c.withGroup parent { p with next := some child }, [], .done⟩
  | unchainGroup {parent : Handle .group} {p : Group}
      (found : c.groups.groups.get? parent = some p) (followed : p.next.isSome = true) :
      Transition c (some (.group (.unchain parent)))
        ⟨c.withGroup parent { p with next := none }, [], .done⟩
  | setGroupPriority {id : Handle .group} {g : Group} {priority : ℕ}
      (found : c.groups.groups.get? id = some g)
      (allowed : c.groups.priorities.contains priority = true) :
      Transition c (some (.group (.setPriority id priority)))
        ⟨c.withGroup id { g with priority := priority }, [], .done⟩
  | destroyGroup {id : Handle .group} {g : Group} {groups : Arena .group Group}
      (unbound : c.isGroupBound id = false) (unfollowing : c.groups.parentOf? id = none)
      (removed : c.groups.groups.remove? id = some (g, groups)) :
      Transition c (some (.group (.destroy id)))
        ⟨{ c with groups := { c.groups with groups := groups } }, [.objectDeleted id.ref], .done⟩
  | bind {key : BindingKey} {target : BindTarget} {priority : ℕ} {pools : Pools}
      (checked : c.checkBindingKey key = .ok ())
      (bindable : c.targetPriority key.direction target = .ok priority)
      (counted : c.countBinding key [⟨target, priority⟩] = .ok pools) :
      Transition c (some (.binding (.bind key target)))
        ⟨c.rebound key [⟨target, priority⟩] pools c.oneBind, [.bindingChanged key], .done⟩
  | unbind {key : BindingKey} {pools : Pools}
      (checked : c.checkBindingKey key = .ok ())
      (bound : c.bindings.isBoundAt key = true)
      (counted : c.countBinding key [] = .ok pools) :
      Transition c (some (.binding (.unbind key)))
        ⟨c.rebound key [] pools c.oneUnbind, [.bindingChanged key], .done⟩
  | bindAdd {key : BindingKey} {group : Handle .group} {priority : ℕ} {list : List BoundEntry}
      {pools : Pools}
      (checked : c.checkBindingKey key = .ok ())
      (bindable : c.targetPriority key.direction (.group group) = .ok priority)
      (planned : c.bindings.planAdd key ⟨.group group, priority⟩ = .ok (some list))
      (counted : c.countBinding key list = .ok pools) :
      Transition c (some (.binding (.add key group)))
        ⟨c.rebound key list pools c.oneBind, [.bindingChanged key], .done⟩
  | bindAgain {key : BindingKey} {group : Handle .group} {priority : ℕ}
      (checked : c.checkBindingKey key = .ok ())
      (bindable : c.targetPriority key.direction (.group group) = .ok priority)
      (planned : c.bindings.planAdd key ⟨.group group, priority⟩ = .ok none) :
      Transition c (some (.binding (.add key group))) ⟨c, [], .done⟩
  | bindDelete {key : BindingKey} {group : Handle .group} {list : List BoundEntry} {pools : Pools}
      (checked : c.checkBindingKey key = .ok ())
      (planned : c.bindings.planDelete key group = .ok list)
      (counted : c.countBinding key list = .ok pools) :
      Transition c (some (.binding (.delete key group)))
        ⟨c.rebound key list pools c.oneUnbind, [.bindingChanged key], .done⟩
  | createPoolEntry {value : PoolValue} {entry : PoolEntry} {pools : Pools}
      (created : c.pools.create value = .ok (entry, pools)) :
      Transition c (some (.pool (.create value)))
        ⟨{ c with pools := pools }, [], .created entry.ref.raw⟩
  | editPoolEntry {entry : PoolEntry} {value : PoolValue} {pools : Pools}
      (edited : c.pools.edit entry value = .ok pools) :
      Transition c (some (.pool (.edit entry value))) ⟨{ c with pools := pools }, [], .done⟩
  | addPoolMembers {entry : PoolEntry} {value : PoolValue} {pools : Pools}
      (added : c.pools.add entry value = .ok pools) :
      Transition c (some (.pool (.add entry value))) ⟨{ c with pools := pools }, [], .done⟩
  | deletePoolMembers {entry : PoolEntry} {value : PoolValue} {pools : Pools}
      (deleted : c.pools.delete entry value = .ok pools) :
      Transition c (some (.pool (.delete entry value))) ⟨{ c with pools := pools }, [], .done⟩
  | addPbsPorts {id : Handle .pbs} {ports : List PortId} {pbs : PbsPool}
      (added : PbsPool.addPorts c.pools.pbs id ports = .ok pbs) :
      Transition c none ⟨{ c with pools := { c.pools with pbs := pbs } }, [], .done⟩
  | deletePbsPorts {id : Handle .pbs} {ports : List PortId} {pbs : PbsPool}
      (deleted : PbsPool.deletePorts c.pools.pbs id ports = .ok pbs) :
      Transition c none ⟨{ c with pools := { c.pools with pbs := pbs } }, [], .done⟩
  | destroyPoolEntry {entry : PoolEntry} {pools : Pools}
      (destroyed : c.pools.destroy entry = .ok pools) :
      Transition c (some (.pool (.destroy entry)))
        ⟨{ c with pools := pools }, [.objectDeleted entry.ref], .done⟩

/-- What becomes of the model when rules are stored: nothing if there are none, else their
references are taken, the table is filled, and the references of the replaced rules are given
back. -/
lemma Transition.of_set {c : Core} {region : Handle .region} {offsets : List ℕ} {rules : List Rule}
    {done : Commit OpResult} (ht : Transition c (some (.rule (.set region offsets rules))) done) :
    (rules = [] ∧ done.core = c) ∨
    ∃ r ct acquired pools replaced table, c.regions.regions.get? region = some r ∧
      offsets.length = rules.length ∧ c.keyTypes.types.get? r.keyType = some ct ∧
      checkBatch r.table ct.value.fields c.config.rulePriority [] (offsets.zip rules) = .ok () ∧
      c.pools.checkRefs (PoolRefs.concat (rules.map Rule.refs)) = .ok () ∧
      c.pools.acquire (PoolRefs.concat (rules.map Rule.refs)) = .ok acquired ∧
      r.table.setAll (offsets.zip rules) = .ok (replaced, table) ∧
      acquired.release (PoolRefs.concat (replaced.map Rule.refs)) = .ok pools ∧
      done.core = { c.withTable region table with
        pools := pools
        stats := { c.stats with rulesSet := c.stats.rulesSet + rules.length } } := by
  cases ht with
  | observe reading => cases reading _ rfl
  | deleteRules found asked => rcases asked with h | ⟨h, -⟩ <;> cases h
  | deleteNoRules found asked => rcases asked with h | ⟨h, -⟩ <;> cases h
  | setNoRules found => exact .inl ⟨rfl, rfl⟩
  | setRules found lengths typed checked live taken stored released =>
      exact .inr ⟨_, _, _, _, _, _, found, lengths, typed, checked, live, taken, stored, released,
        rfl⟩

end Core

end AclPlane
