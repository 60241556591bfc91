import AclPlane.Proofs.Arena.Shape
import AclPlane.Proofs.Destruction

/-!
Handles over a transition.

A transition that creates an object inserts into the arena of its kind, one that destroys an object
removes from it, and no other transition has a say in which handles are live.

* `Core.shape`: the arena of a kind, with its objects forgotten.
* `Core.Reshaped`: the shapes stay, or one of them changes by an insertion or by a removal.
* `Core.Transition.reshaped`: every transition is of this sort, and a removal is asked for.
-/

namespace AclPlane

/-! ### Pools -/

namespace Pool

variable {kind : ObjectKind} {α : Type} {p q : Pool kind α} {id : Handle kind} {value : α}
  {ids : List (Handle kind)}

/-- The handle of a new entry depends on the shape of its pool alone. -/
lemma shape_insert (h : p.insert value = .ok (id, q)) :
    p.entries.shape.insert? () = some (id, q.entries.shape) := by
  rw [insert] at h
  split at h
  · next hins =>
      cases h
      exact Arena.insertWith?_shape hins
  · cases h

/-- Another value leaves the handles as they are. -/
lemma shape_set (h : p.set id value = .ok q) : q.entries.shape = p.entries.shape := by
  simp only [set, bind_eq_ok, pure_eq_ok, lookup_eq_ok] at h
  obtain ⟨c, hc, rfl⟩ := h
  exact Arena.shape_set hc

/-- A removal from a pool is one from its shape. -/
lemma shape_remove (h : p.remove id = .ok (value, q)) :
    p.entries.shape.remove? id = some ((), q.entries.shape) := by
  simp only [remove, bind_eq_ok] at h
  obtain ⟨_, -, h⟩ := h
  split at h
  · next hrem =>
      cases h
      exact Arena.remove?_shape hrem
  · cases h

/-- Counting changes no handle. -/
lemma shape_acquire (h : p.acquire id = .ok q) : q.entries.shape = p.entries.shape := by
  rw [acquire] at h
  split at h
  · next hretain =>
      cases h
      exact Arena.shape_retain hretain
  · cases h

lemma shape_release (h : p.release id = .ok q) : q.entries.shape = p.entries.shape := by
  rw [release] at h
  split at h
  · next hrelease =>
      cases h
      exact Arena.shape_release hrelease
  · cases h

lemma shape_acquireAll (h : ids.foldlM acquire p = .ok q) : q.entries.shape = p.entries.shape :=
  foldlM_keeps (p := fun q => q.entries.shape = p.entries.shape)
    (fun _ _ _ hr hstep => (shape_acquire hstep).trans hr) h rfl

lemma shape_releaseAll (h : ids.foldlM release p = .ok q) : q.entries.shape = p.entries.shape :=
  foldlM_keeps (p := fun q => q.entries.shape = p.entries.shape)
    (fun _ _ _ hr hstep => (shape_release hstep).trans hr) h rfl

end Pool

namespace Pools

variable {p q r : Pools} {refs : PoolRefs} {entry : PoolEntry} {value : PoolValue}

/-- The same handles are live in both, and the same ones come next. -/
structure SameShape (p q : Pools) : Prop where
  pbs : q.pbs.entries.shape = p.pbs.entries.shape
  ranges : q.ranges.pool.entries.shape = p.ranges.pool.entries.shape
  customBytes : q.customBytes.entries.shape = p.customBytes.entries.shape
  portLists : q.portLists.entries.shape = p.portLists.entries.shape
  vlanGroups : q.vlanGroups.entries.shape = p.vlanGroups.entries.shape

lemma SameShape.refl (p : Pools) : p.SameShape p := ⟨rfl, rfl, rfl, rfl, rfl⟩

lemma SameShape.trans (h : p.SameShape q) (h' : q.SameShape r) : p.SameShape r :=
  ⟨h'.pbs.trans h.pbs, h'.ranges.trans h.ranges, h'.customBytes.trans h.customBytes,
    h'.portLists.trans h.portLists, h'.vlanGroups.trans h.vlanGroups⟩

/-- Neither does taking references in all the pools. -/
lemma sameShape_acquire (h : p.acquire refs = .ok q) : p.SameShape q := by
  simp only [acquire, bind_eq_ok, pure_eq_ok] at h
  obtain ⟨_, hpbs, _, hranges, _, hbytes, _, hports, rfl⟩ := h
  exact ⟨Pool.shape_acquireAll hpbs, Pool.shape_acquireAll hranges, Pool.shape_acquireAll hbytes,
    Pool.shape_acquireAll hports, rfl⟩

/-- Giving them back changes none either. -/
lemma sameShape_release (h : p.release refs = .ok q) : p.SameShape q := by
  simp only [release, bind_eq_ok, pure_eq_ok] at h
  obtain ⟨_, hpbs, _, hranges, _, hbytes, _, hports, rfl⟩ := h
  exact ⟨Pool.shape_releaseAll hpbs, Pool.shape_releaseAll hranges, Pool.shape_releaseAll hbytes,
    Pool.shape_releaseAll hports, rfl⟩

/-- More ports are another value of the same entry. -/
lemma shape_addPorts {pool : PbsPool} {id : Handle .pbs} {ports : List PortId}
    (h : PbsPool.addPorts p.pbs id ports = .ok pool) :
    pool.entries.shape = p.pbs.entries.shape := by
  simp only [PbsPool.addPorts, bind_eq_ok] at h
  obtain ⟨_, -, h⟩ := h
  exact Pool.shape_set h

/-- So are fewer ports. -/
lemma shape_deletePorts {pool : PbsPool} {id : Handle .pbs} {ports : List PortId}
    (h : PbsPool.deletePorts p.pbs id ports = .ok pool) :
    pool.entries.shape = p.pbs.entries.shape := by
  simp only [PbsPool.deletePorts, bind_eq_ok] at h
  obtain ⟨_, -, h⟩ := h
  split at h
  · cases h
  · rw [guard_eq_ok] at h
    exact Pool.shape_set h.2

/-- An edit neither creates an entry nor removes one. -/
lemma sameShape_edit (h : p.edit entry value = .ok q) : p.SameShape q := by
  unfold edit at h
  split at h
  · simp only [PbsPool.edit, bind_eq_ok, guard_eq_ok, pure_eq_ok] at h
    obtain ⟨pool, ⟨_, -, -, hp⟩, rfl⟩ := h
    exact { SameShape.refl p with pbs := Pool.shape_set hp }
  · simp only [RangePool.edit, bind_eq_ok, pure_eq_ok] at h
    obtain ⟨pool, ⟨_, -, _, -, _, -, inner, hp, rfl⟩, rfl⟩ := h
    exact { SameShape.refl p with ranges := Pool.shape_set hp }
  · simp only [CustomBytesPool.edit, bind_eq_ok, pure_eq_ok] at h
    obtain ⟨pool, ⟨_, -, _, -, hp⟩, rfl⟩ := h
    exact { SameShape.refl p with customBytes := Pool.shape_set hp }
  · simp only [PortListPool.replace, bind_eq_ok, pure_eq_ok] at h
    obtain ⟨pool, ⟨_, -, hp⟩, rfl⟩ := h
    exact { SameShape.refl p with portLists := Pool.shape_set hp }
  · cases h
  · cases h

lemma sameShape_add (h : p.add entry value = .ok q) : p.SameShape q := by
  unfold add at h
  split at h
  · simp only [PortListPool.add, bind_eq_ok, pure_eq_ok] at h
    obtain ⟨pool, ⟨_, -, hp⟩, rfl⟩ := h
    exact { SameShape.refl p with portLists := Pool.shape_set hp }
  · simp only [VlanGroupPool.add, bind_eq_ok, pure_eq_ok] at h
    obtain ⟨pool, ⟨_, -, _, -, hp⟩, rfl⟩ := h
    exact { SameShape.refl p with vlanGroups := Pool.shape_set hp }
  · cases h

lemma sameShape_delete (h : p.delete entry value = .ok q) : p.SameShape q := by
  unfold delete at h
  split at h
  · simp only [PortListPool.delete, bind_eq_ok, pure_eq_ok] at h
    obtain ⟨pool, ⟨_, -, hp⟩, rfl⟩ := h
    split at hp
    · cases hp
    · exact { SameShape.refl p with portLists := Pool.shape_set hp }
  · simp only [VlanGroupPool.delete, bind_eq_ok, pure_eq_ok] at h
    obtain ⟨pool, ⟨_, -, hp⟩, rfl⟩ := h
    split at hp
    · cases hp
    · exact { SameShape.refl p with vlanGroups := Pool.shape_set hp }
  · cases h

end Pools

namespace Core

variable {c c' : Core} {pools : Pools}

/-! ### Shapes -/

/-- The arena of the objects of one kind, with the objects forgotten. -/
def shape (c : Core) : (kind : ObjectKind) → Arena kind Unit
  | .keyType => c.keyTypes.types.shape
  | .region => c.regions.regions.shape
  | .acl => c.acls.acls.shape
  | .group => c.groups.groups.shape
  | .pbs => c.pools.pbs.entries.shape
  | .range => c.pools.ranges.pool.entries.shape
  | .customBytes => c.pools.customBytes.entries.shape
  | .portList => c.pools.portLists.entries.shape
  | .vlanGroup => c.pools.vlanGroups.entries.shape

/-- A handle is live if the shape of its kind has it. -/
lemma isLive_eq_contains (c : Core) {kind : ObjectKind} (id : Handle kind) :
    c.isLive id = (c.shape kind).contains id := by
  cases kind <;> exact (Arena.contains_shape id).symm

lemma shape_stats (c : Core) (stats : Stats) (kind : ObjectKind) :
    { c with stats := stats }.shape kind = c.shape kind := by
  cases kind <;> rfl

/-- The shapes are consistent in a steady model. -/
lemma Steady.shape (h : c.Steady) : (kind : ObjectKind) → (c.shape kind).Consistent
  | .keyType => h.keyTypes.shape
  | .region => h.regions.shape
  | .acl => h.acls.shape
  | .group => h.groups.shape
  | .pbs => h.pools.pbs.shape
  | .range => h.pools.ranges.shape
  | .customBytes => h.pools.customBytes.shape
  | .portList => h.pools.portLists.shape
  | .vlanGroup => h.pools.vlanGroups.shape

/-- What may become of the shapes: all of them stay, an object is created and its handle is the
result, or an object is destroyed because this is what is asked for. -/
inductive Reshaped (c c' : Core) (op : Option Operation) (result : OpResult) : Prop where
  | same (shape_eq : ∀ kind, c'.shape kind = c.shape kind)
  | inserted (kind : ObjectKind) (id : Handle kind) (created : result = .created id.raw)
      (inserted : (c.shape kind).insert? () = some (id, c'.shape kind))
      (others : ∀ k, k ≠ kind → c'.shape k = c.shape k)
  | removed (kind : ObjectKind) (id : Handle kind) (asked : op = some (Operation.destroy id))
      (removed : (c.shape kind).remove? id = some ((), c'.shape kind))
      (others : ∀ k, k ≠ kind → c'.shape k = c.shape k)

/-- If only the pools change and keep their shape, every kind keeps its own. -/
lemma shape_of_pools (hk : c'.keyTypes = c.keyTypes) (hr : c'.regions = c.regions)
    (ha : c'.acls = c.acls) (hg : c'.groups = c.groups) (h : c.pools.SameShape c'.pools)
    (kind : ObjectKind) : c'.shape kind = c.shape kind := by
  cases kind with
  | keyType => rw [shape, shape, hk]
  | region => rw [shape, shape, hr]
  | acl => rw [shape, shape, ha]
  | group => rw [shape, shape, hg]
  | pbs => exact h.pbs
  | range => exact h.ranges
  | customBytes => exact h.customBytes
  | portList => exact h.portLists
  | vlanGroup => exact h.vlanGroups

/-! ### Entries of pools -/

/-- One entry comes into the pool of its kind, and it is the one that is answered. -/
lemma reshaped_createPoolEntry {op : Option Operation} {value : PoolValue} {entry : PoolEntry}
    (h : c.pools.create value = .ok (entry, pools)) :
    c.Reshaped { c with pools := pools } op (.created entry.ref.raw) := by
  cases value with
  | pbs destination =>
      simp only [Pools.create, PbsPool.create, bind_eq_ok, pure_eq_ok, Prod.mk.injEq] at h
      obtain ⟨⟨id, pool⟩, ⟨_, -, hp⟩, rfl, rfl⟩ := h
      split at hp
      · cases hp
      · refine .inserted .pbs _ rfl (Pool.shape_insert hp) fun k hk => ?_
        cases k with
        | pbs => exact absurd rfl hk
        | _ => rfl
  | range r =>
      simp only [Pools.create, RangePool.create, bind_eq_ok, pure_eq_ok, Prod.mk.injEq] at h
      obtain ⟨⟨id, pool⟩, ⟨_, -, _, -, ⟨i, inner⟩, hp, rfl, rfl⟩, rfl, rfl⟩ := h
      refine .inserted .range _ rfl (Pool.shape_insert hp) fun k hk => ?_
      cases k with
      | range => exact absurd rfl hk
      | _ => rfl
  | customBytes set =>
      simp only [Pools.create, CustomBytesPool.create, bind_eq_ok, pure_eq_ok, Prod.mk.injEq] at h
      obtain ⟨⟨id, pool⟩, ⟨_, -, hp⟩, rfl, rfl⟩ := h
      refine .inserted .customBytes _ rfl (Pool.shape_insert hp) fun k hk => ?_
      cases k with
      | customBytes => exact absurd rfl hk
      | _ => rfl
  | portList ports =>
      simp only [Pools.create, PortListPool.create, bind_eq_ok, pure_eq_ok, Prod.mk.injEq] at h
      obtain ⟨⟨id, pool⟩, ⟨_, -, hp⟩, rfl, rfl⟩ := h
      refine .inserted .portList _ rfl (Pool.shape_insert hp) fun k hk => ?_
      cases k with
      | portList => exact absurd rfl hk
      | _ => rfl
  | vlanGroup vlans =>
      simp only [Pools.create, VlanGroupPool.create, bind_eq_ok, pure_eq_ok, Prod.mk.injEq] at h
      obtain ⟨⟨id, pool⟩, ⟨_, -, hp⟩, rfl, rfl⟩ := h
      refine .inserted .vlanGroup _ rfl (Pool.shape_insert hp) fun k hk => ?_
      cases k with
      | vlanGroup => exact absurd rfl hk
      | _ => rfl

/-- One entry goes, and it is the one that has been asked for. -/
lemma reshaped_destroyPoolEntry {entry : PoolEntry} {result : OpResult}
    (h : c.pools.destroy entry = .ok pools) :
    c.Reshaped { c with pools := pools } (some (.pool (.destroy entry))) result := by
  cases entry with
  | pbs id =>
      simp only [Pools.destroy, bind_eq_ok, pure_eq_ok] at h
      obtain ⟨⟨v, pool⟩, hp, rfl⟩ := h
      refine .removed .pbs id rfl (Pool.shape_remove hp) fun k hk => ?_
      cases k with
      | pbs => exact absurd rfl hk
      | _ => rfl
  | range id =>
      simp only [Pools.destroy, bind_eq_ok, pure_eq_ok] at h
      obtain ⟨⟨v, pool⟩, hp, rfl⟩ := h
      refine .removed .range id rfl (Pool.shape_remove hp) fun k hk => ?_
      cases k with
      | range => exact absurd rfl hk
      | _ => rfl
  | customBytes id =>
      simp only [Pools.destroy, bind_eq_ok, pure_eq_ok] at h
      obtain ⟨⟨v, pool⟩, hp, rfl⟩ := h
      refine .removed .customBytes id rfl (Pool.shape_remove hp) fun k hk => ?_
      cases k with
      | customBytes => exact absurd rfl hk
      | _ => rfl
  | portList id =>
      simp only [Pools.destroy, bind_eq_ok, pure_eq_ok] at h
      obtain ⟨⟨v, pool⟩, hp, rfl⟩ := h
      refine .removed .portList id rfl (Pool.shape_remove hp) fun k hk => ?_
      cases k with
      | portList => exact absurd rfl hk
      | _ => rfl
  | vlanGroup id =>
      simp only [Pools.destroy, bind_eq_ok, pure_eq_ok] at h
      obtain ⟨⟨v, pool⟩, hp, rfl⟩ := h
      refine .removed .vlanGroup id rfl (Pool.shape_remove hp) fun k hk => ?_
      cases k with
      | vlanGroup => exact absurd rfl hk
      | _ => rfl

/-! ### Every transition -/

/-- Counting a binding on a VLAN group changes no handle. -/
lemma sameShape_countBinding {key : BindingKey} {list : List BoundEntry}
    (h : c.countBinding key list = .ok pools) : c.pools.SameShape pools := by
  rw [countBinding] at h
  split at h
  · split at h
    · simp only [bind_eq_ok, pure_eq_ok] at h
      obtain ⟨pool, hp, rfl⟩ := h
      exact { Pools.SameShape.refl c.pools with vlanGroups := Pool.shape_acquire hp }
    · simp only [bind_eq_ok, pure_eq_ok] at h
      obtain ⟨pool, hp, rfl⟩ := h
      exact { Pools.SameShape.refl c.pools with vlanGroups := Pool.shape_release hp }
    · cases h
      exact .refl _
  · cases h
    exact .refl _

/-- A model whose region has got other rules, and whose pools have counted them. -/
lemma shape_withTable {region : Handle .region} {r : Region} {table : RuleTable} {stats : Stats}
    (hr : c.regions.regions.get? region = some r) (h : c.pools.SameShape pools)
    (kind : ObjectKind) :
    { c.withTable region table with pools := pools, stats := stats }.shape kind =
      c.shape kind := by
  cases kind with
  | region =>
      have hset := setTable_eq hr table
      simp only [shape, withTable, hset]
      exact Arena.shape_set hr
  | keyType => rfl
  | acl => rfl
  | group => rfl
  | pbs => exact h.pbs
  | range => exact h.ranges
  | customBytes => exact h.customBytes
  | portList => exact h.portLists
  | vlanGroup => exact h.vlanGroups

/-- A group that is replaced keeps its handle. -/
lemma shape_withGroup {id : Handle .group} {g g' : Group}
    (hg : c.groups.groups.get? id = some g) (kind : ObjectKind) :
    (c.withGroup id g').shape kind = c.shape kind := by
  cases kind with
  | group => exact Arena.shape_set hg
  | _ => rfl

/-- A transition inserts what it creates, removes what it is asked to destroy, and leaves the shapes
alone otherwise. -/
theorem Transition.reshaped {op : Option Operation} {done : Commit OpResult}
    (ht : Transition c op done) : c.Reshaped done.core op done.result := by
  cases ht with
  | createKeyType found =>
      rcases KeyTypes.intern_cases found with rfl | ⟨kt, hreg⟩
      · exact .same fun kind => by cases kind <;> rfl
      · obtain ⟨types, hins, rfl⟩ := KeyTypes.register_eq_ok.mp hreg
        refine .inserted .keyType _ rfl (Arena.insertWith?_shape hins) fun k hk => ?_
        cases k with
        | keyType => exact absurd rfl hk
        | _ => rfl
  | destroyKeyType destroyed =>
      obtain ⟨_, types, -, -, hrem, rfl⟩ := KeyTypes.destroy_eq_ok.mp destroyed
      refine .removed .keyType _ rfl (Arena.remove?_shape hrem) fun k hk => ?_
      cases k with
      | keyType => exact absurd rfl hk
      | _ => rfl
  | createRegion found planned inserted counted =>
      obtain ⟨ct, hct, rfl⟩ := KeyTypes.acquire_eq_ok.mp counted
      refine .inserted .region _ rfl (Arena.insertWith?_shape inserted) fun k hk => ?_
      cases k with
      | keyType => exact Arena.shape_set hct
      | region => exact absurd rfl hk
      | _ => rfl
  | resizeRegion found planned resized =>
      refine .same fun kind => ?_
      cases kind with
      | region => exact Arena.shape_set found
      | _ => rfl
  | destroyRegion unused removed uncounted released =>
      obtain ⟨ct, hct, -, rfl⟩ := KeyTypes.release_eq_ok.mp uncounted
      have hpools := Pools.sameShape_release released
      refine .removed .region _ rfl (Arena.remove?_shape removed) fun k hk => ?_
      cases k with
      | keyType => exact Arena.shape_set hct
      | region => exact absurd rfl hk
      | acl => rfl
      | group => rfl
      | pbs => exact hpools.pbs
      | range => exact hpools.ranges
      | customBytes => exact hpools.customBytes
      | portList => exact hpools.portLists
      | vlanGroup => exact hpools.vlanGroups
  | createAcl planned inserted =>
      refine .inserted .acl _ rfl (Arena.insertWith?_shape inserted) fun k hk => ?_
      cases k with
      | acl => exact absurd rfl hk
      | _ => rfl
  | editAcl found planned =>
      refine .same fun kind => ?_
      cases kind with
      | acl => exact Arena.shape_set found
      | _ => rfl
  | destroyAcl unlisted unbound removed =>
      refine .removed .acl _ rfl (Arena.remove?_shape removed) fun k hk => ?_
      cases k with
      | acl => exact absurd rfl hk
      | _ => rfl
  | setRules found lengths typed checked live taken stored released =>
      exact .same (shape_withTable found
        ((Pools.sameShape_acquire taken).trans (Pools.sameShape_release released)))
  | deleteRules found asked listed emptied released =>
      exact .same (shape_withTable found (Pools.sameShape_release released))
  | moveBlock found moved => exact .same (shape_withTable found (.refl _))
  | shiftPriority found planned => exact .same (shape_withTable found (.refl _))
  | createGroup planned inserted =>
      refine .inserted .group _ rfl (Arena.insertWith?_shape inserted) fun k hk => ?_
      cases k with
      | group => exact absurd rfl hk
      | _ => rfl
  | setGroupAcls found checked => exact .same (shape_withGroup found)
  | addGroupAcl found planned => exact .same (shape_withGroup found)
  | deleteGroupAcl found planned => exact .same (shape_withGroup found)
  | chainGroups found planned => exact .same (shape_withGroup found)
  | unchainGroup found followed => exact .same (shape_withGroup found)
  | setGroupPriority found allowed => exact .same (shape_withGroup found)
  | destroyGroup unbound unfollowing removed =>
      refine .removed .group _ rfl (Arena.remove?_shape removed) fun k hk => ?_
      cases k with
      | group => exact absurd rfl hk
      | _ => rfl
  | bind checked bindable counted =>
      exact .same (shape_of_pools rfl rfl rfl rfl (sameShape_countBinding counted))
  | unbind checked bound counted =>
      exact .same (shape_of_pools rfl rfl rfl rfl (sameShape_countBinding counted))
  | bindAdd checked bindable planned counted =>
      exact .same (shape_of_pools rfl rfl rfl rfl (sameShape_countBinding counted))
  | bindDelete checked planned counted =>
      exact .same (shape_of_pools rfl rfl rfl rfl (sameShape_countBinding counted))
  | createPoolEntry created => exact reshaped_createPoolEntry created
  | editPoolEntry edited =>
      exact .same (shape_of_pools rfl rfl rfl rfl (Pools.sameShape_edit edited))
  | addPoolMembers added =>
      exact .same (shape_of_pools rfl rfl rfl rfl (Pools.sameShape_add added))
  | deletePoolMembers deleted =>
      exact .same (shape_of_pools rfl rfl rfl rfl (Pools.sameShape_delete deleted))
  | addPbsPorts added =>
      exact .same (shape_of_pools rfl rfl rfl rfl
        { Pools.SameShape.refl c.pools with pbs := Pools.shape_addPorts added })
  | deletePbsPorts deleted =>
      exact .same (shape_of_pools rfl rfl rfl rfl
        { Pools.SameShape.refl c.pools with pbs := Pools.shape_deletePorts deleted })
  | destroyPoolEntry destroyed => exact reshaped_destroyPoolEntry destroyed
  | _ => exact .same fun _ => rfl

end Core

end AclPlane
