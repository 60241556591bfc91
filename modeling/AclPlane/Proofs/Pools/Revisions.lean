import AclPlane.Proofs.FirstOccurrences
import AclPlane.Proofs.OrderedMap
import AclPlane.Proofs.Pools.Pbs
import AclPlane.Proofs.Steady

/-!
What becomes of the contents of pools.

Comparators and custom-byte sets can only be edited or destroyed while nothing refers to them.  PBS
entries and VLAN groups can be changed at any time, and members come and go one by one, so that some
changes are not checked but come out right because what was there before is.

* `Pool.Guarded`: entries that are referred to keep their values, and new values pass a check.
* `Pool.Checked`: all values pass a check.
* `Pools.Revised`: comparators and custom-byte sets are guarded, and the others stay checked.
* `Core.Transition.revised`: every transition revises the pools in this sense.
-/

namespace AclPlane

/-! ### Changes of one pool -/

namespace Pool

variable {kind : ObjectKind} {α : Type} {check : α → Except AclError Unit} {p q : Pool kind α}
  {id : Handle kind} {v : α}

/-- Entries that are referred to keep their values, and values that are new pass a check. -/
structure Guarded (check : α → Except AclError Unit) (p q : Pool kind α) : Prop where
  fixed : ∀ id, 0 < p.refCount id → q.value? id = p.value? id
  checked : ∀ id v, q.value? id = some v → p.value? id = some v ∨ check v = .ok ()

/-- Every value passes a check. -/
def Checked (check : α → Except AclError Unit) (p : Pool kind α) : Prop :=
  ∀ id v, p.value? id = some v → check v = .ok ()

lemma checked_empty (name : String) (limit : ℕ) : (empty name limit : Pool kind α).Checked check :=
  fun id v hv => by
    rw [value?_empty] at hv
    cases hv

/-- Only an entry that is there has references. -/
lemma value?_isSome_of_refCount_pos (h : 0 < p.refCount id) : (p.value? id).isSome = true := by
  obtain ⟨c, hc⟩ := Arena.exists_get?_of_refCount_pos h
  rw [value?, hc]
  rfl

lemma refCount_eq_zero_of_checkFree (h : p.checkFree id = .ok ()) : p.refCount id = 0 := by
  simp only [checkFree, bind_eq_ok, last_guard_eq_ok, lookup_eq_ok] at h
  obtain ⟨c, hc, hfree, -⟩ := h
  rw [refCount, Arena.refCount_eq hc]
  exact Nat.eq_zero_of_not_pos hfree

/-! #### Guarded changes -/

/-- A change of the counts alone is guarded. -/
lemma Guarded.of_value?_eq (h : ∀ id, q.value? id = p.value? id) : Guarded check p q :=
  ⟨fun id _ => h id, fun id _ hv => .inl ((h id).symm.trans hv)⟩

/-- An entry that nothing refers to may get a value that passes the check. -/
lemma Guarded.of_update (hfree : p.refCount id = 0) (hv : check v = .ok ())
    (h : ∀ k, q.value? k = if k = id then some v else p.value? k) : Guarded check p q := by
  refine ⟨fun k hk => ?_, fun k w hw => ?_⟩
  · have hne : k ≠ id := fun heq => by
      rw [heq, hfree] at hk
      cases hk
    rw [h, if_neg hne]
  · rw [h] at hw
    split at hw
    · cases hw
      exact .inr hv
    · exact .inl hw

/-- A new entry is guarded by the check of its value. -/
lemma guarded_insert (hc : p.entries.Consistent) (hv : check v = .ok ())
    (h : p.insert v = .ok (id, q)) : Guarded check p q := by
  obtain ⟨hnone, hvalue⟩ := value?_insert hc h
  refine .of_update ?_ hv hvalue
  by_contra hne
  have hsome := value?_isSome_of_refCount_pos (Nat.pos_of_ne_zero hne)
  rw [hnone] at hsome
  cases hsome

/-- So is another value of an entry that nothing refers to. -/
lemma guarded_set (hfree : p.checkFree id = .ok ()) (hv : check v = .ok ())
    (h : p.set id v = .ok q) : Guarded check p q :=
  .of_update (refCount_eq_zero_of_checkFree hfree) hv (value?_set h).2

/-- Only an entry that nothing refers to can be removed. -/
lemma guarded_remove (h : p.remove id = .ok (v, q)) : Guarded check p q := by
  have hvalue := value?_remove h
  simp only [remove, bind_eq_ok] at h
  obtain ⟨_, hfree, -⟩ := h
  have hzero := refCount_eq_zero_of_checkFree hfree
  refine ⟨fun k hk => ?_, fun k w hw => .inl ?_⟩
  · have hne : k ≠ id := fun heq => by
      rw [heq, hzero] at hk
      cases hk
    rw [hvalue, if_neg hne]
  · rw [hvalue] at hw
    split at hw
    · cases hw
    · exact hw

/-! #### Checked values -/

/-- Values that are guarded stay checked. -/
lemma Checked.guarded (hp : p.Checked check) (h : Guarded check p q) : q.Checked check := by
  intro id v hv
  rcases h.checked id v hv with hold | hnew
  · exact hp id v hold
  · exact hnew

lemma Checked.of_value?_eq (hp : p.Checked check) (h : ∀ id, q.value? id = p.value? id) :
    q.Checked check := fun id v hv => hp id v ((h id).symm.trans hv)

/-- A pool stays checked if the one value that comes in has passed the check. -/
lemma Checked.of_update (hp : p.Checked check) (hv : check v = .ok ())
    (h : ∀ k, q.value? k = if k = id then some v else p.value? k) : q.Checked check := by
  intro k w hw
  rw [h] at hw
  split at hw
  · cases hw
    exact hv
  · exact hp k w hw

lemma Checked.remove (hp : p.Checked check) (h : p.remove id = .ok (v, q)) : q.Checked check :=
  hp.guarded (guarded_remove h)

end Pool

/-! ### PBS entries -/

namespace PbsDestination

/-- A port group must have ports, and each of them once. -/
lemma check_portGroup_eq_ok {ports : List PortId} {u : Unit} :
    (portGroup ports).check = .ok u ↔ ports ≠ [] ∧ ports.Nodup := by
  rw [check]
  cases hempty : ports.isEmpty with
  | true => simp [List.isEmpty_iff.mp hempty]
  | false =>
      have hne : ports ≠ [] := fun heq => by simp [heq] at hempty
      rw [if_neg Bool.false_ne_true]
      split
      · next hlength =>
          simp only [reduceCtorEq, false_iff, not_and]
          exact fun _ hnodup => hlength (List.length_eraseDups_eq_iff.mpr hnodup)
      · next hlength =>
          have hnodup := List.length_eraseDups_eq_iff.mp (not_not.mp hlength)
          exact iff_of_true rfl ⟨hne, hnodup⟩

end PbsDestination

namespace PbsPool

variable {p q : PbsPool} {id : Handle .pbs} {d : PbsDestination} {current ports : List PortId}

/-- Ports are only put behind a group that are not in it. -/
lemma nodup_appendPorts (h : current.Nodup) (ports : List PortId) :
    (appendPorts current ports).Nodup := by
  induction ports generalizing current with
  | nil => exact h
  | cons port ports ih =>
      rw [appendPorts, List.foldl_cons]
      split
      · exact ih h
      · next hnew =>
          refine ih (List.nodup_append.mpr ⟨h, List.nodup_singleton _, ?_⟩)
          rintro a ha b hb rfl
          obtain rfl := List.mem_singleton.mp hb
          exact hnew (List.contains_iff_mem.mpr ha)

/-- The ports of a group stay in front when others are added. -/
lemma prefix_appendPorts (current ports : List PortId) :
    current <+: appendPorts current ports := by
  induction ports generalizing current with
  | nil => exact List.prefix_rfl
  | cons port ports ih =>
      rw [appendPorts, List.foldl_cons]
      split
      · exact ih current
      · exact (List.prefix_append ..).trans (ih _)

/-- What a port group becomes passes the check, if it did before. -/
lemma Regroups.check {r : Request} (h : Regroups p r id ports)
    (hp : p.Checked PbsDestination.check) : (PbsDestination.portGroup ports).check = .ok () := by
  cases h with
  | @add _ current asked found =>
      obtain ⟨hne, hnodup⟩ := PbsDestination.check_portGroup_eq_ok.mp (hp _ _ found)
      refine PbsDestination.check_portGroup_eq_ok.mpr
        ⟨fun hnil => hne ?_, nodup_appendPorts hnodup _⟩
      exact List.prefix_nil.mp (hnil ▸ prefix_appendPorts current asked)
  | delete found listed left =>
      obtain ⟨-, hnodup⟩ := PbsDestination.check_portGroup_eq_ok.mp (hp _ _ found)
      exact PbsDestination.check_portGroup_eq_ok.mpr ⟨left, hnodup.filter _⟩

/-- No request to the pool makes a destination that would not pass the check. -/
lemma checked_answer (hp : p.Checked PbsDestination.check) (hc : p.entries.Consistent)
    {r : Request} (h : answer p r = .ok q) : q.Checked PbsDestination.check := by
  cases r with
  | create destination =>
      obtain ⟨⟨id, q⟩, hcreate, rfl⟩ := map_eq_ok.mp h
      obtain ⟨hcheck, -, hinsert⟩ := (create_eq_ok hc).mp hcreate
      exact hp.of_update hcheck (Pool.value?_insert hc hinsert).2
  | edit id destination =>
      obtain ⟨hcheck, -, hset⟩ := (edit_eq_ok hc).mp h
      exact hp.of_update hcheck (Pool.value?_set hset).2
  | addPorts id ports =>
      obtain ⟨new, hr, hset⟩ := exists_regroups h (.inl rfl)
      exact hp.of_update (hr.check hp) (Pool.value?_set hset).2
  | deletePorts id ports =>
      obtain ⟨new, hr, hset⟩ := exists_regroups h (.inr rfl)
      exact hp.of_update (hr.check hp) (Pool.value?_set hset).2
  | destroy id =>
      obtain ⟨⟨d, q⟩, hremove, rfl⟩ := map_eq_ok.mp h
      exact hp.remove hremove
  | acquire id => exact hp.of_value?_eq (Pool.value?_acquire h)
  | release id => exact hp.of_value?_eq (Pool.value?_release h)

end PbsPool

/-! ### VLAN groups -/

namespace VlanGroupPool

variable {p q : VlanGroupPool} {id : Handle .vlanGroup} {g : OrderedSet UInt16}
  {vlans : List UInt16} {u : Unit}

/-- VLAN numbers lie between 1 and 4094. -/
lemma checkVlans_eq_ok : checkVlans vlans = .ok u ↔ ∀ v ∈ vlans, 1 ≤ v ∧ v ≤ 4094 := by
  rw [checkVlans]
  split
  · next v hfind =>
      have hv := List.find?_some hfind
      simp only [Bool.or_eq_true, decide_eq_true_eq] at hv
      simp only [reduceCtorEq, false_iff, not_forall]
      refine ⟨v, List.mem_of_find?_eq_some hfind, fun hbounds => ?_⟩
      obtain ⟨hlow, hhigh⟩ := hbounds
      rcases hv with hv | hv
      · exact absurd hlow (UInt16.not_le.mpr hv)
      · exact absurd hhigh (UInt16.not_le.mpr hv)
  · next hfind =>
      simp only [List.find?_eq_none, Bool.or_eq_true, decide_eq_true_eq, not_or,
        UInt16.not_lt] at hfind
      exact iff_of_true rfl hfind

/-- Checks the members of a VLAN group. -/
def checkMembers (g : OrderedSet UInt16) : Except AclError Unit := checkVlans (OrderedSet.members g)

/-- The check of a group is that of each of its members. -/
lemma checkMembers_eq_ok :
    checkMembers g = .ok u ↔ ∀ v, OrderedSet.has g v = true → 1 ≤ v ∧ v ≤ 4094 := by
  simp only [checkMembers, checkVlans_eq_ok, OrderedSet.mem_members_iff]

/-- A group stays good when checked numbers join it. -/
lemma checkMembers_addAll (hg : checkMembers g = .ok ()) (hvlans : checkVlans vlans = .ok ()) :
    checkMembers (OrderedSet.addAll g vlans) = .ok () := by
  rw [checkMembers_eq_ok] at hg ⊢
  intro v hv
  rcases OrderedSet.has_addAll.mp hv with hold | hnew
  · exact hg v hold
  · exact checkVlans_eq_ok.mp hvlans v hnew

lemma checkMembers_of (hvlans : checkVlans vlans = .ok ()) :
    checkMembers (OrderedSet.of vlans) = .ok () :=
  checkMembers_addAll (checkMembers_eq_ok.mpr fun _ hv => by cases hv) hvlans

/-- No number becomes bad by others leaving. -/
lemma checkMembers_removeAll (hg : checkMembers g = .ok ()) (vlans : List UInt16) :
    checkMembers (OrderedSet.removeAll g vlans) = .ok () := by
  rw [checkMembers_eq_ok] at hg ⊢
  exact fun v hv => hg v (OrderedSet.has_of_has_removeAll hv)

lemma checked_create (hp : p.Checked checkMembers) (hc : p.entries.Consistent)
    (h : create p vlans = .ok (id, q)) : q.Checked checkMembers := by
  simp only [create, bind_eq_ok] at h
  obtain ⟨_, hvlans, hinsert⟩ := h
  exact hp.of_update (checkMembers_of hvlans) (Pool.value?_insert hc hinsert).2

lemma checked_add (hp : p.Checked checkMembers) (h : add p id vlans = .ok q) :
    q.Checked checkMembers := by
  simp only [add, bind_eq_ok, Pool.get_eq_ok] at h
  obtain ⟨_, hvlans, current, hcurrent, hset⟩ := h
  exact hp.of_update (checkMembers_addAll (hp id current hcurrent) hvlans) (Pool.value?_set hset).2

lemma checked_delete (hp : p.Checked checkMembers) (h : delete p id vlans = .ok q) :
    q.Checked checkMembers := by
  simp only [delete, bind_eq_ok, Pool.get_eq_ok] at h
  obtain ⟨current, hcurrent, h⟩ := h
  split at h
  · cases h
  · exact hp.of_update (checkMembers_removeAll (hp id current hcurrent) vlans) (Pool.value?_set h).2

end VlanGroupPool

/-! ### Changes of all pools -/

namespace Pools

variable {p q : Pools} {refs : PoolRefs} {entry : PoolEntry} {value : PoolValue}

/-- Comparators and custom-byte sets are guarded, and PBS entries and VLAN groups stay checked. -/
structure Revised (p q : Pools) : Prop where
  ranges : p.ranges.pool.Guarded RangeComparator.check q.ranges.pool
  customBytes : Pool.Guarded CustomByteSet.check p.customBytes q.customBytes
  pbs : p.pbs.Checked PbsDestination.check → q.pbs.Checked PbsDestination.check
  vlanGroups : p.vlanGroups.Checked VlanGroupPool.checkMembers →
    q.vlanGroups.Checked VlanGroupPool.checkMembers

lemma Revised.refl (p : Pools) : p.Revised p :=
  ⟨.of_value?_eq fun _ => rfl, .of_value?_eq fun _ => rfl, id, id⟩

/-- Counting leaves the contents alone. -/
lemma Revised.of_recounted (h : p.Recounted q) : p.Revised q :=
  ⟨.of_value?_eq h.ranges.value, .of_value?_eq h.customBytes.value,
    fun hp => hp.of_value?_eq h.pbs.value, fun hp => hp.of_value?_eq h.vlanGroups.value⟩

/-- The pool of PBS entries is revised by an answer to one of its requests. -/
lemma Revised.of_pbs {pool : PbsPool} {r : PbsPool.Request} (hc : p.Consistent)
    (h : PbsPool.answer p.pbs r = .ok pool) : p.Revised { p with pbs := pool } :=
  { Revised.refl p with pbs := fun hp => PbsPool.checked_answer hp hc.pbs h }

lemma Revised.of_ranges {pool : RangePool}
    (h : p.ranges.pool.Guarded RangeComparator.check pool.pool) :
    p.Revised { p with ranges := pool } :=
  { Revised.refl p with ranges := h }

lemma Revised.of_customBytes {pool : CustomBytesPool}
    (h : Pool.Guarded CustomByteSet.check p.customBytes pool) :
    p.Revised { p with customBytes := pool } :=
  { Revised.refl p with customBytes := h }

/-- Port lists may be changed at will, even while rules refer to them. -/
lemma Revised.of_portLists (p : Pools) (pool : PortListPool) :
    p.Revised { p with portLists := pool } :=
  { Revised.refl p with }

/-- VLAN groups may be changed at will, too, as long as their numbers are good. -/
lemma Revised.of_vlanGroups {pool : VlanGroupPool}
    (h : p.vlanGroups.Checked VlanGroupPool.checkMembers →
      pool.Checked VlanGroupPool.checkMembers) : p.Revised { p with vlanGroups := pool } :=
  { Revised.refl p with vlanGroups := h }

/-- A value of any kind is checked before it gets an entry. -/
theorem revised_create (hc : p.Consistent) (h : p.create value = .ok (entry, q)) :
    p.Revised q := by
  cases value with
  | pbs destination =>
      simp only [create, bind_eq_ok, pure_eq_ok, Prod.mk.injEq] at h
      obtain ⟨⟨id, pool⟩, hp, -, rfl⟩ := h
      exact .of_pbs (r := .create destination) hc (map_eq_ok.mpr ⟨_, hp, rfl⟩)
  | range r =>
      simp only [create, RangePool.create, bind_eq_ok, pure_eq_ok, Prod.mk.injEq] at h
      obtain ⟨_, ⟨_, hcheck, _, -, ⟨id, pool⟩, hins, rfl⟩, -, rfl⟩ := h
      exact .of_ranges (Pool.guarded_insert hc.ranges hcheck hins)
  | customBytes s =>
      simp only [create, CustomBytesPool.create, bind_eq_ok, pure_eq_ok, Prod.mk.injEq] at h
      obtain ⟨⟨id, pool⟩, ⟨_, hcheck, hins⟩, -, rfl⟩ := h
      exact .of_customBytes (Pool.guarded_insert hc.customBytes hcheck hins)
  | portList ports =>
      simp only [create, bind_eq_ok, pure_eq_ok, Prod.mk.injEq] at h
      obtain ⟨_, -, -, rfl⟩ := h
      exact .of_portLists p _
  | vlanGroup vlans =>
      simp only [create, bind_eq_ok, pure_eq_ok, Prod.mk.injEq] at h
      obtain ⟨⟨id, pool⟩, hp, -, rfl⟩ := h
      exact .of_vlanGroups fun hv => VlanGroupPool.checked_create hv hc.vlanGroups hp

/-- An edit is checked like a creation; comparators and custom bytes must be out of use. -/
theorem revised_edit (hc : p.Consistent) (h : p.edit entry value = .ok q) : p.Revised q := by
  unfold edit at h
  split at h
  · next id destination =>
      simp only [bind_eq_ok, pure_eq_ok] at h
      obtain ⟨pool, hp, rfl⟩ := h
      exact .of_pbs (r := .edit id destination) hc hp
  · simp only [RangePool.edit, bind_eq_ok, pure_eq_ok] at h
    obtain ⟨_, ⟨_, hcheck, _, hfree, _, -, pool, hset, rfl⟩, rfl⟩ := h
    exact .of_ranges (Pool.guarded_set hfree hcheck hset)
  · simp only [CustomBytesPool.edit, bind_eq_ok, pure_eq_ok] at h
    obtain ⟨pool, ⟨_, hcheck, _, hfree, hset⟩, rfl⟩ := h
    exact .of_customBytes (Pool.guarded_set hfree hcheck hset)
  · simp only [bind_eq_ok, pure_eq_ok] at h
    obtain ⟨_, -, rfl⟩ := h
    exact .of_portLists p _
  · cases h
  · cases h

theorem revised_add (h : p.add entry value = .ok q) : p.Revised q := by
  unfold add at h
  split at h
  · simp only [bind_eq_ok, pure_eq_ok] at h
    obtain ⟨_, -, rfl⟩ := h
    exact .of_portLists p _
  · simp only [bind_eq_ok, pure_eq_ok] at h
    obtain ⟨pool, hp, rfl⟩ := h
    exact .of_vlanGroups fun hv => VlanGroupPool.checked_add hv hp
  · cases h

theorem revised_delete (h : p.delete entry value = .ok q) : p.Revised q := by
  unfold delete at h
  split at h
  · simp only [bind_eq_ok, pure_eq_ok] at h
    obtain ⟨_, -, rfl⟩ := h
    exact .of_portLists p _
  · simp only [bind_eq_ok, pure_eq_ok] at h
    obtain ⟨pool, hp, rfl⟩ := h
    exact .of_vlanGroups fun hv => VlanGroupPool.checked_delete hv hp
  · cases h

/-- What goes has been out of use. -/
theorem revised_destroy (hc : p.Consistent) (h : p.destroy entry = .ok q) : p.Revised q := by
  cases entry with
  | pbs id =>
      simp only [destroy, bind_eq_ok, pure_eq_ok] at h
      obtain ⟨⟨v, pool⟩, hp, rfl⟩ := h
      exact .of_pbs (r := .destroy id) hc (map_eq_ok.mpr ⟨_, hp, rfl⟩)
  | range id =>
      simp only [destroy, bind_eq_ok, pure_eq_ok] at h
      obtain ⟨⟨v, pool⟩, hp, rfl⟩ := h
      exact .of_ranges (Pool.guarded_remove hp)
  | customBytes id =>
      simp only [destroy, bind_eq_ok, pure_eq_ok] at h
      obtain ⟨⟨v, pool⟩, hp, rfl⟩ := h
      exact .of_customBytes (Pool.guarded_remove hp)
  | portList id =>
      simp only [destroy, bind_eq_ok, pure_eq_ok] at h
      obtain ⟨_, -, rfl⟩ := h
      exact .of_portLists p _
  | vlanGroup id =>
      simp only [destroy, bind_eq_ok, pure_eq_ok] at h
      obtain ⟨⟨v, pool⟩, hp, rfl⟩ := h
      exact .of_vlanGroups fun hv => hv.remove hp

end Pools

/-! ### Transitions -/

namespace Core

variable {c : Core}

/-- Binding leaves the contents of the pools alone. -/
lemma Steady.revised_countBinding (hs : c.Steady) {key : BindingKey} {list : List BoundEntry}
    {pools : Pools} (hkey : c.checkBindingKey key = .ok ())
    (hcount : c.countBinding key list = .ok pools) : c.pools.Revised pools := by
  obtain ⟨pools', hcount', hrec, -⟩ :=
    exists_countBinding hs.vlanGroups list (contains_of_checkBindingKey hkey)
  obtain rfl := Except.ok.inj (hcount.symm.trans hcount')
  exact .of_recounted hrec

/-- Every transition guards comparators and custom-byte sets and keeps the others checked. -/
theorem Transition.revised {op : Option Operation} {done : Commit OpResult} (hs : c.Steady)
    (ht : Transition c op done) : c.pools.Revised done.core.pools := by
  cases ht with
  | destroyRegion unused removed uncounted released =>
      exact .of_recounted (Pools.recounted_of_release released).1
  | setRules found lengths typed checked live taken stored released =>
      have htaken := (Pools.recounted_of_acquire taken).1
      exact .of_recounted (htaken.trans (Pools.recounted_of_release released).1)
  | deleteRules found asked listed emptied released =>
      exact .of_recounted (Pools.recounted_of_release released).1
  | bind checked bindable counted => exact hs.revised_countBinding checked counted
  | unbind checked bound counted => exact hs.revised_countBinding checked counted
  | bindAdd checked bindable planned counted => exact hs.revised_countBinding checked counted
  | bindDelete checked planned counted => exact hs.revised_countBinding checked counted
  | createPoolEntry created => exact Pools.revised_create hs.pools created
  | editPoolEntry edited => exact Pools.revised_edit hs.pools edited
  | addPoolMembers added => exact Pools.revised_add added
  | deletePoolMembers deleted => exact Pools.revised_delete deleted
  | @addPbsPorts id ports pbs added => exact .of_pbs (r := .addPorts id ports) hs.pools added
  | @deletePbsPorts id ports pbs deleted =>
      exact .of_pbs (r := .deletePorts id ports) hs.pools deleted
  | destroyPoolEntry destroyed => exact Pools.revised_destroy hs.pools destroyed
  | _ => exact .refl _

end Core

end AclPlane
