import AclPlane.Proofs.Landing.Acls
import AclPlane.Proofs.Landing.Bindings
import AclPlane.Proofs.Landing.Regions
import AclPlane.Proofs.Regions
import AclPlane.Proofs.Transition

/-!
Plans that are carried out make a transition.

There is one lemma for each operation, which takes its plan and its commit apart once and for all.
-/

namespace AclPlane

namespace Core

/-! ### Plans that are carried out -/

/-- What a plan leaves behind once it is carried out. -/
def Carried {α : Type} (plan : Except AclError (Change α)) (done : Commit α) : Prop :=
  ∃ change, plan = .ok change ∧ change.commit = .ok done

variable {c : Core}

/-! ### Key types and regions -/

/-- The answer is the handle that interning gives, of a new key type or of one that was there. -/
lemma transition_createKeyType {fields : List BasicKey} {hint : Option KeyBlockId}
    {done : Commit (Handle .keyType)} (h : Carried (c.createKeyType fields hint) done) :
    Transition c (some (.keyType (.create fields hint)))
      ⟨done.core, done.events, .created done.result.raw⟩ := by
  obtain ⟨change, hp, hd⟩ := h
  simp only [createKeyType, bind_eq_ok, pure_eq_ok] at hp
  obtain ⟨⟨id, kts⟩, hi, rfl⟩ := hp
  cases hd
  exact .createKeyType hi

/-- The store of key types is the one that the plan has computed. -/
lemma transition_destroyKeyType {id : Handle .keyType} {done : Commit Unit}
    (h : Carried (c.destroyKeyType id) done) :
    Transition c (some (.keyType (.destroy id))) ⟨done.core, done.events, .done⟩ := by
  obtain ⟨change, hp, hd⟩ := h
  simp only [destroyKeyType, bind_eq_ok, pure_eq_ok] at hp
  obtain ⟨kts, hdes, rfl⟩ := hp
  cases hd
  exact .destroyKeyType hdes

/-- Plan and commit agree on the handle, and the key type counts the region. -/
lemma transition_createRegion {keyType : Handle .keyType} {capacity : ℕ}
    {done : Commit (Handle .region)} (h : Carried (c.createRegion keyType capacity) done) :
    Transition c (some (.region (.create keyType capacity)))
      ⟨done.core, done.events, .created done.result.raw⟩ := by
  obtain ⟨change, hp, hd⟩ := h
  obtain ⟨ct, id, hwSize, regions, keyTypes, hct, hplan, hins, hcount, rfl⟩ :=
    createRegion_eq_ok hp
  cases hd
  exact .createRegion hct hplan hins hcount

/-- The answer is the hardware size that the plan has computed. -/
lemma transition_resizeRegion {id : Handle .region} {capacity : ℕ} {done : Commit ℕ}
    (h : Carried (c.resizeRegion id capacity) done) :
    Transition c (some (.region (.resize id capacity)))
      ⟨done.core, done.events, .resized done.result⟩ := by
  obtain ⟨change, hp, hd⟩ := h
  simp only [resizeRegion, bind_eq_ok, pure_eq_ok] at hp
  obtain ⟨hwSize, hplan, rfl⟩ := hp
  simp only [bind_eq_ok, pure_eq_ok, Regions.resize_eq_ok] at hd
  obtain ⟨regions, ⟨r, table, hr, htable, rfl⟩, rfl⟩ := hd
  exact .resizeRegion hr hplan htable

/-- Its key type and the entries of its rules are released once the region is gone. -/
lemma transition_destroyRegion {id : Handle .region} {done : Commit Unit}
    (h : Carried (c.destroyRegion id) done) :
    Transition c (some (.region (.destroy id))) ⟨done.core, done.events, .done⟩ := by
  obtain ⟨change, hp, hd⟩ := h
  simp only [destroyRegion, bind_eq_ok, Regions.get_eq_ok] at hp
  obtain ⟨r, hr, hp⟩ := hp
  split at hp
  · cases hp
  · next hunused =>
      cases hp
      obtain ⟨regions, hrem⟩ := Arena.exists_remove? hr
      simp only [Regions.destroy, hrem, ok_bind, bind_eq_ok, pure_eq_ok] at hd
      obtain ⟨kts, hcount, pools, hpools, rfl⟩ := hd
      exact .destroyRegion hunused hrem hcount hpools

/-! ### Rules -/

/-- What the new rules refer to is acquired before what the replaced ones refer to is released.  A
batch without rules changes nothing. -/
lemma transition_setRules {region : Handle .region} {offsets : List ℕ} {rules : List Rule}
    {done : Commit Unit} (h : Carried (c.setRules region offsets rules) done) :
    Transition c (some (.rule (.set region offsets rules))) ⟨done.core, done.events, .done⟩ := by
  obtain ⟨change, hp, hd⟩ := h
  simp only [setRules, bind_eq_ok, guard_eq_ok, Regions.get_eq_ok, not_not, ne_eq] at hp
  obtain ⟨r, hr, hlen, -, kt, hkt, _, hbatch, _, hrefs, hp⟩ := hp
  obtain ⟨ct, hct, rfl⟩ := KeyTypes.get_eq_ok.mp hkt
  split at hp
  · next hempty =>
      cases hp
      cases hd
      obtain rfl := List.isEmpty_iff.mp hempty
      exact .setNoRules hr
  · cases hp
    simp only [bind_eq_ok, Regions.get_eq_ok, hr, Option.some.injEq, exists_eq_left', pure_eq_ok]
      at hd
    obtain ⟨acquired, hacq, ⟨replaced, table⟩, hset, pools, hrel, rfl⟩ := hd
    exact .setRules hr hlen hct hbatch hrefs hacq hset hrel

/-- Both ways to delete rules come here: by their offsets, or all those that are occupied. -/
lemma transition_deleteRules {op : RuleOp} {region : Handle .region} {offsets : List ℕ}
    {done : Commit Unit} (h : Carried (c.deleteRules region offsets) done)
    (hasked : ∀ r, c.regions.regions.get? region = some r → op = .delete region offsets ∨
      op = .deleteAll region ∧ offsets = r.table.occupied.map Prod.fst) :
    Transition c (some (.rule op)) ⟨done.core, done.events, .done⟩ := by
  obtain ⟨change, hp, hd⟩ := h
  simp only [deleteRules, bind_eq_ok, Regions.get_eq_ok] at hp
  obtain ⟨r, hr, occupied, hlisted, hp⟩ := hp
  split at hp
  · next hempty =>
      cases hp
      cases hd
      obtain rfl := List.isEmpty_iff.mp hempty
      exact .deleteNoRules hr (hasked r hr) hlisted
  · cases hp
    simp only [bind_eq_ok, Regions.get_eq_ok, hr, Option.some.injEq, exists_eq_left', pure_eq_ok]
      at hd
    obtain ⟨⟨cleared, table⟩, hclear, pools, hrel, rfl⟩ := hd
    exact .deleteRules hr (hasked r hr) hlisted hclear hrel

/-- All rules are deleted as the offsets that are occupied. -/
lemma transition_deleteAllRules {region : Handle .region} {done : Commit Unit}
    (h : Carried (c.deleteAllRules region) done) :
    Transition c (some (.rule (.deleteAll region))) ⟨done.core, done.events, .done⟩ := by
  obtain ⟨change, hp, hd⟩ := h
  simp only [deleteAllRules, bind_eq_ok, Regions.get_eq_ok] at hp
  obtain ⟨r, hr, hp⟩ := hp
  refine transition_deleteRules ⟨change, hp, hd⟩ fun r' hr' => ?_
  rw [hr, Option.some.injEq] at hr'
  exact .inr ⟨rfl, by rw [hr']⟩

/-- A move touches the table of its region only: no reference is counted. -/
lemma transition_moveBlock {region : Handle .region} {block : BlockMove} {done : Commit Unit}
    (h : Carried (c.moveBlock region block.src block.size block.dst) done) :
    Transition c (some (.rule (.move region block))) ⟨done.core, done.events, .done⟩ := by
  obtain ⟨change, hp, hd⟩ := h
  simp only [moveBlock, bind_eq_ok, Regions.get_eq_ok, pure_eq_ok] at hp
  obtain ⟨r, hr, _, -, rfl⟩ := hp
  simp only [bind_eq_ok, Regions.get_eq_ok, hr, Option.some.injEq, exists_eq_left', pure_eq_ok]
    at hd
  obtain ⟨table, hmove, rfl⟩ := hd
  exact .moveBlock hr hmove

/-- The table gets the planned priorities.  A band without rules changes nothing. -/
lemma transition_shiftPriority {region : Handle .region} {shift : PriorityShift}
    {done : Commit Unit}
    (h : Carried (c.shiftPriority region shift.low shift.high shift.delta) done) :
    Transition c (some (.rule (.shiftPriority region shift)))
      ⟨done.core, done.events, .done⟩ := by
  obtain ⟨change, hp, hd⟩ := h
  simp only [shiftPriority, bind_eq_ok, Regions.get_eq_ok] at hp
  obtain ⟨r, hr, updates, hplan, hp⟩ := hp
  split at hp
  · next hempty =>
      cases hp
      cases hd
      obtain rfl := List.isEmpty_iff.mp hempty
      exact .shiftNothing hr hplan
  · cases hp
    simp only [bind_eq_ok, Regions.get_eq_ok, hr, Option.some.injEq, exists_eq_left', pure_eq_ok]
      at hd
    subst hd
    exact .shiftPriority hr hplan

/-! ### ACLs -/

/-- The handle that the device has been given is the one that the store gives out. -/
lemma transition_createAcl {aclType : AclType} {direction : Direction} {bitmap : DirectionSet}
    {regions : List (Handle .region)} {done : Commit (Handle .acl)}
    (h : Carried (c.createAcl aclType direction bitmap regions) done) :
    Transition c (some (.acl (.create aclType direction bitmap regions)))
      ⟨done.core, done.events, .created done.result.raw⟩ := by
  obtain ⟨change, hp, hd⟩ := h
  obtain ⟨id, acls, hplan, hins, rfl⟩ := createAcl_eq_ok hp
  cases hd
  exact .createAcl hplan hins

/-- The bitmap is the one that the plan has settled, not the one that was asked for. -/
lemma transition_editAcl {id : Handle .acl} {regions : List (Handle .region)}
    {asked : DirectionSet} {done : Commit Unit} (h : Carried (c.editAcl id regions asked) done) :
    Transition c (some (.acl (.edit id regions asked))) ⟨done.core, done.events, .done⟩ := by
  obtain ⟨change, hp, hd⟩ := h
  obtain ⟨a, bitmap, ha, hplan, rfl⟩ := editAcl_eq_ok hp
  cases hd
  exact .editAcl ha hplan

/-- No group lists the ACL and no binding targets it. -/
lemma transition_destroyAcl {id : Handle .acl} {done : Commit Unit}
    (h : Carried (c.destroyAcl id) done) :
    Transition c (some (.acl (.destroy id))) ⟨done.core, done.events, .done⟩ := by
  obtain ⟨change, hp, hd⟩ := h
  obtain ⟨a, acls, hunlisted, hunbound, hrem, rfl⟩ := destroyAcl_eq_ok hp
  cases hd
  exact .destroyAcl hunlisted hunbound hrem

/-! ### Groups -/

lemma transition_createGroup {direction : Direction} {done : Commit (Handle .group)}
    (h : Carried (c.createGroup direction) done) :
    Transition c (some (.group (.create direction)))
      ⟨done.core, done.events, .created done.result.raw⟩ := by
  obtain ⟨change, hp, hd⟩ := h
  obtain ⟨id, groups, hplan, hins, rfl⟩ := createGroup_eq_ok hp
  cases hd
  exact .createGroup hplan hins

/-- The members are the list that has been checked. -/
lemma transition_setGroupAcls {id : Handle .group} {acls : List (Handle .acl)}
    {done : Commit Unit} (h : Carried (c.setGroupAcls id acls) done) :
    Transition c (some (.group (.set id acls))) ⟨done.core, done.events, .done⟩ := by
  obtain ⟨change, hp, hd⟩ := h
  obtain ⟨g, hg, hcheck, rfl⟩ := setGroupAcls_eq_ok hp
  cases hd
  exact .setGroupAcls hg hcheck

/-- An ACL that is a member already changes nothing. -/
lemma transition_addGroupAcl {id : Handle .group} {acl : Handle .acl} {done : Commit Unit}
    (h : Carried (c.addGroupAcl id acl) done) :
    Transition c (some (.group (.add id acl))) ⟨done.core, done.events, .done⟩ := by
  obtain ⟨change, hp, hd⟩ := h
  rcases addGroupAcl_eq_ok hp with ⟨g, acls, hg, hplan, rfl⟩ | ⟨hplan, rfl⟩
  · cases hd
    exact .addGroupAcl hg hplan
  · cases hd
    exact .addMember hplan

/-- The other members keep their order. -/
lemma transition_deleteGroupAcl {id : Handle .group} {acl : Handle .acl} {done : Commit Unit}
    (h : Carried (c.deleteGroupAcl id acl) done) :
    Transition c (some (.group (.delete id acl))) ⟨done.core, done.events, .done⟩ := by
  obtain ⟨change, hp, hd⟩ := h
  obtain ⟨g, acls, hg, hplan, rfl⟩ := deleteGroupAcl_eq_ok hp
  cases hd
  exact .deleteGroupAcl hg hplan

/-- The parent alone is changed. -/
lemma transition_chainGroups {parent child : Handle .group} {done : Commit Unit}
    (h : Carried (c.chainGroups parent child) done) :
    Transition c (some (.group (.chain parent child))) ⟨done.core, done.events, .done⟩ := by
  obtain ⟨change, hp, hd⟩ := h
  obtain ⟨p, hparent, hplan, rfl⟩ := chainGroups_eq_ok hp
  cases hd
  exact .chainGroups hparent hplan

/-- The parent has had a successor, which becomes the head of the rest. -/
lemma transition_unchainGroup {parent : Handle .group} {done : Commit Unit}
    (h : Carried (c.unchainGroup parent) done) :
    Transition c (some (.group (.unchain parent))) ⟨done.core, done.events, .done⟩ := by
  obtain ⟨change, hp, hd⟩ := h
  obtain ⟨p, hparent, hnext, rfl⟩ := unchainGroup_eq_ok hp
  cases hd
  exact .unchainGroup hparent hnext

/-- The priority is kept for later bindings. -/
lemma transition_setGroupPriority {id : Handle .group} {priority : ℕ} {done : Commit Unit}
    (h : Carried (c.setGroupPriority id priority) done) :
    Transition c (some (.group (.setPriority id priority))) ⟨done.core, done.events, .done⟩ := by
  obtain ⟨change, hp, hd⟩ := h
  obtain ⟨g, hg, hallowed, rfl⟩ := setGroupPriority_eq_ok hp
  cases hd
  exact .setGroupPriority hg hallowed

/-- The group belongs to no bound chain and follows no other. -/
lemma transition_destroyGroup {id : Handle .group} {done : Commit Unit}
    (h : Carried (c.destroyGroup id) done) :
    Transition c (some (.group (.destroy id))) ⟨done.core, done.events, .done⟩ := by
  obtain ⟨change, hp, hd⟩ := h
  obtain ⟨g, groups, hunbound, hfirst, hrem, rfl⟩ := destroyGroup_eq_ok hp
  cases hd
  exact .destroyGroup hunbound hfirst hrem

/-! ### Bindings -/

/-- Whatever changes the entries of a key counts its VLAN group and reports the key. -/
lemma of_rebind {key : BindingKey} {list : List BoundEntry} {stats : Stats} {done : Commit Unit}
    (h : (c.rebind key list stats).commit = .ok done) : ∃ pools,
      c.countBinding key list = .ok pools ∧
        done = ⟨c.rebound key list pools stats, [.bindingChanged key], ()⟩ := by
  simp only [rebind, bind_eq_ok, pure_eq_ok] at h
  obtain ⟨pools, hcount, rfl⟩ := h
  exact ⟨pools, hcount, rfl⟩

/-- The target becomes the only entry of the key. -/
lemma transition_bindTarget {key : BindingKey} {target : BindTarget} {done : Commit Unit}
    (h : Carried (c.bindTarget key target) done) :
    Transition c (some (.binding (.bind key target))) ⟨done.core, done.events, .done⟩ := by
  obtain ⟨change, hp, hd⟩ := h
  obtain ⟨priority, hcheck, hpriority, rfl⟩ := bindTarget_eq_ok hp
  obtain ⟨pools, hcount, rfl⟩ := of_rebind hd
  exact .bind hcheck hpriority hcount

/-- The key has carried a binding and carries none afterwards. -/
lemma transition_unbind {key : BindingKey} {done : Commit Unit}
    (h : Carried (c.unbind key) done) :
    Transition c (some (.binding (.unbind key))) ⟨done.core, done.events, .done⟩ := by
  obtain ⟨change, hp, hd⟩ := h
  obtain ⟨hcheck, hbound, rfl⟩ := unbind_eq_ok hp
  obtain ⟨pools, hcount, rfl⟩ := of_rebind hd
  exact .unbind hcheck hbound hcount

/-- A chain that is bound already changes nothing, and nothing is reported. -/
lemma transition_bindAdd {key : BindingKey} {group : Handle .group} {done : Commit Unit}
    (h : Carried (c.bindAdd key group) done) :
    Transition c (some (.binding (.add key group))) ⟨done.core, done.events, .done⟩ := by
  obtain ⟨change, hp, hd⟩ := h
  obtain ⟨priority, hcheck, hpriority, ⟨list, hplan, rfl⟩ | ⟨hplan, rfl⟩⟩ := bindAdd_eq_ok hp
  · obtain ⟨pools, hcount, rfl⟩ := of_rebind hd
    exact .bindAdd hcheck hpriority hplan hcount
  · cases hd
    exact .bindAgain hcheck hpriority hplan

/-- The key loses the entry of the chain, and its binding with the last one. -/
lemma transition_bindDelete {key : BindingKey} {group : Handle .group} {done : Commit Unit}
    (h : Carried (c.bindDelete key group) done) :
    Transition c (some (.binding (.delete key group))) ⟨done.core, done.events, .done⟩ := by
  obtain ⟨change, hp, hd⟩ := h
  obtain ⟨list, hcheck, hplan, rfl⟩ := bindDelete_eq_ok hp
  obtain ⟨pools, hcount, rfl⟩ := of_rebind hd
  exact .bindDelete hcheck hplan hcount

/-! ### Pool entries -/

/-- The answer is the handle that the pool gives out. -/
lemma transition_createPoolEntry {value : PoolValue} {done : Commit PoolEntry}
    (h : Carried (c.createPoolEntry value) done) :
    Transition c (some (.pool (.create value)))
      ⟨done.core, done.events, .created done.result.ref.raw⟩ := by
  obtain ⟨change, hp, hd⟩ := h
  simp only [createPoolEntry, bind_eq_ok, pure_eq_ok] at hp
  obtain ⟨⟨entry, pools⟩, hcreate, rfl⟩ := hp
  cases hd
  exact .createPoolEntry hcreate

/-- A change of the pools changes nothing else and reports nothing. -/
lemma of_withPools {pools : Except AclError Pools} {done : Commit Unit}
    (h : Carried (c.withPools pools) done) :
    ∃ p, pools = .ok p ∧ done = ⟨{ c with pools := p }, [], ()⟩ := by
  obtain ⟨change, hp, hd⟩ := h
  simp only [withPools, bind_eq_ok, pure_eq_ok] at hp
  obtain ⟨p, hpools, rfl⟩ := hp
  cases hd
  exact ⟨p, hpools, rfl⟩

lemma transition_editPoolEntry {entry : PoolEntry} {value : PoolValue} {done : Commit Unit}
    (h : Carried (c.editPoolEntry entry value) done) :
    Transition c (some (.pool (.edit entry value))) ⟨done.core, done.events, .done⟩ := by
  obtain ⟨p, hp, rfl⟩ := of_withPools h
  exact .editPoolEntry hp

lemma transition_addPoolMembers {entry : PoolEntry} {value : PoolValue} {done : Commit Unit}
    (h : Carried (c.addPoolMembers entry value) done) :
    Transition c (some (.pool (.add entry value))) ⟨done.core, done.events, .done⟩ := by
  obtain ⟨p, hp, rfl⟩ := of_withPools h
  exact .addPoolMembers hp

lemma transition_deletePoolMembers {entry : PoolEntry} {value : PoolValue} {done : Commit Unit}
    (h : Carried (c.deletePoolMembers entry value) done) :
    Transition c (some (.pool (.delete entry value))) ⟨done.core, done.events, .done⟩ := by
  obtain ⟨p, hp, rfl⟩ := of_withPools h
  exact .deletePoolMembers hp

/-- No operation asks for a change of the ports of a PBS entry, only a step of its own. -/
lemma transition_addPbsPorts {id : Handle .pbs} {ports : List PortId} {done : Commit Unit}
    (h : Carried (c.addPbsPorts id ports) done) :
    Transition c none ⟨done.core, done.events, .done⟩ := by
  obtain ⟨p, hp, rfl⟩ := of_withPools h
  simp only [bind_eq_ok, pure_eq_ok] at hp
  obtain ⟨pbs, hadd, rfl⟩ := hp
  exact .addPbsPorts hadd

lemma transition_deletePbsPorts {id : Handle .pbs} {ports : List PortId} {done : Commit Unit}
    (h : Carried (c.deletePbsPorts id ports) done) :
    Transition c none ⟨done.core, done.events, .done⟩ := by
  obtain ⟨p, hp, rfl⟩ := of_withPools h
  simp only [bind_eq_ok, pure_eq_ok] at hp
  obtain ⟨pbs, hdelete, rfl⟩ := hp
  exact .deletePbsPorts hdelete

/-- The entry has had no references, and its handle is reported. -/
lemma transition_destroyPoolEntry {entry : PoolEntry} {done : Commit Unit}
    (h : Carried (c.destroyPoolEntry entry) done) :
    Transition c (some (.pool (.destroy entry))) ⟨done.core, done.events, .done⟩ := by
  obtain ⟨change, hp, hd⟩ := h
  simp only [destroyPoolEntry, bind_eq_ok, pure_eq_ok] at hp
  obtain ⟨pools, hdestroy, rfl⟩ := hp
  cases hd
  exact .destroyPoolEntry hdestroy

end Core

end AclPlane
