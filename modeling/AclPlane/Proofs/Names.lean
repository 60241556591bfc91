import AclPlane.Proofs.Destruction
import AclPlane.Proofs.Shown

/-!
The handles that an operation names.

An operation that succeeds has found every object that it names, and whether it looks the object up
or finds its handle in a list, the object is live.

* `Operation.names`, `Step.names`: the objects that are named, those inside rules included.
* `Core.Transition.isLive_of_names`, `Controller.isLive_of_names`: they are live on success.
* `Operation.creates`: the kind of object that is created.
* `Core.Transition.isLive_of_creates`: what has been created is live, even if it has been found.
-/

namespace AclPlane

/-! ### Names -/

/-- What is bound, as an object of its kind. -/
def BindTarget.ref : BindTarget → ObjectRef
  | acl id => id.ref
  | group id => id.ref

/-- The object that an attachment point is, if it is one of the control plane. -/
def AttachPoint.names : AttachPoint → List ObjectRef
  | vlanGroup id => [id.ref]
  | _ => []

/-- The entries of pools that a batch of rules refers to. -/
def Rule.namesAll (rules : List Rule) : List ObjectRef :=
  (PoolRefs.concat (rules.map refs)).entries.map PoolEntry.ref

namespace Operation

/-- The objects that an operation names. -/
def names : Operation → List ObjectRef
  | keyType (.create ..) => []
  | keyType (.destroy id) => [id.ref]
  | region (.create kt _) => [kt.ref]
  | region (.resize id _) => [id.ref]
  | region (.destroy id) => [id.ref]
  | acl (.create _ _ _ regions) => regions.map Handle.ref
  | acl (.edit id regions _) => id.ref :: regions.map Handle.ref
  | acl (.destroy id) => [id.ref]
  | rule (.set id _ rules) => id.ref :: Rule.namesAll rules
  | rule (.delete id _) => [id.ref]
  | rule (.deleteAll id) => [id.ref]
  | rule (.move id _) => [id.ref]
  | rule (.shiftPriority id _) => [id.ref]
  | group (.create _) => []
  | group (.set id acls) => id.ref :: acls.map Handle.ref
  | group (.add id member) => [id.ref, member.ref]
  | group (.delete id member) => [id.ref, member.ref]
  | group (.chain parent child) => [parent.ref, child.ref]
  | group (.unchain parent) => [parent.ref]
  | group (.setPriority id _) => [id.ref]
  | group (.destroy id) => [id.ref]
  | binding (.bind key target) => target.ref :: key.point.names
  | binding (.unbind key) => key.point.names
  | binding (.add key head) => head.ref :: key.point.names
  | binding (.delete key head) => head.ref :: key.point.names
  | pool (.create _) => []
  | pool (.edit entry _) => [entry.ref]
  | pool (.add entry _) => [entry.ref]
  | pool (.delete entry _) => [entry.ref]
  | pool (.destroy entry) => [entry.ref]
  | activity (.read id _) => [id.ref]
  | activity (.readClear id _) => [id.ref]
  | query _ => []

/-- The kind of object that an operation creates. -/
def creates : Operation → Option ObjectKind
  | keyType (.create ..) => some .keyType
  | region (.create ..) => some .region
  | acl (.create ..) => some .acl
  | group (.create _) => some .group
  | pool (.create (.pbs _)) => some .pbs
  | pool (.create (.range _)) => some .range
  | pool (.create (.customBytes _)) => some .customBytes
  | pool (.create (.portList _)) => some .portList
  | pool (.create (.vlanGroup _)) => some .vlanGroup
  | _ => none

end Operation

/-- The objects that a step names. -/
def Step.names : Step → List ObjectRef
  | addPbsPorts id _ => [id.ref]
  | deletePbsPorts id _ => [id.ref]
  | peekActivity region _ => [region.ref]
  | st => (st.operation?.map Operation.names).getD []

/-- The kind of object that a step creates. -/
def Step.creates (st : Step) : Option ObjectKind := st.operation?.bind Operation.creates

/-! ### Live objects -/

/-- All of the listed objects are live. -/
def Core.AllLive (c : Core) (refs : List ObjectRef) : Prop :=
  ∀ ref ∈ refs, c.isLive ref.handle = true

namespace Core.AllLive

variable {c : Core} {ref : ObjectRef} {refs : List ObjectRef}

lemma nil : c.AllLive [] := fun _ href => absurd href List.not_mem_nil

lemma cons (h : c.isLive ref.handle = true) (hrest : c.AllLive refs) : c.AllLive (ref :: refs) :=
  List.forall_mem_cons.mpr ⟨h, hrest⟩

lemma singleton (h : c.isLive ref.handle = true) : c.AllLive [ref] := cons h nil

lemma map {kind : ObjectKind} {ids : List (Handle kind)} (h : ∀ id ∈ ids, c.isLive id = true) :
    c.AllLive (ids.map Handle.ref) :=
  List.forall_mem_map.mpr h

end Core.AllLive

/-! ### Entries of pools -/

namespace Pool

variable {kind : ObjectKind} {α : Type} {p q : Pool kind α} {id : Handle kind} {value : α}

lemma contains_of_set (h : p.set id value = .ok q) : p.contains id = true := by
  simp only [set, bind_eq_ok, lookup_eq_ok] at h
  obtain ⟨c, hc, -⟩ := h
  exact Arena.contains_iff.mpr ⟨c, hc⟩

lemma contains_of_insert (hc : p.entries.Consistent) (h : p.insert value = .ok (id, q)) :
    q.contains id = true := by
  rw [insert] at h
  split at h
  · next hins =>
      cases h
      exact Arena.contains_insertWith? hc hins
  · cases h

lemma contains_of_remove (h : p.remove id = .ok (value, q)) : p.contains id = true := by
  simp only [remove, checkFree, bind_eq_ok, lookup_eq_ok] at h
  obtain ⟨_, ⟨c, hc, -⟩, -⟩ := h
  exact Arena.contains_iff.mpr ⟨c, hc⟩

end Pool

namespace Core

variable {c : Core} {entry : PoolEntry} {value : PoolValue} {pools : Pools}

lemma isLive_of_edit (h : c.pools.edit entry value = .ok pools) :
    c.isLive entry.ref.handle = true := by
  unfold Pools.edit at h
  split at h
  · simp only [PbsPool.edit, bind_eq_ok, guard_eq_ok, pure_eq_ok] at h
    obtain ⟨pool, ⟨_, -, -, hp⟩, -⟩ := h
    exact Pool.contains_of_set hp
  · simp only [RangePool.edit, bind_eq_ok, pure_eq_ok] at h
    obtain ⟨pool, ⟨_, -, _, -, _, -, inner, hp, -⟩, -⟩ := h
    exact Pool.contains_of_set hp
  · simp only [CustomBytesPool.edit, bind_eq_ok, pure_eq_ok] at h
    obtain ⟨pool, ⟨_, -, _, -, hp⟩, -⟩ := h
    exact Pool.contains_of_set hp
  · simp only [PortListPool.replace, bind_eq_ok, pure_eq_ok] at h
    obtain ⟨pool, ⟨_, -, hp⟩, -⟩ := h
    exact Pool.contains_of_set hp
  · cases h
  · cases h

lemma isLive_of_add (h : c.pools.add entry value = .ok pools) :
    c.isLive entry.ref.handle = true := by
  unfold Pools.add at h
  split at h
  · simp only [PortListPool.add, bind_eq_ok, pure_eq_ok] at h
    obtain ⟨pool, ⟨_, -, hp⟩, -⟩ := h
    exact Pool.contains_of_set hp
  · simp only [VlanGroupPool.add, bind_eq_ok, pure_eq_ok] at h
    obtain ⟨pool, ⟨_, -, _, -, hp⟩, -⟩ := h
    exact Pool.contains_of_set hp
  · cases h

lemma isLive_of_delete (h : c.pools.delete entry value = .ok pools) :
    c.isLive entry.ref.handle = true := by
  unfold Pools.delete at h
  split at h
  · simp only [PortListPool.delete, bind_eq_ok, pure_eq_ok] at h
    obtain ⟨pool, ⟨_, -, hp⟩, -⟩ := h
    split at hp
    · cases hp
    · exact Pool.contains_of_set hp
  · simp only [VlanGroupPool.delete, bind_eq_ok, pure_eq_ok] at h
    obtain ⟨pool, ⟨_, -, hp⟩, -⟩ := h
    split at hp
    · cases hp
    · exact Pool.contains_of_set hp
  · cases h

lemma isLive_of_destroy (h : c.pools.destroy entry = .ok pools) :
    c.isLive entry.ref.handle = true := by
  cases entry <;> simp only [Pools.destroy, bind_eq_ok, pure_eq_ok] at h <;>
    obtain ⟨_, hrem, -⟩ := h <;> exact Pool.contains_of_remove hrem

lemma isLive_of_addPorts {id : Handle .pbs} {ports : List PortId} {pool : PbsPool}
    (h : PbsPool.addPorts c.pools.pbs id ports = .ok pool) : c.isLive id = true := by
  simp only [PbsPool.addPorts, bind_eq_ok] at h
  obtain ⟨_, -, h⟩ := h
  exact Pool.contains_of_set h

lemma isLive_of_deletePorts {id : Handle .pbs} {ports : List PortId} {pool : PbsPool}
    (h : PbsPool.deletePorts c.pools.pbs id ports = .ok pool) : c.isLive id = true := by
  simp only [PbsPool.deletePorts, bind_eq_ok] at h
  obtain ⟨_, -, h⟩ := h
  split at h
  · cases h
  · rw [guard_eq_ok] at h
    exact Pool.contains_of_set h.2

/-- The entries that rules refer to are looked up. -/
lemma isLive_of_checkRefs {rules : List Rule} {u : Unit}
    (h : c.pools.checkRefs (PoolRefs.concat (rules.map Rule.refs)) = .ok u) :
    c.AllLive (Rule.namesAll rules) := by
  simp only [Pools.checkRefs, bind_eq_ok, Pools.checkAll_eq_ok] at h
  obtain ⟨_, hpbs, _, hranges, _, hbytes, hports⟩ := h
  intro ref href
  simp only [Rule.namesAll, PoolRefs.entries, List.map_append, List.mem_append,
    List.map_map, List.mem_map, Function.comp_apply] at href
  obtain ((⟨id, hid, rfl⟩ | ⟨id, hid, rfl⟩) | ⟨id, hid, rfl⟩) | ⟨id, hid, rfl⟩ := href
  · exact hpbs id hid
  · exact hranges id hid
  · exact hbytes id hid
  · exact hports id hid

/-! ### Bindings -/

lemma isLive_of_checkBindingKey {key : BindingKey} (h : c.checkBindingKey key = .ok ()) :
    c.AllLive key.point.names := by
  have hlive := contains_of_checkBindingKey h
  cases hpoint : key.point with
  | vlanGroup id => exact .singleton (hlive id hpoint)
  | _ => exact .nil

lemma isLive_of_targetPriority {d : Direction} {target : BindTarget} {priority : ℕ}
    (h : c.targetPriority d target = .ok priority) : c.isLive target.ref.handle = true := by
  cases target with
  | acl id => exact contains_of_targetPriority_acl h
  | group id => exact contains_of_targetPriority_group h

/-! ### Every transition -/

/-- Whatever a successful operation names is live, even where it is only found in a list. -/
theorem Transition.isLive_of_names {op : Operation} {done : Commit OpResult} (h : c.Linked)
    (hop : op.isReading = false) (ht : Transition c (some op) done) :
    c.AllLive op.names := by
  have hget : ∀ {kind : ObjectKind} {α : Type} {a : Arena kind α} {id : Handle kind} {v : α},
      a.get? id = some v → a.contains id = true := fun hv => Arena.contains_iff.mpr ⟨_, hv⟩
  have hrem : ∀ {kind : ObjectKind} {α : Type} {a a' : Arena kind α} {id : Handle kind} {v : α},
      a.remove? id = some (v, a') → a.contains id = true :=
    fun hr => hget (Arena.remove?_eq_some_iff.mp hr).1
  cases ht with
  | observe reading =>
      rw [reading op rfl] at hop
      cases hop
  | createKeyType => exact .nil
  | destroyKeyType destroyed =>
      obtain ⟨ct, types, hct, -⟩ := KeyTypes.destroy_eq_ok.mp destroyed
      exact .singleton (hget hct)
  | createRegion found => exact .singleton (hget found)
  | resizeRegion found => exact .singleton (hget found)
  | destroyRegion unused removed => exact .singleton (hrem removed)
  | createAcl planned =>
      obtain ⟨-, hcheck, -⟩ := Acls.of_planCreate planned
      exact .map (Acls.checkRegions_eq_ok.mp hcheck).2.2
  | editAcl found planned =>
      obtain ⟨hcheck, -⟩ := Acls.of_planEdit found planned
      exact .cons (hget found) (.map (Acls.checkRegions_eq_ok.mp hcheck).2.2)
  | destroyAcl unlisted unbound removed => exact .singleton (hrem removed)
  | setRules found lengths typed checked live =>
      exact .cons (hget found) (isLive_of_checkRefs live)
  | setNoRules found => exact .singleton (hget found)
  | deleteRules found asked =>
      rcases asked with rfl | ⟨rfl, -⟩
      · exact .singleton (hget found)
      · exact .singleton (hget found)
  | deleteNoRules found asked =>
      rcases asked with rfl | ⟨rfl, -⟩
      · exact .singleton (hget found)
      · exact .singleton (hget found)
  | moveBlock found => exact .singleton (hget found)
  | shiftPriority found => exact .singleton (hget found)
  | shiftNothing found => exact .singleton (hget found)
  | createGroup => exact .nil
  | setGroupAcls found checked =>
      obtain ⟨_, -, -, -, hlive⟩ := Groups.checkMembers_eq_ok.mp checked
      exact .cons (hget found) (.map fun id hid => (hlive id hid).elim fun _ ha => hget ha.1)
  | addGroupAcl found planned =>
      obtain ⟨g, -, -, rfl, hcheck⟩ := Groups.planAdd_eq_some.mp planned
      obtain ⟨_, -, -, -, hlive⟩ := Groups.checkMembers_eq_ok.mp hcheck
      obtain ⟨a, ha, -⟩ := hlive _ (List.mem_append_right _ (List.mem_singleton_self _))
      exact .cons (hget found) (.singleton (hget ha))
  | addMember planned =>
      obtain ⟨g, hg, hmem⟩ := Groups.planAdd_eq_none.mp planned
      exact .cons (hget hg) (.singleton ((h.members _ _ hg).live _ hmem))
  | deleteGroupAcl found planned =>
      obtain ⟨g, hg, hmem, -⟩ := Groups.planDelete_eq_ok.mp planned
      exact .cons (hget hg) (.singleton ((h.members _ _ hg).live _ hmem))
  | chainGroups found planned =>
      obtain ⟨_, child, -, hchild, -⟩ := Groups.planChain_eq_ok.mp planned
      exact .cons (hget found) (.singleton (hget hchild))
  | unchainGroup found => exact .singleton (hget found)
  | setGroupPriority found => exact .singleton (hget found)
  | destroyGroup unbound unfollowing removed => exact .singleton (hrem removed)
  | bind checked bindable =>
      exact .cons (isLive_of_targetPriority bindable) (isLive_of_checkBindingKey checked)
  | unbind checked => exact isLive_of_checkBindingKey checked
  | bindAdd checked bindable =>
      exact .cons (isLive_of_targetPriority bindable) (isLive_of_checkBindingKey checked)
  | bindAgain checked bindable =>
      exact .cons (isLive_of_targetPriority bindable) (isLive_of_checkBindingKey checked)
  | bindDelete checked planned =>
      obtain ⟨⟨e, he, htarget⟩, -⟩ := Bindings.planDelete_eq_ok.mp planned
      exact .cons (h.boundGroups _ e he _ htarget) (isLive_of_checkBindingKey checked)
  | createPoolEntry => exact .nil
  | editPoolEntry edited => exact .singleton (isLive_of_edit edited)
  | addPoolMembers added => exact .singleton (isLive_of_add added)
  | deletePoolMembers deleted => exact .singleton (isLive_of_delete deleted)
  | destroyPoolEntry destroyed => exact .singleton (isLive_of_destroy destroyed)

/-! ### Creation -/

lemma creates_createPoolEntry (h : c.pools.create value = .ok (entry, pools)) :
    (Operation.pool (.create value)).creates = some entry.ref.kind := by
  cases value <;> simp only [Pools.create, bind_eq_ok, pure_eq_ok, Prod.mk.injEq] at h <;>
    obtain ⟨_, -, rfl, -⟩ := h <;> rfl

/-- An entry that has been created is live. -/
lemma isLive_of_create (hc : c.pools.Consistent) (h : c.pools.create value = .ok (entry, pools)) :
    { c with pools := pools }.isLive entry.ref.handle = true := by
  cases value with
  | pbs destination =>
      simp only [Pools.create, PbsPool.create, bind_eq_ok, pure_eq_ok, Prod.mk.injEq] at h
      obtain ⟨⟨id, pool⟩, ⟨_, -, hp⟩, rfl, rfl⟩ := h
      split at hp
      · cases hp
      · exact Pool.contains_of_insert hc.pbs hp
  | range r =>
      simp only [Pools.create, RangePool.create, bind_eq_ok, pure_eq_ok, Prod.mk.injEq] at h
      obtain ⟨_, ⟨_, -, _, -, ⟨id, inner⟩, hp, rfl⟩, rfl, rfl⟩ := h
      exact Pool.contains_of_insert hc.ranges hp
  | customBytes set =>
      simp only [Pools.create, CustomBytesPool.create, bind_eq_ok, pure_eq_ok, Prod.mk.injEq] at h
      obtain ⟨⟨id, pool⟩, ⟨_, -, hp⟩, rfl, rfl⟩ := h
      exact Pool.contains_of_insert hc.customBytes hp
  | portList ports =>
      simp only [Pools.create, PortListPool.create, bind_eq_ok, pure_eq_ok, Prod.mk.injEq] at h
      obtain ⟨⟨id, pool⟩, ⟨_, -, hp⟩, rfl, rfl⟩ := h
      exact Pool.contains_of_insert hc.portLists hp
  | vlanGroup vlans =>
      simp only [Pools.create, VlanGroupPool.create, bind_eq_ok, pure_eq_ok, Prod.mk.injEq] at h
      obtain ⟨⟨id, pool⟩, ⟨_, -, hp⟩, rfl, rfl⟩ := h
      exact Pool.contains_of_insert hc.vlanGroups hp

/-- What an operation creates is live afterwards, even if it is found among what there is. -/
theorem Transition.isLive_of_creates {op : Operation} {kind : ObjectKind}
    {done : Commit OpResult} (hs : c.Steady) (h : c.Linked) (hop : op.creates = some kind)
    (ht : Transition c (some op) done) :
    ∃ id : Handle kind, done.result = .created id.raw ∧ done.core.isLive id = true := by
  cases ht with
  | observe reading =>
      have hreading := reading op rfl
      cases op with
      | activity op => cases hop
      | query q => cases hop
      | _ => cases hreading
  | createKeyType found =>
      cases hop
      exact ⟨_, rfl, h.interned.contains_of_intern hs.keyTypes found⟩
  | createRegion found planned inserted =>
      cases hop
      exact ⟨_, rfl, Arena.contains_insertWith? hs.regions inserted⟩
  | createAcl planned inserted =>
      cases hop
      exact ⟨_, rfl, Arena.contains_insertWith? hs.acls inserted⟩
  | createGroup planned inserted =>
      cases hop
      exact ⟨_, rfl, Arena.contains_insertWith? hs.groups inserted⟩
  | createPoolEntry created =>
      have hkind := creates_createPoolEntry created
      obtain rfl := Option.some.inj (hop.symm.trans hkind)
      exact ⟨_, rfl, isLive_of_create hs.pools created⟩
  | _ => cases hop

end Core

namespace Controller

variable {s : Controller} {r : OpResult}

/-! ### Every step -/

lemma isLive_of_checkActivity {region : Handle .region} {offsets : List ℕ}
    (h : s.core.checkActivity region offsets = .ok ()) : s.core.isLive region = true := by
  obtain ⟨found, hfound, -⟩ := of_checkActivity h
  exact Arena.contains_iff.mpr ⟨found, hfound⟩

lemma isLive_of_readActivity {region : Handle .region} {offsets : List ℕ} {clear : Bool}
    (hr : ((s.readActivity region offsets clear).map .activity).result = .ok r) :
    s.core.isLive region = true := by
  rw [readActivity] at hr
  split at hr
  · cases hr
  · next hcheck => exact isLive_of_checkActivity hcheck

lemma isLive_of_peekActivity {region : Handle .region} {offsets : List ℕ}
    (hr : ((s.peekActivity region offsets).map .activity).result = .ok r) :
    s.core.isLive region = true := by
  rw [peekActivity] at hr
  split at hr
  · cases hr
  · next hcheck => exact isLive_of_checkActivity hcheck

/-- A plan that has a result is carried out. -/
lemma carried_of_applyDone {plan : Except AclError (Change Unit)}
    (hr : (s.applyDone plan).result = .ok r) : ∃ done, Core.Carried plan done := by
  rcases s.apply_cases plan with ⟨done, hdone, -⟩ | ⟨e, failures, hresult, -⟩
  · exact ⟨done, hdone⟩
  · rw [applyDone, Outcome.map, hresult] at hr
    cases hr

lemma isLive_of_execute (h : s.core.Linked) {op : Operation}
    (hr : (s.execute op).result = .ok r) : s.core.AllLive op.names := by
  cases hop : op.isReading with
  | false =>
      cases s.follows_execute op with
      | done result transition delivered => exact transition.isLive_of_names h hop
      | failed result unchanged =>
          rw [result] at hr
          cases hr
  | true =>
      cases op with
      | activity op =>
          cases op with
          | read region offsets => exact .singleton (isLive_of_readActivity hr)
          | readClear region offsets => exact .singleton (isLive_of_readActivity hr)
      | query q => exact .nil
      | _ => cases hop

/-- Whatever a successful step names is live. -/
theorem isLive_of_names (h : s.core.Linked) {st : Step} (hr : (s.step st).result = .ok r) :
    s.core.AllLive st.names := by
  cases st with
  | operation op => exact isLive_of_execute h hr
  | command cmd params =>
      cases hop : Operation.ofCommand cmd params with
      | error e =>
          simp only [step, hop] at hr
          cases hr
      | ok op =>
          simp only [step, hop] at hr
          simp only [Step.names, Step.operation?, hop]
          exact isLive_of_execute h hr
  | addPbsPorts id ports =>
      obtain ⟨done, hdone⟩ := carried_of_applyDone hr
      obtain ⟨pools, hpools, -⟩ := Core.of_withPools hdone
      obtain ⟨pbs, hpbs, -⟩ := bind_eq_ok.mp hpools
      exact .singleton (Core.isLive_of_addPorts hpbs)
  | deletePbsPorts id ports =>
      obtain ⟨done, hdone⟩ := carried_of_applyDone hr
      obtain ⟨pools, hpools, -⟩ := Core.of_withPools hdone
      obtain ⟨pbs, hpbs, -⟩ := bind_eq_ok.mp hpools
      exact .singleton (Core.isLive_of_deletePorts hpbs)
  | peekActivity region offsets => exact .singleton (isLive_of_peekActivity hr)
  | _ => exact .nil

/-- What a successful step creates is live afterwards. -/
theorem isLive_of_creates (hs : s.core.Steady) (h : s.core.Linked) {st : Step}
    {kind : ObjectKind} (hkind : st.creates = some kind) (hr : (s.step st).result = .ok r) :
    ∃ id : Handle kind, r = .created id.raw ∧ (s.step st).controller.core.isLive id = true := by
  obtain ⟨op, hop, hcreates⟩ := Option.bind_eq_some_iff.mp hkind
  have hfollows := s.follows_step st
  rw [hop] at hfollows
  cases hfollows with
  | done result transition delivered =>
      obtain rfl := Except.ok.inj (hr.symm.trans result)
      exact transition.isLive_of_creates hs h hcreates
  | failed result unchanged =>
      rw [result] at hr
      cases hr

end Controller

end AclPlane
