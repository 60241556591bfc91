import AclPlane.Proofs.Calls
import AclPlane.Proofs.Links
import AclPlane.Proofs.RegionCalls

/-!
The device has the ACLs, the groups and the bindings of the model after every run, even if a
reference count has stopped at its greatest value.

A count that is too small lets an operation on regions or rules fail after the device has accepted
its call, so the regions of model and device may part.  Those calls leave the other tables of the
device alone, and the calls that change these are followed by a commit that cannot fail.

* `Controller.tables_step`: a step that is not about ACLs, groups and bindings calls the device on
  regions if at all.
* `Change.Shows`: a commit cannot fail, and the device shows what the model becomes.
* `Controller.shown_step`: every step keeps ACLs, groups and bindings shown.
* `Controller.shown_run`: so they are shown after every run.
-/

namespace AclPlane

variable {α : Type}

/-! ### Calls on regions -/

/-- Any number of calls on regions leave the other tables alone. -/
lemma DeviceTables.keptBy_isOnRegion {t₀ : DeviceTables} :
    KeptBy (fun call => call.isOnRegion = true)
      fun t => ∃ regions, t = { t₀ with regions := regions } := by
  rintro call t t' bit hcall happly ⟨regions, rfl⟩
  obtain ⟨regions', rfl⟩ := eq_of_isOnRegion hcall happly
  exact ⟨regions', rfl⟩

/-! ### Operations that are not seen -/

/-- Whether an operation is on an ACL, a group or a binding. -/
def Operation.isSeen : Operation → Bool
  | acl _ | group _ | binding _ => true
  | _ => false

/-- Other operations change no ACL, no group and no binding of the model. -/
lemma Core.Transition.unseen {c : Core} {op : Option Operation} {done : Commit OpResult}
    (ht : Core.Transition c op done) (hop : ∀ o ∈ op, o.isSeen = false) :
    done.core.acls = c.acls ∧ done.core.groups = c.groups ∧ done.core.bindings = c.bindings := by
  cases ht <;> first
    | exact ⟨rfl, rfl, rfl⟩
    | cases hop _ rfl

/-- What the device shows does not depend on regions. -/
lemma Core.Shown.of_unseen {c c' : Core} {t : DeviceTables} (h : c.Shown t)
    (hsame : c'.acls = c.acls ∧ c'.groups = c.groups ∧ c'.bindings = c.bindings)
    (regions : OrderedMap (Handle .region) DeviceRegion) :
    c'.Shown { t with regions := regions } := by
  obtain ⟨hacls, hgroups, hbindings⟩ := hsame
  refine ⟨fun id => ?_, fun id => ?_, fun key => ?_⟩
  · rw [hacls, h.acls]
  · rw [hgroups, h.groups]
  · rw [hbindings, h.bindings]

/-- Such an operation calls the device on regions. -/
lemma Operation.isOnRegion_of_deviceOp? {op : Operation} (hop : op.isSeen = false)
    {call : DeviceCall} (hcall : some call.op = op.deviceOp?) : call.isOnRegion = true := by
  cases op with
  | keyType op => cases hcall
  | region op => cases op <;> cases call <;> first | rfl | cases hcall
  | rule op => cases op <;> cases call <;> first | rfl | cases hcall
  | pool op => cases hcall
  | activity op => cases call <;> first | rfl | cases hcall
  | query query => cases hcall
  | _ => cases hop

lemma Step.isOnRegion_of_deviceOp? {st : Step} (hst : ∀ op ∈ st.operation?, op.isSeen = false)
    {call : DeviceCall} (hcall : some call.op = st.deviceOp?) : call.isOnRegion = true := by
  -- a peek is the only step that calls the device without an operation
  cases st with
  | peekActivity region offsets => cases call <;> first | rfl | cases hcall
  | operation op => exact Operation.isOnRegion_of_deviceOp? (hst op rfl) hcall
  | command cmd params =>
      obtain ⟨op, hop, hcall⟩ := Option.bind_eq_some_iff.mp hcall.symm
      exact Operation.isOnRegion_of_deviceOp? (hst op hop) hcall.symm
  | _ => cases hcall

namespace Controller

variable {s : Controller}

lemma tables_recordHit (region : Handle .region) (offset : ℕ) :
    ∃ regions, (s.recordHit region offset).2.device.tables =
      { s.device.tables with regions := regions } :=
  keeps_recordHit (q := fun t => ∃ regions, t = { s.device.tables with regions := regions })
    ⟨_, rfl⟩ fun _ _ => ⟨_, rfl⟩

/-- A step that is not about ACLs, groups and bindings changes no table but that of the regions. -/
lemma tables_step {st : Step} (hst : ∀ op ∈ st.operation?, op.isSeen = false) :
    ∃ regions, (s.step st).controller.device.tables =
      { s.device.tables with regions := regions } := by
  exact keeps_step
    (DeviceTables.keptBy_isOnRegion.mono fun _ hcall => Step.isOnRegion_of_deviceOp? hst hcall)
    s.tables_recordHit ⟨_, rfl⟩

end Controller

/-! ### Operations that are seen -/

/-- The commit of a change cannot fail, and the device that accepts the call shows what the model
becomes. -/
def Change.Shows (change : Change α) (t : DeviceTables) : Prop :=
  ∃ done, change.commit = .ok done ∧ ∀ t', change.tables t = .ok t' → done.core.Shown t'

lemma Change.shows_call {call : DeviceCall} {done : Commit α} {t : DeviceTables}
    (h : ∀ t' bit, t.apply call = .ok (t', bit) → done.core.Shown t') :
    (⟨some call, .ok done⟩ : Change α).Shows t := by
  refine ⟨done, rfl, fun t' ht => ?_⟩
  obtain ⟨⟨t', bit⟩, happly, rfl⟩ := map_eq_ok.mp ht
  exact h t' bit happly

lemma Change.shows_quiet {core : Core} {result : α} {t : DeviceTables} (h : core.Shown t) :
    (quiet core result).Shows t := by
  refine ⟨_, rfl, fun t' ht => ?_⟩
  cases ht
  exact h

namespace Core

variable {c : Core} {t : DeviceTables} {key : BindingKey} {list : List BoundEntry}

lemma shows_createAcl (hc : c.Steady) (h : c.Shown t) {aclType : AclType} {direction : Direction}
    {bitmap : DirectionSet} {regions : List (Handle .region)} {change : Change (Handle .acl)}
    (hp : c.createAcl aclType direction bitmap regions = .ok change) : change.Shows t := by
  obtain ⟨id, acls, -, hins, rfl⟩ := createAcl_eq_ok hp
  refine Change.shows_call fun t' bit ht => ?_
  rw [DeviceTables.apply] at ht
  split at ht
  · cases ht
  · cases ht
    exact h.insertAcl hc.acls hins

lemma shows_editAcl (h : c.Shown t) {acl : Handle .acl} {regions : List (Handle .region)}
    {asked : DirectionSet} {change : Change Unit} (hp : c.editAcl acl regions asked = .ok change) :
    change.Shows t := by
  obtain ⟨a, bitmap, ha, -, rfl⟩ := editAcl_eq_ok hp
  refine Change.shows_call fun t' bit ht => ?_
  rw [DeviceTables.apply] at ht
  split at ht
  · cases ht
  · cases ht
    exact h.setAcl ha _

lemma shows_destroyAcl (h : c.Shown t) {acl : Handle .acl} {change : Change Unit}
    (hp : c.destroyAcl acl = .ok change) : change.Shows t := by
  obtain ⟨a, acls, -, -, hrem, rfl⟩ := destroyAcl_eq_ok hp
  refine Change.shows_call fun t' bit ht => ?_
  rw [DeviceTables.apply] at ht
  split at ht
  · cases ht
    exact h.eraseAcl hrem
  · cases ht

lemma shows_createGroup (hc : c.Steady) (h : c.Shown t) {direction : Direction}
    {change : Change (Handle .group)} (hp : c.createGroup direction = .ok change) :
    change.Shows t := by
  obtain ⟨id, groups, -, hins, rfl⟩ := createGroup_eq_ok hp
  refine Change.shows_call fun t' bit ht => ?_
  cases ht
  exact h.insertGroup hc.groups hins

lemma shows_replaceGroup (h : c.Shown t) {id : Handle .group} {g : Group}
    (hg : c.groups.groups.get? id = some g) (g' : Group) : (c.replaceGroup id g').Shows t := by
  refine Change.shows_call fun t' bit ht => ?_
  cases ht
  exact h.setGroup hg g'

lemma shows_addGroupAcl (h : c.Shown t) {group : Handle .group} {acl : Handle .acl}
    {change : Change Unit} (hp : c.addGroupAcl group acl = .ok change) : change.Shows t := by
  rcases addGroupAcl_eq_ok hp with ⟨g, acls, hg, -, rfl⟩ | ⟨-, rfl⟩
  · exact shows_replaceGroup h hg _
  · exact Change.shows_quiet h

lemma shows_destroyGroup (h : c.Shown t) {group : Handle .group} {change : Change Unit}
    (hp : c.destroyGroup group = .ok change) : change.Shows t := by
  obtain ⟨g, groups, -, -, hrem, rfl⟩ := destroyGroup_eq_ok hp
  refine Change.shows_call fun t' bit ht => ?_
  rw [DeviceTables.apply] at ht
  split at ht
  · cases ht
    exact h.eraseGroup hrem
  · cases ht

/-- The commit of other entries does not fail, since VLAN groups count their directions. -/
lemma shows_rebind (hc : c.Steady) (h : c.Shown t) (hkey : c.checkBindingKey key = .ok ())
    (list : List BoundEntry) (stats : Stats) : (c.rebind key list stats).Shows t := by
  obtain ⟨pools, hcount, -⟩ :=
    exists_countBinding hc.vlanGroups list (contains_of_checkBindingKey hkey)
  simp only [rebind, hcount, ok_bind]
  refine Change.shows_call fun t' bit ht => ?_
  cases ht
  exact { h.commit key list with }

end Core

namespace Controller

variable {s : Controller}

/-- A change that shows what the model becomes keeps everything shown. -/
lemma shown_apply {plan : Except AclError (Change α)} (h : s.core.Shown s.device.tables)
    (hplan : ∀ change, plan = .ok change → change.Shows s.device.tables) :
    (s.apply plan).controller.core.Shown (s.apply plan).controller.device.tables :=
  related_apply (fun _ => { h with }) hplan

/-- A step that is not about ACLs, groups and bindings keeps everything shown. -/
lemma shown_of_unseen (h : s.core.Shown s.device.tables) (st : Step)
    (hst : ∀ op ∈ st.operation?, op.isSeen = false) :
    (s.step st).controller.core.Shown (s.step st).controller.device.tables := by
  obtain ⟨regions, htables⟩ := s.tables_step hst
  rw [htables]
  cases s.follows_step st with
  | done result transition delivered => exact h.of_unseen (transition.unseen hst) regions
  | failed result unchanged =>
      rw [unchanged]
      refine Core.Shown.of_unseen h ?_ regions
      exact ⟨rfl, rfl, rfl⟩

open AclPlane.Core in
lemma shown_execute (hc : s.core.Steady) (h : s.core.Shown s.device.tables) (op : Operation) :
    (s.execute op).controller.core.Shown (s.execute op).controller.device.tables := by
  cases hop : op.isSeen with
  | false =>
      exact shown_of_unseen h (.operation op) fun p hp => Option.some.inj hp ▸ hop
  | true =>
      cases op with
      | acl op =>
          cases op with
          | create => exact shown_apply h fun _ => shows_createAcl hc h
          | edit => exact shown_apply h fun _ => shows_editAcl h
          | destroy => exact shown_apply h fun _ => shows_destroyAcl h
      | group op =>
          cases op with
          | create => exact shown_apply h fun _ => shows_createGroup hc h
          | set =>
              refine shown_apply h fun change hp => ?_
              obtain ⟨g, hg, -, rfl⟩ := setGroupAcls_eq_ok hp
              exact shows_replaceGroup h hg _
          | add => exact shown_apply h fun _ => shows_addGroupAcl h
          | delete =>
              refine shown_apply h fun change hp => ?_
              obtain ⟨g, acls, hg, -, rfl⟩ := deleteGroupAcl_eq_ok hp
              exact shows_replaceGroup h hg _
          | chain =>
              refine shown_apply h fun change hp => ?_
              obtain ⟨p, hparent, -, rfl⟩ := chainGroups_eq_ok hp
              exact shows_replaceGroup h hparent _
          | unchain =>
              refine shown_apply h fun change hp => ?_
              obtain ⟨p, hparent, -, rfl⟩ := unchainGroup_eq_ok hp
              exact shows_replaceGroup h hparent _
          | setPriority =>
              refine shown_apply h fun change hp => ?_
              obtain ⟨g, hg, -, rfl⟩ := setGroupPriority_eq_ok hp
              exact Change.shows_quiet (h.setPriority hg _)
          | destroy => exact shown_apply h fun _ => shows_destroyGroup h
      | binding op =>
          cases op with
          | bind =>
              refine shown_apply h fun change hp => ?_
              obtain ⟨priority, hkey, -, rfl⟩ := bindTarget_eq_ok hp
              exact shows_rebind hc h hkey _ _
          | unbind =>
              refine shown_apply h fun change hp => ?_
              obtain ⟨hkey, -, rfl⟩ := unbind_eq_ok hp
              exact shows_rebind hc h hkey _ _
          | add =>
              refine shown_apply h fun change hp => ?_
              obtain ⟨priority, hkey, -, ⟨list, -, rfl⟩ | ⟨-, rfl⟩⟩ := bindAdd_eq_ok hp
              · exact shows_rebind hc h hkey _ _
              · exact Change.shows_quiet h
          | delete =>
              refine shown_apply h fun change hp => ?_
              obtain ⟨list, hkey, -, rfl⟩ := bindDelete_eq_ok hp
              exact shows_rebind hc h hkey _ _
      | _ => cases hop

/-- Every step keeps ACLs, groups and bindings shown. -/
theorem shown_step (hc : s.core.Steady) (h : s.core.Shown s.device.tables) (st : Step) :
    (s.step st).controller.core.Shown (s.step st).controller.device.tables := by
  cases st with
  | operation op => exact shown_execute hc h op
  | command cmd params =>
      rw [step]
      split
      · exact shown_execute hc h _
      · exact h
  | addPbsPorts id ports => exact shown_of_unseen h _ fun op hop => by cases hop
  | deletePbsPorts id ports => exact shown_of_unseen h _ fun op hop => by cases hop
  | peekActivity region offsets => exact shown_of_unseen h _ fun op hop => by cases hop
  | recordHit region offset => exact shown_of_unseen h _ fun op hop => by cases hop
  | subscribe kind => exact h
  | unsubscribe kind => exact h
  | failNext op status => exact h

/-! ### Runs -/

variable {config : Config} {given : Option (List KeyBlock)} {sink : Sink}

/-- The device has the ACLs, the groups and the bindings of the model after every run. -/
theorem shown_run (hs : Controller.start config given sink = .ok s) (steps : List Step) :
    (s.run steps).core.Shown (s.run steps).device.tables := by
  induction steps using List.reverseRecOn with
  | nil => exact (inStep_start hs).mirrors.toShown
  | append_singleton steps st ih =>
      rw [run_concat]
      exact shown_step (steady_run hs steps) ih st

/-- What is bound is live after every run, and so is everything else that is stored without a
count. -/
theorem linked_run (hs : Controller.start config given sink = .ok s) (steps : List Step) :
    (s.run steps).core.Linked := by
  refine run_induction (p := fun _ c => c.Linked) hs Core.linked_new
    (fun {steps _ _} ih _ ht => ih.transition (steady_run hs steps) ht) (fun _ ih _ => { ih with })
    steps

end Controller

end AclPlane
