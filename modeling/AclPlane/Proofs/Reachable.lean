import AclPlane.Proofs.Landing.Acls
import AclPlane.Proofs.Landing.Bindings
import AclPlane.Proofs.Landing.Regions
import AclPlane.Proofs.Landing.Rules
import AclPlane.Proofs.Landing.Unseen
import AclPlane.Proofs.Outcome

/-!
What holds after any number of steps.

Three functions say what a step may do: `Step.deviceOp?` is the device operation that it invokes,
`Step.callLimit` the number of device calls that it makes at most, and `Step.HasRoom` says that
no reference count passes its greatest value during the step.

* `Controller.lawful_step`: from a model in step with its device, every step ends lawfully.
* `Controller.Reachable.inStep`: so model and device are in step after every run.
-/

namespace AclPlane

/-! ### What a step may do -/

namespace Operation

/-- The device operation that an operation invokes, if any. -/
def deviceOp? : Operation → Option DeviceOp
  | region (.create ..) => some .createRegion
  | region (.resize ..) => some .resizeRegion
  | region (.destroy _) => some .destroyRegion
  | acl (.create ..) => some .programAcl
  | acl (.edit ..) => some .programAcl
  | acl (.destroy _) => some .removeAcl
  | rule (.set ..) => some .writeRules
  | rule (.delete ..) => some .clearRules
  | rule (.deleteAll _) => some .clearRules
  | rule (.move ..) => some .moveRules
  | rule (.shiftPriority ..) => some .setRulePriorities
  | group (.setPriority ..) => none
  | group (.destroy _) => some .removeGroup
  | group _ => some .programGroup
  | binding _ => some .programBinding
  | activity _ => some .readActivity
  | keyType _ => none
  | pool _ => none
  | query _ => none

/-- The number of device calls that an operation makes at most. -/
def callLimit : Operation → ℕ
  | activity (.read _ offsets) => offsets.length
  | activity (.readClear _ offsets) => offsets.length
  | _ => 1

/-- No reference count passes its greatest value while the operation is carried out: the new
references of a batch are taken before those of the rules that it replaces are given back. -/
def HasRoom (c : Core) : Operation → Prop
  | region (.create id _) => c.keyTypes.types.refCount id + 1 ≤ maxCount
  | rule (.set _ _ rules) =>
    ∀ e ∈ (PoolRefs.concat (rules.map Rule.refs)).entries,
      c.pools.refCount e + (PoolRefs.concat (rules.map Rule.refs)).count e ≤ maxCount
  | _ => True

instance (c : Core) : (op : Operation) → Decidable (op.HasRoom c)
  | region (.create id _) =>
    inferInstanceAs (Decidable (c.keyTypes.types.refCount id + 1 ≤ maxCount))
  | rule (.set _ _ rules) =>
    inferInstanceAs (Decidable (∀ e ∈ (PoolRefs.concat (rules.map Rule.refs)).entries,
      c.pools.refCount e + (PoolRefs.concat (rules.map Rule.refs)).count e ≤ maxCount))
  | region (.resize ..) => isTrue trivial
  | region (.destroy _) => isTrue trivial
  | rule (.delete ..) => isTrue trivial
  | rule (.deleteAll _) => isTrue trivial
  | rule (.move ..) => isTrue trivial
  | rule (.shiftPriority ..) => isTrue trivial
  | acl _ => isTrue trivial
  | group _ => isTrue trivial
  | binding _ => isTrue trivial
  | activity _ => isTrue trivial
  | keyType _ => isTrue trivial
  | pool _ => isTrue trivial
  | query _ => isTrue trivial

end Operation

namespace Step

/-- The operation that a step asks for, if any. -/
def operation? : Step → Option Operation
  | operation op => some op
  | command cmd params => (Operation.ofCommand cmd params).toOption
  | _ => none

/-- The device operation that a step invokes, if any. -/
def deviceOp? : Step → Option DeviceOp
  | peekActivity .. => some .readActivity
  | st => st.operation?.bind Operation.deviceOp?

/-- The number of device calls that a step makes at most. -/
def callLimit : Step → ℕ
  | peekActivity _ offsets => offsets.length
  | st => (st.operation?.map Operation.callLimit).getD 1

/-- No reference count passes its greatest value during the step. -/
def HasRoom (c : Core) (st : Step) : Prop := ∀ op ∈ st.operation?, op.HasRoom c

instance (c : Core) (st : Step) : Decidable (st.HasRoom c) :=
  inferInstanceAs (Decidable (∀ op ∈ st.operation?, op.HasRoom c))

end Step

namespace Controller

variable {s : Controller}

/-! ### One step -/

/-- Planning that only refuses, with changes that land, ends lawfully for any result. -/
lemma lawful_apply_map {α β : Type} {op : Option DeviceOp} {room : Prop}
    {plan : Except AclError (Change α)} (f : α → β) (hplan : Refuses plan)
    (hlands : ∀ change, plan = .ok change → change.Lands op s.device.tables room) :
    ((s.apply plan).map f).Lawful s op 1 room :=
  (lawful_apply hplan hlands).map f

/-- Rules have room in the pools if those entries have that they refer to. -/
lemma room_of_hasRoom {c : Core} (hc : c.Sound) {refs : PoolRefs}
    (h : ∀ e ∈ refs.entries, c.pools.refCount e + refs.count e ≤ maxCount) (e : PoolEntry) :
    c.pools.refCount e + refs.count e ≤ maxCount := by
  by_cases he : e ∈ refs.entries
  · exact h e he
  · rw [PoolRefs.count_eq_zero he]
    exact hc.refCount_le e

lemma lawful_executeKeyType (h : s.core.InStep s.device.tables) (op : KeyTypeOp) :
    (s.executeKeyType op).Lawful s (Operation.keyType op).deviceOp? 1
      ((Operation.keyType op).HasRoom s.core) := by
  cases op with
  | create fields hint => exact lawful_apply_map _ (by simp) fun _ => Core.lands_createKeyType h
  | destroy id => exact lawful_apply_map _ (by simp) fun _ => Core.lands_destroyKeyType h

lemma lawful_executeRegion (h : s.core.InStep s.device.tables) (op : RegionOp) :
    (s.executeRegion op).Lawful s (Operation.region op).deviceOp? 1
      ((Operation.region op).HasRoom s.core) := by
  cases op with
  | create keyType capacity =>
      exact lawful_apply_map _ (by simp) fun _ hp =>
        Core.lands_createRegion h hp fun hroom => hroom
  | resize region capacity =>
      exact lawful_apply_map _ (by simp) fun _ => Core.lands_resizeRegion h
  | destroy region => exact lawful_apply_map _ (by simp) fun _ => Core.lands_destroyRegion h

lemma lawful_executeAcl (h : s.core.InStep s.device.tables) (op : AclOp) :
    (s.executeAcl op).Lawful s (Operation.acl op).deviceOp? 1
      ((Operation.acl op).HasRoom s.core) := by
  cases op with
  | create aclType direction bitmap regions =>
      exact lawful_apply_map _ (by simp) fun _ => Core.lands_createAcl h
  | edit acl regions bitmap => exact lawful_apply_map _ (by simp) fun _ => Core.lands_editAcl h
  | destroy acl => exact lawful_apply_map _ (by simp) fun _ => Core.lands_destroyAcl h

lemma lawful_executeRule (h : s.core.InStep s.device.tables) (op : RuleOp) :
    (s.executeRule op).Lawful s (Operation.rule op).deviceOp? 1
      ((Operation.rule op).HasRoom s.core) := by
  cases op with
  | set region offsets rules =>
      exact lawful_apply_map _ (by simp) fun _ hp =>
        Core.lands_setRules h hp fun hroom => room_of_hasRoom h.sound hroom
  | delete region offsets =>
      exact lawful_apply_map _ (by simp) fun _ => Core.lands_deleteRules h
  | deleteAll region => exact lawful_apply_map _ (by simp) fun _ => Core.lands_deleteAllRules h
  | move region block => exact lawful_apply_map _ (by simp) fun _ => Core.lands_moveBlock h
  | shiftPriority region shift =>
      exact lawful_apply_map _ (by simp) fun _ => Core.lands_shiftPriority h

lemma lawful_executeGroup (h : s.core.InStep s.device.tables) (op : GroupOp) :
    (s.executeGroup op).Lawful s (Operation.group op).deviceOp? 1
      ((Operation.group op).HasRoom s.core) := by
  cases op with
  | create direction => exact lawful_apply_map _ (by simp) fun _ => Core.lands_createGroup h
  | set group acls => exact lawful_apply_map _ (by simp) fun _ => Core.lands_setGroupAcls h
  | add group acl => exact lawful_apply_map _ (by simp) fun _ => Core.lands_addGroupAcl h
  | delete group acl => exact lawful_apply_map _ (by simp) fun _ => Core.lands_deleteGroupAcl h
  | chain parent child => exact lawful_apply_map _ (by simp) fun _ => Core.lands_chainGroups h
  | unchain parent => exact lawful_apply_map _ (by simp) fun _ => Core.lands_unchainGroup h
  | setPriority group priority =>
      exact lawful_apply_map _ (by simp) fun _ => Core.lands_setGroupPriority h
  | destroy group => exact lawful_apply_map _ (by simp) fun _ => Core.lands_destroyGroup h

lemma lawful_executeBinding (h : s.core.InStep s.device.tables) (op : BindOp) :
    (s.executeBinding op).Lawful s (Operation.binding op).deviceOp? 1
      ((Operation.binding op).HasRoom s.core) := by
  cases op with
  | bind key target => exact lawful_apply_map _ (by simp) fun _ => Core.lands_bindTarget h
  | unbind key => exact lawful_apply_map _ (by simp) fun _ => Core.lands_unbind h
  | add key group => exact lawful_apply_map _ (by simp) fun _ => Core.lands_bindAdd h
  | delete key group => exact lawful_apply_map _ (by simp) fun _ => Core.lands_bindDelete h

lemma lawful_executePool (h : s.core.InStep s.device.tables) (op : PoolOp) :
    (s.executePool op).Lawful s (Operation.pool op).deviceOp? 1
      ((Operation.pool op).HasRoom s.core) := by
  cases op with
  | create value => exact lawful_apply_map _ (by simp) fun _ => Core.lands_createPoolEntry h
  | edit entry value => exact lawful_apply_map _ (by simp) fun _ => Core.lands_editPoolEntry h
  | add entry value => exact lawful_apply_map _ (by simp) fun _ => Core.lands_addPoolMembers h
  | delete entry value =>
      exact lawful_apply_map _ (by simp) fun _ => Core.lands_deletePoolMembers h
  | destroy entry => exact lawful_apply_map _ (by simp) fun _ => Core.lands_destroyPoolEntry h

lemma lawful_executeActivity (h : s.core.InStep s.device.tables) (op : ActivityOp) :
    (s.executeActivity op).Lawful s (some .readActivity) (Operation.activity op).callLimit
      ((Operation.activity op).HasRoom s.core) := by
  cases op with
  | read region offsets => exact (lawful_readActivity h region offsets false).map _
  | readClear region offsets => exact (lawful_readActivity h region offsets true).map _

theorem lawful_execute (h : s.core.InStep s.device.tables) (op : Operation) :
    (s.execute op).Lawful s op.deviceOp? op.callLimit (op.HasRoom s.core) := by
  cases op with
  | keyType op => exact lawful_executeKeyType h op
  | region op => exact lawful_executeRegion h op
  | acl op => exact lawful_executeAcl h op
  | rule op => exact lawful_executeRule h op
  | group op => exact lawful_executeGroup h op
  | binding op => exact lawful_executeBinding h op
  | pool op => exact lawful_executePool h op
  | activity op => exact lawful_executeActivity h op
  | query q =>
      cases hq : s.core.queryObjects q with
      | error e =>
          simp only [execute, hq]
          exact .refused (s.core.refuses_queryObjects q e hq)
      | ok page =>
          simp only [execute, hq]
          exact .done (Nat.le_add_right _ _) fun _ => h

lemma calls_recordHit (d : Device) (region : Handle .region) (offset : ℕ) :
    (d.recordHit region offset).2.calls = d.calls := by
  rw [Device.recordHit]
  split
  · split <;> rfl
  · rfl

/-- A packet changes at most a region that there is, by an activity bit. -/
lemma keeps_recordHit {q : DeviceTables → Prop} {region : Handle .region} {offset : ℕ}
    (hq : q s.device.tables)
    (hhit : ∀ d, s.device.tables.regions.get? region = some d →
      q (s.device.tables.setRegion region (d.hit offset))) :
    q (s.recordHit region offset).2.device.tables := by
  rw [show (s.recordHit region offset).2.device = (s.device.recordHit region offset).2 from rfl,
    Device.recordHit]
  split
  · next d hd =>
      split
      · exact hhit d hd
      · exact hq
  · exact hq

theorem lawful_step (h : s.core.InStep s.device.tables) (st : Step) :
    (s.step st).Lawful s st.deviceOp? st.callLimit (st.HasRoom s.core) := by
  cases st with
  | operation op => exact (lawful_execute h op).mono fun hroom => hroom op rfl
  | command cmd params =>
      cases hop : Operation.ofCommand cmd params with
      | error e =>
          simp only [step, hop]
          exact .refused (Operation.refuses_ofCommand cmd params e hop)
      | ok op =>
          have hasked : (Step.command cmd params).operation? = some op := by
            rw [Step.operation?, hop]
            rfl
          simp only [step, hop, Step.deviceOp?, Step.callLimit, hasked]
          exact (lawful_execute h op).mono fun hroom => hroom op hasked
  | addPbsPorts id ports => exact lawful_apply_map _ (by simp) fun _ => Core.lands_addPbsPorts h
  | deletePbsPorts id ports =>
      exact lawful_apply_map _ (by simp) fun _ => Core.lands_deletePbsPorts h
  | peekActivity region offsets => exact (lawful_peekActivity h region offsets).map _
  | subscribe kind => exact .done (Nat.le_add_right _ _) fun _ => h
  | unsubscribe kind => exact .done (Nat.le_add_right _ _) fun _ => h
  | failNext op status => exact .done (Nat.le_add_right _ _) fun _ => h
  | recordHit region offset =>
      refine .done ?_ fun _ => keeps_recordHit h fun d hd => h.of_hits hd _
      rw [show (s.recordHit region offset).2.device = (s.device.recordHit region offset).2 from rfl,
        calls_recordHit]
      exact Nat.le_add_right _ _

/-! ### Runs -/

/-- The controllers that come up in a run: it begins with a fresh controller, and no step that
is carried out takes a reference count beyond its greatest value. -/
inductive Reachable : Controller → Prop where
  | start {config : Config} {blocks : Option (List KeyBlock)} {sink : Sink} {s : Controller}
      (hs : Controller.start config blocks sink = .ok s) : Reachable s
  | step {s : Controller} (hs : Reachable s) (st : Step)
      (hroom : (s.step st).result.isOk = true → st.HasRoom s.core) :
      Reachable (s.step st).controller

/-- The controller after several steps. -/
def run (s : Controller) (steps : List Step) : Controller :=
  steps.foldl (fun s st => (s.step st).controller) s

lemma run_concat (s : Controller) (steps : List Step) (st : Step) :
    s.run (steps ++ [st]) = ((s.run steps).step st).controller := by
  rw [run, List.foldl_append]
  rfl

/-- No reference count passes its greatest value during a run. -/
def RunHasRoom : Controller → List Step → Prop
  | _, [] => True
  | s, st :: steps =>
    ((s.step st).result.isOk = true → st.HasRoom s.core) ∧ (s.step st).controller.RunHasRoom steps

instance decidableRunHasRoom : (s : Controller) → (steps : List Step) →
    Decidable (s.RunHasRoom steps)
  | _, [] => isTrue trivial
  | s, st :: steps =>
    have := decidableRunHasRoom (s.step st).controller steps
    inferInstanceAs (Decidable (_ ∧ _))

lemma Reachable.run (h : Reachable s) {steps : List Step} (hroom : s.RunHasRoom steps) :
    Reachable (s.run steps) := by
  induction steps generalizing s with
  | nil => exact h
  | cons st steps ih => exact ih (h.step st hroom.1) hroom.2

/-- A step that ends lawfully leaves model and device in step. -/
lemma inStep_of_lawful {α : Type} {o : Outcome α} {op : Option DeviceOp} {limit : ℕ}
    {room : Prop} (h : s.core.InStep s.device.tables) (ho : o.Lawful s op limit room)
    (hroom : o.result.isOk = true → room) :
    o.controller.core.InStep o.controller.device.tables := by
  cases ho with
  | done calls inStep => exact inStep (hroom rfl)
  | refused refusal => exact h
  | faulted issued armed called => exact h.of_stats _

lemma inStep_start {config : Config} {blocks : Option (List KeyBlock)} {sink : Sink}
    (h : Controller.start config blocks sink = .ok s) : s.core.InStep s.device.tables := by
  simp only [Controller.start, bind_eq_ok, pure_eq_ok] at h
  obtain ⟨catalog, -, core, hcore, rfl⟩ := h
  exact Core.inStep_new hcore

/-- Model and device are in step after every run. -/
theorem Reachable.inStep (h : Reachable s) : s.core.InStep s.device.tables := by
  induction h with
  | start hs => exact inStep_start hs
  | step hs st hroom ih => exact inStep_of_lawful ih (lawful_step ih st) hroom

end Controller

end AclPlane
