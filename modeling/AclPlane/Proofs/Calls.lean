import AclPlane.Proofs.Reachable

/-!
Which calls of the device a plan makes, and what they keep.

* `Calls p plan`: a plan calls the device only as `p` says, if at all.  The simp lemmas after it
  take a plan apart, and there is one lemma for the plan of each operation.
* `DeviceTables.KeptBy p q`: a call as `p` says keeps the property `q` of the device.
* `Controller.keeps_apply`: then so does carrying out a plan that calls the device only as `p` says,
  whether or not its commit fails; `related_apply` is for commits that cannot fail.
* `Controller.apply_ok`: what a plan that succeeds has been, and what it reports and leaves.
* `Controller.keeps_step`: so a step keeps what the calls of its device operation keep.
-/

namespace AclPlane

variable {α β : Type} {p : DeviceCall → Prop} {q : DeviceTables → Prop}

/-! ### Calls of a plan -/

/-- Every call that a plan makes is as `p` says. -/
def Calls (p : DeviceCall → Prop) (plan : Except AclError (Change α)) : Prop :=
  ∀ change, plan = .ok change → ∀ call, change.call = some call → p call

/-- A change inside the model makes no call. -/
@[simp] lemma Change.call_inside (core : Core) (events : List Event) (result : α) :
    (inside core events result).call = none := rfl

/-- Nor does a quiet one. -/
@[simp] lemma Change.call_quiet (core : Core) (result : α) : (quiet core result).call = none := rfl

/-- A change that is planned makes the call it holds. -/
@[simp] lemma calls_pure {change : Change α} :
    Calls p (pure change) ↔ ∀ call, change.call = some call → p call := by
  simp [Calls]

/-- A plan that has failed makes no call. -/
@[simp] lemma calls_throw {e : AclError} : Calls p (throw e : Except AclError (Change α)) := by
  intro change h
  cases h

/-- A sequence makes the calls of what follows its first step. -/
@[simp] lemma calls_bind {x : Except AclError β} {f : β → Except AclError (Change α)} :
    Calls p (x >>= f) ↔ ∀ b, x = .ok b → Calls p (f b) := by
  simp only [Calls, bind_eq_ok]
  constructor
  · intro h b hb change hf
    exact h change ⟨b, hb, hf⟩
  · rintro h change ⟨b, hb, hf⟩
    exact h b hb change hf

@[simp] lemma calls_map {x : Except AclError β} {f : β → Change α} :
    Calls p (f <$> x) ↔ ∀ b, x = .ok b → ∀ call, (f b).call = some call → p call := by
  rw [← bind_pure_comp, calls_bind]
  simp only [calls_pure]

/-- The calls of a choice are those of the branch that is taken. -/
@[simp] lemma calls_ite {φ : Prop} [Decidable φ] {x y : Except AclError (Change α)} :
    Calls p (if φ then x else y) ↔ (φ → Calls p x) ∧ (¬φ → Calls p y) := by
  split <;> simp [*]

namespace Core

variable {c : Core} {region : Handle .region} {group : Handle .group} {key : BindingKey}

/-- The device takes no part in key types. -/
lemma calls_createKeyType (fields : List BasicKey) (hint : Option KeyBlockId) :
    Calls p (c.createKeyType fields hint) := by
  simp [createKeyType]

lemma calls_destroyKeyType (id : Handle .keyType) : Calls p (c.destroyKeyType id) := by
  simp [destroyKeyType]

/-- The handle, the blocks and the size of a new region are whatever the plan makes of the store. -/
lemma calls_createRegion {keyType : Handle .keyType} {capacity : ℕ}
    (h : ∀ id keyBlocks hwSize, p (.createRegion id keyBlocks hwSize)) :
    Calls p (c.createRegion keyType capacity) := by
  simp [createRegion, h]

/-- The hardware size is computed from the capacity. -/
lemma calls_resizeRegion {capacity : ℕ} (h : ∀ hwSize, p (.resizeRegion region hwSize)) :
    Calls p (c.resizeRegion region capacity) := by
  simp [resizeRegion, h]

/-- A region that some ACL searches is not destroyed, so no call is made. -/
lemma calls_destroyRegion (h : p (.destroyRegion region)) : Calls p (c.destroyRegion region) := by
  cases huser : c.acls.userOf? region with
  | none => simp [destroyRegion, huser, h]
  | some acl => simp [destroyRegion, huser]

/-- An empty batch makes no call. -/
lemma calls_setRules {offsets : List ℕ} {rules : List Rule}
    (h : ∀ images, p (.writeRules region images)) : Calls p (c.setRules region offsets rules) := by
  simp [setRules, h]

/-- The offsets of the call are those that are occupied; without any there is no call. -/
lemma calls_deleteRules {offsets : List ℕ} (h : ∀ offsets, p (.clearRules region offsets)) :
    Calls p (c.deleteRules region offsets) := by
  simp [deleteRules, h]

lemma calls_deleteAllRules (h : ∀ offsets, p (.clearRules region offsets)) :
    Calls p (c.deleteAllRules region) := by
  simp [deleteAllRules, calls_deleteRules h]

lemma calls_moveBlock {src size dst : ℕ} (h : p (.moveRules region src size dst)) :
    Calls p (c.moveBlock region src size dst) := by
  simp [moveBlock, h]

/-- The call names the rules of the band with their new priorities, if it has any. -/
lemma calls_shiftPriority {low high : ℕ} {delta : ℤ}
    (h : ∀ updates, p (.setRulePriorities region updates)) :
    Calls p (c.shiftPriority region low high delta) := by
  simp [shiftPriority, h]

/-- The ACL is programmed with the regions that have been asked for. -/
lemma calls_createAcl {aclType : AclType} {direction : Direction} {bitmap : DirectionSet}
    {regions : List (Handle .region)} (h : ∀ id, p (.programAcl id regions)) :
    Calls p (c.createAcl aclType direction bitmap regions) := by
  simp [createAcl, h]

/-- The device does not hear of the bitmap. -/
lemma calls_editAcl {acl : Handle .acl} {regions : List (Handle .region)} {bitmap : DirectionSet}
    (h : p (.programAcl acl regions)) : Calls p (c.editAcl acl regions bitmap) := by
  simp [editAcl, h]

lemma calls_destroyAcl {acl : Handle .acl} (h : p (.removeAcl acl)) :
    Calls p (c.destroyAcl acl) := by
  cases hholder : c.groups.holderOf? acl with
  | none => simp [destroyAcl, hholder, h]
  | some group => simp [destroyAcl, hholder]

/-- A new group is programmed like one that is changed. -/
lemma calls_createGroup {direction : Direction}
    (h : ∀ id acls next, p (.programGroup id acls next)) : Calls p (c.createGroup direction) := by
  simp [createGroup, h]

/-- Whatever the way to a list of members, it is programmed by one call. -/
lemma calls_programMembers {acls : List (Handle .acl)}
    (h : ∀ acls next, p (.programGroup group acls next)) :
    Calls p (c.programMembers group acls) := by
  simp [programMembers, h]

lemma calls_setGroupAcls {acls : List (Handle .acl)}
    (h : ∀ acls next, p (.programGroup group acls next)) :
    Calls p (c.setGroupAcls group acls) := by
  simp [setGroupAcls, calls_programMembers h]

/-- No call is made for an ACL that is a member already. -/
lemma calls_addGroupAcl {acl : Handle .acl}
    (h : ∀ acls next, p (.programGroup group acls next)) :
    Calls p (c.addGroupAcl group acl) := by
  rw [addGroupAcl, calls_bind]
  rintro (_ | acls) -
  · simp
  · exact calls_programMembers h

lemma calls_deleteGroupAcl {acl : Handle .acl}
    (h : ∀ acls next, p (.programGroup group acls next)) :
    Calls p (c.deleteGroupAcl group acl) := by
  simp [deleteGroupAcl, calls_programMembers h]

/-- A link of a chain is programmed with the parent. -/
lemma calls_chainGroups {child : Handle .group}
    (h : ∀ acls next, p (.programGroup group acls next)) :
    Calls p (c.chainGroups group child) := by
  simp [chainGroups, h]

lemma calls_unchainGroup (h : ∀ acls next, p (.programGroup group acls next)) :
    Calls p (c.unchainGroup group) := by
  simp [unchainGroup, h]

/-- The device takes no part in the priorities of groups. -/
lemma calls_setGroupPriority (priority : ℕ) : Calls p (c.setGroupPriority group priority) := by
  simp [setGroupPriority]

/-- A group that follows another is not destroyed, so no call is made. -/
lemma calls_destroyGroup (h : p (.removeGroup group)) : Calls p (c.destroyGroup group) := by
  cases hparent : c.groups.parentOf? group with
  | none => simp [destroyGroup, hparent, h]
  | some parent => simp [destroyGroup, hparent]

/-- A key is programmed with all its targets, whatever has changed there. -/
lemma calls_bindTarget {target : BindTarget} (h : ∀ targets, p (.programBinding key targets)) :
    Calls p (c.bindTarget key target) := by
  simp [bindTarget, rebind, h]

lemma calls_unbind (h : ∀ targets, p (.programBinding key targets)) : Calls p (c.unbind key) := by
  simp [unbind, rebind, h]

/-- No call is made for a chain that is bound already. -/
lemma calls_bindAdd (h : ∀ targets, p (.programBinding key targets)) :
    Calls p (c.bindAdd key group) := by
  simp only [bindAdd, calls_bind]
  rintro - - - - (_ | list) -
  · simp
  · simp [rebind, h]

lemma calls_bindDelete (h : ∀ targets, p (.programBinding key targets)) :
    Calls p (c.bindDelete key group) := by
  simp [bindDelete, rebind, h]

/-- The device takes no part in pool entries. -/
lemma calls_withPools (pools : Except AclError Pools) : Calls p (c.withPools pools) := by
  simp [withPools]

lemma calls_createPoolEntry (value : PoolValue) : Calls p (c.createPoolEntry value) := by
  simp [createPoolEntry]

lemma calls_destroyPoolEntry (entry : PoolEntry) : Calls p (c.destroyPoolEntry entry) := by
  simp [destroyPoolEntry]

end Core

/-! ### What calls keep -/

/-- A call as `p` says keeps the property `q`. -/
def DeviceTables.KeptBy (p : DeviceCall → Prop) (q : DeviceTables → Prop) : Prop :=
  ∀ {call t t' bit}, p call → t.apply call = .ok (t', bit) → q t → q t'

/-- What many calls keep, fewer do. -/
lemma DeviceTables.KeptBy.mono {p' : DeviceCall → Prop} (h : KeptBy p q)
    (hp : ∀ call, p' call → p call) : KeptBy p' q :=
  fun hcall => h (hp _ hcall)

/-- A device that accepts a call carries it out, and one that refuses it keeps its tables. -/
lemma Device.call_cases {d d' : Device} {call : DeviceCall} {answer : Except DeviceError Bool}
    (h : d.call call = (answer, d')) :
    (∃ bit, answer = .ok bit ∧ d.tables.apply call = .ok (d'.tables, bit)) ∨
      ∃ e, answer = .error e ∧ d'.tables = d.tables := by
  rw [Device.call] at h
  split at h
  · cases h
    exact .inr ⟨_, rfl, rfl⟩
  · split at h
    · next happly =>
        cases h
        exact .inl ⟨_, rfl, happly⟩
    · cases h
      exact .inr ⟨_, rfl, rfl⟩

/-- A call keeps what is kept by the calls of its sort, accepted or not. -/
lemma Device.keeps_call {d d' : Device} {call : DeviceCall} {answer : Except DeviceError Bool}
    (hcall : d.call call = (answer, d')) (hkept : DeviceTables.KeptBy p q) (hp : p call)
    (hq : q d.tables) : q d'.tables := by
  rcases Device.call_cases hcall with ⟨bit, -, happly⟩ | ⟨e, -, htables⟩
  · exact hkept hp happly hq
  · rw [htables]
    exact hq

namespace Controller

variable {s : Controller}

/-- A commit does not touch the device. -/
lemma device_finish (s : Controller) (commit : Except AclError (Commit α)) :
    (s.finish commit).controller.device = s.device := by
  cases commit <;> rfl

/-- Carrying out a plan keeps what its calls keep. -/
theorem keeps_apply {plan : Except AclError (Change α)} (hkept : DeviceTables.KeptBy p q)
    (hplan : Calls p plan) (hq : q s.device.tables) :
    q (s.apply plan).controller.device.tables := by
  rcases plan with e | ⟨call?, commit⟩
  · exact hq
  · cases call? with
    | none =>
        rw [apply, device_finish]
        exact hq
    | some call =>
        obtain ⟨answer, device, hcall⟩ : ∃ answer device, s.device.call call = (answer, device) :=
          ⟨_, _, rfl⟩
        have hdevice := Device.keeps_call hcall hkept (hplan _ rfl call rfl) hq
        simp only [apply, hcall]
        cases answer with
        | error e => exact hdevice
        | ok bit =>
            rw [device_finish]
            exact hdevice

/-- Where no commit fails, model and device are related afterwards as each change relates them. -/
theorem related_apply {rel : Core → DeviceTables → Prop} {plan : Except AclError (Change α)}
    (h : ∀ stats, rel { s.core with stats := stats } s.device.tables)
    (hplan : ∀ change, plan = .ok change → ∃ done, change.commit = .ok done ∧
      ∀ t, change.tables s.device.tables = .ok t → rel done.core t) :
    rel (s.apply plan).controller.core (s.apply plan).controller.device.tables := by
  rcases plan with e | ⟨call?, commit⟩
  · exact h s.core.stats
  · obtain ⟨done, hdone, hrel⟩ := hplan _ rfl
    obtain rfl : commit = .ok done := hdone
    cases call? with
    | none => exact hrel _ rfl
    | some call =>
        obtain ⟨answer, device, hcall⟩ : ∃ answer device, s.device.call call = (answer, device) :=
          ⟨_, _, rfl⟩
        simp only [apply, hcall]
        rcases Device.call_cases hcall with ⟨bit, rfl, happly⟩ | ⟨e, rfl, htables⟩
        · exact hrel _ (map_eq_ok.mpr ⟨_, happly, rfl⟩)
        · simp only [htables]
          exact h _

/-- A plan with a call succeeds only if the device accepts the call. -/
lemma accepted_of_ok {call : DeviceCall} {commit : Except AclError (Commit α)} {a : α}
    (h : (s.apply (.ok ⟨some call, commit⟩)).result = .ok a) :
    ∃ bit, s.device.tables.apply call =
      .ok ((s.apply (.ok ⟨some call, commit⟩)).controller.device.tables, bit) := by
  obtain ⟨answer, device, hcall⟩ : ∃ answer device, s.device.call call = (answer, device) :=
    ⟨_, _, rfl⟩
  simp only [apply, hcall] at h ⊢
  rcases Device.call_cases hcall with ⟨bit, rfl, happly⟩ | ⟨e, rfl, -⟩
  · simp only [device_finish]
    exact ⟨bit, happly⟩
  · cases h

/-- Every call is counted, accepted or not. -/
lemma calls_of_call {d d' : Device} {call : DeviceCall} {answer : Except DeviceError Bool}
    (h : d.call call = (answer, d')) : d'.calls = d.calls + 1 := by
  rw [Device.call] at h
  split at h
  · cases h
    rfl
  · split at h <;> cases h <;> rfl

/-- What a plan that is carried out has been, and what it leaves. -/
theorem apply_ok {plan : Except AclError (Change α)} {a : α} (h : (s.apply plan).result = .ok a) :
    ∃ change done, plan = .ok change ∧ change.commit = .ok done ∧ done.result = a ∧
      (s.apply plan).controller.core = done.core ∧
      (s.apply plan).events = s.hub.deliver done.events ∧
      change.tables s.device.tables = .ok (s.apply plan).controller.device.tables ∧
      (s.apply plan).controller.device.calls =
        s.device.calls + if change.call.isSome then 1 else 0 := by
  rcases plan with e | ⟨call?, commit⟩
  · cases h
  · cases call? with
    | none =>
        cases commit with
        | error e => cases h
        | ok done => exact ⟨_, done, rfl, rfl, Except.ok.inj h, rfl, rfl, rfl, rfl⟩
    | some call =>
        obtain ⟨answer, device, hcall⟩ : ∃ answer device, s.device.call call = (answer, device) :=
          ⟨_, _, rfl⟩
        simp only [apply, hcall] at h ⊢
        rcases Device.call_cases hcall with ⟨bit, rfl, happly⟩ | ⟨e, rfl, -⟩
        · cases commit with
          | error e => cases h
          | ok done =>
              exact ⟨_, done, rfl, rfl, Except.ok.inj h, rfl, rfl, map_eq_ok.mpr ⟨_, happly, rfl⟩,
                calls_of_call hcall⟩
        · cases h

/-- A plan that is not carried out reports nothing. -/
lemma events_apply_of_error {plan : Except AclError (Change α)} {e : AclError}
    (h : (s.apply plan).result = .error e) : (s.apply plan).events = [] := by
  rcases plan with e | ⟨call?, commit⟩
  · rfl
  · cases call? with
    | none =>
        cases commit with
        | error e => rfl
        | ok done => cases h
    | some call =>
        rcases hcall : s.device.call call with ⟨answer, device⟩
        simp only [apply, hcall] at h ⊢
        cases answer with
        | error e => rfl
        | ok bit =>
            cases commit with
            | error e => rfl
            | ok done => cases h

/-- A reading keeps what each of its calls keeps, up to the first failure. -/
lemma keeps_readBits (hkept : DeviceTables.KeptBy p q) {region : Handle .region} {clear : Bool}
    (hp : ∀ offset, p (.readActivity region offset clear)) (offsets : List ℕ)
    (hq : q s.device.tables) :
    q (s.readBits region clear offsets).controller.device.tables := by
  induction offsets generalizing s with
  | nil => exact hq
  | cons offset offsets ih =>
      obtain ⟨answer, device, hcall⟩ : ∃ answer device,
          s.device.call (.readActivity region offset clear) = (answer, device) := ⟨_, _, rfl⟩
      have hdevice := Device.keeps_call hcall hkept (hp offset) hq
      simp only [readBits, readBit, hcall]
      cases answer with
      | error e => exact hdevice
      | ok bit => exact ih (s := { s with device := device }) hdevice

/-- So does a reading that is checked first. -/
theorem keeps_readActivity (hkept : DeviceTables.KeptBy p q) {region : Handle .region}
    {clear : Bool} (hp : ∀ offset, p (.readActivity region offset clear)) (offsets : List ℕ)
    (hq : q s.device.tables) :
    q (s.readActivity region offsets clear).controller.device.tables := by
  rw [readActivity]
  split
  · exact hq
  · exact keeps_readBits hkept hp offsets hq

/-- Peeking makes the calls of a reading that does not clear. -/
theorem keeps_peekActivity (hkept : DeviceTables.KeptBy p q) {region : Handle .region}
    (hp : ∀ offset, p (.readActivity region offset false)) (offsets : List ℕ)
    (hq : q s.device.tables) :
    q (s.peekActivity region offsets).controller.device.tables := by
  rw [peekActivity]
  split
  · exact hq
  · rw [peekBits_eq]
    exact keeps_readBits hkept hp offsets hq

open AclPlane.Core in
/-- An operation keeps what the calls of its device operation keep. -/
theorem keeps_execute {op : Operation}
    (hkept : DeviceTables.KeptBy (fun call => some call.op = op.deviceOp?) q)
    (hq : q s.device.tables) : q (s.execute op).controller.device.tables := by
  cases op with
  | keyType op =>
      cases op with
      | create fields hint => exact keeps_apply hkept (calls_createKeyType fields hint) hq
      | destroy id => exact keeps_apply hkept (calls_destroyKeyType id) hq
  | region op =>
      cases op with
      | create => exact keeps_apply hkept (calls_createRegion fun _ _ _ => rfl) hq
      | resize => exact keeps_apply hkept (calls_resizeRegion fun _ => rfl) hq
      | destroy => exact keeps_apply hkept (calls_destroyRegion rfl) hq
  | acl op =>
      cases op with
      | create => exact keeps_apply hkept (calls_createAcl fun _ => rfl) hq
      | edit => exact keeps_apply hkept (calls_editAcl rfl) hq
      | destroy => exact keeps_apply hkept (calls_destroyAcl rfl) hq
  | rule op =>
      cases op with
      | set => exact keeps_apply hkept (calls_setRules fun _ => rfl) hq
      | delete => exact keeps_apply hkept (calls_deleteRules fun _ => rfl) hq
      | deleteAll => exact keeps_apply hkept (calls_deleteAllRules fun _ => rfl) hq
      | move => exact keeps_apply hkept (calls_moveBlock rfl) hq
      | shiftPriority => exact keeps_apply hkept (calls_shiftPriority fun _ => rfl) hq
  | group op =>
      cases op with
      | create => exact keeps_apply hkept (calls_createGroup fun _ _ _ => rfl) hq
      | set => exact keeps_apply hkept (calls_setGroupAcls fun _ _ => rfl) hq
      | add => exact keeps_apply hkept (calls_addGroupAcl fun _ _ => rfl) hq
      | delete => exact keeps_apply hkept (calls_deleteGroupAcl fun _ _ => rfl) hq
      | chain => exact keeps_apply hkept (calls_chainGroups fun _ _ => rfl) hq
      | unchain => exact keeps_apply hkept (calls_unchainGroup fun _ _ => rfl) hq
      | setPriority group priority =>
          exact keeps_apply hkept (calls_setGroupPriority priority) hq
      | destroy => exact keeps_apply hkept (calls_destroyGroup rfl) hq
  | binding op =>
      cases op with
      | bind => exact keeps_apply hkept (calls_bindTarget fun _ => rfl) hq
      | unbind => exact keeps_apply hkept (calls_unbind fun _ => rfl) hq
      | add => exact keeps_apply hkept (calls_bindAdd fun _ => rfl) hq
      | delete => exact keeps_apply hkept (calls_bindDelete fun _ => rfl) hq
  | pool op =>
      cases op with
      | create value => exact keeps_apply hkept (calls_createPoolEntry value) hq
      | edit => exact keeps_apply hkept (calls_withPools _) hq
      | add => exact keeps_apply hkept (calls_withPools _) hq
      | delete => exact keeps_apply hkept (calls_withPools _) hq
      | destroy entry => exact keeps_apply hkept (calls_destroyPoolEntry entry) hq
  | activity op =>
      cases op with
      | read region offsets => exact keeps_readActivity hkept (fun _ => rfl) offsets hq
      | readClear region offsets => exact keeps_readActivity hkept (fun _ => rfl) offsets hq
  | query query => exact hq

/-- A step that asks for an operation carries it out. -/
lemma step_of_operation? {st : Step} {op : Operation} (h : st.operation? = some op) :
    s.step st = s.execute op := by
  cases st with
  | operation op' =>
      cases h
      rfl
  | command cmd params =>
      rw [Step.operation?] at h
      rw [step]
      split
      · next hop =>
          rw [hop] at h
          cases h
          rfl
      · next hop =>
          rw [hop] at h
          cases h
  | _ => cases h

/-- A step keeps what the calls of its device operation keep, and what hits keep. -/
theorem keeps_step {st : Step}
    (hkept : DeviceTables.KeptBy (fun call => some call.op = st.deviceOp?) q)
    (hhit : ∀ region offset, q (s.recordHit region offset).2.device.tables)
    (hq : q s.device.tables) : q (s.step st).controller.device.tables := by
  cases st with
  | operation op => exact keeps_execute hkept hq
  | command cmd params =>
      cases hop : Operation.ofCommand cmd params with
      | error e =>
          simp only [step, hop]
          exact hq
      | ok op =>
          have hasked : (Step.command cmd params).operation? = some op := by
            rw [Step.operation?, hop]
            rfl
          simp only [Step.deviceOp?, hasked, Option.bind_some] at hkept
          rw [step_of_operation? hasked]
          exact keeps_execute hkept hq
  | addPbsPorts id ports => exact keeps_apply hkept (Core.calls_withPools _) hq
  | deletePbsPorts id ports => exact keeps_apply hkept (Core.calls_withPools _) hq
  | peekActivity region offsets => exact keeps_peekActivity hkept (fun _ => rfl) offsets hq
  | subscribe kind => exact hq
  | unsubscribe kind => exact hq
  | failNext op status => exact hq
  | recordHit region offset => exact hhit region offset

end Controller

end AclPlane
