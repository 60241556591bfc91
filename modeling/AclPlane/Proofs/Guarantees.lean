import AclPlane.Proofs.Reachable

/-!
What the control plane guarantees after every run.

* `Controller.tables_eq_image`: the device holds exactly what the model says.
* `Controller.error_changes_nothing`: an operation that fails changes neither model nor tables.
* `Controller.device_error_needs_fault`: the device refuses only what a fault was armed for.
* `Controller.counts_exact`: reference counts are numbers of references.

`session` is a run that creates objects of several kinds and meets a fault; each guarantee is
shown at work on it.
-/

namespace AclPlane

/-! ### What the counts count -/

namespace Core

/-- The rules stored in all live regions. -/
def rules (c : Core) : List Rule :=
  c.regions.regions.toList.flatMap fun e => e.2.table.occupied.map Prod.snd

lemma ruleReferences_eq_sum (c : Core) (e : PoolEntry) :
    c.ruleReferences e = (c.rules.map fun r => r.refs.count e).sum := by
  have hregion : ∀ r : Region, r.table.refs.count e =
      ((r.table.occupied.map Prod.snd).map fun rule => rule.refs.count e).sum := by
    intro r
    rw [RuleTable.refs_count, RuleTable.total, List.map_map]
    rfl
  simp only [ruleReferences, Arena.total, rules, hregion]
  induction c.regions.regions.toList with
  | nil => rfl
  | cons e regions ih =>
      rw [List.map_cons, List.sum_cons, ih, List.flatMap_cons, List.map_append, List.sum_append]

lemma users_eq_countP (c : Core) (id : Handle .keyType) :
    c.users id = c.regions.regions.toList.countP fun e => e.2.keyType = id := by
  simp only [users, Arena.total]
  induction c.regions.regions.toList with
  | nil => rfl
  | cons e regions ih =>
      rw [List.map_cons, List.sum_cons, ih, List.countP_cons, List.count_singleton, Nat.add_comm]
      simp

lemma Sound.isBoundAt_eq {c : Core} (h : c.Sound) (key : BindingKey) :
    c.bindings.isBoundAt key = decide (c.bindings.entriesAt key ≠ []) := by
  have hne := h.entries_ne key
  rw [Bindings.isBoundAt, OrderedMap.contains, Bindings.entriesAt]
  cases hget : c.bindings.entries.get? key with
  | none => rfl
  | some list =>
      rw [hget] at hne
      simpa using hne

/-- What no binding refers to is counted by the rules alone. -/
lemma Sound.refCount_of_rules {c : Core} (h : c.Sound) {e : PoolEntry}
    (he : c.bindings.references e = 0) :
    c.pools.refCount e = (c.rules.map fun r => r.refs.count e).sum := by
  rw [h.references_eq, references, he, ruleReferences_eq_sum, Nat.add_zero]

lemma Sound.refCount_vlanGroup {c : Core} (h : c.Sound) (id : Handle .vlanGroup) :
    c.pools.refCount (.vlanGroup id) =
      Direction.all.countP fun d => c.bindings.entriesAt ⟨.vlanGroup id, d⟩ ≠ [] := by
  rw [h.references_eq, references, ruleReferences_vlanGroup, Nat.zero_add]
  refine List.countP_congr fun d _ => ?_
  rw [h.isBoundAt_eq]

end Core

namespace Controller

variable {s : Controller}

/-! ### A session -/

/-- A fresh controller with the usual limits. -/
def fresh : Controller where
  core := {
    config := .standard
    catalog := .builtIn
    keyTypes := KeyTypes.empty 64 6
    regions := Regions.empty .standard
    acls := Acls.empty 512
    groups := Groups.empty .standard
    bindings := Bindings.empty
    pools := Pools.empty .standard
    stats := Stats.zero }
  device := Device.new
  hub := EventHub.empty .recording

/-- Stores two rules that refer to a PBS entry, lists their region in an ACL, and binds the ACL
to a VLAN group; then a fault is armed for the next binding. -/
def session : List Step :=
  [.operation (.keyType (.create [.dstIp] none)),
   .operation (.pool (.create (.pbs (.port ⟨7⟩)))),
   .operation (.pool (.create (.vlanGroup [10]))),
   .operation (.region (.create ⟨0, 1⟩ 4)),
   .operation (.rule (.set ⟨0, 1⟩ [1, 2] [⟨5, [], [.pbs ⟨0, 1⟩]⟩, ⟨6, [], [.pbs ⟨0, 1⟩]⟩])),
   .operation (.acl (.create .agnostic .ingress ⟨false, false, false, false⟩ [⟨0, 1⟩])),
   .operation (.binding (.bind ⟨.vlanGroup ⟨0, 1⟩, .ingress⟩ (.acl ⟨0, 1⟩))),
   .failNext .programBinding .timeout]

/-- The step that meets the fault. -/
def unbinding : Step := .operation (.binding (.unbind ⟨.vlanGroup ⟨0, 1⟩, .ingress⟩))

lemma start_fresh : Controller.start .standard none .recording = .ok fresh := rfl

lemma reachable_session : Reachable (fresh.run session) :=
  (Reachable.start start_fresh).run (by decide +kernel)

/-! ### The device mirrors the model -/

/-- The device has the regions of the model, each with its hardware size, with the blocks of its
key type, and with the image of every rule at the offset of the rule; it has the ACLs with
their regions, the groups with their members and successors, and for the bound keys, none of
which is bound to nothing, the raw handles of what is bound, in order. -/
theorem tables_eq_image (h : Reachable s) :
    (∀ id, s.device.tables.regions.contains id = s.core.regions.contains id) ∧
    (∀ id r d, s.core.regions.regions.get? id = some r → s.device.tables.regions.get? id = some d →
      d.hwSize = r.hwSize ∧
      (∃ kt, s.core.keyTypes.types.get? r.keyType = some kt ∧ d.keyBlocks = kt.value.blocks) ∧
      ∀ offset, d.rules.get? offset = (r.table.rule? offset).map fun rule => rule.image offset) ∧
    (∀ id, s.device.tables.acls.get? id = (s.core.acls.acls.get? id).map fun a => a.regions) ∧
    (∀ id, s.device.tables.groups.get? id =
      (s.core.groups.groups.get? id).map fun g => (g.acls, g.next)) ∧
    (∀ key, s.core.bindings.entries.get? key ≠ some []) ∧
    (∀ key, s.device.tables.bindings.get? key =
      (s.core.bindings.entries.get? key).map fun list => list.map fun e => e.target.raw) := by
  have hm := h.inStep.mirrors
  refine ⟨fun id => ?_, fun id r d hr hd => ?_, hm.acls, hm.groups, h.inStep.sound.entries_ne,
    hm.bindings⟩
  · cases hr : s.core.regions.regions.get? id with
    | none =>
        rw [OrderedMap.contains, hm.region_eq_none hr, Regions.contains, Arena.contains, hr]
        rfl
    | some r =>
        obtain ⟨d, hd, -⟩ := hm.exists_region hr
        rw [OrderedMap.contains, hd, Regions.contains, Arena.contains, hr]
        rfl
  · obtain ⟨d', hd', hm'⟩ := hm.exists_region hr
    rw [hd, Option.some.injEq] at hd'
    subst hd'
    exact ⟨hm'.hwSize, hm'.keyBlocks, hm'.rules⟩

theorem binding_of_session :
    (fresh.run session).device.tables.bindings.get? ⟨.vlanGroup ⟨0, 1⟩, .ingress⟩ =
      some [(⟨0, 1⟩ : Handle .acl).raw] := by
  rw [(tables_eq_image reachable_session).2.2.2.2.2]
  decide +kernel

/-! ### Failures leave no trace -/

/-- An operation that fails delivers no event and changes nothing in the model but the number of
failed device calls.  The tables of the device are as before: either the device has not been
called, or its only call met an armed fault, so that no failure comes after a call that the
device has accepted. -/
theorem error_changes_nothing (h : Reachable s) {st : Step} {e : AclError}
    (he : (s.step st).result = .error e) :
    (s.step st).events = [] ∧
    (∃ failures, (s.step st).controller.core =
      { s.core with stats := { s.core.stats with hwFailures := failures } }) ∧
    (s.step st).controller.hub = s.hub ∧
    (s.step st).controller.device.tables = s.device.tables ∧
    ((s.step st).controller.device = s.device ∨
      ∃ op status, s.device.faults.lookup op = some status ∧
        e = .device (.status (some op) status) ∧
        (s.step st).controller.device = s.device.afterFault op) := by
  have hlawful := lawful_step h.inStep st
  generalize s.step st = o at hlawful he
  cases hlawful with
  | done calls inStep => cases he
  | refused refusal => exact ⟨rfl, ⟨_, rfl⟩, rfl, rfl, .inl rfl⟩
  | faulted issued armed called =>
      cases he
      exact ⟨rfl, ⟨_, rfl⟩, rfl, rfl, .inr ⟨_, _, armed, rfl, rfl⟩⟩

theorem tables_after_fault :
    ((fresh.run session).step unbinding).controller.device.tables =
      (fresh.run session).device.tables := by
  have he : ((fresh.run session).step unbinding).result =
      .error (.device (.status (some .programBinding) .timeout)) := by decide +kernel
  exact (error_changes_nothing reachable_session he).2.2.2.1

/-! ### Errors of the device -/

/-- An error of the device comes from a fault that is armed for the device operation of the step;
with any other error the device has not been called; and no step makes more calls than its
limit, which is one but for reading the activity of several offsets. -/
theorem device_error_needs_fault (h : Reachable s) (st : Step) :
    (∀ d, (s.step st).result = .error (.device d) →
      ∃ op status, st.deviceOp? = some op ∧ s.device.faults.lookup op = some status ∧
        d = .status (some op) status) ∧
    (∀ e, (s.step st).result = .error e → (∀ d, e ≠ .device d) →
      (s.step st).controller.device = s.device) ∧
    (s.step st).controller.device.calls ≤ s.device.calls + st.callLimit := by
  have hlawful := lawful_step h.inStep st
  generalize s.step st = o at hlawful
  cases hlawful with
  | done calls inStep =>
      refine ⟨fun d hd => ?_, fun e he => ?_, calls⟩
      · cases hd
      · cases he
  | refused refusal =>
      refine ⟨fun d hd => ?_, fun e he hne => rfl, Nat.le_add_right _ _⟩
      cases hd
      cases refusal
  | faulted issued armed called =>
      refine ⟨fun d hd => ?_, fun e he hne => ?_, Nat.add_le_add_left called _⟩
      · cases hd
        exact ⟨_, _, issued, armed, rfl⟩
      · cases he
        exact absurd rfl (hne _)

theorem fault_of_unbinding :
    ∃ status, (fresh.run session).device.faults.lookup .programBinding = some status ∧
      ((fresh.run session).step unbinding).result =
        .error (.device (.status (some .programBinding) status)) := by
  have he : ((fresh.run session).step unbinding).result =
      .error (.device (.status (some .programBinding) .timeout)) := by decide +kernel
  obtain ⟨op, status, hop, harmed, hstatus⟩ :=
    (device_error_needs_fault reachable_session unbinding).1 _ he
  cases hop
  cases hstatus
  exact ⟨.timeout, harmed, he⟩

/-! ### Reference counts -/

/-- The count of a pool entry is the number of references of all stored rules to it, the count of
a key type the number of regions with it, and the count of a VLAN group the number of directions
in which it carries a binding.  So no step fails because a count would fall below zero. -/
theorem counts_exact (h : Reachable s) :
    (∀ id v, s.core.pools.pbs.entries.get? id = some v →
      v.refs = (s.core.rules.map fun r => r.refs.pbs.count id).sum) ∧
    (∀ id v, s.core.pools.ranges.pool.entries.get? id = some v →
      v.refs = (s.core.rules.map fun r => r.refs.ranges.count id).sum) ∧
    (∀ id v, s.core.pools.customBytes.entries.get? id = some v →
      v.refs = (s.core.rules.map fun r => r.refs.customBytes.count id).sum) ∧
    (∀ id v, s.core.pools.portLists.entries.get? id = some v →
      v.refs = (s.core.rules.map fun r => r.refs.portLists.count id).sum) ∧
    (∀ id v, s.core.keyTypes.types.get? id = some v →
      v.refs = s.core.regions.regions.toList.countP fun e => e.2.keyType = id) ∧
    (∀ id v, s.core.pools.vlanGroups.entries.get? id = some v →
      v.refs = Direction.all.countP fun d => s.core.bindings.entriesAt ⟨.vlanGroup id, d⟩ ≠ []) ∧
    (∀ st object, (s.step st).result ≠ .error (.invalidParam (.countUnderflow object))) := by
  have hs := h.inStep.sound
  refine ⟨fun id v hv => ?_, fun id v hv => ?_, fun id v hv => ?_, fun id v hv => ?_,
    fun id v hv => ?_, fun id v hv => ?_, fun st object hst => ?_⟩
  · rw [← Arena.refCount_eq hv]
    exact hs.refCount_of_rules (e := .pbs id) rfl
  · rw [← Arena.refCount_eq hv]
    exact hs.refCount_of_rules (e := .range id) rfl
  · rw [← Arena.refCount_eq hv]
    exact hs.refCount_of_rules (e := .customBytes id) rfl
  · rw [← Arena.refCount_eq hv]
    exact hs.refCount_of_rules (e := .portList id) rfl
  · rw [← Arena.refCount_eq hv, hs.users_eq, Core.users_eq_countP]
  · rw [← Arena.refCount_eq hv]
    exact hs.refCount_vlanGroup id
  · have hlawful := lawful_step h.inStep st
    generalize s.step st = o at hlawful hst
    cases hlawful with
    | done calls inStep => cases hst
    | refused refusal =>
        cases hst
        cases refusal
    | faulted issued armed called => cases hst

theorem refs_of_session :
    ((fresh.run session).core.pools.pbs.entries.get? ⟨0, 1⟩).map Counted.refs = some 2 := by
  obtain ⟨v, hv⟩ : ∃ v, (fresh.run session).core.pools.pbs.entries.get? ⟨0, 1⟩ = some v := by
    rw [← Option.isSome_iff_exists]
    decide +kernel
  rw [hv, Option.map_some, (counts_exact reachable_session).1 _ _ hv]
  decide +kernel

end Controller

end AclPlane
