import AclPlane.Proofs.Links

/-!
An object can be destroyed exactly if nothing refers to it.

* `Core.UnusedOnly`: a plan that succeeds on what nothing refers to, and is refused otherwise
  because the object is in use.
* `Core.unusedOnly_destroyKeyType`, `Core.unusedOnly_destroyRegion`, `Core.unusedOnly_destroyAcl`,
  `Core.unusedOnly_destroyGroup`, `Core.unusedOnly_destroyPoolEntry`: the plans that destroy live
  objects are of this kind.
* `Core.Transition.not_isLive`: what has been destroyed is gone.
* `Controller.destroy_isOk_iff`: all of it together, for an object of any kind after any run.
-/

namespace AclPlane

/-- The operation that destroys an object. -/
def Operation.destroy : {kind : ObjectKind} → Handle kind → Operation
  | .keyType, id => .keyType (.destroy id)
  | .region, id => .region (.destroy id)
  | .acl, id => .acl (.destroy id)
  | .group, id => .group (.destroy id)
  | .pbs, id => .pool (.destroy (.pbs id))
  | .range, id => .pool (.destroy (.range id))
  | .customBytes, id => .pool (.destroy (.customBytes id))
  | .portList, id => .pool (.destroy (.portList id))
  | .vlanGroup, id => .pool (.destroy (.vlanGroup id))

/-! ### Removal from a pool -/

namespace Pool

variable {kind : ObjectKind} {α : Type} {p : Pool kind α} {id : Handle kind} {v : Counted α}

/-- An entry with references is in use. -/
lemma remove_of_used (hv : p.entries.get? id = some v) (hused : 0 < v.refs) :
    p.remove id = .error (.inUse (.referenced id.ref v.refs)) := by
  simp only [remove, checkFree, lookup_eq_ok.mpr hv, ok_bind, if_pos hused]
  rfl

/-- An entry without references can be removed. -/
lemma exists_remove (hv : p.entries.get? id = some v) (hfree : ¬0 < v.refs) :
    ∃ q, p.remove id = .ok (v.value, q) := by
  obtain ⟨entries, hrem⟩ := Arena.exists_remove? hv
  refine ⟨{ p with entries := entries }, ?_⟩
  simp only [remove, checkFree, lookup_eq_ok.mpr hv, ok_bind, if_neg hfree, hrem]
  rfl

lemma not_contains_of_remove {a : α} {q : Pool kind α} (h : p.remove id = .ok (a, q)) :
    q.contains id = false := by
  simp only [remove, bind_eq_ok] at h
  obtain ⟨_, -, h⟩ := h
  split at h
  · next hrem =>
      cases h
      exact Arena.not_contains_of_remove? hrem
  · cases h

end Pool

namespace Core

variable {c : Core}

/-! ### Plans -/

/-- A plan that succeeds on what nothing refers to, and is refused otherwise because the object is
in use. -/
structure UnusedOnly {α : Type} (plan : Except AclError α) (used : Prop) : Prop where
  refused : used → ∃ why, plan = .error (.inUse why)
  planned : ¬used → ∃ a, plan = .ok a

lemma UnusedOnly.map {α β : Type} {plan : Except AclError α} {used : Prop}
    (h : UnusedOnly plan used) (f : α → β) : UnusedOnly (plan >>= fun a => pure (f a)) used where
  refused hused := by
    obtain ⟨why, hp⟩ := h.refused hused
    exact ⟨why, by rw [hp]; rfl⟩
  planned hfree := by
    obtain ⟨a, hp⟩ := h.planned hfree
    exact ⟨f a, by rw [hp]; rfl⟩

/-- A key type counts its regions, so it is in use while one is of it. -/
lemma unusedOnly_destroyKeyType (hs : c.Sound) {id : Handle .keyType}
    (hlive : c.isLive id = true) : UnusedOnly (c.destroyKeyType id) (c.Refers id) := by
  obtain ⟨ct, hct⟩ := Arena.contains_iff.mp hlive
  have hrefs : 0 < ct.refs ↔ c.Refers id := by
    rw [← Arena.refCount_eq hct, hs.users_eq, hs.users_pos_iff_refers]
  obtain ⟨types, hrem⟩ := Arena.exists_remove? hct
  have hdestroy : UnusedOnly (c.keyTypes.destroy id) (c.Refers id) := by
    refine ⟨fun hused => ⟨.usedByRegions id ct.refs, ?_⟩, fun hfree => ?_⟩
    · simp only [KeyTypes.destroy, KeyTypes.lookup_eq_ok.mpr hct, ok_bind,
        if_pos (hrefs.mpr hused)]
      rfl
    · have hzero : ct.refs = 0 := Nat.eq_zero_of_not_pos (mt hrefs.mp hfree)
      exact ⟨_, KeyTypes.destroy_eq_ok.mpr ⟨ct, types, hct, hzero, hrem, rfl⟩⟩
  exact hdestroy.map _

/-- The ACLs are searched for the region. -/
lemma unusedOnly_destroyRegion (hs : c.Sound) {id : Handle .region}
    (hlive : c.isLive id = true) : UnusedOnly (c.destroyRegion id) (c.Refers id) := by
  obtain ⟨r, hr⟩ := Arena.contains_iff.mp hlive
  have hsearch : c.acls.userOf? id = none ↔ ¬c.Refers id :=
    userOf?_eq_none_iff_not_refers hs.acls
  simp only [destroyRegion, Regions.get_eq_ok.mpr hr, ok_bind]
  cases huser : c.acls.userOf? id with
  | some acl =>
      refine ⟨fun _ => ⟨_, rfl⟩, fun hfree => ?_⟩
      rw [hsearch.mpr hfree] at huser
      cases huser
  | none => exact ⟨fun hused => absurd hused (hsearch.mp huser), fun _ => ⟨_, rfl⟩⟩

/-- The groups are searched for the ACL, and then the bindings. -/
lemma unusedOnly_destroyAcl (hs : c.Sound) {id : Handle .acl} (hlive : c.isLive id = true) :
    UnusedOnly (c.destroyAcl id) (c.Refers id) := by
  obtain ⟨a, ha⟩ := Arena.contains_iff.mp hlive
  have hsearch : c.groups.holderOf? id = none ∧ c.bindings.isBound (.acl id) = false ↔
      ¬c.Refers id := free_acl_iff_not_refers hs.groups
  simp only [destroyAcl, Acls.get_eq_ok.mpr ha, ok_bind]
  cases hholder : c.groups.holderOf? id with
  | some group =>
      refine ⟨fun _ => ⟨_, rfl⟩, fun hfree => ?_⟩
      rw [(hsearch.mpr hfree).1] at hholder
      cases hholder
  | none =>
      cases hbound : c.bindings.isBound (.acl id) with
      | true =>
          refine ⟨fun _ => ⟨_, rfl⟩, fun hfree => ?_⟩
          rw [(hsearch.mpr hfree).2] at hbound
          cases hbound
      | false => exact ⟨fun hused => absurd hused (hsearch.mp ⟨hholder, hbound⟩), fun _ => ⟨_, rfl⟩⟩

/-- A group is in use in a bound chain, or while it follows another. -/
lemma unusedOnly_destroyGroup (hs : c.Sound) {id : Handle .group} (hlive : c.isLive id = true) :
    UnusedOnly (c.destroyGroup id) (c.Refers id) := by
  obtain ⟨g, hg⟩ := Arena.contains_iff.mp hlive
  have hsearch := free_group_iff_not_refers hs.groups hg
  simp only [destroyGroup, Groups.get_eq_ok.mpr hg, ok_bind]
  cases hbound : c.isGroupBound id with
  | true =>
      refine ⟨fun _ => ⟨_, rfl⟩, fun hfree => ?_⟩
      rw [(hsearch.mpr hfree).1] at hbound
      cases hbound
  | false =>
      cases hparent : c.groups.parentOf? id with
      | some parent =>
          refine ⟨fun _ => ⟨_, rfl⟩, fun hfree => ?_⟩
          rw [(hsearch.mpr hfree).2] at hparent
          cases hparent
      | none =>
          exact ⟨fun hused => absurd hused (hsearch.mp ⟨hbound, hparent⟩), fun _ => ⟨_, rfl⟩⟩

lemma unusedOnly_remove {kind : ObjectKind} {α : Type} {p : Pool kind α} {id : Handle kind}
    {used : Prop} (hlive : p.contains id = true) (hused : 0 < p.refCount id ↔ used) :
    UnusedOnly (p.remove id) used := by
  obtain ⟨v, hv⟩ := Arena.contains_iff.mp hlive
  rw [Pool.refCount, Arena.refCount_eq hv] at hused
  refine ⟨fun h => ⟨_, Pool.remove_of_used hv (hused.mpr h)⟩, fun h => ?_⟩
  obtain ⟨q, hq⟩ := Pool.exists_remove hv (mt hused.mp h)
  exact ⟨_, hq⟩

/-- A pool entry counts the rules and bindings that refer to it. -/
lemma unusedOnly_destroyPoolEntry (hs : c.Sound) {e : PoolEntry}
    (hlive : c.isLive e.ref.handle = true) :
    UnusedOnly (c.destroyPoolEntry e) (c.Refers e.ref.handle) := by
  have hcount := hs.refCount_pos_iff_refers e
  refine UnusedOnly.map ?_ _
  cases e with
  | pbs id => exact (unusedOnly_remove hlive hcount).map _
  | range id => exact (unusedOnly_remove hlive hcount).map _
  | customBytes id => exact (unusedOnly_remove hlive hcount).map _
  | portList id => exact (unusedOnly_remove hlive hcount).map _
  | vlanGroup id => exact (unusedOnly_remove hlive hcount).map _

/-! ### What has been destroyed is gone -/

/-- A pool entry that has been destroyed is not live afterwards. -/
lemma Transition.not_isLive_entry {done : Commit OpResult} (e : PoolEntry)
    (h : Transition c (some (.pool (.destroy e))) done) :
    done.core.isLive e.ref.handle = false := by
  cases h with
  | observe reading => cases reading _ rfl
  | destroyPoolEntry destroyed =>
      cases e <;> simp only [Pools.destroy, bind_eq_ok, pure_eq_ok] at destroyed <;>
        obtain ⟨_, hrem, rfl⟩ := destroyed <;> exact Pool.not_contains_of_remove hrem

/-- What has been destroyed is gone. -/
lemma Transition.not_isLive {kind : ObjectKind} {id : Handle kind} {done : Commit OpResult}
    (h : Transition c (some (Operation.destroy id)) done) : done.core.isLive id = false := by
  cases kind with
  | keyType =>
      cases h with
      | observe reading => cases reading _ rfl
      | destroyKeyType destroyed =>
          obtain ⟨_, types, -, -, hrem, rfl⟩ := KeyTypes.destroy_eq_ok.mp destroyed
          exact Arena.not_contains_of_remove? hrem
  | region =>
      cases h with
      | observe reading => cases reading _ rfl
      | destroyRegion unused removed => exact Arena.not_contains_of_remove? removed
  | acl =>
      cases h with
      | observe reading => cases reading _ rfl
      | destroyAcl unlisted unbound removed => exact Arena.not_contains_of_remove? removed
  | group =>
      cases h with
      | observe reading => cases reading _ rfl
      | destroyGroup unbound unfollowing removed => exact Arena.not_contains_of_remove? removed
  | pbs => exact not_isLive_entry (.pbs id) h
  | range => exact not_isLive_entry (.range id) h
  | customBytes => exact not_isLive_entry (.customBytes id) h
  | portList => exact not_isLive_entry (.portList id) h
  | vlanGroup => exact not_isLive_entry (.vlanGroup id) h

end Core

namespace Controller

variable {s : Controller} {α : Type}

/-! ### Carrying plans out -/

/-- A change that lands is carried out while no fault is armed for its device call. -/
lemma exists_result_apply {plan : Except AclError (Change α)} {change : Change α}
    {op : Option DeviceOp} {room : Prop} (hplan : plan = .ok change)
    (hlands : change.Lands op s.device.tables room)
    (hunarmed : ∀ o, op = some o → s.device.faults.lookup o = none) :
    ∃ a, (s.apply plan).result = .ok a := by
  subst hplan
  obtain ⟨hop, done, t, hcommit, ht, -⟩ := hlands
  obtain ⟨call?, commit⟩ := change
  cases hcommit
  cases call? with
  | none => exact ⟨_, rfl⟩
  | some call =>
      obtain ⟨⟨t', bit⟩, happly, rfl⟩ := map_eq_ok.mp ht
      simp only [apply, Device.call_of_unarmed (hunarmed _ (hop call rfl)) happly]
      exact ⟨_, rfl⟩

/-- A plan that succeeds on unused objects only is carried out on these, and refused on others. -/
lemma applyDone_of_unusedOnly {plan : Except AclError (Change Unit)} {used : Prop}
    {op : Option DeviceOp} (hplan : Core.UnusedOnly plan used)
    (hlands : ∀ change, plan = .ok change → change.Lands op s.device.tables True)
    (hunarmed : ∀ o, op = some o → s.device.faults.lookup o = none) :
    ((s.applyDone plan).result.isOk = true ↔ ¬used) ∧
      ∀ e, (s.applyDone plan).result = .error e → e.kind = .inUse := by
  by_cases hused : used
  · obtain ⟨why, hp⟩ := hplan.refused hused
    subst hp
    refine ⟨⟨fun hok => absurd hok Bool.false_ne_true, fun hfree => absurd hused hfree⟩, ?_⟩
    rintro e ⟨⟩
    rfl
  · obtain ⟨change, hp⟩ := hplan.planned hused
    obtain ⟨a, ha⟩ := exists_result_apply hp (hlands change hp) hunarmed
    have hdone : (s.applyDone plan).result = .ok .done := map_eq_ok.mpr ⟨a, ha, rfl⟩
    rw [hdone]
    refine ⟨⟨fun _ => hused, fun _ => rfl⟩, ?_⟩
    rintro e ⟨⟩

/-! ### Destroying an object -/

lemma execute_destroy (h : Reachable s) {kind : ObjectKind} {id : Handle kind}
    (hlive : s.core.isLive id = true) (hunarmed : ∀ op, (Operation.destroy id).deviceOp? = some op →
      s.device.faults.lookup op = none) :
    ((s.execute (.destroy id)).result.isOk = true ↔ ¬s.core.Refers id) ∧
      ∀ e, (s.execute (.destroy id)).result = .error e → e.kind = .inUse := by
  have hs := h.inStep.sound
  have hentry : ∀ e : PoolEntry, s.core.isLive e.ref.handle = true →
      ((s.applyDone (s.core.destroyPoolEntry e)).result.isOk = true ↔
        ¬s.core.Refers e.ref.handle) ∧
        ∀ err, (s.applyDone (s.core.destroyPoolEntry e)).result = .error err → err.kind = .inUse :=
    fun e he => applyDone_of_unusedOnly (Core.unusedOnly_destroyPoolEntry hs he)
      (fun _ => Core.lands_destroyPoolEntry h.inStep) fun o ho => by cases ho
  cases kind with
  | keyType =>
      exact applyDone_of_unusedOnly (Core.unusedOnly_destroyKeyType hs hlive)
        (fun _ => Core.lands_destroyKeyType h.inStep) hunarmed
  | region =>
      exact applyDone_of_unusedOnly (Core.unusedOnly_destroyRegion hs hlive)
        (fun _ => Core.lands_destroyRegion h.inStep) hunarmed
  | acl =>
      exact applyDone_of_unusedOnly (Core.unusedOnly_destroyAcl hs hlive)
        (fun _ => Core.lands_destroyAcl h.inStep) hunarmed
  | group =>
      exact applyDone_of_unusedOnly (Core.unusedOnly_destroyGroup hs hlive)
        (fun _ => Core.lands_destroyGroup h.inStep) hunarmed
  | pbs => exact hentry (.pbs id) hlive
  | range => exact hentry (.range id) hlive
  | customBytes => exact hentry (.customBytes id) hlive
  | portList => exact hentry (.portList id) hlive
  | vlanGroup => exact hentry (.vlanGroup id) hlive

/-- After every run, a live object whose device operation has no fault armed can be destroyed
exactly if nothing refers to it.  Then it is gone; otherwise the error is that it is in use. -/
theorem destroy_isOk_iff (h : Reachable s) {kind : ObjectKind} (id : Handle kind)
    (hlive : s.core.isLive id = true)
    (hunarmed : ∀ op, (Operation.destroy id).deviceOp? = some op →
      s.device.faults.lookup op = none) :
    ((s.step (.operation (.destroy id))).result.isOk = true ↔ ¬s.core.Refers id) ∧
    (∀ e, (s.step (.operation (.destroy id))).result = .error e → e.kind = .inUse) ∧
    ((s.step (.operation (.destroy id))).result.isOk = true →
      (s.step (.operation (.destroy id))).controller.core.isLive id = false) := by
  obtain ⟨hiff, hkind⟩ := execute_destroy h hlive hunarmed
  refine ⟨hiff, hkind, fun hok => ?_⟩
  cases s.follows_execute (.destroy id) with
  | done result transition delivered => exact transition.not_isLive
  | failed result unchanged =>
      rw [step, result] at hok
      cases hok

/-- The second group of the chain follows the first, so it cannot be destroyed; the first can,
although it has a successor. -/
theorem destroy_of_chain :
    chained.core.Refers (⟨1, 1⟩ : Handle .group) ∧
    (chained.step (.operation (.destroy (⟨1, 1⟩ : Handle .group)))).result.isOk = false ∧
    ¬chained.core.Refers (⟨0, 1⟩ : Handle .group) := by
  have hunarmed : ∀ op, some DeviceOp.removeGroup = some op →
      chained.device.faults.lookup op = none := by
    rintro op ⟨⟩
    decide +kernel
  have hsecond := destroy_isOk_iff reachable_chained (⟨1, 1⟩ : Handle .group)
    (by decide +kernel) hunarmed
  have hfirst := destroy_isOk_iff reachable_chained (⟨0, 1⟩ : Handle .group)
    (by decide +kernel) hunarmed
  refine ⟨refers_of_chain, ?_, hfirst.1.mp (by decide +kernel)⟩
  rw [Bool.eq_false_iff]
  exact fun hok => hsecond.1.mp hok refers_of_chain

end Controller

end AclPlane
