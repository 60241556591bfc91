import AclPlane.Proofs.Shown
import AclPlane.Proofs.Spans

/-!
Every region that an ACL lists is in the device.

Where the commit of a destruction fails, the device has dropped a region that the model still has.
But what is destroyed is listed by no ACL, and so the regions that an ACL lists are in the device
after every run all the same.

* `DeviceTables.Closed`: the device has every region that one of its ACLs lists.
* `DeviceTables.keptBy_closed`: no call breaks this except the destruction of a region.
* `Controller.closed_destroyRegion`: nor does a destruction, which is only called for a region that
  no ACL lists.
* `Controller.listed_run`: after every run, what an ACL of the model lists is in the device.
-/

namespace AclPlane

/-- Only a destruction makes nothing of a region. -/
lemma DeviceCall.exists_effect {call : DeviceCall} (hdestroy : call.op ≠ .destroyRegion)
    (d : DeviceRegion) : ∃ d', call.effect (some d) = some d' := by
  cases call with
  | destroyRegion => exact absurd rfl hdestroy
  | readActivity region offset clear => cases clear <;> exact ⟨_, rfl⟩
  | _ => exact ⟨_, rfl⟩

namespace DeviceTables

variable {t t' : DeviceTables} {call : DeviceCall} {bit : Bool}

/-- The device has every region that one of its ACLs lists. -/
def Closed (t : DeviceTables) : Prop :=
  ∀ acl regions, t.acls.get? acl = some regions → ∀ r ∈ regions, t.regions.contains r = true

/-- A region stays in the device unless it is destroyed. -/
lemma contains_of_apply (h : t.apply call = .ok (t', bit)) (hdestroy : call.op ≠ .destroyRegion)
    {id : Handle .region} (hid : t.regions.contains id = true) : t'.regions.contains id = true := by
  obtain ⟨d, hd⟩ := OrderedMap.contains_iff.mp hid
  rw [OrderedMap.contains_iff, get?_of_apply h]
  split
  · rw [hd]
    exact call.exists_effect hdestroy d
  · exact ⟨d, hd⟩

/-- What an ACL lists after a call it has listed before, or the call has found it in the device. -/
lemma listed_of_apply (h : t.apply call = .ok (t', bit)) {acl : Handle .acl}
    {regions : List (Handle .region)} (hacl : t'.acls.get? acl = some regions) :
    t.acls.get? acl = some regions ∨ ∀ r ∈ regions, t.regions.contains r = true := by
  cases hcall : call.isOnRegion with
  | true =>
      obtain ⟨_, rfl⟩ := eq_of_isOnRegion hcall h
      exact .inl hacl
  | false =>
      cases call with
      | programAcl id listed =>
          rw [apply] at h
          split at h
          · cases h
          · next hfound =>
              cases h
              rw [OrderedMap.get?_insert] at hacl
              split at hacl
              · cases hacl
                exact .inr fun r hr => by simpa using List.find?_eq_none.mp hfound r hr
              · exact .inl hacl
      | removeAcl id =>
          rw [apply] at h
          split at h
          · cases h
            rw [OrderedMap.get?_erase] at hacl
            split at hacl
            · cases hacl
            · exact .inl hacl
          · cases h
      | programGroup id acls next =>
          cases h
          exact .inl hacl
      | removeGroup id =>
          rw [apply] at h
          split at h
          · cases h
            exact .inl hacl
          · cases h
      | programBinding key targets =>
          cases h
          exact .inl hacl
      | _ => cases hcall

lemma keptBy_closed : KeptBy (fun call => call.op ≠ .destroyRegion) Closed := by
  intro call t t' bit hdestroy happly h acl regions hacl r hr
  refine contains_of_apply happly hdestroy ?_
  rcases listed_of_apply happly hacl with hbefore | hfound
  · exact h acl regions hbefore r hr
  · exact hfound r hr

/-- Nor does the destruction of a region that no ACL lists. -/
lemma keptBy_unlisted (id : Handle .region) : KeptBy (fun call => call = .destroyRegion id)
    fun t => t.Closed ∧ ∀ acl regions, t.acls.get? acl = some regions → id ∉ regions := by
  rintro call t t' bit rfl happly ⟨hclosed, hunlisted⟩
  have hlisted : ∀ acl regions, t'.acls.get? acl = some regions →
      t.acls.get? acl = some regions := by
    obtain ⟨_, rfl⟩ := eq_of_isOnRegion rfl happly
    exact fun _ _ hacl => hacl
  refine ⟨fun acl regions hacl r hr => ?_, fun acl regions hacl => hunlisted _ _ (hlisted _ _ hacl)⟩
  have hne : r ≠ id := fun heq => hunlisted acl regions (hlisted _ _ hacl) (heq ▸ hr)
  rw [OrderedMap.contains, get?_of_apply_of_ne happly fun heq => hne (Option.some.inj heq).symm]
  exact hclosed acl regions (hlisted _ _ hacl) r hr

end DeviceTables

lemma Operation.eq_destroy_of_deviceOp? {op : Operation} (h : op.deviceOp? = some .destroyRegion) :
    ∃ region, op = .region (.destroy region) := by
  unfold deviceOp? at h
  split at h <;> first | exact ⟨_, rfl⟩ | cases h

namespace Controller

variable {s : Controller}

lemma closed_recordHit (h : s.device.tables.Closed) (region : Handle .region) (offset : ℕ) :
    (s.recordHit region offset).2.device.tables.Closed := by
  refine keeps_recordHit h fun _ _ acl regions hacl r hr => ?_
  rw [OrderedMap.contains, DeviceTables.get?_setRegion]
  split
  · rfl
  · exact h acl regions hacl r hr

/-- The device is only told to destroy a region that no ACL lists. -/
lemma closed_destroyRegion (hs : s.core.Steady) (hshown : s.core.Shown s.device.tables)
    (h : s.device.tables.Closed) (region : Handle .region) :
    (s.apply (s.core.destroyRegion region)).controller.device.tables.Closed := by
  cases huser : s.core.acls.userOf? region with
  | some acl =>
      -- the plan ends in an error, whether there is such a region or not
      obtain ⟨e, he⟩ : ∃ e, s.core.destroyRegion region = .error e := by
        simp only [Core.destroyRegion, huser]
        cases s.core.regions.get region <;> exact ⟨_, rfl⟩
      rw [he]
      exact h
  | none =>
      have hunlisted : ∀ acl regions, s.device.tables.acls.get? acl = some regions →
          region ∉ regions := by
        intro acl regions hacl
        rw [hshown.acls] at hacl
        obtain ⟨a, ha, rfl⟩ := Option.map_eq_some_iff.mp hacl
        exact (Acls.userOf?_eq_none_iff hs.acls).mp huser acl a ha
      exact (keeps_apply (DeviceTables.keptBy_unlisted region) (Core.calls_destroyRegion rfl)
        ⟨h, hunlisted⟩).1

/-- No step takes a region from the device that an ACL lists. -/
theorem closed_step (hs : s.core.Steady) (hshown : s.core.Shown s.device.tables)
    (h : s.device.tables.Closed) (st : Step) : (s.step st).controller.device.tables.Closed := by
  by_cases hdestroy : st.deviceOp? = some .destroyRegion
  · obtain ⟨op, hop, hdevice⟩ := Step.exists_operation hdestroy (by decide)
    obtain ⟨region, rfl⟩ := Operation.eq_destroy_of_deviceOp? hdevice
    rw [step_of_operation? hop]
    exact closed_destroyRegion hs hshown h region
  · have hother : ∀ call, some (DeviceCall.op call) = st.deviceOp? → call.op ≠ .destroyRegion :=
      fun call hcall heq => hdestroy (hcall.symm.trans (congrArg some heq))
    exact keeps_step (DeviceTables.keptBy_closed.mono hother) (closed_recordHit h) h

/-! ### Runs -/

variable {config : Config} {given : Option (List KeyBlock)} {sink : Sink}

theorem closed_run (hs : Controller.start config given sink = .ok s) (steps : List Step) :
    (s.run steps).device.tables.Closed := by
  induction steps using List.reverseRecOn with
  | nil =>
      simp only [Controller.start, bind_eq_ok, pure_eq_ok] at hs
      obtain ⟨catalog, -, core, -, rfl⟩ := hs
      exact fun acl regions hacl => by cases hacl
  | append_singleton steps st ih =>
      rw [run_concat]
      exact closed_step (steady_run hs steps) (shown_run hs steps) ih st

/-- After every run, the device has a region that an ACL of the model lists, with room for the rules
that the model has there. -/
theorem listed_run (hs : Controller.start config given sink = .ok s) (steps : List Step)
    {acl : Handle .acl} {a : Acl} (ha : (s.run steps).core.acls.acls.get? acl = some a)
    {region : Handle .region} (hlisted : region ∈ a.regions) {r : Region}
    (hr : (s.run steps).core.regions.regions.get? region = some r) :
    ∃ d, (s.run steps).device.tables.regions.get? region = some d ∧
      r.table.capacity ≤ d.hwSize := by
  have hacl : (s.run steps).device.tables.acls.get? acl = some a.regions := by
    rw [(shown_run hs steps).acls, ha]
    rfl
  obtain ⟨d, hd⟩ := OrderedMap.contains_iff.mp (closed_run hs steps _ _ hacl region hlisted)
  exact ⟨d, hd, spans_run hs steps region r d hr hd⟩

end Controller

end AclPlane
