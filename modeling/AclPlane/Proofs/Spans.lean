import AclPlane.Proofs.RuleImages

/-!
Room in the device for the rules of the model.

A count that has stopped at its greatest value lets the commit of a destruction fail, so that a
region of the model has gone in the device.  Where both have a region they agree on its size all the
same, for the commit of a creation or a resize does not fail.

* `Core.Spans`: every region of both has at least its capacity in the device.
* `Core.Transition.capacity_kept`: only creations and resizes change a capacity.
* `Controller.spans_step`, `Controller.spans_run`: every step keeps it, and so does every run.
-/

namespace AclPlane

namespace Core

variable {c : Core} {t : DeviceTables} {op : Option Operation} {done : Commit OpResult}
  {id : Handle .region} {r' : Region}

/-- The device gives every region at least the capacity that it has in the model. -/
def Spans (c : Core) (t : DeviceTables) : Prop :=
  ∀ id r d, c.regions.regions.get? id = some r → t.regions.get? id = some d →
    r.table.capacity ≤ d.hwSize

lemma keptBy_spans : DeviceTables.KeptBy
    (fun call => call.op ≠ .createRegion ∧ call.op ≠ .resizeRegion) c.Spans := by
  intro call t t' bit hcall happly h id r d' hr hd'
  rw [DeviceTables.get?_of_apply happly] at hd'
  split at hd'
  · cases hd : t.regions.get? id with
    | none =>
        rw [hd, DeviceCall.effect_none hcall.1] at hd'
        cases hd'
    | some d =>
        rw [hd] at hd'
        rw [DeviceCall.hwSize_effect hcall.1 hcall.2 hd']
        exact h id r d hr hd
  · exact h id r d' hr hd'

lemma capacity_withTable {region : Handle .region} {r : Region} {table : RuleTable}
    (hr : c.regions.regions.get? region = some r) (hcapacity : table.capacity = r.table.capacity)
    (hr' : (c.withTable region table).regions.regions.get? id = some r') :
    ∃ r, c.regions.regions.get? id = some r ∧ r'.table.capacity = r.table.capacity := by
  rw [withTable, setTable_eq hr, Arena.get?_set hr] at hr'
  split at hr'
  · next heq =>
      cases hr'
      exact ⟨r, heq ▸ hr, hcapacity⟩
  · exact ⟨r', hr', rfl⟩

/-- No transition but the creation and the resize of a region changes a capacity. -/
lemma Transition.capacity_kept (ht : Transition c op done)
    (hop : ∀ o ∈ op, o.deviceOp? ≠ some .createRegion ∧ o.deviceOp? ≠ some .resizeRegion)
    (hr' : done.core.regions.regions.get? id = some r') :
    ∃ r, c.regions.regions.get? id = some r ∧ r'.table.capacity = r.table.capacity := by
  cases ht with
  | createRegion => exact absurd rfl (hop _ rfl).1
  | resizeRegion => exact absurd rfl (hop _ rfl).2
  | destroyRegion unused removed uncounted released =>
      rw [Arena.get?_remove? removed] at hr'
      split at hr'
      · cases hr'
      · exact ⟨r', hr', rfl⟩
  | setRules found lengths typed checked live taken stored released =>
      exact capacity_withTable found (RuleTable.capacity_setAll stored) hr'
  | deleteRules found asked listed emptied released =>
      exact capacity_withTable found (RuleTable.capacity_clearAll emptied) hr'
  | moveBlock found moved => exact capacity_withTable found (RuleTable.capacity_moveBlock moved) hr'
  | shiftPriority found planned =>
      exact capacity_withTable found (RuleTable.capacity_setPriorities _) hr'
  | _ => exact ⟨r', hr', rfl⟩

/-- A new region has the size that the device is told. -/
lemma Spans.createRegion (h : c.Spans t) (hs : c.Steady) {keyType : Handle .keyType} {capacity : ℕ}
    {change : Change (Handle .region)} (hp : c.createRegion keyType capacity = .ok change) :
    ∃ done, change.commit = .ok done ∧ ∀ t', change.tables t = .ok t' → done.core.Spans t' := by
  obtain ⟨ct, new, hwSize, regions, keyTypes, -, hplan, hins, -, rfl⟩ := createRegion_eq_ok hp
  refine ⟨_, rfl, fun t' ht' id r d hr hd => ?_⟩
  obtain ⟨⟨t', bit⟩, happly, rfl⟩ := map_eq_ok.mp ht'
  rw [show regions.get? id = _ from Arena.get?_insertWith? hs.regions hins id] at hr
  by_cases hid : id = new
  · rw [if_pos hid] at hr
    rw [DeviceTables.get?_of_apply_target happly (congrArg some hid.symm)] at hd
    cases hr
    cases hd
    obtain ⟨hsize, -⟩ := Regions.planCreate_eq_ok.mp hplan
    exact (RuleTable.capacity_empty capacity).trans_le (Regions.le_of_hwSizeFor hsize)
  · rw [if_neg hid] at hr
    rw [DeviceTables.get?_of_apply_of_ne happly fun heq => hid (Option.some.inj heq).symm] at hd
    exact h id r d hr hd

lemma Spans.resizeRegion (h : c.Spans t) {region : Handle .region} {capacity : ℕ}
    {change : Change ℕ} (hp : c.resizeRegion region capacity = .ok change) :
    ∃ done, change.commit = .ok done ∧ ∀ t', change.tables t = .ok t' → done.core.Spans t' := by
  simp only [Core.resizeRegion, bind_eq_ok, pure_eq_ok] at hp
  obtain ⟨hwSize, hplan, rfl⟩ := hp
  obtain ⟨r₀, hr₀, hsize, hrules, -, -⟩ := Regions.planResize_eq_ok.mp hplan
  obtain ⟨table, htable⟩ : ∃ table, r₀.table.resize capacity = .ok table :=
    ⟨_, RuleTable.resize_eq_ok.mpr ⟨hrules, rfl⟩⟩
  have hresize : c.regions.resize region capacity hwSize = _ :=
    Regions.resize_eq_ok.mpr ⟨r₀, table, hr₀, htable, rfl⟩
  refine ⟨⟨_, [.regionResized region hwSize], hwSize⟩, by rw [hresize]; rfl,
    fun t' ht' id r d hr hd => ?_⟩
  obtain ⟨⟨t', bit⟩, happly, rfl⟩ := map_eq_ok.mp ht'
  rw [show (c.regions.regions.set region _).get? id = _ from Arena.get?_set hr₀] at hr
  by_cases hid : id = region
  · rw [if_pos hid] at hr
    rw [DeviceTables.get?_of_apply_target happly (congrArg some hid.symm)] at hd
    cases hr
    cases hold : t.regions.get? id with
    | none =>
        rw [hold] at hd
        cases hd
    | some d₀ =>
        rw [hold] at hd
        cases hd
        exact (RuleTable.capacity_resize htable).trans_le (Regions.le_of_hwSizeFor hsize)
  · rw [if_neg hid] at hr
    rw [DeviceTables.get?_of_apply_of_ne happly fun heq => hid (Option.some.inj heq).symm] at hd
    exact h id r d hr hd

end Core

lemma Operation.eq_resize_of_deviceOp? {op : Operation} (h : op.deviceOp? = some .resizeRegion) :
    ∃ region capacity, op = .region (.resize region capacity) := by
  unfold deviceOp? at h
  split at h <;> first | exact ⟨_, _, rfl⟩ | cases h

lemma Step.deviceOp?_of_operation? {st : Step} {op : Operation} (h : st.operation? = some op) :
    st.deviceOp? = op.deviceOp? := by
  cases st with
  | peekActivity => cases h
  | _ => exact congrArg (·.bind Operation.deviceOp?) h

namespace Controller

variable {s : Controller}

lemma spans_recordHit (h : s.core.Spans s.device.tables) (region : Handle .region) (offset : ℕ) :
    s.core.Spans (s.recordHit region offset).2.device.tables := by
  refine keeps_recordHit h fun d₀ hd₀ id r d hr hd => ?_
  rw [DeviceTables.get?_setRegion] at hd
  split at hd
  · next heq =>
      cases hd
      exact h id r d₀ hr (heq ▸ hd₀)
  · exact h id r d hr hd

/-- Every step leaves the device room for the rules of the model. -/
theorem spans_step (hs : s.core.Steady) (h : s.core.Spans s.device.tables) (st : Step) :
    (s.step st).controller.core.Spans (s.step st).controller.device.tables := by
  by_cases hcreate : st.deviceOp? = some .createRegion
  · obtain ⟨op, hop, hdevice⟩ := Step.exists_operation hcreate (by decide)
    obtain ⟨keyType, capacity, rfl⟩ := Operation.eq_create_of_deviceOp? hdevice
    rw [step_of_operation? hop]
    exact related_apply (fun _ => h) fun _ hp => h.createRegion hs hp
  by_cases hresize : st.deviceOp? = some .resizeRegion
  · obtain ⟨op, hop, hdevice⟩ := Step.exists_operation hresize (by decide)
    obtain ⟨region, capacity, rfl⟩ := Operation.eq_resize_of_deviceOp? hdevice
    rw [step_of_operation? hop]
    exact related_apply (fun _ => h) fun _ hp => h.resizeRegion hp
  · have htables : s.core.Spans (s.step st).controller.device.tables :=
      keeps_step (Core.keptBy_spans.mono fun call (hcall : some call.op = st.deviceOp?) =>
        ⟨fun heq => hcreate (hcall.symm.trans (congrArg some heq)),
          fun heq => hresize (hcall.symm.trans (congrArg some heq))⟩) (spans_recordHit h) h
    cases s.follows_step st with
    | done result transition delivered =>
        intro id r d hr hd
        have hop : ∀ o ∈ st.operation?,
            o.deviceOp? ≠ some .createRegion ∧ o.deviceOp? ≠ some .resizeRegion := by
          intro o ho
          rw [← Step.deviceOp?_of_operation? ho]
          exact ⟨hcreate, hresize⟩
        obtain ⟨r₀, hr₀, hcapacity⟩ := transition.capacity_kept hop hr
        rw [hcapacity]
        exact htables id r₀ d hr₀ hd
    | failed result unchanged =>
        rw [unchanged]
        exact htables

/-- In every run the device has room for the rules of the model. -/
theorem spans_run {config : Config} {given : Option (List KeyBlock)} {sink : Sink}
    (hs : Controller.start config given sink = .ok s) (steps : List Step) :
    (s.run steps).core.Spans (s.run steps).device.tables := by
  induction steps using List.reverseRecOn with
  | nil =>
      simp only [Controller.start, bind_eq_ok, pure_eq_ok] at hs
      obtain ⟨catalog, -, core, hcore, rfl⟩ := hs
      exact fun id r d _ hd => by cases hd
  | append_singleton steps st ih =>
      rw [run_concat]
      exact spans_step (steady_run hs steps) ih st

end Controller

end AclPlane
