import AclPlane.Proofs.Marks.Plans
import AclPlane.Proofs.Room

/-!
Marked rules in runs.

* `Step.mark`, `Controller.marks`: the rules of all regions with their bits after a run, where a
  step that fails leaves them alone.
* `Controller.carries_step`, `Controller.carries_run`: model and device keep up with the marks.
* `Controller.bits_of_rules`: the device has the bits of the rules, and readings answer with them.
-/

namespace AclPlane

/-! ### Marks after a run -/

/-- What a successful step makes of the rules of a region and of their bits. -/
def Step.mark (id : Handle .region) : Step → Marks → Marks
  | recordHit region offset, m => if region = id then m.hit offset else m
  | st, m => match st.operation? with
    | some op => op.mark id m
    | none => m

/-- The region and the offsets whose bits an operation reads, and whether it clears them. -/
def Operation.reading? : Operation → Option (Handle .region × List ℕ × Bool)
  | activity (.read target offsets) => some (target, offsets, false)
  | activity (.readClear target offsets) => some (target, offsets, true)
  | _ => none

/-- The region and the offsets whose bits a step reads, and whether it clears them. -/
def Step.reading? : Step → Option (Handle .region × List ℕ × Bool)
  | peekActivity region offsets => some (region, offsets, false)
  | st => st.operation?.bind Operation.reading?

/-- The rules of all regions with their bits after a step, which leaves them alone if it fails. -/
def Controller.marksAfter (s : Controller) (marks : Handle .region → Marks) (st : Step) :
    Handle .region → Marks :=
  fun id => if (s.step st).result.isOk then st.mark id (marks id) else marks id

/-- The rules of all regions with their bits after a run. -/
def Controller.marks (s : Controller) (marks : Handle .region → Marks) :
    List Step → Handle .region → Marks
  | [] => marks
  | st :: steps => (s.step st).controller.marks (s.marksAfter marks st) steps

lemma Step.mark_of_operation? {st : Step} {op : Operation} (h : st.operation? = some op)
    (id : Handle .region) : st.mark id = op.mark id := by
  cases st with
  | operation op' =>
      cases h
      rfl
  | command cmd params =>
      funext m
      change (match (command cmd params).operation? with
        | some op => op.mark id m
        | none => m) = op.mark id m
      rw [h]
  | _ => cases h

/-- Calls for other objects are about no region. -/
lemma DeviceCall.target?_eq_none {call : DeviceCall} {op : Operation}
    (h : some call.op = op.deviceOp?) (hregion : ∀ o, op ≠ .region o) (hrule : ∀ o, op ≠ .rule o)
    (hread : op.isReading = false) : call.target? = none := by
  cases op with
  | region o => exact absurd rfl (hregion o)
  | rule o => exact absurd rfl (hrule o)
  | activity o => cases hread
  | keyType o => cases h
  | pool o => cases h
  | query q => cases h
  | acl o => cases o <;> cases call <;> first | rfl | cases h
  | group o => cases o <;> cases call <;> first | rfl | cases h
  | binding o => cases call <;> first | rfl | cases h

namespace Controller

variable {s : Controller} {st : Step} {op : Operation} {marks : Handle .region → Marks}

/-- A plan that is carried out relates model, device and marks as its change does. -/
lemma carries_apply {α : Type} {plan : Except AclError (Change α)} {a : α}
    {marks' : Handle .region → Marks} (hr : (s.apply plan).result = .ok a)
    (h : ∀ change done t', plan = .ok change → change.commit = .ok done →
      change.tables s.device.tables = .ok t' → done.core.Carries t' marks') :
    (s.apply plan).controller.core.Carries (s.apply plan).controller.device.tables marks' := by
  obtain ⟨change, done, hplan, hcommit, -, hcore, -, htables, -⟩ := apply_ok hr
  rw [hcore]
  exact h change done _ hplan hcommit htables

lemma result_of_map {α β : Type} {o : Outcome α} {f : α → β} {b : β}
    (h : (o.map f).result = .ok b) : ∃ a, o.result = .ok a := by
  obtain ⟨a, ha, -⟩ := map_eq_ok.mp h
  exact ⟨a, ha⟩

lemma carries_executeRule (hstep : s.core.InStep s.device.tables)
    (hm : s.core.Carries s.device.tables marks) {op : RuleOp} {r : OpResult}
    (hr : (s.executeRule op).result = .ok r) :
    (s.executeRule op).controller.core.Carries (s.executeRule op).controller.device.tables
      fun id => (Operation.rule op).mark id (marks id) := by
  cases op with
  | set region offsets rules =>
      obtain ⟨u, hu⟩ := result_of_map hr
      exact carries_apply hu fun _ _ _ => hm.setRules hstep
  | delete region offsets =>
      obtain ⟨u, hu⟩ := result_of_map hr
      exact carries_apply hu fun _ _ _ => hm.deleteRules hstep rfl fun _ _ _ _ => rfl
  | deleteAll region =>
      obtain ⟨u, hu⟩ := result_of_map hr
      exact carries_apply hu fun _ _ _ => hm.deleteAllRules hstep
  | move region block =>
      obtain ⟨u, hu⟩ := result_of_map hr
      exact carries_apply hu fun _ _ _ => hm.moveBlock hstep
  | shiftPriority region shift =>
      obtain ⟨u, hu⟩ := result_of_map hr
      exact carries_apply hu fun _ _ _ => hm.shiftPriority hstep

lemma carries_executeRegion (hstep : s.core.InStep s.device.tables)
    (hm : s.core.Carries s.device.tables marks) {op : RegionOp} {r : OpResult}
    (hr : (s.executeRegion op).result = .ok r) :
    (s.executeRegion op).controller.core.Carries (s.executeRegion op).controller.device.tables
      fun id => (Operation.region op).mark id (marks id) := by
  cases op with
  | create keyType capacity =>
      obtain ⟨id, hid⟩ := result_of_map hr
      exact carries_apply hid fun _ _ _ => hm.createRegion hstep.sound
  | resize region capacity =>
      obtain ⟨n, hn⟩ := result_of_map hr
      exact carries_apply hn fun _ _ _ => hm.resizeRegion hstep
  | destroy region =>
      obtain ⟨u, hu⟩ := result_of_map hr
      exact carries_apply hu fun _ _ _ => hm.destroyRegion

/-- A reading leaves the rules as they are, and clears their bits if it is asked to. -/
lemma carries_readActivity (hstep : s.core.InStep s.device.tables)
    (hm : s.core.Carries s.device.tables marks) (region : Handle .region) (offsets : List ℕ)
    (clear : Bool) {bits : List Bool}
    (hr : (s.readActivity region offsets clear).result = .ok bits) :
    bits = (marks region).readings clear offsets ∧
      (s.readActivity region offsets clear).controller.core = s.core ∧
      s.core.Carries (s.readActivity region offsets clear).controller.device.tables
        fun id => if region = id then (marks id).afterReading clear offsets else marks id := by
  rcases readActivity_spec hstep.spans region offsets clear with
    ⟨e, herror, -⟩ | ⟨hnil, hread⟩ | ⟨d, device, hd, hread, htables⟩
  · rw [herror] at hr
    cases hr
  · rw [hread] at hr ⊢
    subst hnil
    cases hr
    have hsame : (fun id => if region = id then (marks id).afterReading clear [] else marks id) =
        marks := by
      funext id
      split
      · cases clear <;> rfl
      · rfl
    rw [hsame]
    exact ⟨rfl, rfl, hm⟩
  · rw [hread] at hr ⊢
    cases hr
    cases hget : s.core.regions.regions.get? region with
    | none =>
        rw [hstep.mirrors.region_eq_none hget] at hd
        cases hd
    | some r =>
        have hfit := hm.live region r d hget hd
        refine ⟨hfit.readings clear offsets, rfl, hm.change (Core.eq_ite_of_eq hget) htables
          (fun id hid => if_neg fun heq => hid heq.symm) ?_⟩
        rw [if_pos rfl]
        exact hfit.afterReading clear offsets

/-- A reading that does not clear leaves rules and bits as they are. -/
lemma carries_readOnly (hstep : s.core.InStep s.device.tables)
    (hm : s.core.Carries s.device.tables marks) (region : Handle .region) (offsets : List ℕ)
    {bits : List Bool} (hr : (s.readActivity region offsets false).result = .ok bits) :
    (s.readActivity region offsets false).controller.core = s.core ∧
      s.core.Carries (s.readActivity region offsets false).controller.device.tables marks := by
  obtain ⟨-, hcore, hread⟩ := carries_readActivity hstep hm region offsets false hr
  have hsame : (fun id => if region = id then (marks id).afterReading false offsets
      else marks id) = marks := funext fun id => ite_self _
  rw [hsame] at hread
  exact ⟨hcore, hread⟩

/-- Other operations leave regions and marks alone. -/
lemma carries_other (hm : s.core.Carries s.device.tables marks) {r : OpResult}
    (hr : (s.execute op).result = .ok r) (hregion : ∀ o, op ≠ .region o)
    (hrule : ∀ o, op ≠ .rule o) (hread : op.isReading = false) :
    (s.execute op).controller.core.Carries (s.execute op).controller.device.tables marks := by
  refine hm.congr (fun id => ?_) ?_
  · cases s.follows_execute op with
    | failed result unchanged =>
        rw [result] at hr
        cases hr
    | done result transition delivered =>
        have hregions : (s.execute op).controller.core.regions = s.core.regions :=
          transition.regions_eq (fun o heq => hregion o (Option.some.inj heq))
            fun o heq => hrule o (Option.some.inj heq)
        rw [hregions]
  · have hkept : DeviceTables.KeptBy (fun call => some call.op = op.deviceOp?)
        fun t => ∀ id, t.regions.get? id = s.device.tables.regions.get? id := by
      intro call t t' bit hcall happly hsame id
      have htarget := DeviceCall.target?_eq_none hcall hregion hrule hread
      rw [DeviceTables.get?_of_apply_of_ne happly (by rw [htarget]; exact nofun)]
      exact hsame id
    exact keeps_execute hkept fun _ => rfl

lemma carries_execute (hstep : s.core.InStep s.device.tables)
    (hm : s.core.Carries s.device.tables marks) {r : OpResult}
    (hr : (s.execute op).result = .ok r) :
    (s.execute op).controller.core.Carries (s.execute op).controller.device.tables
      fun id => op.mark id (marks id) := by
  cases op with
  | rule op => exact carries_executeRule hstep hm hr
  | region op => exact carries_executeRegion hstep hm hr
  | activity op =>
      cases op with
      | read region offsets =>
          obtain ⟨bits, hbits⟩ := result_of_map hr
          obtain ⟨hcore, hread⟩ := carries_readOnly hstep hm region offsets hbits
          change (s.readActivity region offsets false).controller.core.Carries _ marks
          rw [hcore]
          exact hread
      | readClear region offsets =>
          obtain ⟨bits, hbits⟩ := result_of_map hr
          obtain ⟨-, hcore, hread⟩ := carries_readActivity hstep hm region offsets true hbits
          change (s.readActivity region offsets true).controller.core.Carries _ _
          rw [hcore]
          exact hread
  | query q => exact hm
  | keyType op => exact carries_other hm hr nofun nofun rfl
  | acl op => exact carries_other hm hr nofun nofun rfl
  | group op => exact carries_other hm hr nofun nofun rfl
  | binding op => exact carries_other hm hr nofun nofun rfl
  | pool op => exact carries_other hm hr nofun nofun rfl

/-- A hit sets the bit of the rule that it meets. -/
lemma carries_recordHit (hstep : s.core.InStep s.device.tables)
    (hm : s.core.Carries s.device.tables marks) (region : Handle .region) (offset : ℕ) :
    s.core.Carries (s.recordHit region offset).2.device.tables
      fun id => (Step.recordHit region offset).mark id (marks id) := by
  have hmissed : marks region offset = none →
      s.core.Carries s.device.tables fun id =>
        (Step.recordHit region offset).mark id (marks id) := by
    intro hnone
    have hsame : (fun id => (Step.recordHit region offset).mark id (marks id)) = marks := by
      funext id
      rw [Step.mark]
      split
      · next hid => exact Marks.hit_of_none (hid ▸ hnone)
      · rfl
    rw [hsame]
    exact hm
  have hdevice : (s.recordHit region offset).2.device = (s.device.recordHit region offset).2 := rfl
  rw [hdevice, Device.recordHit]
  cases hget : s.core.regions.regions.get? region with
  | none =>
      rw [hstep.mirrors.region_eq_none hget]
      refine hmissed ?_
      rw [hm.gone region hget]
      rfl
  | some r =>
      obtain ⟨d, hd, hmirrored⟩ := hstep.mirrors.exists_region hget
      have hfit := hm.live region r d hget hd
      have himage := hmirrored.rules offset
      rw [hd]
      cases hr : r.table.rule? offset with
      | none =>
          rw [hr, Option.map_none] at himage
          simp only [OrderedMap.contains, himage, Option.isSome_none, Bool.false_eq_true, if_false]
          exact hmissed (Marks.eq_none_of_rule? ((hfit.rules offset).trans hr))
      | some rule =>
          simp only [hmirrored.rules.contains hr, if_true]
          refine hm.change (Core.eq_ite_of_eq hget)
            (DeviceTables.get?_setRegion s.device.tables region · (d.hit offset))
            (fun id hid => if_neg fun heq : region = id => hid heq.symm) ?_
          rw [Step.mark, if_pos rfl]
          exact hfit.hit hr

/-! ### Steps and runs -/

lemma peekActivity_eq (s : Controller) (region : Handle .region) (offsets : List ℕ) :
    (s.peekActivity region offsets).result = (s.readActivity region offsets false).result ∧
      (s.peekActivity region offsets).controller.core = s.core ∧
      (s.peekActivity region offsets).controller.device =
        (s.readActivity region offsets false).controller.device := by
  rw [peekActivity, readActivity]
  cases s.core.checkActivity region offsets with
  | error e => exact ⟨rfl, rfl, rfl⟩
  | ok u =>
      rw [peekBits_eq]
      exact ⟨rfl, rfl, rfl⟩

/-- A step that succeeds changes the marks as it says. -/
lemma carries_step_of_ok (hstep : s.core.InStep s.device.tables)
    (hm : s.core.Carries s.device.tables marks) {r : OpResult} (hr : (s.step st).result = .ok r) :
    (s.step st).controller.core.Carries (s.step st).controller.device.tables
      fun id => st.mark id (marks id) := by
  have hpools : ∀ pools, (s.applyDone (s.core.withPools pools)).controller.core.Carries
      (s.applyDone (s.core.withPools pools)).controller.device.tables marks := by
    intro pools
    cases pools with
    | error e => exact hm
    | ok pools => exact hm.congr (fun _ => rfl) fun _ => rfl
  cases hop : st.operation? with
  | some op =>
      rw [step_of_operation? hop] at hr ⊢
      simp only [Step.mark_of_operation? hop]
      exact carries_execute hstep hm hr
  | none =>
      cases st with
      | operation op => cases hop
      | command cmd params =>
          rw [Step.operation?] at hop
          rw [step] at hr
          split at hr
          · next hop' =>
              rw [hop'] at hop
              cases hop
          · cases hr
      | addPbsPorts id ports => exact hpools _
      | deletePbsPorts id ports => exact hpools _
      | peekActivity region offsets =>
          obtain ⟨hresult, hcore, hdevice⟩ := s.peekActivity_eq region offsets
          obtain ⟨bits, hbits⟩ := result_of_map hr
          rw [hresult] at hbits
          change (s.peekActivity region offsets).controller.core.Carries
            (s.peekActivity region offsets).controller.device.tables marks
          rw [hcore, hdevice]
          exact (carries_readOnly hstep hm region offsets hbits).2
      | subscribe kind => exact hm.congr (fun _ => rfl) fun _ => rfl
      | unsubscribe kind => exact hm.congr (fun _ => rfl) fun _ => rfl
      | failNext op status => exact hm.congr (fun _ => rfl) fun _ => rfl
      | recordHit region offset => exact carries_recordHit hstep hm region offset

/-- Every step changes the marks as it says if it succeeds, and leaves them alone if it fails. -/
theorem carries_step (hstep : s.core.InStep s.device.tables)
    (hm : s.core.Carries s.device.tables marks) (st : Step) :
    (s.step st).controller.core.Carries (s.step st).controller.device.tables
      (s.marksAfter marks st) := by
  cases hr : (s.step st).result with
  | ok r =>
      have hmarks : s.marksAfter marks st = fun id => st.mark id (marks id) := by
        funext id
        rw [marksAfter, hr]
        rfl
      rw [hmarks]
      exact carries_step_of_ok hstep hm hr
  | error e =>
      have hmarks : s.marksAfter marks st = marks := by
        funext id
        rw [marksAfter, hr]
        rfl
      rw [hmarks]
      have hlawful := lawful_step hstep st
      generalize s.step st = o at hlawful hr
      cases hlawful with
      | done calls inStep => cases hr
      | refused refusal => exact hm
      | faulted issued armed called => exact hm.congr (fun _ => rfl) fun _ => rfl

lemma carries_start {config : Config} {given : Option (List KeyBlock)} {sink : Sink}
    (hs : Controller.start config given sink = .ok s) :
    s.core.Carries s.device.tables fun _ => .none := by
  simp only [Controller.start, bind_eq_ok, pure_eq_ok] at hs
  obtain ⟨catalog, -, core, hcore, rfl⟩ := hs
  refine ⟨fun id r d _ hd => ?_, fun _ _ => rfl⟩
  cases hd

/-- The marks keep up with model and device in every run. -/
theorem carries_run (h : Reachable s) (hm : s.core.Carries s.device.tables marks)
    {steps : List Step} (hroom : s.RunHasRoom steps) :
    (s.run steps).core.Carries (s.run steps).device.tables (s.marks marks steps) := by
  induction steps generalizing s marks with
  | nil => exact hm
  | cons st steps ih =>
      exact ih (h.step st hroom.1) (carries_step h.inStep hm st) hroom.2

/-! ### What is read -/

/-- What a reading step answers is what the reading gives. -/
lemma result_of_reading {region : Handle .region} {offsets : List ℕ} {clear : Bool}
    (hst : st.reading? = some (region, offsets, clear)) :
    (s.step st).result = (s.readActivity region offsets clear).result.map .activity := by
  have hexecute : ∀ op : Operation, op.reading? = some (region, offsets, clear) →
      (s.execute op).result = (s.readActivity region offsets clear).result.map .activity := by
    intro op hop
    cases op with
    | activity op => cases op <;> cases hop <;> rfl
    | _ => cases hop
  cases st with
  | operation op => exact hexecute op hst
  | command cmd params =>
      obtain ⟨op, hop, hreading⟩ := Option.bind_eq_some_iff.mp hst
      rw [step_of_operation? hop]
      exact hexecute op hreading
  | peekActivity region offsets =>
      cases hst
      change (s.peekActivity _ _).result.map OpResult.activity = _
      rw [(s.peekActivity_eq region offsets).1]
  | _ => cases hst

/-- Offsets that pass the check are read, unless a fault is armed. -/
lemma exists_readActivity (hstep : s.core.InStep s.device.tables) {region : Handle .region}
    {offsets : List ℕ} (hcheck : s.core.checkActivity region offsets = .ok ())
    (hfault : s.device.faults.lookup .readActivity = none) (clear : Bool) :
    ∃ bits, (s.readActivity region offsets clear).result = .ok bits := by
  obtain ⟨r, hr, hlt⟩ := of_checkActivity hcheck
  obtain ⟨bits, events, device, hread, -⟩ := exists_readBits hstep hr hlt hfault clear
  have hreadActivity : s.readActivity region offsets clear = s.readBits region clear offsets := by
    rw [readActivity, hcheck]
  rw [hreadActivity, hread]
  exact ⟨bits, rfl⟩

/-- Take any run, and let each rule that it stores have a bit of its own: clear when the rule is
written, set by a hit, cleared by a clearing read, and taken along by the rule wherever it goes.

The rules with bits are those that the model has at their offsets, and the device has just their
bits set.  Every reading that succeeds has answered with their bits, one after another, so that a
clearing read of an offset twice finds the bit clear the second time.  A reading of offsets that
pass the check succeeds unless a fault is armed for it.

By `runHasRoom_of_budget` every run has room for its references if the budget is less than 2³⁰ rows.
Where there is no room a count stays behind, and a deletion may fail after the device has cleared
the rule. -/
theorem bits_of_rules {config : Config} {given : Option (List KeyBlock)} {sink : Sink}
    (hs : Controller.start config given sink = .ok s) {steps : List Step}
    (hroom : s.RunHasRoom steps) :
    let now := s.run steps
    let marks := s.marks (fun _ => .none) steps
    (∀ id offset, (marks id).rule? offset =
      (now.core.regions.regions.get? id).bind fun r => r.table.rule? offset) ∧
    (∀ id offset, now.device.bit id offset = (marks id).bit offset) ∧
    ∀ st region offsets clear, st.reading? = some (region, offsets, clear) →
      (∀ r, (now.step st).result = .ok r →
        r = .activity ((marks region).readings clear offsets)) ∧
      (now.core.checkActivity region offsets = .ok () →
        now.device.faults.lookup .readActivity = none →
          (now.step st).result = .ok (.activity ((marks region).readings clear offsets))) := by
  intro now marks
  have hstep : now.core.InStep now.device.tables := ((Reachable.start hs).run hroom).inStep
  have hm : now.core.Carries now.device.tables marks :=
    carries_run (.start hs) (carries_start hs) hroom
  have hanswer : ∀ st region offsets clear, st.reading? = some (region, offsets, clear) → ∀ r,
      (now.step st).result = .ok r → r = .activity ((marks region).readings clear offsets) := by
    intro st region offsets clear hst r hr
    rw [result_of_reading hst] at hr
    obtain ⟨bits, hbits, rfl⟩ := map_eq_ok.mp hr
    rw [(carries_readActivity hstep hm region offsets clear hbits).1]
  refine ⟨fun id offset => ?_, fun id offset => ?_, fun st region offsets clear hst =>
    ⟨hanswer st region offsets clear hst, fun hcheck hfault => ?_⟩⟩
  · cases hr : now.core.regions.regions.get? id with
    | none =>
        rw [hm.gone id hr]
        rfl
    | some r =>
        obtain ⟨d, hd, -⟩ := hstep.mirrors.exists_region hr
        exact (hm.live id r d hr hd).rules offset
  · cases hr : now.core.regions.regions.get? id with
    | none =>
        rw [Device.bit, hstep.mirrors.region_eq_none hr, hm.gone id hr]
        rfl
    | some r =>
        obtain ⟨d, hd, -⟩ := hstep.mirrors.exists_region hr
        rw [Device.bit_eq hd]
        exact ((hm.live id r d hr hd).bits offset).symm
  · obtain ⟨bits, hbits⟩ := exists_readActivity hstep hcheck hfault clear
    have hresult : (now.step st).result = .ok (.activity bits) := by
      rw [result_of_reading hst, hbits]
      rfl
    rw [hresult, hanswer st region offsets clear hst _ hresult]

/-- After the session, a packet hits the first rule, which a block move takes to offset 2 and pushes
the second to offset 3, where it is hit as well; then another rule is written over the second. -/
def pushing : List Step :=
  [.recordHit ⟨0, 1⟩ 1, .operation (.rule (.move ⟨0, 1⟩ ⟨1, 2, 2⟩)), .recordHit ⟨0, 1⟩ 3,
    .operation (.rule (.shiftPriority ⟨0, 1⟩ ⟨5, 5, 2⟩)),
    .operation (.rule (.set ⟨0, 1⟩ [3] [⟨9, [], []⟩]))]

/-- The first rule has taken its bit along, and the new one has none. -/
theorem bits_of_pushing :
    let now := fresh.run (session ++ pushing)
    now.device.bit ⟨0, 1⟩ 2 = true ∧ now.device.bit ⟨0, 1⟩ 3 = false ∧
    (now.step (.operation (.activity (.readClear ⟨0, 1⟩ [1, 2, 2, 3])))).result =
      .ok (.activity [false, true, false, false]) := by
  intro now
  have hroom : fresh.RunHasRoom (session ++ pushing) :=
    runHasRoom_of_budget start_fresh (by decide) _
  obtain ⟨-, hbits, hread⟩ := bits_of_rules start_fresh hroom
  refine ⟨(hbits _ _).trans (by decide +kernel), (hbits _ _).trans (by decide +kernel), ?_⟩
  refine ((hread _ ⟨0, 1⟩ [1, 2, 2, 3] true rfl).2 ?_ ?_).trans ?_
  · decide +kernel
  · decide +kernel
  · decide +kernel

end Controller

end AclPlane
