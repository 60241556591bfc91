import AclPlane.Proofs.Delivery
import AclPlane.Proofs.Marks.Runs
import AclPlane.Proofs.Outline

/-!
What the marks of the rules determine.

The model says what the device has been programmed with, and the marks of its rules say which bits
are set.  Conversely the marks say which rules the model has, and the outline and the statistics say
everything else.  Operations on rules keep the outline, so whoever follows marks and statistics
through them knows model and device.

* `Core.Carries.tables_eq`: the tables of the device are determined by the model and the marks.
* `Controller.Reachable.exists_run`: what is reachable is reached by a run, so it has marks
  (`exists_carries`), and its tables count their rules (`exact`).
* `Controller.Reachable.eq_of_carries`: model and tables are determined by outline, marks and
  statistics.
* `Core.ruleChange`: the plan of an operation on rules; `Controller.result_rule`,
  `Controller.result_rule_iff`: its result, by whether a fault is armed for its device call
  (`Controller.Unarmed`).
* `Controller.Ruled`, `Controller.ruled_of_ok`: everything that such an operation leaves behind;
  `Controller.Ruled.eq_of_undone`: an operation that takes it back restores everything.
-/

namespace AclPlane

/-! ### The device by the model and its marks -/

/-- Two images of a region with the same bits are equal. -/
lemma Region.Mirrored.eq_of_isHit {kts : KeyTypes} {r : Region} {d d' : DeviceRegion}
    (h : r.Mirrored kts d) (h' : r.Mirrored kts d') (hbits : ∀ i, d.isHit i = d'.isHit i) :
    d = d' := by
  have hblocks : d.keyBlocks = d'.keyBlocks := by
    obtain ⟨kt, hkt, hblocks⟩ := h.keyBlocks
    obtain ⟨kt', hkt', hblocks'⟩ := h'.keyBlocks
    obtain rfl := Option.some.inj (hkt.symm.trans hkt')
    rw [hblocks, hblocks']
  have hsize : d.hwSize = d'.hwSize := h.hwSize.trans h'.hwSize.symm
  have hrules : d.rules = d'.rules :=
    OrderedMap.ext_get? fun i => (h.rules i).trans (h'.rules i).symm
  have hhits : d.hits = d'.hits := by
    refine OrderedMap.ext_get? fun i => ?_
    have hi : (d.hits.get? i).isSome = (d'.hits.get? i).isSome := hbits i
    cases hx : d.hits.get? i with
    | none =>
        rw [hx] at hi
        exact (Option.isNone_iff_eq_none.mp (Option.isSome_eq_false_iff.mp hi.symm)).symm
    | some u =>
        rw [hx] at hi
        obtain ⟨v, hv⟩ := Option.isSome_iff_exists.mp hi.symm
        rw [hv]
  obtain ⟨_, _, _, _⟩ := d
  obtain ⟨_, _, _, _⟩ := d'
  subst hblocks hsize hrules hhits
  rfl

/-- The tables of the device are determined by the model and the marks. -/
theorem Core.Carries.tables_eq {c : Core} {t t' : DeviceTables} {marks : Handle .region → Marks}
    (h : c.Carries t marks) (h' : c.Carries t' marks) (hm : c.Mirrors t) (hm' : c.Mirrors t') :
    t = t' := by
  have hregions : t.regions = t'.regions := by
    refine OrderedMap.ext_get? fun id => ?_
    cases hr : c.regions.regions.get? id with
    | none => rw [hm.region_eq_none hr, hm'.region_eq_none hr]
    | some r =>
        obtain ⟨d, hd, hmirrored⟩ := hm.exists_region hr
        obtain ⟨d', hd', hmirrored'⟩ := hm'.exists_region hr
        have hbits : ∀ i, d.isHit i = d'.isHit i := fun i =>
          ((h.live id r d hr hd).bits i).symm.trans ((h'.live id r d' hr hd').bits i)
        rw [hd, hd', hmirrored.eq_of_isHit hmirrored' hbits]
  have hacls : t.acls = t'.acls :=
    OrderedMap.ext_get? fun id => (hm.acls id).trans (hm'.acls id).symm
  have hgroups : t.groups = t'.groups :=
    OrderedMap.ext_get? fun id => (hm.groups id).trans (hm'.groups id).symm
  have hbindings : t.bindings = t'.bindings :=
    OrderedMap.ext_get? fun key => (hm.bindings key).trans (hm'.bindings key).symm
  obtain ⟨_, _, _, _⟩ := t
  obtain ⟨_, _, _, _⟩ := t'
  subst hregions hacls hgroups hbindings
  rfl

namespace Controller

variable {s s' : Controller} {marks : Handle .region → Marks}

/-! ### Reachable controllers -/

lemma RunHasRoom.concat {steps : List Step} {st : Step} (h : s.RunHasRoom steps)
    (hst : ((s.run steps).step st).result.isOk = true → st.HasRoom (s.run steps).core) :
    s.RunHasRoom (steps ++ [st]) := by
  induction steps generalizing s with
  | nil => exact ⟨hst, trivial⟩
  | cons first steps ih => exact ⟨h.1, ih h.2 hst⟩

/-- What is reachable is reached by a run. -/
lemma Reachable.exists_run (h : Reachable s) :
    ∃ (config : Config) (given : Option (List KeyBlock)) (sink : Sink) (fresh : Controller)
      (steps : List Step), Controller.start config given sink = .ok fresh ∧
        fresh.RunHasRoom steps ∧ s = fresh.run steps := by
  induction h with
  | start hs => exact ⟨_, _, _, _, [], hs, trivial, rfl⟩
  | step hs st hroom ih =>
      obtain ⟨config, given, sink, fresh, steps, hfresh, hsteps, rfl⟩ := ih
      exact ⟨config, given, sink, fresh, steps ++ [st], hfresh, hsteps.concat hroom,
        (run_concat fresh steps st).symm⟩

/-- The rules of a reachable model have marks that are the bits of its device. -/
lemma Reachable.exists_carries (h : Reachable s) :
    ∃ marks, s.core.Carries s.device.tables marks := by
  obtain ⟨config, given, sink, fresh, steps, hfresh, hroom, rfl⟩ := h.exists_run
  exact ⟨_, carries_run (.start hfresh) (carries_start hfresh) hroom⟩

/-- Every table of a reachable model counts its rules. -/
lemma Reachable.exact (h : Reachable s) :
    s.core.regions.regions.All fun r => r.table.Exact := by
  obtain ⟨config, given, sink, fresh, steps, hfresh, -, rfl⟩ := h.exists_run
  exact (fits_run hfresh steps).mono fun _ hfits => hfits.used

/-- The images of the rules of a region. -/
lemma image?_eq (h : s.core.InStep s.device.tables) {region : Handle .region} {r : Region}
    (hr : s.core.regions.regions.get? region = some r) (k : ℕ) :
    s.device.image? region k = (r.table.rule? k).map fun rule => rule.image k := by
  obtain ⟨d, hd, hmirrored⟩ := h.mirrors.exists_region hr
  rw [Device.image?, hd, Option.bind_some]
  exact hmirrored.rules k

/-- The rules of a region. -/
lemma rule?_eq (h : s.core.InStep s.device.tables) (hm : s.core.Carries s.device.tables marks)
    {region : Handle .region} {r : Region} (hr : s.core.regions.regions.get? region = some r)
    (k : ℕ) : r.table.rule? k = (marks region).rule? k := by
  obtain ⟨d, hd, -⟩ := h.mirrors.exists_region hr
  exact ((hm.live region r d hr hd).rules k).symm

/-- The bits of the rules, also of a region that there is not. -/
lemma bit_eq (h : s.core.InStep s.device.tables) (hm : s.core.Carries s.device.tables marks)
    (region : Handle .region) (k : ℕ) : s.device.bit region k = (marks region).bit k := by
  cases hr : s.core.regions.regions.get? region with
  | none =>
      rw [Device.bit, h.mirrors.region_eq_none hr, hm.gone region hr]
      rfl
  | some r =>
      obtain ⟨d, hd, -⟩ := h.mirrors.exists_region hr
      rw [Device.bit_eq hd]
      exact ((hm.live region r d hr hd).bits k).symm

/-- Model and tables are determined by outline, marks and statistics. -/
theorem Reachable.eq_of_carries (h : Reachable s) (h' : Reachable s')
    (houtline : s.core.outline = s'.core.outline) (hm : s.core.Carries s.device.tables marks)
    (hm' : s'.core.Carries s'.device.tables marks) (hstats : s.core.stats = s'.core.stats) :
    s.core = s'.core ∧ s.device.tables = s'.device.tables := by
  have hcore : s.core = s'.core := by
    refine Core.eq_of_outline h.inStep.sound h'.inStep.sound houtline
      (fun id r r' hr hr' hsame => ?_) hstats
    have hcapacity : r.table.capacity = r'.table.capacity := Region.capacity_of_outline hsame
    have hrule : ∀ k, r.table.rule? k = r'.table.rule? k := fun k =>
      (rule?_eq h.inStep hm hr k).trans (rule?_eq h'.inStep hm' hr' k).symm
    exact RuleTable.eq_of_rule? hcapacity hrule (h.exact id r hr) (h'.exact id r' hr')
  refine ⟨hcore, ?_⟩
  have hmirrors := h'.inStep.mirrors
  rw [← hcore] at hm' hmirrors
  exact hm.tables_eq hm' h.inStep.mirrors hmirrors

end Controller

/-! ### Operations on rules -/

lemma Operation.mark_rule {op : RuleOp} {id : Handle .region} (hid : op.region = id) (m : Marks) :
    (rule op).mark id m = op.mark m := if_pos hid

lemma Operation.mark_rule_of_ne {op : RuleOp} {id : Handle .region} (hid : op.region ≠ id)
    (m : Marks) : (rule op).mark id m = m := if_neg hid

namespace Core

/-- The plan of an operation on rules. -/
def ruleChange (c : Core) : RuleOp → Except AclError (Change Unit)
  | .set region offsets rules => c.setRules region offsets rules
  | .delete region offsets => c.deleteRules region offsets
  | .deleteAll region => c.deleteAllRules region
  | .move region block => c.moveBlock region block.src block.size block.dst
  | .shiftPriority region shift => c.shiftPriority region shift.low shift.high shift.delta

/-- What is planned lands. -/
lemma lands_ruleChange {c : Core} {t : DeviceTables} (h : c.InStep t) {op : RuleOp}
    {change : Change Unit} (hplan : c.ruleChange op = .ok change) :
    change.Lands (Operation.rule op).deviceOp? t False := by
  cases op with
  | set region offsets rules => exact lands_setRules h hplan False.elim
  | delete region offsets => exact lands_deleteRules h hplan
  | deleteAll region => exact lands_deleteAllRules h hplan
  | move region block => exact lands_moveBlock h hplan
  | shiftPriority region shift => exact lands_shiftPriority h hplan

end Core

namespace Controller

variable {s s' : Controller} {op : RuleOp}

lemma execute_rule (s : Controller) (op : RuleOp) :
    s.execute (.rule op) = s.applyDone (s.core.ruleChange op) := by
  cases op <;> rfl

/-- Where references have room, an operation on rules is a step of the controller. -/
lemma Reachable.rule (h : Reachable s) (hroom : (Operation.rule op).HasRoom s.core) :
    Reachable (s.execute (.rule op)).controller :=
  h.step (.operation (.rule op)) fun _ _ ho => Option.some.inj ho ▸ hroom

/-- No fault is armed for the device call of an operation. -/
def Unarmed (s : Controller) (op : Operation) : Prop :=
  ∀ o ∈ op.deviceOp?, s.device.faults.lookup o = none

instance (s : Controller) (op : Operation) : Decidable (s.Unarmed op) :=
  inferInstanceAs (Decidable (∀ o ∈ op.deviceOp?, s.device.faults.lookup o = none))

/-- While no fault is armed for it, an operation on rules fails only if its plan does. -/
theorem result_rule (h : s.core.InStep s.device.tables) (hunarmed : s.Unarmed (.rule op)) :
    (s.execute (.rule op)).result = (s.core.ruleChange op).map fun _ => .done := by
  rw [execute_rule]
  cases hplan : s.core.ruleChange op with
  | error e => rfl
  | ok change =>
      obtain ⟨a, ha⟩ := exists_result_apply rfl (Core.lands_ruleChange h hplan) hunarmed
      exact map_eq_ok.mpr ⟨a, ha, rfl⟩

/-- What is planned is carried out unless it calls the device and a fault is armed for the call. -/
theorem result_rule_iff (h : s.core.InStep s.device.tables) {change : Change Unit}
    (hplan : s.core.ruleChange op = .ok change) :
    (s.execute (.rule op)).result = .ok .done ↔ change.call = none ∨ s.Unarmed (.rule op) := by
  have hlands := Core.lands_ruleChange h hplan
  cases hcall : change.call with
  | none =>
      have hnone : change.Lands none s.device.tables False := by
        refine ⟨fun call heq => ?_, hlands.2⟩
        rw [hcall] at heq
        cases heq
      obtain ⟨a, ha⟩ := exists_result_apply hplan hnone nofun
      refine ⟨fun _ => Or.inl rfl, fun _ => ?_⟩
      rw [execute_rule]
      exact map_eq_ok.mpr ⟨a, ha, rfl⟩
  | some call =>
      have hop : (Operation.rule op).deviceOp? = some call.op := hlands.1 call hcall
      constructor
      · intro hok
        refine Or.inr fun o ho => ?_
        obtain rfl := Option.some.inj ((Option.mem_def.mp ho).symm.trans hop)
        cases hfault : s.device.faults.lookup call.op with
        | none => rfl
        | some status =>
            rw [execute_rule, hplan] at hok
            obtain ⟨a, ha, -⟩ := map_eq_ok.mp hok
            simp only [apply, hcall, Device.call_of_armed hfault] at ha
            cases ha
      · rintro (hnone | hunarmed)
        · cases hnone
        · rw [result_rule h hunarmed, hplan]
          rfl

/-- An operation on rules that does not succeed is refused. -/
lemma exists_error_iff (s : Controller) (op : RuleOp) :
    (∃ e, (s.execute (.rule op)).result = .error e) ↔
      (s.execute (.rule op)).result ≠ .ok .done := by
  have hresult : (s.execute (.rule op)).result =
      (s.apply (s.core.ruleChange op)).result.map fun _ => .done := by
    rw [execute_rule]
    rfl
  rw [hresult]
  cases (s.apply (s.core.ruleChange op)).result with
  | error e => exact iff_of_true ⟨e, rfl⟩ nofun
  | ok u => exact iff_of_false nofun (not_not_intro rfl)

/-- A plan that fails changes nothing. -/
lemma controller_rule_of_error {e : AclError} (hplan : s.core.ruleChange op = .error e) :
    (s.execute (.rule op)).controller = s := by
  rw [execute_rule, hplan]
  rfl

/-- What an operation on rules leaves behind when it succeeds. -/
structure Ruled (s : Controller) (op : RuleOp) (s' : Controller) : Prop where
  transition : ∃ done, Core.Transition s.core (some (.rule op)) done ∧ done.core = s'.core
  carries : ∀ marks, s.core.Carries s.device.tables marks →
    s'.core.Carries s'.device.tables fun id => (Operation.rule op).mark id (marks id)
  calls_eq : ∃ change, s.core.ruleChange op = .ok change ∧
    s'.device.calls = s.device.calls + if change.call.isSome then 1 else 0
  faults_eq : s'.device.faults = s.device.faults
  hub_eq : s'.hub = s.hub

namespace Ruled

lemma outline_eq (h : s.Ruled op s') : s'.core.outline = s.core.outline := by
  obtain ⟨done, ht, hcore⟩ := h.transition
  exact hcore ▸ ht.outline_eq

lemma stats_eq (h : s.Ruled op s') : ∃ r, s.core.regions.regions.get? op.region = some r ∧
    s'.core.stats = op.account r.table s.core.stats := by
  obtain ⟨done, ht, hcore⟩ := h.transition
  exact hcore ▸ ht.stats_eq

lemma get?_of_ne (h : s.Ruled op s') {id : Handle .region} (hid : id ≠ op.region) :
    s'.core.regions.regions.get? id = s.core.regions.regions.get? id := by
  obtain ⟨done, ht, hcore⟩ := h.transition
  exact hcore ▸ ht.get?_of_ne hid

/-- A fault that is not armed before is not armed afterwards. -/
lemma unarmed (h : s.Ruled op s') {other : Operation} (hother : s.Unarmed other) :
    s'.Unarmed other := by
  intro o ho
  rw [h.faults_eq]
  exact hother o ho

/-- A region stays, with as many slots as before. -/
lemma exists_region (h : s.Ruled op s') {id : Handle .region} {r : Region}
    (hr : s.core.regions.regions.get? id = some r) :
    ∃ r', s'.core.regions.regions.get? id = some r' ∧ r'.outline = r.outline :=
  Core.exists_of_outline h.outline_eq hr

end Ruled

/-- A call that is accepted meets no fault. -/
lemma faults_of_call {d d' : Device} {call : DeviceCall} {bit : Bool}
    (h : d.call call = (.ok bit, d')) : d'.faults = d.faults := by
  rw [Device.call] at h
  split at h
  · cases h
  · split at h
    · cases h
      rfl
    · cases h

lemma faults_apply_of_ok {α : Type} {plan : Except AclError (Change α)} {a : α}
    (h : (s.apply plan).result = .ok a) :
    (s.apply plan).controller.device.faults = s.device.faults := by
  rcases plan with e | ⟨call?, commit⟩
  · cases h
  · cases call? with
    | none => exact congrArg Device.faults (device_finish s commit)
    | some call =>
        rcases hcall : s.device.call call with ⟨answer, device⟩
        simp only [apply, hcall] at h ⊢
        cases answer with
        | error e => cases h
        | ok bit =>
            simp only [device_finish]
            exact faults_of_call hcall

theorem ruled_of_ok (h : s.core.InStep s.device.tables) {r : OpResult}
    (hr : (s.execute (.rule op)).result = .ok r) :
    s.Ruled op (s.execute (.rule op)).controller := by
  have htransition : ∃ done, Core.Transition s.core (some (.rule op)) done ∧
      done.core = (s.execute (.rule op)).controller.core := by
    cases s.follows_execute (.rule op) with
    | done result transition delivered => exact ⟨_, transition, rfl⟩
    | failed result unchanged =>
        rw [result] at hr
        cases hr
  have hcarries : ∀ marks, s.core.Carries s.device.tables marks → _ := fun marks hm =>
    carries_execute h hm hr
  have hhub := s.hub_execute (.rule op)
  rw [execute_rule] at hr htransition hcarries hhub ⊢
  obtain ⟨a, ha, -⟩ := map_eq_ok.mp hr
  obtain ⟨change, _, hplan, -, -, -, -, -, hcalls⟩ := apply_ok ha
  exact ⟨htransition, hcarries, ⟨change, hplan, hcalls⟩, faults_apply_of_ok ha, hhub⟩

/-- An operation on rules that takes back what another has done to the marks of the region, and to
the statistics, restores model and tables. -/
theorem Ruled.eq_of_undone {s'' : Controller} {back : RuleOp} (h : Reachable s)
    (h'' : Reachable s'') (hruled : s.Ruled op s') (hback : s'.Ruled back s'')
    (hregion : back.region = op.region)
    (hundone : ∀ marks, s.core.Carries s.device.tables marks →
      back.mark (op.mark (marks op.region)) = marks op.region)
    (hstats : s''.core.stats = s.core.stats) :
    s''.core = s.core ∧ s''.device.tables = s.device.tables := by
  obtain ⟨marks, hmarks⟩ := h.exists_carries
  have hmarks'' := hback.carries _ (hruled.carries marks hmarks)
  have hsame : (fun id => (Operation.rule back).mark id ((Operation.rule op).mark id (marks id))) =
      marks := by
    funext id
    by_cases hid : op.region = id
    · rw [Operation.mark_rule hid, Operation.mark_rule (hregion.trans hid)]
      subst hid
      exact hundone marks hmarks
    · rw [Operation.mark_rule_of_ne hid,
        Operation.mark_rule_of_ne fun heq => hid (hregion.symm.trans heq)]
  rw [hsame] at hmarks''
  exact h''.eq_of_carries h (hback.outline_eq.trans hruled.outline_eq) hmarks'' hmarks hstats

end Controller

end AclPlane
