import AclPlane.Proofs.Calls
import AclPlane.Proofs.Guarantees
import AclPlane.Proofs.Transition.Steps

/-!
The failed device calls on record.

A step makes its device calls one after another, up to the first that fails.  `Step.calls` lists
the calls, `Device.attempt` makes them, and `Controller.callLog` is the log of a run: every call
with its answer and the step that made it.

* `Controller.attempted_apply`, `Controller.attempted_readActivity`: a planned change, and a reading
  that is put on record, make their calls, and the failures among them go on record.
* `Controller.peeked_peekActivity`: an observer makes its calls as well, but leaves no record.
* `Controller.calls_step`, `Controller.hwFailures_step`: so each step adds its calls to the number
  of calls, and its failures to those on record unless it is an observer's.
* `Controller.failures_recorded`: after a run the failed calls on record are those of all steps but
  the observers'; `Controller.peek_not_recorded` is a failed call that is missing.
-/

namespace AclPlane

variable {α β : Type}

/-! ### The calls of a step -/

/-- The call that a planned change makes. -/
def plannedCalls : Except AclError (Change α) → List DeviceCall
  | .ok change => change.call.toList
  | .error _ => []

/-- The calls that a reading of activity makes, one for each offset. -/
def readingCalls (c : Core) (region : Handle .region) (offsets : List ℕ) (clear : Bool) :
    List DeviceCall :=
  match c.checkActivity region offsets with
  | .ok () => offsets.map (.readActivity region · clear)
  | .error _ => []

namespace Operation

/-- The calls that an operation makes unless one of them fails. -/
def calls (c : Core) : Operation → List DeviceCall
  | keyType (.create fields hint) => plannedCalls (c.createKeyType fields hint)
  | keyType (.destroy id) => plannedCalls (c.destroyKeyType id)
  | region (.create id capacity) => plannedCalls (c.createRegion id capacity)
  | region (.resize id capacity) => plannedCalls (c.resizeRegion id capacity)
  | region (.destroy id) => plannedCalls (c.destroyRegion id)
  | acl (.create aclType direction bitmap regions) =>
    plannedCalls (c.createAcl aclType direction bitmap regions)
  | acl (.edit id regions bitmap) => plannedCalls (c.editAcl id regions bitmap)
  | acl (.destroy id) => plannedCalls (c.destroyAcl id)
  | rule (.set id offsets rules) => plannedCalls (c.setRules id offsets rules)
  | rule (.delete id offsets) => plannedCalls (c.deleteRules id offsets)
  | rule (.deleteAll id) => plannedCalls (c.deleteAllRules id)
  | rule (.move id block) => plannedCalls (c.moveBlock id block.src block.size block.dst)
  | rule (.shiftPriority id shift) =>
    plannedCalls (c.shiftPriority id shift.low shift.high shift.delta)
  | group (.create direction) => plannedCalls (c.createGroup direction)
  | group (.set id acls) => plannedCalls (c.setGroupAcls id acls)
  | group (.add id member) => plannedCalls (c.addGroupAcl id member)
  | group (.delete id member) => plannedCalls (c.deleteGroupAcl id member)
  | group (.chain parent child) => plannedCalls (c.chainGroups parent child)
  | group (.unchain parent) => plannedCalls (c.unchainGroup parent)
  | group (.setPriority id priority) => plannedCalls (c.setGroupPriority id priority)
  | group (.destroy id) => plannedCalls (c.destroyGroup id)
  | binding (.bind key target) => plannedCalls (c.bindTarget key target)
  | binding (.unbind key) => plannedCalls (c.unbind key)
  | binding (.add key id) => plannedCalls (c.bindAdd key id)
  | binding (.delete key id) => plannedCalls (c.bindDelete key id)
  | pool (.create value) => plannedCalls (c.createPoolEntry value)
  | pool (.edit entry value) => plannedCalls (c.editPoolEntry entry value)
  | pool (.add entry value) => plannedCalls (c.addPoolMembers entry value)
  | pool (.delete entry value) => plannedCalls (c.deletePoolMembers entry value)
  | pool (.destroy entry) => plannedCalls (c.destroyPoolEntry entry)
  | activity (.read id offsets) => readingCalls c id offsets false
  | activity (.readClear id offsets) => readingCalls c id offsets true
  | query _ => []

end Operation

namespace Step

/-- The calls that a step makes unless one of them fails. -/
def calls (c : Core) : Step → List DeviceCall
  | operation op => op.calls c
  | command cmd params =>
    match Operation.ofCommand cmd params with
    | .ok op => op.calls c
    | .error _ => []
  | addPbsPorts id ports => plannedCalls (c.addPbsPorts id ports)
  | deletePbsPorts id ports => plannedCalls (c.deletePbsPorts id ports)
  | peekActivity region offsets => readingCalls c region offsets false
  | _ => []

/-- Whether a step is an observer's: it reads activity and leaves the model alone. -/
def isPeek : Step → Bool
  | peekActivity .. => true
  | _ => false

end Step

/-! ### Making calls -/

namespace Device

/-- Makes calls one after another, up to the first that fails: the calls made, each with its
answer, and the device afterwards. -/
def attempt (d : Device) :
    List DeviceCall → List (DeviceCall × Except DeviceError Bool) × Device
  | [] => ([], d)
  | call :: calls =>
    match d.call call with
    | (.ok bit, next) =>
      let (made, last) := next.attempt calls
      ((call, .ok bit) :: made, last)
    | (.error e, next) => ([(call, .error e)], next)

/-- The number of failures among calls that have been made. -/
def failures (made : List (DeviceCall × Except DeviceError Bool)) : ℕ :=
  made.countP fun m => !m.2.isOk

variable {d : Device}

/-- The device counts the calls. -/
lemma calls_attempt (d : Device) (calls : List DeviceCall) :
    (d.attempt calls).2.calls = d.calls + (d.attempt calls).1.length := by
  induction calls generalizing d with
  | nil => rfl
  | cons call calls ih =>
      rcases hcall : d.call call with ⟨answer, next⟩
      have hnext := Controller.calls_of_call hcall
      cases answer with
      | error e => simpa only [attempt, hcall, List.length_singleton] using hnext
      | ok bit =>
          simp only [attempt, hcall, ih, List.length_cons]
          omega

end Device

/-! ### Outcomes of calls -/

/-- An outcome after calls of the device, all of which have been accepted if it is a success, and
whose failures are put on record if it is not. -/
structure Outcome.Attempted (s : Controller) (calls : List DeviceCall) (o : Outcome α) :
    Prop where
  device : o.controller.device = (s.device.attempt calls).2
  accepted : o.result.isOk = true → Device.failures (s.device.attempt calls).1 = 0
  recorded : o.result.isOk = false → o.controller.core.stats.hwFailures =
    s.core.stats.hwFailures + Device.failures (s.device.attempt calls).1

lemma isOk_map {ε : Type} {x : Except ε α} {f : α → β} : (x.map f).isOk = x.isOk := by
  cases x <;> rfl

lemma Outcome.Attempted.map {s : Controller} {calls : List DeviceCall} {o : Outcome α}
    (h : o.Attempted s calls) (f : α → β) : (o.map f).Attempted s calls where
  device := h.device
  accepted hok := h.accepted (isOk_map.symm.trans hok)
  recorded hfailed := h.recorded (isOk_map.symm.trans hfailed)

/-- What is refused, or done without the device, has made no calls. -/
lemma Outcome.Attempted.without {s : Controller} {o : Outcome α}
    (device : o.controller.device = s.device)
    (recorded : o.result.isOk = false → o.controller.core = s.core) : o.Attempted s [] where
  device := device
  accepted _ := rfl
  recorded hfailed := by
    rw [recorded hfailed]
    rfl

/-- A change that is carried out leaves the number of failed calls on record alone. -/
lemma Core.Transition.hwFailures_eq {c : Core} {op : Option Operation} {done : Commit OpResult}
    (ht : Core.Transition c op done) : done.core.stats.hwFailures = c.stats.hwFailures := by
  cases ht <;> rfl

namespace Controller

variable {s : Controller} {st : Step}

/-- Where a commit fails, the model is as before. -/
lemma core_finish_of_error {commit : Except AclError (Commit α)}
    (h : (s.finish commit).result.isOk = false) : (s.finish commit).controller.core = s.core := by
  cases commit with
  | ok done => cases h
  | error e => rfl

/-- A planned change makes its call, if it has one. -/
theorem attempted_apply (s : Controller) (plan : Except AclError (Change α)) :
    (s.apply plan).Attempted s (plannedCalls plan) := by
  rcases plan with e | ⟨call?, commit⟩
  · exact .without rfl fun _ => rfl
  cases call? with
  | none => exact .without (device_finish s commit) core_finish_of_error
  | some call =>
      have hcalls : plannedCalls (.ok ⟨some call, commit⟩) = [call] := rfl
      rcases hcall : s.device.call call with ⟨answer, device⟩
      cases answer with
      | error e =>
          have hmade : s.device.attempt [call] = ([(call, .error e)], device) := by
            simp only [Device.attempt, hcall]
          simp only [apply, hcall, hcalls]
          refine ⟨by rw [hmade], fun hok => ?_, fun _ => ?_⟩
          · cases hok
          · rw [hmade]
            rfl
      | ok bit =>
          have hmade : s.device.attempt [call] = ([(call, .ok bit)], device) := by
            simp only [Device.attempt, hcall]
          simp only [apply, hcall, hcalls]
          refine ⟨?_, fun _ => ?_, fun hfailed => ?_⟩
          · rw [hmade, device_finish]
          · rw [hmade]
            rfl
          · rw [core_finish_of_error hfailed, hmade]
            rfl

/-! ### Readings -/

variable {region : Handle .region}

lemma attempted_readBits (s : Controller) (region : Handle .region) (clear : Bool)
    (offsets : List ℕ) :
    (s.readBits region clear offsets).Attempted s (offsets.map (.readActivity region · clear)) := by
  induction offsets generalizing s with
  | nil => exact .without rfl fun _ => rfl
  | cons offset offsets ih =>
      rcases hcall : s.device.call (.readActivity region offset clear) with ⟨answer, device⟩
      cases answer with
      | error e =>
          simp only [readBits, readBit, hcall, List.map_cons]
          refine ⟨by simp only [Device.attempt, hcall], fun hok => ?_, fun _ => ?_⟩
          · cases hok
          · simp only [Device.attempt, hcall]
            rfl
      | ok bit =>
          obtain ⟨hdevice, haccepted, hrecorded⟩ := ih { s with device := device }
          simp only [readBits, readBit, hcall, List.map_cons]
          refine ⟨?_, fun hok => ?_, fun hfailed => ?_⟩
          · simp only [Device.attempt, hcall, hdevice]
          · simp only [Device.attempt, hcall, Device.failures, List.countP_cons]
            exact haccepted (isOk_map.symm.trans hok)
          · simp only [Device.attempt, hcall, Device.failures, List.countP_cons]
            exact hrecorded (isOk_map.symm.trans hfailed)

theorem attempted_readActivity (s : Controller) (region : Handle .region) (offsets : List ℕ)
    (clear : Bool) :
    (s.readActivity region offsets clear).Attempted s
      (readingCalls s.core region offsets clear) := by
  rw [readActivity, readingCalls]
  cases s.core.checkActivity region offsets with
  | error e => exact .without rfl fun _ => rfl
  | ok u => exact attempted_readBits s region clear offsets

/-- An observer makes the calls of a reading, and the model is as before. -/
theorem peeked_peekActivity (s : Controller) (region : Handle .region) (offsets : List ℕ) :
    (s.peekActivity region offsets).controller.device =
        (s.device.attempt (readingCalls s.core region offsets false)).2 ∧
      (s.peekActivity region offsets).controller.core = s.core := by
  rw [peekActivity, readingCalls]
  cases s.core.checkActivity region offsets with
  | error e => exact ⟨rfl, rfl⟩
  | ok u =>
      simp only [peekBits_eq, and_true]
      exact (attempted_readBits s region false offsets).device

/-! ### Steps -/

lemma attempted_execute (s : Controller) (op : Operation) :
    (s.execute op).Attempted s (op.calls s.core) := by
  cases op with
  | keyType op => cases op <;> exact (s.attempted_apply _).map _
  | region op => cases op <;> exact (s.attempted_apply _).map _
  | acl op => cases op <;> exact (s.attempted_apply _).map _
  | rule op => cases op <;> exact (s.attempted_apply _).map _
  | group op => cases op <;> exact (s.attempted_apply _).map _
  | binding op => cases op <;> exact (s.attempted_apply _).map _
  | pool op => cases op <;> exact (s.attempted_apply _).map _
  | activity op => cases op <;> exact (s.attempted_readActivity _ _ _).map _
  | query q => exact .without rfl fun _ => rfl

/-- The calls that a step makes, each with its answer. -/
def made (s : Controller) (st : Step) : List (DeviceCall × Except DeviceError Bool) :=
  (s.device.attempt (st.calls s.core)).1

/-- A step either makes its calls on the record, or makes them as an observer, or touches the device
from outside only. -/
lemma step_cases (s : Controller) (st : Step) :
    (st.isPeek = false ∧ (s.step st).Attempted s (st.calls s.core)) ∨
    (st.isPeek = true ∧ (s.step st).controller.device = (s.device.attempt (st.calls s.core)).2 ∧
      (s.step st).controller.core = s.core) ∨
    (st.calls s.core = [] ∧ (s.step st).controller.device.calls = s.device.calls ∧
      (s.step st).controller.core = s.core) := by
  cases st with
  | operation op => exact .inl ⟨rfl, s.attempted_execute op⟩
  | command cmd params =>
      refine .inl ⟨rfl, ?_⟩
      rw [step, Step.calls]
      cases Operation.ofCommand cmd params with
      | error e => exact .without rfl fun _ => rfl
      | ok op => exact s.attempted_execute op
  | addPbsPorts id ports => exact .inl ⟨rfl, (s.attempted_apply _).map _⟩
  | deletePbsPorts id ports => exact .inl ⟨rfl, (s.attempted_apply _).map _⟩
  | peekActivity region offsets => exact .inr (.inl ⟨rfl, s.peeked_peekActivity region offsets⟩)
  | subscribe kind => exact .inr (.inr ⟨rfl, rfl, rfl⟩)
  | unsubscribe kind => exact .inr (.inr ⟨rfl, rfl, rfl⟩)
  | failNext op status => exact .inr (.inr ⟨rfl, rfl, rfl⟩)
  | recordHit region offset => exact .inr (.inr ⟨rfl, calls_recordHit _ _ _, rfl⟩)

/-- A step adds its calls to the number of calls. -/
lemma calls_step (s : Controller) (st : Step) :
    (s.step st).controller.device.calls = s.device.calls + (s.made st).length := by
  rcases s.step_cases st with ⟨-, h⟩ | ⟨-, hdevice, -⟩ | ⟨hcalls, hsame, -⟩
  · rw [h.device, Device.calls_attempt, made]
  · rw [hdevice, Device.calls_attempt, made]
  · rw [hsame, made, hcalls]
    rfl

/-- A step adds its failures to those on record, unless it is an observer's. -/
lemma hwFailures_step (s : Controller) (st : Step) :
    (s.step st).controller.core.stats.hwFailures = s.core.stats.hwFailures +
      if st.isPeek then 0 else Device.failures (s.made st) := by
  rcases s.step_cases st with ⟨hpeek, h⟩ | ⟨hpeek, -, hcore⟩ | ⟨hcalls, -, hcore⟩
  · rw [hpeek, if_neg Bool.false_ne_true]
    cases s.follows_step st with
    | done result transition delivered =>
        rw [made, h.accepted (by rw [result]; rfl)]
        exact transition.hwFailures_eq
    | failed result unchanged => exact h.recorded (by rw [result]; rfl)
  · rw [hcore, hpeek, if_pos rfl]
    rfl
  · rw [hcore, made, hcalls]
    split <;> rfl

/-! ### Runs -/

/-- A device call of a run: the step that makes it, and its answer. -/
structure CallRecord where
  step : Step
  call : DeviceCall
  answer : Except DeviceError Bool

/-- Whether a call has failed. -/
def CallRecord.failed (r : CallRecord) : Bool := !r.answer.isOk

/-- The device calls of a run, in order. -/
def callLog (s : Controller) : List Step → List CallRecord
  | [] => []
  | st :: steps =>
    (s.made st).map (fun m => ⟨st, m.1, m.2⟩) ++ (s.step st).controller.callLog steps

lemma calls_run (s : Controller) (steps : List Step) :
    (s.run steps).device.calls = s.device.calls + (s.callLog steps).length := by
  induction steps generalizing s with
  | nil => rfl
  | cons st steps ih =>
      have hrun : s.run (st :: steps) = (s.step st).controller.run steps := rfl
      rw [hrun, ih, calls_step, callLog, List.length_append, List.length_map, Nat.add_assoc]

lemma hwFailures_run (s : Controller) (steps : List Step) :
    (s.run steps).core.stats.hwFailures = s.core.stats.hwFailures +
      (s.callLog steps).countP fun r => r.failed && !r.step.isPeek := by
  induction steps generalizing s with
  | nil => rfl
  | cons st steps ih =>
      have hrun : s.run (st :: steps) = (s.step st).controller.run steps := rfl
      have hmade : ((s.made st).map (fun m => (⟨st, m.1, m.2⟩ : CallRecord))).countP
          (fun r => r.failed && !r.step.isPeek) =
            if st.isPeek then 0 else Device.failures (s.made st) := by
        rw [List.countP_map]
        cases hpeek : st.isPeek with
        | true => simp [Function.comp_def, hpeek]
        | false =>
            simp only [Function.comp_def, hpeek, Bool.not_false, Bool.and_true]
            rfl
      rw [hrun, ih, hwFailures_step, callLog, List.countP_append, hmade, Nat.add_assoc]

/-- The log of a run has every device call of the run, and the failures on record are the failed
calls of all steps but the observers'.  So the record is complete exactly if no call of an observer
has failed. -/
theorem failures_recorded {config : Config} {blocks : Option (List KeyBlock)} {sink : Sink}
    (hs : Controller.start config blocks sink = .ok s) (steps : List Step) :
    (s.run steps).device.calls = (s.callLog steps).length ∧
    (s.run steps).core.stats.hwFailures =
      (s.callLog steps).countP (fun r => r.failed && !r.step.isPeek) ∧
    ((s.run steps).core.stats.hwFailures = (s.callLog steps).countP CallRecord.failed ↔
      ∀ r ∈ s.callLog steps, r.failed = true → r.step.isPeek = false) := by
  have hnew : s.device.calls = 0 ∧ s.core.stats.hwFailures = 0 := by
    simp only [Controller.start, Core.new, bind_eq_ok, pure_eq_ok] at hs
    obtain ⟨catalog, -, core, hcore, rfl⟩ := hs
    split at hcore
    · cases hcore
    · cases hcore
      exact ⟨rfl, rfl⟩
  have hcalls := calls_run s steps
  have hfailures := hwFailures_run s steps
  rw [hnew.1, Nat.zero_add] at hcalls
  rw [hnew.2, Nat.zero_add] at hfailures
  refine ⟨hcalls, hfailures, ?_⟩
  -- the failed calls are those on record and those of the observers
  rw [hfailures, List.countP_eq_countP_filter_add (s.callLog steps) CallRecord.failed
    (fun r => r.step.isPeek), List.countP_filter, List.countP_filter, Nat.right_eq_add,
    List.countP_eq_zero]
  simp only [Bool.and_eq_true, not_and, Bool.not_eq_true]

/-- Binds an ACL that searches a region. -/
def reading : List Step :=
  [.operation (.keyType (.create [.dstIp] none)),
   .operation (.region (.create ⟨0, 1⟩ 4)),
   .operation (.acl (.create .agnostic .ingress ⟨false, false, false, false⟩ [⟨0, 1⟩])),
   .operation (.binding (.bind ⟨.port ⟨1⟩, .ingress⟩ (.acl ⟨0, 1⟩)))]

/-- Two faults, each met by a call that is put on record: a rule that is written, and the first of
two bits that are read. -/
def faulting : List Step :=
  reading ++
    [.failNext .writeRules .noMemory,
     .operation (.rule (.set ⟨0, 1⟩ [1] [⟨5, [], []⟩])),
     .failNext .readActivity .timeout,
     .operation (.activity (.read ⟨0, 1⟩ [1, 2])),
     .peekActivity ⟨0, 1⟩ [1, 2]]

/-- Seven calls, of which the two that failed are on record. -/
theorem failures_of_faulting :
    (fresh.run faulting).device.calls = 7 ∧
      (fresh.run faulting).core.stats.hwFailures = 2 ∧
        (fresh.callLog faulting).countP CallRecord.failed = 2 := by
  obtain ⟨hcalls, hfailures, hcomplete⟩ := failures_recorded start_fresh faulting
  have hlength : (fresh.callLog faulting).length = 7 := by decide +kernel
  have hcount : (fresh.callLog faulting).countP (fun r => r.failed && !r.step.isPeek) = 2 := by
    decide +kernel
  have hpeeks : ∀ r ∈ fresh.callLog faulting, r.failed = true → r.step.isPeek = false := by
    decide +kernel
  have hall := hcomplete.mpr hpeeks
  rw [hfailures, hcount] at hall
  exact ⟨hcalls.trans hlength, hfailures.trans hcount, hall.symm⟩

/-- The call of an observer meets a fault, and the record does not show it. -/
theorem peek_not_recorded :
    (fresh.run (reading ++ [.failNext .readActivity .failure, .peekActivity ⟨0, 1⟩ [0]])
        ).core.stats.hwFailures = 0 ∧
      (fresh.callLog (reading ++ [.failNext .readActivity .failure, .peekActivity ⟨0, 1⟩ [0]])
        ).countP CallRecord.failed = 1 := by
  decide +kernel

end Controller

end AclPlane
