import AclPlane.Proofs.Readings
import AclPlane.Proofs.Spans
import AclPlane.Proofs.Stale

/-!
What an operation reports.

Most operations report the same in every state.  An operation on bindings reports its key if the
device has been called for it, and a reading, which is left to `AclPlane.Proofs.Occurrences`, what
it clears.

* `Operation.reports`: what a successful operation reports, with a lemma for each sort of event that
  says which operations report it.
* `Controller.events_execute`, `Controller.events_execute_of_error`: a success has just this
  delivered, a failure nothing.
* `Controller.events_of_no_operation`: nor does anything that is no operation report.
-/

namespace AclPlane

/-! ### What a step reports -/

/-- The key of an operation on bindings. -/
def BindOp.key : BindOp → BindingKey
  | bind key _ => key
  | unbind key => key
  | add key _ => key
  | delete key _ => key

namespace Operation

/-- What an operation that succeeds reports, if it is no reading; an operation on bindings reports
what it has told the device. -/
def reports (result : OpResult) (called : Bool) : Operation → List Event
  | region (.resize id _) =>
    match result with
    | .resized hwSize => [.regionResized id hwSize]
    | _ => []
  | binding op => if called then [.bindingChanged op.key] else []
  | op => (op.destroys.map Event.objectDeleted).toList

variable {op : Operation} {result : OpResult} {called : Bool} {r : ObjectRef}

lemma objectDeleted_mem_reports_iff :
    .objectDeleted r ∈ op.reports result called ↔ op.destroys = some r := by
  unfold reports
  split
  · split <;> simp [destroys]
  · split <;> simp [destroys]
  · simp [Option.mem_toList, Option.map_eq_some_iff]

lemma regionResized_mem_reports_iff {region : Handle .region} {hwSize : ℕ} :
    .regionResized region hwSize ∈ op.reports result called ↔
      (∃ capacity, op = .region (.resize region capacity)) ∧ result = .resized hwSize := by
  unfold reports
  split
  · split
    · simp [eq_comm]
    · next hne => simpa using fun _ => hne hwSize
  · split <;> simp
  · next hne _ =>
      simp only [Option.mem_toList, Option.map_eq_some_iff, reduceCtorEq, and_false, exists_false,
        false_iff]
      rintro ⟨⟨capacity, rfl⟩, -⟩
      exact hne _ _ rfl

lemma bindingChanged_mem_reports_iff {key : BindingKey} :
    .bindingChanged key ∈ op.reports result called ↔
      (∃ b, op = .binding b ∧ b.key = key) ∧ called = true := by
  unfold reports
  split
  · split <;> simp
  · split
    · next h => simp [h, eq_comm]
    · next h => simp [h]
  · next hne =>
      simp only [Option.mem_toList, Option.map_eq_some_iff, reduceCtorEq, and_false, exists_false,
        false_iff]
      rintro ⟨⟨b, rfl, -⟩, -⟩
      exact hne _ rfl

lemma activityCleared_not_mem_reports {region : Handle .region} {offset : ℕ} :
    .activityCleared region offset ∉ op.reports result called := by
  unfold reports
  split
  · split <;> simp
  · split <;> simp
  · simp

/-- There is one thing to report at most. -/
lemma reports_cases (op : Operation) (result : OpResult) (called : Bool) :
    op.reports result called = [] ∨ ∃ e, op.reports result called = [e] := by
  unfold reports
  split
  · split <;> simp
  · split <;> simp
  · cases op.destroys <;> simp

end Operation

namespace Core

variable {c : Core} {op : Operation} {done : Commit OpResult}

/-- Operations other than readings and those on bindings report the same in every state. -/
lemma Transition.events_eq (ht : Transition c (some op) done) (hread : op.isReading = false)
    (hbind : ∀ b, op ≠ .binding b) (called : Bool) :
    done.events = op.reports done.result called := by
  cases ht with
  | observe reading =>
      rw [reading op rfl] at hread
      cases hread
  | bind => exact absurd rfl (hbind _)
  | unbind => exact absurd rfl (hbind _)
  | bindAdd => exact absurd rfl (hbind _)
  | bindAgain => exact absurd rfl (hbind _)
  | bindDelete => exact absurd rfl (hbind _)
  | _ => rfl

/-- The change that an operation on bindings plans. -/
def bindPlan (c : Core) : BindOp → Except AclError (Change Unit)
  | .bind key target => c.bindTarget key target
  | .unbind key => c.unbind key
  | .add key group => c.bindAdd key group
  | .delete key group => c.bindDelete key group

/-- An operation on bindings gives its key other entries, unless it adds what is bound already. -/
lemma bindPlan_eq_ok {b : BindOp} {change : Change Unit} (h : c.bindPlan b = .ok change) :
    (∃ list stats, change = c.rebind b.key list stats) ∨ change = .quiet c () := by
  cases b with
  | bind key target =>
      obtain ⟨priority, -, -, rfl⟩ := bindTarget_eq_ok h
      exact .inl ⟨_, _, rfl⟩
  | unbind key =>
      obtain ⟨-, -, rfl⟩ := unbind_eq_ok h
      exact .inl ⟨_, _, rfl⟩
  | add key group =>
      obtain ⟨priority, -, -, ⟨list, -, rfl⟩ | ⟨-, rfl⟩⟩ := bindAdd_eq_ok h
      · exact .inl ⟨_, _, rfl⟩
      · exact .inr rfl
  | delete key group =>
      obtain ⟨list, -, -, rfl⟩ := bindDelete_eq_ok h
      exact .inl ⟨_, _, rfl⟩

lemma events_rebind {key : BindingKey} {list : List BoundEntry} {stats : Stats}
    {done : Commit Unit} (h : (c.rebind key list stats).commit = .ok done) :
    done.events = [.bindingChanged key] := by
  simp only [rebind, bind_eq_ok, pure_eq_ok] at h
  obtain ⟨pools, -, rfl⟩ := h
  rfl

end Core

namespace Controller

variable {s : Controller} {st : Step} {op : Operation}

/-- An operation that is no reading carries out a plan. -/
lemma exists_apply_of_not_reading (s : Controller) (h : op.isReading = false) :
    ∃ (α : Type) (plan : Except AclError (Change α)) (f : α → OpResult),
      s.execute op = (s.apply plan).map f := by
  cases op with
  | keyType op => cases op <;> exact ⟨_, _, _, rfl⟩
  | region op => cases op <;> exact ⟨_, _, _, rfl⟩
  | acl op => cases op <;> exact ⟨_, _, _, rfl⟩
  | rule op => cases op <;> exact ⟨_, _, _, rfl⟩
  | group op => cases op <;> exact ⟨_, _, _, rfl⟩
  | binding op => cases op <;> exact ⟨_, _, _, rfl⟩
  | pool op => cases op <;> exact ⟨_, _, _, rfl⟩
  | activity op => cases h
  | query q => cases h

/-- An operation on bindings that succeeds reports its key if it has called the device. -/
lemma events_executeBinding {b : BindOp} {r : OpResult}
    (h : (s.executeBinding b).result = .ok r) :
    (s.executeBinding b).events = s.hub.deliver
      (if (s.executeBinding b).controller.device.calls == s.device.calls + 1 then
        [.bindingChanged b.key] else []) := by
  have hexecute : s.executeBinding b = s.applyDone (s.core.bindPlan b) := by cases b <;> rfl
  rw [hexecute] at h ⊢
  obtain ⟨u, hu, -⟩ := map_eq_ok.mp h
  obtain ⟨change, done, hplan, hcommit, -, -, hevents, -, hcalls⟩ := apply_ok hu
  have happlied : (s.applyDone (s.core.bindPlan b)).events = s.hub.deliver done.events := hevents
  have hcalls' : (s.applyDone (s.core.bindPlan b)).controller.device.calls =
      s.device.calls + if change.call.isSome then 1 else 0 := hcalls
  rw [happlied, hcalls']
  rcases Core.bindPlan_eq_ok hplan with ⟨list, stats, rfl⟩ | rfl
  · rw [Core.events_rebind hcommit]
    simp [Core.rebind]
  · obtain rfl := Except.ok.inj hcommit
    simp

/-- An operation that fails reports nothing, if it is no reading. -/
lemma events_execute_of_error {e : AclError} (hread : op.isReading = false)
    (h : (s.execute op).result = .error e) : (s.execute op).events = [] := by
  obtain ⟨α, plan, f, hexecute⟩ := s.exists_apply_of_not_reading hread
  rw [hexecute] at h ⊢
  cases hresult : (s.apply plan).result with
  | error e' => exact events_apply_of_error hresult
  | ok a =>
      rw [Outcome.map, hresult] at h
      cases h

/-- An operation that succeeds has its report delivered, if it is no reading. -/
lemma events_execute {r : OpResult} (hread : op.isReading = false)
    (h : (s.execute op).result = .ok r) :
    (s.execute op).events = s.hub.deliver
      (op.reports r ((s.execute op).controller.device.calls == s.device.calls + 1)) := by
  by_cases hbind : ∃ b, op = .binding b
  · obtain ⟨b, rfl⟩ := hbind
    exact events_executeBinding h
  · cases s.follows_execute op with
    | failed result unchanged =>
        rw [result] at h
        cases h
    | done result transition delivered =>
        obtain rfl := Except.ok.inj (h.symm.trans result)
        have hevents := transition.events_eq hread (fun b heq => hbind ⟨b, heq⟩)
          ((s.execute op).controller.device.calls == s.device.calls + 1)
        rw [delivered, ← hevents]

/-- A step that asks for no operation reports nothing. -/
lemma events_of_no_operation (h : st.operation? = none) : (s.step st).events = [] := by
  have hpools : ∀ pools, (s.applyDone (s.core.withPools pools)).events = [] := by
    intro pools
    cases pools with
    | error e => rfl
    | ok pools => exact deliver_nil s.hub
  cases st with
  | operation op => cases h
  | command cmd params =>
      rw [Step.operation?] at h
      rw [step]
      split
      · next hop =>
          rw [hop] at h
          cases h
      · rfl
  | addPbsPorts id ports => exact hpools _
  | deletePbsPorts id ports => exact hpools _
  | peekActivity region offsets =>
      change (s.peekActivity region offsets).events = []
      rw [peekActivity]
      split
      · rfl
      · exact (s.core_peekBits region offsets).2
  | _ => rfl

end Controller

end AclPlane
