import AclPlane.Proofs.Events

/-!
What happens in a step, and that just this is reported.

* `Controller.ceases_iff`: an object ceases to be live exactly when it is destroyed with success.
* `Controller.Happens`: what happens in a step, told by the states before and after.
* `Controller.Recorded`: a list of all that happens, without repetition and in order.
* `Controller.recorded_nil`, `Controller.recorded_reports`, `Controller.recorded_turned`: steps to
  which nothing happens, operations that are no readings, and clearing reads.
* `Controller.exists_recorded`: what happens in any step is what it has delivered.
-/

namespace AclPlane

/-! ### Destruction -/

namespace Operation

variable {op : Operation} {r : ObjectRef}

/-- An operation that destroys an object is the one that destroys what has its handle. -/
lemma eq_destroy_of_destroys (h : op.destroys = some r) : op = .destroy r.handle := by
  unfold destroys at h
  split at h
  · cases h
    rfl
  · cases h
    rfl
  · cases h
    rfl
  · cases h
    rfl
  · next entry =>
      cases h
      cases entry <;> rfl
  · cases h

lemma mem_names_of_destroys (h : op.destroys = some r) : r ∈ op.names := by
  unfold destroys at h
  split at h <;> cases h <;> exact List.mem_singleton_self _

end Operation

lemma Step.mem_names_of_destroys {st : Step} {r : ObjectRef} (h : st.destroys = some r) :
    r ∈ st.names := by
  obtain ⟨op, hop, hdestroys⟩ := Option.bind_eq_some_iff.mp h
  have hmem := Operation.mem_names_of_destroys hdestroys
  cases st with
  | operation op' =>
      cases hop
      exact hmem
  | command cmd params =>
      change r ∈ ((command cmd params).operation?.map Operation.names).getD []
      rw [hop]
      exact hmem
  | _ => cases hop

namespace Controller

variable {s : Controller} {st : Step} {op : Operation} {r : ObjectRef}

/-- An object ceases to be live exactly in a step that succeeds and destroys it. -/
lemma ceases_iff (hs : s.core.Steady) (hl : s.core.Linked) :
    (s.core.isLive r.handle = true ∧ (s.step st).controller.core.isLive r.handle = false) ↔
      (s.step st).result.isOk = true ∧ st.destroys = some r := by
  cases s.follows_step st with
  | failed result unchanged =>
      have hsame : (s.step st).controller.core.isLive r.handle = s.core.isLive r.handle := by
        rw [unchanged, Core.isLive_eq_contains, Core.isLive_eq_contains]
        exact congrArg (·.contains r.handle) (s.core.shape_stats _ r.kind)
      rw [hsame, result]
      refine ⟨fun ⟨hlive, hgone⟩ => ?_, fun ⟨hok, _⟩ => by cases hok⟩
      rw [hgone] at hlive
      cases hlive
  | done result transition delivered =>
      constructor
      · rintro ⟨hlive, hgone⟩
        refine ⟨by rw [result]; rfl, ?_⟩
        rw [Core.isLive_eq_contains] at hlive hgone
        have hsame : (s.step st).controller.core.shape r.kind ≠ s.core.shape r.kind := by
          intro heq
          rw [heq, hlive] at hgone
          cases hgone
        cases transition.reshaped with
        | same shape_eq => exact absurd (shape_eq _) hsame
        | inserted k id created inserted others =>
            by_cases hk : r.kind = k
            · subst hk
              have hkept := Arena.contains_of_insertWith? (hs.shape _) inserted hlive
              rw [hkept] at hgone
              cases hgone
            · exact absurd (others _ hk) hsame
        | removed k id asked removed others =>
            by_cases hk : r.kind = k
            · subst hk
              by_cases hid : r.handle = id
              · rw [Step.destroys, asked, ← hid]
                exact Operation.destroys_destroy r.handle
              · have hkept := Arena.contains_of_remove? removed hlive hid
                rw [hkept] at hgone
                cases hgone
            · exact absurd (others _ hk) hsame
      · rintro ⟨-, hdestroys⟩
        refine ⟨isLive_of_names hl result r (Step.mem_names_of_destroys hdestroys), ?_⟩
        obtain ⟨op, hop, hop'⟩ := Option.bind_eq_some_iff.mp hdestroys
        rw [hop, Operation.eq_destroy_of_destroys hop'] at transition
        exact transition.not_isLive

/-! ### What happens in a step -/

/-- What happens in a step, of the sort that events tell. -/
def Happens (s : Controller) (st : Step) : Event → Prop
  | .objectDeleted r =>
    s.core.isLive r.handle = true ∧ (s.step st).controller.core.isLive r.handle = false
  | .regionResized region hwSize =>
    (s.step st).result.isOk = true ∧
      (∃ capacity, st.operation? = some (.region (.resize region capacity))) ∧
      ∃ r, (s.step st).controller.core.regions.regions.get? region = some r ∧ r.hwSize = hwSize
  | .bindingChanged key =>
    (s.step st).result.isOk = true ∧
      (∃ b, st.operation? = some (.binding b) ∧ b.key = key) ∧
      (s.step st).controller.device.calls = s.device.calls + 1
  | .activityCleared region offset =>
    (∃ offsets, st.operation? = some (.activity (.readClear region offsets))) ∧
      s.device.bit region offset = true ∧
      (s.step st).controller.device.bit region offset = false

/-- The list of what happens in a step: all of it, and each once.  Only a clearing read makes more
than one thing happen, in the order of its offsets. -/
structure Recorded (s : Controller) (st : Step) (events : List Event) : Prop where
  nodup : events.Nodup
  mem_iff : ∀ e, e ∈ events ↔ s.Happens st e
  ordered : ∀ region offsets, st.operation? = some (.activity (.readClear region offsets)) →
    events.Sublist (offsets.eraseDups.map (.activityCleared region))
  single : (∀ region offsets, st.operation? ≠ some (.activity (.readClear region offsets))) →
    events.length ≤ 1

variable {e : Event}

/-- The result of a resize is the size that the region has from then on. -/
lemma resized_iff {region : Handle .region} {capacity hwSize : ℕ} {result : OpResult}
    (hr : (s.step st).result = .ok result)
    (hop : st.operation? = some (.region (.resize region capacity))) :
    result = .resized hwSize ↔ ∃ r, (s.step st).controller.core.regions.regions.get? region =
      some r ∧ r.hwSize = hwSize := by
  have hfollows := s.follows_step st
  rw [hop] at hfollows
  cases hfollows with
  | failed herror unchanged =>
      rw [herror] at hr
      cases hr
  | done hdone transition delivered =>
      obtain rfl := Except.ok.inj (hr.symm.trans hdone)
      generalize (s.step st).controller.core = c at transition
      cases transition with
      | observe reading => cases reading _ rfl
      | resizeRegion found planned resized =>
          rw [show (s.core.regions.regions.set region _).get? region = _ from
            Arena.get?_set found, if_pos rfl]
          simp

/-- A step that does not succeed, or only reads, does no more than clear bits. -/
lemma Happens.eq_cleared (hs : s.core.Steady) (hl : s.core.Linked) (h : s.Happens st e)
    (hread : (s.step st).result.isOk = true → ∀ op ∈ st.operation?, op.isReading = true) :
    ∃ region offset, e = .activityCleared region offset := by
  cases e with
  | objectDeleted r =>
      obtain ⟨hok, hdestroys⟩ := (ceases_iff hs hl).mp h
      obtain ⟨op, hop, hop'⟩ := Option.bind_eq_some_iff.mp hdestroys
      have hreading := hread hok op hop
      rw [Operation.eq_destroy_of_destroys hop'] at hreading
      obtain ⟨kind, id⟩ := r
      cases kind <;> cases hreading
  | regionResized region hwSize =>
      obtain ⟨hok, ⟨capacity, hop⟩, -⟩ := h
      cases hread hok _ hop
  | bindingChanged key =>
      obtain ⟨hok, ⟨b, hop, -⟩, -⟩ := h
      cases hread hok _ hop
  | activityCleared region offset => exact ⟨region, offset, rfl⟩

/-- A step that does not succeed, or only reads, and leaves the bits that it might clear, has
nothing to tell. -/
lemma recorded_nil (hs : s.core.Steady) (hl : s.core.Linked)
    (hread : (s.step st).result.isOk = true → ∀ op ∈ st.operation?, op.isReading = true)
    (hbits : ∀ region offsets, st.operation? = some (.activity (.readClear region offsets)) →
      ∀ k, (s.step st).controller.device.bit region k = s.device.bit region k) :
    s.Recorded st [] := by
  refine ⟨List.nodup_nil, fun e => ⟨fun he => absurd he List.not_mem_nil, fun h => ?_⟩,
    fun _ _ _ => List.nil_sublist _, fun _ => Nat.zero_le _⟩
  obtain ⟨region, offset, rfl⟩ := h.eq_cleared hs hl hread
  obtain ⟨⟨offsets, hop⟩, hset, hclear⟩ := h
  rw [hbits region offsets hop offset, hset] at hclear
  cases hclear

/-- A successful operation that is no reading makes happen what it reports. -/
lemma recorded_reports (hs : s.core.Steady) (hl : s.core.Linked) (hop : st.operation? = some op)
    (hread : op.isReading = false) {r : OpResult} (hr : (s.step st).result = .ok r) :
    s.Recorded st
      (op.reports r ((s.step st).controller.device.calls == s.device.calls + 1)) := by
  have hok : (s.step st).result.isOk = true := by
    rw [hr]
    rfl
  have hclear : ∀ region offsets, st.operation? ≠ some (.activity (.readClear region offsets)) := by
    intro region offsets heq
    cases hop.symm.trans heq
    cases hread
  have hcases := op.reports_cases r ((s.step st).controller.device.calls == s.device.calls + 1)
  refine ⟨?_, fun e => ?_, fun region offsets heq => absurd heq (hclear region offsets),
    fun _ => ?_⟩
  · rcases hcases with hnone | ⟨e, hone⟩
    · rw [hnone]
      exact List.nodup_nil
    · rw [hone]
      exact List.nodup_singleton e
  · cases e with
    | objectDeleted r =>
        rw [Operation.objectDeleted_mem_reports_iff, Happens, ceases_iff hs hl, Step.destroys, hop]
        exact ⟨fun h => ⟨hok, h⟩, And.right⟩
    | regionResized region hwSize =>
        rw [Operation.regionResized_mem_reports_iff, Happens]
        constructor
        · rintro ⟨⟨capacity, rfl⟩, hresult⟩
          exact ⟨hok, ⟨capacity, hop⟩, (resized_iff hr hop).mp hresult⟩
        · rintro ⟨-, ⟨capacity, hop'⟩, hsize⟩
          exact ⟨⟨capacity, Option.some.inj (hop.symm.trans hop')⟩, (resized_iff hr hop').mpr hsize⟩
    | bindingChanged key =>
        rw [Operation.bindingChanged_mem_reports_iff, Happens, hop]
        simp only [hok, true_and, Option.some.injEq, beq_iff_eq]
    | activityCleared region offset =>
        refine ⟨fun h => absurd h Operation.activityCleared_not_mem_reports, fun h => ?_⟩
        obtain ⟨⟨offsets, heq⟩, -⟩ := h
        exact absurd heq (hclear region offsets)
  · rcases hcases with hnone | ⟨e, hone⟩
    · rw [hnone]
      exact Nat.zero_le _
    · rw [hone]
      exact le_rfl

/-- A clearing read makes happen what it turns. -/
lemma recorded_turned (hs : s.core.Steady) (hl : s.core.Linked) {region : Handle .region}
    {offsets : List ℕ} {d : DeviceRegion}
    (hop : st.operation? = some (.activity (.readClear region offsets)))
    (hd : s.device.tables.regions.get? region = some d)
    (hafter : (s.step st).controller.device.tables.regions.get? region =
      some (d.afterReading true offsets)) :
    s.Recorded st ((d.turned offsets).map (.activityCleared region)) := by
  have hinj : Function.Injective (Event.activityCleared region) := fun a b h => by cases h; rfl
  refine ⟨(d.nodup_turned offsets).map hinj, fun e => ?_, fun region' offsets' hop' => ?_,
    fun hne => absurd hop (hne region offsets)⟩
  · rw [List.mem_map]
    constructor
    · rintro ⟨k, hk, rfl⟩
      obtain ⟨hset, hclear⟩ := DeviceRegion.mem_turned_iff.mp hk
      refine ⟨⟨offsets, hop⟩, ?_, ?_⟩
      · rw [Device.bit_eq hd, hset]
      · rw [Device.bit_eq hafter, ← hclear]
        rfl
    · intro h
      have hread : (s.step st).result.isOk = true → ∀ op ∈ st.operation?, op.isReading = true := by
        intro _ op hop'
        cases hop.symm.trans hop'
        rfl
      obtain ⟨region', k, rfl⟩ := h.eq_cleared hs hl hread
      obtain ⟨⟨offsets', hop'⟩, hset, hclear⟩ := h
      cases hop.symm.trans hop'
      rw [Device.bit_eq hd] at hset
      rw [Device.bit_eq hafter] at hclear
      exact ⟨k, DeviceRegion.mem_turned_iff.mpr ⟨hset, hclear⟩, rfl⟩
  · cases hop.symm.trans hop'
    exact List.filter_sublist.map _

lemma Recorded.exists_of_nil (h : s.Recorded st []) (hevents : (s.step st).events = []) :
    ∃ events, s.Recorded st events ∧ (s.step st).events = s.hub.deliver events :=
  ⟨[], h, hevents.trans (deliver_nil s.hub).symm⟩

/-- A reading reports what it clears. -/
lemma exists_recorded_activity (hs : s.core.Steady) (hl : s.core.Linked)
    (hspans : s.core.Spans s.device.tables) {op : ActivityOp}
    (hop : st.operation? = some (.activity op)) :
    ∃ events, s.Recorded st events ∧ (s.step st).events = s.hub.deliver events := by
  have hreading : (s.step st).result.isOk = true → ∀ o ∈ st.operation?, o.isReading = true := by
    intro _ o ho
    cases hop.symm.trans ho
    rfl
  have hstep := s.step_of_operation? hop
  cases op with
  | read region offsets =>
      refine Recorded.exists_of_nil (recorded_nil hs hl hreading ?_) ?_
      · intro region' offsets' hop'
        cases hop.symm.trans hop'
      · rw [hstep]
        exact events_readOnly hspans region offsets
  | readClear region offsets =>
      have hcontroller : (s.step st).controller =
          (s.readActivity region offsets true).controller := by
        rw [hstep]
        rfl
      have hevents : (s.step st).events = (s.readActivity region offsets true).events := by
        rw [hstep]
        rfl
      rcases readActivity_spec hspans region offsets true with
        ⟨e, -, hnone, htables⟩ | ⟨-, hread⟩ | ⟨d, device, hd, hread, htables⟩
      · refine Recorded.exists_of_nil (recorded_nil hs hl hreading ?_) (hevents.trans hnone)
        intro region' offsets' _ k
        rw [Device.bit, Device.bit, hcontroller, htables]
      · rw [hread] at hcontroller hevents
        refine Recorded.exists_of_nil (recorded_nil hs hl hreading ?_) hevents
        intro region' offsets' _ k
        rw [hcontroller]
      · rw [hread] at hcontroller hevents
        refine ⟨_, recorded_turned hs hl hop hd ?_, hevents⟩
        rw [hcontroller, htables, if_pos rfl]

/-- What happens in a step is delivered. -/
theorem exists_recorded (hs : s.core.Steady) (hl : s.core.Linked)
    (hspans : s.core.Spans s.device.tables) (st : Step) :
    ∃ events, s.Recorded st events ∧ (s.step st).events = s.hub.deliver events := by
  cases hop : st.operation? with
  | none =>
      refine Recorded.exists_of_nil (recorded_nil hs hl ?_ ?_) (events_of_no_operation hop)
      · intro _ op hop'
        cases hop.symm.trans hop'
      · intro region offsets hop'
        cases hop.symm.trans hop'
  | some op =>
      have hstep := s.step_of_operation? hop
      cases hread : op.isReading with
      | false =>
          cases hr : (s.step st).result with
          | error e =>
              refine Recorded.exists_of_nil (recorded_nil hs hl ?_ ?_) ?_
              · intro hok
                rw [hr] at hok
                cases hok
              · intro region offsets hop'
                cases hop.symm.trans hop'
                cases hread
              · rw [hstep] at hr ⊢
                exact events_execute_of_error hread hr
          | ok r =>
              refine ⟨_, recorded_reports hs hl hop hread hr, ?_⟩
              rw [hstep] at hr ⊢
              exact events_execute hread hr
      | true =>
          cases op with
          | activity op => exact exists_recorded_activity hs hl hspans hop
          | query q =>
              refine Recorded.exists_of_nil (recorded_nil hs hl ?_ ?_) ?_
              · intro _ o ho
                cases hop.symm.trans ho
                rfl
              · intro region offsets hop'
                cases hop.symm.trans hop'
              · rw [hstep]
                rfl
          | _ => cases hread

end Controller

end AclPlane
