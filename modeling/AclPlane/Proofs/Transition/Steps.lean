import AclPlane.Proofs.Reachable
import AclPlane.Proofs.Transition.Carried

/-!
Every step is a transition of the model or no change at all.

* `Controller.follows_step`: a step succeeds by a transition, whose events are delivered, or fails
  and changes no more of the model than the number of failed device calls.
* `Controller.run_induction`: what holds of a new model and is kept by every step holds throughout
  every run; `Controller.run_invariant` is the case of a property of the model alone.
* `Controller.Reachable.invariant`: the transitions may be taken to be those of a sound model as
  long as the counts have room.
-/

namespace AclPlane

/-! ### Events of several readings -/

lemma EventHub.deliver_append (hub : EventHub) (events events' : List Event) :
    hub.deliver (events ++ events') = hub.deliver events ++ hub.deliver events' := by
  simp only [deliver]
  split
  · exact List.filter_append ..
  · rfl

/-! ### Steps -/

/-- An operation either succeeds by a transition of the model, whose events are delivered, or fails
and changes no more of the model than the number of failed device calls. -/
inductive Outcome.Follows (s : Controller) (op : Option Operation) (o : Outcome OpResult) :
    Prop where
  | done {r : OpResult} {events : List Event} (result : o.result = .ok r)
      (transition : Core.Transition s.core op ⟨o.controller.core, events, r⟩)
      (delivered : o.events = s.hub.deliver events)
  | failed {e : AclError} {failures : ℕ} (result : o.result = .error e)
      (unchanged : o.controller.core =
        { s.core with stats := { s.core.stats with hwFailures := failures } })

/-- An operation may fail without a trace. -/
lemma Outcome.Follows.refused {s : Controller} {op : Option Operation} {o : Outcome OpResult}
    {e : AclError} (result : o.result = .error e) (unchanged : o.controller.core = s.core) :
    o.Follows s op :=
  .failed result (unchanged.trans rfl)

/-- An operation may succeed without an event. -/
lemma Outcome.Follows.silent {s : Controller} {op : Option Operation} {o : Outcome OpResult}
    {r : OpResult} (result : o.result = .ok r)
    (transition : Core.Transition s.core op ⟨o.controller.core, [], r⟩) (quiet : o.events = []) :
    o.Follows s op :=
  .done result transition (by rw [quiet, Controller.deliver_nil])

namespace Controller

variable {s : Controller} {α : Type}

/-- A plan is carried out, or nothing but the number of failures changes. -/
lemma apply_cases (s : Controller) (plan : Except AclError (Change α)) :
    (∃ done, Core.Carried plan done ∧ (s.apply plan).result = .ok done.result ∧
      (s.apply plan).controller.core = done.core ∧
        (s.apply plan).events = s.hub.deliver done.events) ∨
    ∃ e failures, (s.apply plan).result = .error e ∧ (s.apply plan).controller.core =
      { s.core with stats := { s.core.stats with hwFailures := failures } } := by
  cases plan with
  | error e => exact .inr ⟨e, _, rfl, rfl⟩
  | ok change =>
      obtain ⟨call?, commit⟩ := change
      cases call? with
      | none =>
          cases commit with
          | error e => exact .inr ⟨e, _, rfl, rfl⟩
          | ok done => exact .inl ⟨done, ⟨_, rfl, rfl⟩, rfl, rfl, rfl⟩
      | some call =>
          obtain ⟨answer, device, hcall⟩ : ∃ answer device, s.device.call call = (answer, device) :=
            ⟨_, _, rfl⟩
          simp only [apply, hcall]
          cases answer with
          | error e => exact .inr ⟨_, _, rfl, rfl⟩
          | ok bit =>
              cases commit with
              | error e => exact .inr ⟨e, _, rfl, rfl⟩
              | ok done => exact .inl ⟨done, ⟨_, rfl, rfl⟩, rfl, rfl, rfl⟩

lemma follows_apply_map {plan : Except AclError (Change α)} {f : α → OpResult}
    {op : Option Operation} (h : ∀ done, Core.Carried plan done →
      Core.Transition s.core op ⟨done.core, done.events, f done.result⟩) :
    ((s.apply plan).map f).Follows s op := by
  rcases s.apply_cases plan with ⟨done, hdone, hresult, hcore, hevents⟩ | ⟨e, n, hresult, hcore⟩
  · refine .done (map_eq_ok.mpr ⟨_, hresult, rfl⟩) ?_ hevents
    have htransition := h done hdone
    rw [← hcore] at htransition
    exact htransition
  · refine .failed (e := e) ?_ hcore
    rw [Outcome.map, hresult]
    rfl

/-! ### Readings -/

lemma readBits_cases (s : Controller) (region : Handle .region) (clear : Bool)
    (offsets : List ℕ) :
    (∃ bits events, (s.readBits region clear offsets).result = .ok bits ∧
      (s.readBits region clear offsets).controller.core = s.core ∧
        (s.readBits region clear offsets).events = s.hub.deliver events) ∨
    ∃ e failures, (s.readBits region clear offsets).result = .error e ∧
      (s.readBits region clear offsets).controller.core =
        { s.core with stats := { s.core.stats with hwFailures := failures } } := by
  induction offsets generalizing s with
  | nil =>
      exact .inl ⟨[], [], rfl, rfl, (deliver_nil s.hub).symm⟩
  | cons offset offsets ih =>
      obtain ⟨answer, device, hcall⟩ : ∃ answer device,
          s.device.call (.readActivity region offset clear) = (answer, device) := ⟨_, _, rfl⟩
      cases answer with
      | error e =>
          simp only [readBits, readBit, hcall]
          exact .inr ⟨_, _, rfl, rfl⟩
      | ok bit =>
          simp only [readBits, readBit, hcall]
          rcases ih { s with device := device } with ⟨bits, events, hbits, hcore, hevents⟩ |
            ⟨e, n, hresult, hcore⟩
          · refine .inl ⟨_,
              (if clear && bit then [.activityCleared region offset] else []) ++ events,
              map_eq_ok.mpr ⟨bits, hbits, rfl⟩, hcore, ?_⟩
            rw [hevents, EventHub.deliver_append]
          · refine .inr ⟨e, n, ?_, hcore⟩
            rw [hresult]
            rfl

lemma follows_readActivity (s : Controller) (region : Handle .region) (offsets : List ℕ)
    (clear : Bool) {op : Operation} (hop : op.isReading = true) :
    ((s.readActivity region offsets clear).map .activity).Follows s (some op) := by
  cases hcheck : s.core.checkActivity region offsets with
  | error e =>
      simp only [readActivity, hcheck]
      exact .refused rfl rfl
  | ok u =>
      simp only [readActivity, hcheck]
      rcases s.readBits_cases region clear offsets with ⟨bits, events, hbits, hcore, hevents⟩ |
        ⟨e, n, hresult, hcore⟩
      · refine .done (map_eq_ok.mpr ⟨bits, hbits, rfl⟩) ?_ hevents
        rw [Outcome.map, hcore]
        exact .observe fun o ho => by
          cases ho
          exact hop
      · refine .failed (e := e) ?_ hcore
        rw [Outcome.map, hresult]
        rfl

/-- Peeking leaves the model alone. -/
lemma core_peekBits (s : Controller) (region : Handle .region) (offsets : List ℕ) :
    (s.peekBits region offsets).controller.core = s.core ∧
      (s.peekBits region offsets).events = [] := by
  induction offsets generalizing s with
  | nil => exact ⟨rfl, rfl⟩
  | cons offset offsets ih =>
      obtain ⟨answer, device, hcall⟩ : ∃ answer device,
          s.device.call (.readActivity region offset false) = (answer, device) := ⟨_, _, rfl⟩
      cases answer with
      | error e =>
          simp [peekBits, hcall]
      | ok bit =>
          simp only [peekBits, hcall]
          exact ih { s with device := device }

/-- Something outside the model. -/
lemma follows_outside (s : Controller) {o : Outcome OpResult} (hcore : o.controller.core = s.core)
    (hevents : o.events = []) : o.Follows s none := by
  cases hresult : o.result with
  | error e => exact .refused hresult hcore
  | ok r =>
      refine .silent hresult ?_ hevents
      rw [hcore]
      exact .observe fun o ho => by cases ho

lemma follows_peekActivity (s : Controller) (region : Handle .region) (offsets : List ℕ) :
    ((s.peekActivity region offsets).map .activity).Follows s none := by
  cases hcheck : s.core.checkActivity region offsets with
  | error e =>
      simp only [peekActivity, hcheck]
      exact s.follows_outside rfl rfl
  | ok u =>
      simp only [peekActivity, hcheck]
      obtain ⟨hcore, hevents⟩ := s.core_peekBits region offsets
      exact s.follows_outside hcore hevents

/-! ### All steps -/

open AclPlane.Core in
theorem follows_execute (s : Controller) (op : Operation) :
    (s.execute op).Follows s (some op) := by
  cases op with
  | keyType op =>
      cases op with
      | create fields hint => exact follows_apply_map fun _ => transition_createKeyType
      | destroy id => exact follows_apply_map fun _ => transition_destroyKeyType
  | region op =>
      cases op with
      | create keyType capacity => exact follows_apply_map fun _ => transition_createRegion
      | resize region capacity => exact follows_apply_map fun _ => transition_resizeRegion
      | destroy region => exact follows_apply_map fun _ => transition_destroyRegion
  | acl op =>
      cases op with
      | create aclType direction bitmap regions =>
          exact follows_apply_map fun _ => transition_createAcl
      | edit acl regions bitmap => exact follows_apply_map fun _ => transition_editAcl
      | destroy acl => exact follows_apply_map fun _ => transition_destroyAcl
  | rule op =>
      cases op with
      | set region offsets rules => exact follows_apply_map fun _ => transition_setRules
      | delete region offsets =>
          exact follows_apply_map fun _ h => transition_deleteRules h fun _ _ => .inl rfl
      | deleteAll region => exact follows_apply_map fun _ => transition_deleteAllRules
      | move region block => exact follows_apply_map fun _ => transition_moveBlock
      | shiftPriority region shift => exact follows_apply_map fun _ => transition_shiftPriority
  | group op =>
      cases op with
      | create direction => exact follows_apply_map fun _ => transition_createGroup
      | set group acls => exact follows_apply_map fun _ => transition_setGroupAcls
      | add group acl => exact follows_apply_map fun _ => transition_addGroupAcl
      | delete group acl => exact follows_apply_map fun _ => transition_deleteGroupAcl
      | chain parent child => exact follows_apply_map fun _ => transition_chainGroups
      | unchain parent => exact follows_apply_map fun _ => transition_unchainGroup
      | setPriority group priority => exact follows_apply_map fun _ => transition_setGroupPriority
      | destroy group => exact follows_apply_map fun _ => transition_destroyGroup
  | binding op =>
      cases op with
      | bind key target => exact follows_apply_map fun _ => transition_bindTarget
      | unbind key => exact follows_apply_map fun _ => transition_unbind
      | add key group => exact follows_apply_map fun _ => transition_bindAdd
      | delete key group => exact follows_apply_map fun _ => transition_bindDelete
  | pool op =>
      cases op with
      | create value => exact follows_apply_map fun _ => transition_createPoolEntry
      | edit entry value => exact follows_apply_map fun _ => transition_editPoolEntry
      | add entry value => exact follows_apply_map fun _ => transition_addPoolMembers
      | delete entry value => exact follows_apply_map fun _ => transition_deletePoolMembers
      | destroy entry => exact follows_apply_map fun _ => transition_destroyPoolEntry
  | activity op =>
      cases op with
      | read region offsets => exact s.follows_readActivity region offsets false rfl
      | readClear region offsets => exact s.follows_readActivity region offsets true rfl
  | query q =>
      cases hq : s.core.queryObjects q with
      | error e =>
          simp only [execute, hq]
          exact .refused rfl rfl
      | ok page =>
          simp only [execute, hq]
          refine .silent rfl (.observe fun o ho => ?_) rfl
          cases ho
          rfl

/-- Every step succeeds by a transition of the model or changes nothing but the number of
failures. -/
theorem follows_step (s : Controller) (st : Step) : (s.step st).Follows s st.operation? := by
  cases st with
  | operation op => exact s.follows_execute op
  | command cmd params =>
      cases hop : Operation.ofCommand cmd params with
      | error e =>
          simp only [step, hop]
          exact .refused rfl rfl
      | ok op =>
          simp only [step, hop, Step.operation?]
          exact s.follows_execute op
  | addPbsPorts id ports => exact follows_apply_map fun _ => Core.transition_addPbsPorts
  | deletePbsPorts id ports => exact follows_apply_map fun _ => Core.transition_deletePbsPorts
  | peekActivity region offsets => exact s.follows_peekActivity region offsets
  | subscribe kind => exact s.follows_outside rfl rfl
  | unsubscribe kind => exact s.follows_outside rfl rfl
  | failNext op status => exact s.follows_outside rfl rfl
  | recordHit region offset => exact s.follows_outside rfl rfl

/-! ### Invariants -/

/-- What a new model has, and what the next step keeps whether it succeeds by a transition or fails,
holds throughout every run; it may depend on the steps so far. -/
theorem run_induction {p : List Step → Core → Prop} {config : Config}
    {given : Option (List KeyBlock)} {sink : Sink}
    (hs : Controller.start config given sink = .ok s)
    (hnew : ∀ {catalog c}, Core.new config catalog = .ok c → p [] c)
    (hdone : ∀ {steps st done}, p steps (s.run steps).core →
      ((s.run steps).step st).result = .ok done.result →
        Core.Transition (s.run steps).core st.operation? done → p (steps ++ [st]) done.core)
    (hfailed : ∀ {steps st e} stats, p steps (s.run steps).core →
      ((s.run steps).step st).result = .error e →
        p (steps ++ [st]) { (s.run steps).core with stats := stats }) (steps : List Step) :
    p steps (s.run steps).core := by
  -- the last step is taken off, since what the property says of the steps so far lies before it
  induction steps using List.reverseRecOn with
  | nil =>
      simp only [Controller.start, bind_eq_ok, pure_eq_ok] at hs
      obtain ⟨catalog, -, core, hcore, rfl⟩ := hs
      exact hnew hcore
  | append_singleton steps st ih =>
      rw [run_concat]
      cases (s.run steps).follows_step st with
      | done result transition delivered => exact hdone ih result transition
      | failed result unchanged =>
          rw [unchanged]
          exact hfailed _ ih result

/-- What a new model has, and what every transition and every change of the statistics keep, holds
throughout every run, whether or not the counts have room. -/
theorem run_invariant {p : Core → Prop} {config : Config} {given : Option (List KeyBlock)}
    {sink : Sink} (hs : Controller.start config given sink = .ok s)
    (hnew : ∀ {catalog c}, Core.new config catalog = .ok c → p c)
    (hstats : ∀ {c} stats, p c → p { c with stats := stats })
    (hstep : ∀ {c op done}, p c → Core.Transition c op done → p done.core) (steps : List Step) :
    p (s.run steps).core :=
  run_induction (p := fun _ c => p c) hs hnew (fun h _ => hstep h) (fun stats h _ => hstats stats h)
    steps

/-- What a new model has, and what every transition of a sound model and every change of the
statistics keep, holds in every run. -/
theorem Reachable.invariant {p : Core → Prop}
    (hnew : ∀ {config catalog c}, Core.new config catalog = .ok c → p c)
    (hstats : ∀ {c} stats, p c → p { c with stats := stats })
    (hstep : ∀ {c op done}, c.Sound → p c → Core.Transition c op done → p done.core)
    (h : Reachable s) : p s.core := by
  induction h with
  | start hs =>
      simp only [Controller.start, bind_eq_ok, pure_eq_ok] at hs
      obtain ⟨catalog, -, core, hcore, rfl⟩ := hs
      exact hnew hcore
  | @step s hs st hroom ih =>
      cases s.follows_step st with
      | done result transition delivered => exact hstep hs.inStep.sound ih transition
      | failed result unchanged =>
          rw [unchanged]
          exact hstats _ ih

end Controller

end AclPlane
