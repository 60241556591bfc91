import AclPlane.Proofs.Occurrences
import AclPlane.Proofs.Room

/-!
Exactly what happens is delivered, once, to those who have asked for it.

* `Happening`: a step, or the installation of another sink.
* `Happening.subscribed`, `Happening.installed`: the subscriptions and the sink after what has
  happened, without regard to the controller.
* `Controller.Hears.play`: the hub of the controller has just these.
* `Controller.step_withHub`: the hub makes no difference to the rest of the controller.
* `Controller.play_eq`: nor does it which sink is installed, so what holds after every run holds
  after all that may happen.
* `Controller.events_exact`: the events of any step at any time.
-/

namespace AclPlane

/-! ### Subscriptions -/

namespace EventHub

variable (hub : EventHub) (kind other : EventKind)

/-- A subscription adds its kind to those asked for. -/
lemma isSubscribed_subscribe :
    (hub.subscribe other).isSubscribed kind = (hub.isSubscribed kind || other == kind) := by
  rw [subscribe]
  split
  · next hasked =>
      by_cases heq : other = kind
      · rw [← heq, hasked, Bool.true_or]
      · rw [beq_false_of_ne heq, Bool.or_false]
  · rw [isSubscribed, List.contains_cons, isSubscribed, Bool.or_comm, BEq.comm]

/-- Its end takes the kind away. -/
lemma isSubscribed_unsubscribe :
    (hub.unsubscribe other).isSubscribed kind = (hub.isSubscribed kind && other != kind) := by
  rw [bne_comm, Bool.eq_iff_iff]
  simp [isSubscribed, unsubscribe]

lemma sink_subscribe : (hub.subscribe other).sink = hub.sink := by
  rw [subscribe]
  split <;> rfl

/-- What is delivered has happened and is asked for, and the sink receives. -/
lemma mem_deliver_iff {hub : EventHub} {events : List Event} {e : Event} :
    e ∈ hub.deliver events ↔
      hub.sink.delivers = true ∧ hub.isSubscribed e.kind = true ∧ e ∈ events := by
  rw [deliver]
  split
  · next h => simp [h, and_comm]
  · next h => simp [h]

/-- Events are delivered in their order, and none is made up. -/
lemma deliver_sublist (events : List Event) : (hub.deliver events).Sublist events := by
  rw [deliver]
  split
  · exact List.filter_sublist
  · exact List.nil_sublist events

end EventHub

/-- A recording sink receives, and so does a channel as long as its receiver is there. -/
lemma Sink.delivers_iff {sink : Sink} :
    sink.delivers = true ↔ sink = .recording ∨ sink = .channel true := by
  cases sink with
  | channel receiverAlive => simp [delivers]
  | _ => simp [delivers]

/-- Something that happens to a controller: a step, or another sink is installed.  A channel whose
receiver goes away becomes another sink. -/
inductive Happening where
  | step (st : Step)
  | install (sink : Sink)
  deriving DecidableEq, Repr

namespace Happening

/-- The step that has been made, if any. -/
def step? : Happening → Option Step
  | step st => some st
  | install _ => none

/-- The steps among what has happened. -/
def steps (past : List Happening) : List Step := past.filterMap step?

/-- Whether events of a kind are asked for afterwards, if they were `asked` for before. -/
def asks (kind : EventKind) (asked : Bool) : Happening → Bool
  | step (.subscribe other) => asked || other == kind
  | step (.unsubscribe other) => asked && other != kind
  | _ => asked

/-- Whether events of a kind are asked for after what has happened. -/
def subscribed (kind : EventKind) (past : List Happening) : Bool := past.foldl (asks kind) false

/-- The sink that is installed afterwards. -/
def sinkAfter (sink : Sink) : Happening → Sink
  | install other => other
  | step _ => sink

/-- The sink that is installed after what has happened. -/
def installed (first : Sink) (past : List Happening) : Sink := past.foldl sinkAfter first

end Happening

namespace Controller

variable {s : Controller} {st : Step}

/-- The controller with another hub. -/
def withHub (s : Controller) (hub : EventHub) : Controller := { s with hub := hub }

/-- The controller with another sink. -/
def withSink (s : Controller) (sink : Sink) : Controller :=
  s.withHub { s.hub with sink := sink }

/-- The controller after something has happened. -/
def after (s : Controller) : Happening → Controller
  | .step st => (s.step st).controller
  | .install sink => s.withSink sink

/-- The controller after all that has happened. -/
def play (s : Controller) (past : List Happening) : Controller := past.foldl after s

/-! ### The hub makes no difference -/

section Hubs

variable (s : Controller) (hub : EventHub)

/-- Carrying out a plan ends alike with every hub. -/
lemma apply_withHub {α : Type} (plan : Except AclError (Change α)) :
    ((s.withHub hub).apply plan).controller = (s.apply plan).controller.withHub hub := by
  rcases plan with e | ⟨call?, commit⟩
  · rfl
  · cases call? with
    | none => cases commit <;> rfl
    | some call =>
        rcases hcall : s.device.call call with ⟨answer, device⟩
        have hsame : (s.withHub hub).device.call call = (answer, device) := hcall
        simp only [apply, hcall, hsame]
        cases answer with
        | error e => rfl
        | ok bit => cases commit <;> rfl

lemma applyDone_withHub (plan : Except AclError (Change Unit)) :
    ((s.withHub hub).applyDone plan).controller = (s.applyDone plan).controller.withHub hub :=
  s.apply_withHub hub plan

lemma applyCreate_withHub {kind : ObjectKind} (plan : Except AclError (Change (Handle kind))) :
    ((s.withHub hub).applyCreate plan).controller = (s.applyCreate plan).controller.withHub hub :=
  s.apply_withHub hub plan

/-- So does a reading. -/
lemma readBits_withHub (region : Handle .region) (clear : Bool) (offsets : List ℕ) :
    ((s.withHub hub).readBits region clear offsets).controller =
      (s.readBits region clear offsets).controller.withHub hub := by
  induction offsets generalizing s with
  | nil => rfl
  | cons offset offsets ih =>
      rcases hcall : s.device.call (.readActivity region offset clear) with ⟨answer, device⟩
      have hsame : (s.withHub hub).device.call (.readActivity region offset clear) =
          (answer, device) := hcall
      simp only [readBits, readBit, hcall, hsame]
      cases answer with
      | error e => rfl
      | ok bit => exact ih { s with device := device }

lemma readActivity_withHub (region : Handle .region) (offsets : List ℕ) (clear : Bool) :
    ((s.withHub hub).readActivity region offsets clear).controller =
      (s.readActivity region offsets clear).controller.withHub hub := by
  rw [readActivity, readActivity, show (s.withHub hub).core = s.core from rfl]
  cases s.core.checkActivity region offsets with
  | error e => rfl
  | ok _ => exact s.readBits_withHub hub region clear offsets

lemma peekActivity_withHub (region : Handle .region) (offsets : List ℕ) :
    ((s.withHub hub).peekActivity region offsets).controller =
      (s.peekActivity region offsets).controller.withHub hub := by
  rw [peekActivity, peekActivity, show (s.withHub hub).core = s.core from rfl]
  cases s.core.checkActivity region offsets with
  | error e => rfl
  | ok _ =>
      simp only [peekBits_eq, readBits_withHub]
      rfl

/-- What an operation makes of the controller does not depend on the hub. -/
lemma execute_withHub (op : Operation) :
    ((s.withHub hub).execute op).controller = (s.execute op).controller.withHub hub := by
  cases op with
  | keyType op =>
      cases op with
      | create fields hint => exact s.applyCreate_withHub hub _
      | destroy id => exact s.applyDone_withHub hub _
  | region op =>
      cases op with
      | create keyType capacity => exact s.applyCreate_withHub hub _
      | resize region capacity => exact s.apply_withHub hub (s.core.resizeRegion region capacity)
      | destroy region => exact s.applyDone_withHub hub _
  | acl op =>
      cases op with
      | create aclType direction bitmap regions => exact s.applyCreate_withHub hub _
      | _ => exact s.applyDone_withHub hub _
  | rule op => cases op <;> exact s.applyDone_withHub hub _
  | group op =>
      cases op with
      | create direction => exact s.applyCreate_withHub hub _
      | _ => exact s.applyDone_withHub hub _
  | binding op => cases op <;> exact s.applyDone_withHub hub _
  | pool op =>
      cases op with
      | create value => exact s.apply_withHub hub (s.core.createPoolEntry value)
      | _ => exact s.applyDone_withHub hub _
  | activity op => cases op <;> exact s.readActivity_withHub hub _ _ _
  | query q => rfl

/-- Nor does what a step makes of it that leaves the subscriptions alone. -/
lemma step_withHub (hst : ∀ kind, st ≠ .subscribe kind ∧ st ≠ .unsubscribe kind) :
    ((s.withHub hub).step st).controller = (s.step st).controller.withHub hub := by
  cases st with
  | operation op => exact s.execute_withHub hub op
  | command cmd params =>
      rw [step, step]
      split
      · exact s.execute_withHub hub _
      · rfl
  | addPbsPorts id ports => exact s.applyDone_withHub hub _
  | deletePbsPorts id ports => exact s.applyDone_withHub hub _
  | peekActivity region offsets => exact s.peekActivity_withHub hub region offsets
  | subscribe kind => exact absurd rfl (hst kind).1
  | unsubscribe kind => exact absurd rfl (hst kind).2
  | failNext op status => rfl
  | recordHit region offset => rfl

end Hubs

/-- A step that leaves the subscriptions alone leaves the hub as it is. -/
lemma hub_step (s : Controller) (st : Step)
    (hst : ∀ kind, st ≠ .subscribe kind ∧ st ≠ .unsubscribe kind) :
    (s.step st).controller.hub = s.hub := by
  have hsame := congrArg Controller.hub (s.step_withHub s.hub hst)
  exact hsame

/-- So does every operation. -/
lemma hub_execute (s : Controller) (op : Operation) : (s.execute op).controller.hub = s.hub :=
  s.hub_step (.operation op) (by simp)

/-! ### Who hears what -/

/-- The hub has the subscriptions that `asked` tells, and a sink. -/
structure Hears (s : Controller) (sink : Sink) (asked : EventKind → Bool) : Prop where
  sink : s.hub.sink = sink
  asked : ∀ kind, s.hub.isSubscribed kind = asked kind

/-- Only subscriptions and installations change what a controller hears. -/
lemma Hears.after {sink : Sink} {asked : EventKind → Bool} (h : s.Hears sink asked)
    (x : Happening) :
    (s.after x).Hears (x.sinkAfter sink) fun kind => x.asks kind (asked kind) := by
  have hother : ∀ st, (∀ kind, st ≠ .subscribe kind ∧ st ≠ .unsubscribe kind) →
      (s.step st).controller.Hears sink asked := by
    intro st hst
    constructor
    · rw [s.hub_step st hst, h.sink]
    · intro kind
      rw [s.hub_step st hst, h.asked]
  cases x with
  | install other => exact ⟨rfl, h.asked⟩
  | step st =>
      cases st with
      | subscribe other =>
          refine ⟨(s.hub.sink_subscribe other).trans h.sink, fun kind => ?_⟩
          rw [Happening.asks, ← h.asked kind]
          exact s.hub.isSubscribed_subscribe kind other
      | unsubscribe other =>
          refine ⟨h.sink, fun kind => ?_⟩
          rw [Happening.asks, ← h.asked kind]
          exact s.hub.isSubscribed_unsubscribe kind other
      | _ => exact hother _ (by simp)

/-- The hub follows what has happened. -/
lemma Hears.play {sink : Sink} {asked : EventKind → Bool} (h : s.Hears sink asked)
    (past : List Happening) : (s.play past).Hears (Happening.installed sink past)
      fun kind => past.foldl (Happening.asks kind) (asked kind) := by
  induction past generalizing s sink asked with
  | nil => exact h
  | cons x past ih => exact ih (h.after x)

/-! ### The sink makes no difference -/

/-- What a step makes of the controller does not depend on the sink, even if it subscribes. -/
lemma step_withSink (s : Controller) (sink : Sink) (st : Step) :
    ((s.withSink sink).step st).controller = (s.step st).controller.withSink sink := by
  have hother : (∀ kind, st ≠ .subscribe kind ∧ st ≠ .unsubscribe kind) →
      ((s.withSink sink).step st).controller = (s.step st).controller.withSink sink := by
    intro hst
    rw [withSink, withSink, s.hub_step st hst]
    exact s.step_withHub _ hst
  cases st with
  | subscribe kind =>
      change (s.withSink sink).subscribe kind = (s.subscribe kind).withSink sink
      rw [subscribe, subscribe, EventHub.subscribe, EventHub.subscribe,
        show (s.withSink sink).hub.isSubscribed kind = s.hub.isSubscribed kind from rfl]
      split <;> rfl
  | unsubscribe kind => rfl
  | _ => exact hother (by simp)

/-- All that has happened makes of the controller what its steps do, but for the sink. -/
lemma play_eq (s : Controller) (past : List Happening) : s.play past =
    (s.run (Happening.steps past)).withSink (Happening.installed s.hub.sink past) := by
  induction past using List.reverseRecOn with
  | nil => rfl
  | append_singleton past x ih =>
      have hplay : s.play (past ++ [x]) = (s.play past).after x := List.foldl_concat ..
      have hsink : Happening.installed s.hub.sink (past ++ [x]) =
          x.sinkAfter (Happening.installed s.hub.sink past) := List.foldl_concat ..
      rw [hplay, ih, hsink]
      cases x with
      | step st =>
          have hsteps : Happening.steps (past ++ [.step st]) = Happening.steps past ++ [st] :=
            List.filterMap_append
          rw [hsteps, run_concat]
          exact step_withSink _ _ st
      | install other =>
          have hsteps : Happening.steps (past ++ [.install other]) = Happening.steps past :=
            List.filterMap_append.trans (List.append_nil _)
          rw [hsteps]
          rfl

/-! ### What holds whatever happens -/

/-- What holds of a controller after any run, whatever happens to its sink. -/
structure Settled (s : Controller) : Prop where
  steady : s.core.Steady
  linked : s.core.Linked
  spans : s.core.Spans s.device.tables

variable {config : Config} {given : Option (List KeyBlock)} {sink : Sink}

/-- Sinks aside, all that has happened is a run. -/
lemma settled_play (hs : Controller.start config given sink = .ok s) (past : List Happening) :
    (s.play past).Settled := by
  rw [play_eq]
  exact ⟨steady_run hs _, linked_run hs _, spans_run hs _⟩

/-- Model and device are in step whatever happens to the sink, as long as counts have room. -/
lemma inStep_play (hs : Controller.start config given sink = .ok s) {past : List Happening}
    (hroom : s.RunHasRoom (Happening.steps past)) :
    (s.play past).core.InStep (s.play past).device.tables := by
  rw [play_eq]
  exact ((Reachable.start hs).run hroom).inStep

/-! ### Steps that report nothing -/

/-- A step that fails reports nothing. -/
lemma events_of_error (h : s.Settled) {e : AclError} (he : (s.step st).result = .error e) :
    (s.step st).events = [] := by
  cases hop : st.operation? with
  | none => exact events_of_no_operation hop
  | some op =>
      rw [s.step_of_operation? hop] at he ⊢
      cases hread : op.isReading with
      | false => exact events_execute_of_error hread he
      | true =>
          have herror : ∀ region offsets clear,
              ((s.readActivity region offsets clear).map OpResult.activity).result = .error e →
              (s.readActivity region offsets clear).events = [] := by
            intro region offsets clear hresult
            cases hread : (s.readActivity region offsets clear).result with
            | error e' => exact events_readActivity_of_error h.spans hread
            | ok bits =>
                rw [Outcome.map, hread] at hresult
                cases hresult
          cases op with
          | activity op =>
              cases op with
              | read region offsets => exact herror region offsets false he
              | readClear region offsets => exact herror region offsets true he
          | query q => rfl
          | _ => cases hread

/-- A reading that does not clear reports nothing. -/
lemma events_of_reading (h : s.Settled) {region : Handle .region} {offsets : List ℕ}
    (hst : st.operation? = some (.activity (.read region offsets)) ∨
      st = .peekActivity region offsets) : (s.step st).events = [] := by
  rcases hst with hop | rfl
  · rw [s.step_of_operation? hop]
    exact events_readOnly h.spans region offsets
  · exact events_of_no_operation rfl

/-- A group that is bound already is added without a report. -/
lemma events_of_bound (h : s.Settled) {key : BindingKey} {group : Handle .group}
    (hop : st.operation? = some (.binding (.add key group)))
    (hbound : ∃ e ∈ s.core.bindings.entriesAt key, e.target = .group group) :
    (s.step st).events = [] := by
  have hfollows := s.follows_step st
  rw [hop] at hfollows
  cases hfollows with
  | failed result unchanged => exact events_of_error h result
  | done result transition delivered =>
      rw [delivered]
      generalize (s.step st).controller.core = c at transition
      cases transition with
      | observe reading => cases reading _ rfl
      | bindAgain => exact deliver_nil s.hub
      | bindAdd checked bindable planned counted =>
          rw [Bindings.planAdd_eq_none.mpr hbound] at planned
          cases planned

/-- No report is made of the members of a group. -/
lemma events_of_member (h : s.Settled) {group : Handle .group} {acl : Handle .acl}
    (hop : st.operation? = some (.group (.add group acl))) : (s.step st).events = [] := by
  have hstep := s.step_of_operation? hop
  cases hr : (s.step st).result with
  | error e => exact events_of_error h hr
  | ok r =>
      rw [hstep] at hr ⊢
      rw [events_execute rfl hr]
      exact deliver_nil s.hub

/-! ### The events of a step -/

/-- As long as model and device are in step, a step fails for what has been asked for or for a
fault: no commit fails. -/
lemma refused_or_faulted (h : s.core.InStep s.device.tables) {e : AclError}
    (he : (s.step st).result = .error e) : e.isRefusal = true ∨
      ∃ op status, s.device.faults.lookup op = some status ∧
        e = .device (.status (some op) status) := by
  have hlawful := lawful_step h st
  generalize s.step st = o at hlawful he
  cases hlawful with
  | done calls inStep => cases he
  | refused refusal =>
      cases he
      exact .inl refusal
  | faulted issued armed called =>
      cases he
      exact .inr ⟨_, _, armed, rfl⟩

/-- Take any step after any past of steps and installations of sinks.

Its events are those of the sorts that are subscribed to, provided that the sink which is installed
receives, and no event comes twice: an object that ceases to be live in the step, the new size of a
region that it resizes, a key for which it calls the device to bind or unbind, and a bit that its
clearing read turns from set to clear.  A clearing read reports in the order in which its offsets
first occur, and any other step has one event at most.

A step that fails has none, and it fails because it is refused or meets a fault.  A reading that
does not clear has none, and neither has the addition of what is there already.

By `runHasRoom_of_budget` every past has room for its references if the budget is less than 2³⁰
rows.  Where there is no room a count stays behind, and a destruction may fail after its object has
gone. -/
theorem events_exact (hs : Controller.start config given sink = .ok s) {past : List Happening}
    (hroom : s.RunHasRoom (Happening.steps past)) (st : Step) :
    let now := s.play past
    let o := now.step st
    o.events.Nodup ∧
    (∀ e, e ∈ o.events ↔
      (Happening.installed sink past = .recording ∨
        Happening.installed sink past = .channel true) ∧
      Happening.subscribed e.kind past = true ∧ now.Happens st e) ∧
    (∀ region offsets, st.operation? = some (.activity (.readClear region offsets)) →
      o.events.Sublist (offsets.eraseDups.map (.activityCleared region))) ∧
    ((∀ region offsets, st.operation? ≠ some (.activity (.readClear region offsets))) →
      o.events.length ≤ 1) ∧
    (∀ e, o.result = .error e → o.events = [] ∧
      (e.isRefusal = true ∨ ∃ op status, now.device.faults.lookup op = some status ∧
        e = .device (.status (some op) status))) ∧
    (∀ region offsets, st.operation? = some (.activity (.read region offsets)) ∨
      st = .peekActivity region offsets → o.events = []) ∧
    (∀ key group, st.operation? = some (.binding (.add key group)) →
      (∃ e ∈ now.core.bindings.entriesAt key, e.target = .group group) → o.events = []) ∧
    (∀ group acl, st.operation? = some (.group (.add group acl)) → o.events = []) := by
  intro now o
  have hsettled : now.Settled := settled_play hs past
  have hstart : s.Hears sink fun _ => false := by
    simp only [Controller.start, bind_eq_ok, pure_eq_ok] at hs
    obtain ⟨catalog, -, core, hcore, rfl⟩ := hs
    exact ⟨rfl, fun _ => rfl⟩
  have hhears := hstart.play past
  obtain ⟨events, hrecorded, hdelivered⟩ :=
    exists_recorded hsettled.steady hsettled.linked hsettled.spans st
  have hsub : o.events.Sublist events := by
    rw [show o.events = now.hub.deliver events from hdelivered]
    exact now.hub.deliver_sublist events
  refine ⟨hrecorded.nodup.sublist hsub, fun e => ?_,
    fun region offsets hop => hsub.trans (hrecorded.ordered region offsets hop),
    fun hne => hsub.length_le.trans (hrecorded.single hne),
    fun e he => ⟨events_of_error hsettled he, refused_or_faulted (inStep_play hs hroom) he⟩,
    fun region offsets hst => events_of_reading hsettled hst,
    fun key group hop hbound => events_of_bound hsettled hop hbound,
    fun group acl hop => events_of_member hsettled hop⟩
  calc e ∈ o.events ↔ now.hub.sink.delivers = true ∧ now.hub.isSubscribed e.kind = true ∧
        e ∈ events := by
        rw [show o.events = now.hub.deliver events from hdelivered]
        exact EventHub.mem_deliver_iff
    _ ↔ _ := by
        rw [hhears.sink, hhears.asked, Sink.delivers_iff, hrecorded.mem_iff]
        rfl

/-- After the session, events of bits are asked for, and packets hit both rules. -/
def listening : List Happening :=
  session.map .step ++ [.step (.subscribe .activityCleared), .step (.recordHit ⟨0, 1⟩ 1),
    .step (.recordHit ⟨0, 1⟩ 2)]

/-- Reads and clears the bits of both rules, one of them twice. -/
def clearing : Step := .operation (.activity (.readClear ⟨0, 1⟩ [2, 1, 2]))

/-- Each bit is reported once, in the order of the request, and its report tells what has happened;
nobody hears of it if the receiver has gone. -/
theorem events_of_clearing :
    ((fresh.play listening).step clearing).events =
      [.activityCleared ⟨0, 1⟩ 2, .activityCleared ⟨0, 1⟩ 1] ∧
    (fresh.play listening).Happens clearing (.activityCleared ⟨0, 1⟩ 2) ∧
    ((fresh.play (listening ++ [.install (.channel false)])).step clearing).events = [] := by
  have hevents : ((fresh.play listening).step clearing).events =
      [.activityCleared ⟨0, 1⟩ 2, .activityCleared ⟨0, 1⟩ 1] := by decide +kernel
  have hroom := runHasRoom_of_budget start_fresh (by decide) (Happening.steps listening)
  obtain ⟨-, hmem, -⟩ := events_exact start_fresh hroom clearing
  refine ⟨hevents, ((hmem _).mp ?_).2.2, by decide +kernel⟩
  rw [hevents]
  exact List.mem_cons_self

end Controller

end AclPlane
