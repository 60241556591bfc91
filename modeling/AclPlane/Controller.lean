import AclPlane.Core.Acls
import AclPlane.Core.Activity
import AclPlane.Core.Bindings
import AclPlane.Core.Groups
import AclPlane.Core.KeyTypes
import AclPlane.Core.Objects
import AclPlane.Core.Pools
import AclPlane.Core.Regions
import AclPlane.Core.Rules

/-!
The control plane at work: a model, its device, and the receivers of events.

Every change goes the same way: it is planned against the model, the device is called at most
once, and only after the device has accepted does the model change and do events go out.  A
commit fails only where a count that has stopped at its greatest value is found too low.  It
leaves the device ahead of the model, since nothing undoes the call, and it is dropped as a whole:
what it has changed before it fails is not kept.

* `Controller.apply` — carries a planned change out.
* `Controller.readActivity`, `Controller.peekActivity` — the operations that read the device.
-/

namespace AclPlane

/-- A model with its device and its receivers of events. -/
structure Controller where
  core : Core
  device : Device
  hub : EventHub
  deriving DecidableEq

/-- What comes of an operation: its result, the events delivered and the controller afterwards. -/
structure Outcome (α : Type) where
  result : Except AclError α
  events : List Event
  controller : Controller

namespace Outcome

/-- The outcome with `f` applied to a successful result. -/
def map {α β : Type} (f : α → β) (o : Outcome α) : Outcome β :=
  ⟨o.result.map f, o.events, o.controller⟩

end Outcome

namespace Controller

variable {α : Type}

/-- A fresh controller.  Without blocks it has the built-in catalog. -/
def start (config : Config) (blocks : Option (List KeyBlock)) (sink : Sink) :
    Except AclError Controller := do
  let core ← Core.new config (← Catalog.ofGiven blocks)
  return ⟨core, Device.new, EventHub.empty sink⟩

/-! ### Changes -/

/-- Brings a change that the device has accepted to its end.  A commit that fails is dropped as a
whole; none does as long as the counts have room. -/
def finish (s : Controller) : Except AclError (Commit α) → Outcome α
  | .ok done => ⟨.ok done.result, s.hub.deliver done.events, { s with core := done.core }⟩
  | .error e => ⟨.error e, [], s⟩

/-- Carries a planned change out, unless planning has failed or the device refuses. -/
def apply (s : Controller) (plan : Except AclError (Change α)) : Outcome α :=
  match plan with
  | .error e => ⟨.error e, [], s⟩
  | .ok change =>
    match change.call with
    | none => s.finish change.commit
    | some call =>
      match s.device.call call with
      | (.ok _, device) => { s with device := device }.finish change.commit
      | (.error e, device) =>
        ⟨.error (.device e), [], { s with core := s.core.countFailure, device := device }⟩

/-! ### Reading activity -/

/-- Reads one activity bit, and clears it if asked to; a bit that is cleared is reported. -/
def readBit (s : Controller) (region : Handle .region) (clear : Bool) (offset : Nat) :
    Outcome Bool :=
  match s.device.call (.readActivity region offset clear) with
  | (.ok bit, device) =>
    ⟨.ok bit, s.hub.deliver (if clear && bit then [.activityCleared region offset] else []),
      { s with device := device }⟩
  | (.error e, device) =>
    ⟨.error (.device e), [], { s with core := s.core.countFailure, device := device }⟩

/-- Reads the bits of several offsets, up to the first failure. -/
def readBits (s : Controller) (region : Handle .region) (clear : Bool) :
    List Nat → Outcome (List Bool)
  | [] => ⟨.ok [], [], s⟩
  | offset :: rest =>
    let first := s.readBit region clear offset
    match first.result with
    | .error e => ⟨.error e, first.events, first.controller⟩
    | .ok bit =>
      let others := first.controller.readBits region clear rest
      ⟨others.result.map (bit :: ·), first.events ++ others.events, others.controller⟩

/-- Reads the activity of rules in a region that some binding reaches. -/
def readActivity (s : Controller) (region : Handle .region) (offsets : List Nat) (clear : Bool) :
    Outcome (List Bool) :=
  match s.core.checkActivity region offsets with
  | .error e => ⟨.error e, [], s⟩
  | .ok () => s.readBits region clear offsets

/-- Reads bits without clearing them, up to the first failure, which is not put on record. -/
def peekBits (s : Controller) (region : Handle .region) : List Nat → Outcome (List Bool)
  | [] => ⟨.ok [], [], s⟩
  | offset :: rest =>
    match s.device.call (.readActivity region offset false) with
    | (.ok bit, device) =>
      let others := peekBits { s with device := device } region rest
      ⟨others.result.map (bit :: ·), others.events, others.controller⟩
    | (.error e, device) => ⟨.error (.device e), [], { s with device := device }⟩

/-- Reads the activity of rules as a mere observer: the model stays as it is. -/
def peekActivity (s : Controller) (region : Handle .region) (offsets : List Nat) :
    Outcome (List Bool) :=
  match s.core.checkActivity region offsets with
  | .error e => ⟨.error e, [], s⟩
  | .ok () => s.peekBits region offsets

/-! ### Subscriptions and the device from outside -/

/-- Asks for events of a kind. -/
def subscribe (s : Controller) (kind : EventKind) : Controller :=
  { s with hub := s.hub.subscribe kind }

/-- Asks for no more events of a kind. -/
def unsubscribe (s : Controller) (kind : EventKind) : Controller :=
  { s with hub := s.hub.unsubscribe kind }

/-- Arms a fault in the device. -/
def failNext (s : Controller) (op : DeviceOp) (status : DeviceStatus) : Controller :=
  { s with device := s.device.failNext op status }

/-- Lets a packet hit a rule of the device. -/
def recordHit (s : Controller) (region : Handle .region) (offset : Nat) : Bool × Controller :=
  let (hit, device) := s.device.recordHit region offset
  (hit, { s with device := device })

end Controller

end AclPlane
