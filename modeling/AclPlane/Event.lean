import AclPlane.AttachPoint

/-!
Events, subscriptions and the sink that events are delivered to.
-/

namespace AclPlane

/-- Something that a successful operation reports. -/
inductive Event where
  | objectDeleted (object : ObjectRef)
  /-- An activity bit that was set has been read and cleared. -/
  | activityCleared (region : Handle .region) (offset : Nat)
  | bindingChanged (key : BindingKey)
  | regionResized (region : Handle .region) (hwSize : Nat)
  deriving DecidableEq, Repr

/-- The kinds of event that can be subscribed to. -/
inductive EventKind where
  | objectDeleted | activityCleared | bindingChanged | regionResized
  deriving DecidableEq, Repr

namespace EventKind

/-- Every kind of event. -/
def all : List EventKind := [objectDeleted, activityCleared, bindingChanged, regionResized]

/-- The spelling of an event kind. -/
def name : EventKind → String
  | objectDeleted => "OBJECT_DELETED"
  | activityCleared => "ACTIVITY_CLEARED"
  | bindingChanged => "BINDING_CHANGED"
  | regionResized => "REGION_RESIZED"

end EventKind

/-- The kind of an event. -/
def Event.kind : Event → EventKind
  | objectDeleted _ => .objectDeleted
  | activityCleared _ _ => .activityCleared
  | bindingChanged _ => .bindingChanged
  | regionResized _ _ => .regionResized

/-- Where events go. -/
inductive Sink where
  | none
  | recording
  /-- A channel; what is sent after its receiver has gone is lost. -/
  | channel (receiverAlive : Bool)
  deriving DecidableEq, Repr

/-- Whether what is sent to a sink arrives. -/
def Sink.delivers : Sink → Bool
  | none => false
  | recording => true
  | channel receiverAlive => receiverAlive

/-- The installed sink and the kinds of event subscribed to. -/
structure EventHub where
  sink : Sink
  interest : List EventKind
  deriving DecidableEq, Repr

namespace EventHub

/-- A hub without subscriptions. -/
def empty (sink : Sink) : EventHub := ⟨sink, []⟩

/-- Whether events of a kind are asked for. -/
def isSubscribed (h : EventHub) (kind : EventKind) : Bool := h.interest.contains kind

/-- Asks for events of a kind. -/
def subscribe (h : EventHub) (kind : EventKind) : EventHub :=
  if h.isSubscribed kind then h else { h with interest := kind :: h.interest }

/-- Asks for no more events of a kind. -/
def unsubscribe (h : EventHub) (kind : EventKind) : EventHub :=
  { h with interest := h.interest.filter (· != kind) }

/-- The events that arrive, of those that are reported. -/
def deliver (h : EventHub) (events : List Event) : List Event :=
  if h.sink.delivers then events.filter (fun e => h.isSubscribed e.kind) else []

end EventHub

end AclPlane
