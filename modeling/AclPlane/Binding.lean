import AclPlane.Error

/-!
Bindings: what is enforced on each attachment point and direction.

A point and direction carry a list of entries in evaluation order.  An ACL is always bound
alone; groups are kept in descending order of the priority they were bound with, ties in the
order in which they were added.

* `Bindings.planAdd`, `Bindings.planDelete` — the list after a group is added or removed.
* `Bindings.commit` — stores a list; an empty one is no binding.
-/

namespace AclPlane

/-- A bound target, with the priority it had when it was bound. -/
structure BoundEntry where
  target : BindTarget
  priority : Nat
  deriving DecidableEq, Repr

/-- How many entries are bound. -/
inductive BindingState where
  | unbound | boundSingle | boundMultiple
  deriving DecidableEq, Repr

/-- The spelling of a binding state. -/
def BindingState.name : BindingState → String
  | unbound => "Unbound"
  | boundSingle => "BoundSingle"
  | boundMultiple => "BoundMultiple"

/-- The bindings of a device. -/
structure Bindings where
  entries : OrderedMap BindingKey (List BoundEntry)
  deriving DecidableEq

namespace Bindings

/-- No bindings yet. -/
def empty : Bindings := ⟨OrderedMap.empty⟩

/-- The number of points and directions with a binding. -/
def size (b : Bindings) : Nat := b.entries.size

/-- The entries bound on a key; none if it carries no binding. -/
def entriesAt (b : Bindings) (key : BindingKey) : List BoundEntry := (b.entries.get? key).getD []

/-- Whether a key carries a binding. -/
def isBoundAt (b : Bindings) (key : BindingKey) : Bool := b.entries.contains key

/-- Every bound entry. -/
def allEntries (b : Bindings) : List BoundEntry := b.entries.values.flatten

/-- Whether a target is bound anywhere. -/
def isBound (b : Bindings) (target : BindTarget) : Bool :=
  b.allEntries.any (·.target == target)

/-- The values by which the device knows the targets of a list. -/
def rawTargets (list : List BoundEntry) : List RawHandle := list.map (·.target.raw)

/-! ### Checks and plans -/

/-- Checks that a direction can be bound on a point. -/
def checkPoint (key : BindingKey) : Except AclError Unit := do
  if key.direction = .multiPoints then
    throw (.invalidParam (.notBindingDirection key.direction))
  if !key.point.supports key.direction then throw (.invalidParam (.unsupportedDirection key))

/-- Puts an entry behind every entry of equal or higher priority. -/
def place (entry : BoundEntry) (list : List BoundEntry) : List BoundEntry :=
  let ahead := fun e : BoundEntry => entry.priority ≤ e.priority
  list.takeWhile ahead ++ entry :: list.dropWhile ahead

/-- The entries of a key after one has been added, or nothing if its target is bound there. -/
def planAdd (b : Bindings) (key : BindingKey) (entry : BoundEntry) :
    Except AclError (Option (List BoundEntry)) :=
  let current := b.entriesAt key
  if current.any (·.target == entry.target) then .ok none
  else match current.find? (·.target.isAcl) with
    | some e => .error (.invalidParam (.bareAcl key e.target))
    | none => .ok (some (place entry current))

/-- The entries bound on a key, or the error that it carries no binding. -/
def bound (b : Bindings) (key : BindingKey) : Except AclError (List BoundEntry) :=
  match b.entries.get? key with
  | some list => .ok list
  | none => .error (.notFound (.binding key))

/-- The entries of a key without a group. -/
def planDelete (b : Bindings) (key : BindingKey) (group : Handle .group) :
    Except AclError (List BoundEntry) := do
  let current ← b.bound key
  if !current.any (·.target == .group group) then throw (.notFound (.boundGroup group key))
  return current.filter (·.target != .group group)

/-- Stores the entries of a key. -/
def commit (b : Bindings) (key : BindingKey) (list : List BoundEntry) : Bindings :=
  ⟨if list.isEmpty then b.entries.erase key else b.entries.insert key list⟩

/-! ### Listing -/

/-- The entry evaluated first. -/
def primary (b : Bindings) (key : BindingKey) : Except AclError BindTarget := do
  match ← b.bound key with
  | e :: _ => return e.target
  | [] => throw (.notFound (.binding key))

/-- The number of entries, and the targets in evaluation order, at most `cap` of them. -/
def all (b : Bindings) (key : BindingKey) (cap : Option Nat) :
    Except AclError (Page BindTarget) := do
  let list ← b.bound key
  let targets := list.map BoundEntry.target
  return ⟨list.length, match cap with
    | some n => targets.take n
    | none => targets⟩

/-- How many entries a key carries. -/
def state (b : Bindings) (key : BindingKey) : BindingState :=
  match b.entriesAt key with
  | [] => .unbound
  | [_] => .boundSingle
  | _ => .boundMultiple

end Bindings

end AclPlane
