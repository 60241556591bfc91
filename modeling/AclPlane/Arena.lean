import AclPlane.Handle
import AclPlane.Query
import AclPlane.RefCount

/-!
Handle-indexed storage.

An arena keeps its objects in numbered slots.  Removing an object raises the generation of its
slot, so the handle that named it stops resolving even after the slot has been taken again; the
slot freed last is the first to be taken.  No more than `limit` objects are live at a time.

* `Arena.get?` — the object a handle resolves to.
* `Arena.nextHandle?` — the handle that the next insertion hands out.
* `Arena.insertWith?`, `Arena.remove?`, `Arena.modify` — the changes.
* `Arena.toList` — the live objects in ascending order of their handles.
-/

namespace AclPlane

/-- One place of an arena: the generation of its present or next occupant, and the occupant. -/
structure Slot (α : Type) where
  generation : UInt32
  value : Option α
  deriving DecidableEq, Repr

/-- Storage for objects of one kind. -/
structure Arena (kind : ObjectKind) (α : Type) where
  slots : List (Slot α)
  /-- The vacant slots, the one freed last in front. -/
  free : List UInt32
  /-- The number of live objects. -/
  size : Nat
  limit : Nat
  deriving DecidableEq, Repr

namespace Arena

variable {kind : ObjectKind} {α : Type}

/-- The arena without objects. -/
def empty (limit : Nat) : Arena kind α := ⟨[], [], 0, limit⟩

/-- Whether no object is live. -/
def isEmpty (a : Arena kind α) : Bool := a.size == 0

/-- Whether the limit is reached. -/
def isFull (a : Arena kind α) : Bool := a.limit ≤ a.size

/-! ### Look-ups -/

/-- The object that a handle names, unless the handle is stale. -/
def get? (a : Arena kind α) (h : Handle kind) : Option α :=
  match a.slots[h.index.toNat]? with
  | some slot => if slot.generation = h.generation then slot.value else none
  | none => none

/-- Whether a handle names a live object. -/
def contains (a : Arena kind α) (h : Handle kind) : Bool := (a.get? h).isSome

/-- The occupied slots from index `i` on, with their handles. -/
def liveFrom (i : Nat) : List (Slot α) → List (Handle kind × α)
  | [] => []
  | ⟨generation, some value⟩ :: rest =>
    (⟨UInt32.ofNat i, generation⟩, value) :: liveFrom (i + 1) rest
  | ⟨_, none⟩ :: rest => liveFrom (i + 1) rest

/-- The live objects in ascending order of their handles. -/
def toList (a : Arena kind α) : List (Handle kind × α) := liveFrom 0 a.slots

/-- The live handles, ascending. -/
def handles (a : Arena kind α) : List (Handle kind) := a.toList.map Prod.fst

/-- The first live object, in handle order, that satisfies `p`. -/
def find? (a : Arena kind α) (p : α → Bool) : Option (Handle kind) :=
  (a.toList.find? (fun e => p e.2)).map Prod.fst

/-- Runs a query over the live handles. -/
def select (a : Arena kind α) (q : Query (Handle kind)) : Option (Page (Handle kind)) :=
  q.select a.handles

/-! ### Changes -/

/-- The generation that follows `g`.  Generation zero is skipped. -/
def nextGeneration (g : UInt32) : UInt32 :=
  if g + 1 = 0 then 1 else g + 1

/-- The handle of the next insertion, unless the arena is full. -/
def nextHandle? (a : Arena kind α) : Option (Handle kind) :=
  if a.isFull then none
  else match a.free with
    | index :: _ => (a.slots[index.toNat]?).map (fun slot => ⟨index, slot.generation⟩)
    | [] =>
      if a.slots.length < UInt32.size then some ⟨UInt32.ofNat a.slots.length, 1⟩ else none

/-- Stores an object made from its own handle. -/
def insertWith? (a : Arena kind α) (make : Handle kind → α) :
    Option (Handle kind × Arena kind α) :=
  match a.nextHandle? with
  | none => none
  | some h =>
    let slot : Slot α := ⟨h.generation, some (make h)⟩
    match a.free with
    | index :: rest =>
      some (h, { a with
        slots := a.slots.set index.toNat slot
        free := rest
        size := a.size + 1 })
    | [] => some (h, { a with slots := a.slots ++ [slot], size := a.size + 1 })

/-- Stores an object. -/
def insert? (a : Arena kind α) (value : α) : Option (Handle kind × Arena kind α) :=
  a.insertWith? (fun _ => value)

/-- Replaces the object that a handle names; a stale handle changes nothing. -/
def set (a : Arena kind α) (h : Handle kind) (value : α) : Arena kind α :=
  if a.contains h then
    { a with slots := a.slots.set h.index.toNat ⟨h.generation, some value⟩ }
  else a

/-- Applies `f` to the object that a handle names; a stale handle changes nothing. -/
def modify (a : Arena kind α) (h : Handle kind) (f : α → α) : Arena kind α :=
  match a.get? h with
  | some value => a.set h (f value)
  | none => a

/-- Takes the object that a handle names out of the arena and retires the handle. -/
def remove? (a : Arena kind α) (h : Handle kind) : Option (α × Arena kind α) :=
  match a.get? h with
  | none => none
  | some value =>
    some (value,
      { a with
        slots := a.slots.set h.index.toNat ⟨nextGeneration h.generation, none⟩
        free := h.index :: a.free
        size := a.size - 1 })

/-! ### Reference-counted objects -/

/-- Why a count was not changed. -/
inductive CountError where
  | notFound
  | underflow
  deriving DecidableEq, Repr

/-- The reason in words. -/
def CountError.message : CountError → String
  | notFound => "Key not found"
  | underflow => "Reference count underflow"

variable {β : Type}

/-- The number of references to a live object. -/
def refs? (a : Arena kind (Counted β)) (h : Handle kind) : Option Nat :=
  (a.get? h).map Counted.refs

/-- Takes one more reference to an object. -/
def retain (a : Arena kind (Counted β)) (h : Handle kind) :
    Except CountError (Arena kind (Counted β)) :=
  match a.get? h with
  | some c => .ok (a.set h c.retain)
  | none => .error .notFound

/-- Gives one reference to an object back. -/
def release (a : Arena kind (Counted β)) (h : Handle kind) :
    Except CountError (Arena kind (Counted β)) :=
  match a.get? h with
  | some c =>
    match c.release? with
    | some c' => .ok (a.set h c')
    | none => .error .underflow
  | none => .error .notFound

end Arena

end AclPlane
