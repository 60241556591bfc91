import AclPlane.Error

/-!
Pools of shared, reference-counted entries.

* `Pool.insert` — adds an entry that nothing refers to.
* `Pool.remove` — takes out an entry that nothing refers to.
* `Pool.acquire`, `Pool.release` — count references.
-/

namespace AclPlane

/-- Entries of one kind, each with the number of references to it. -/
structure Pool (kind : ObjectKind) (α : Type) where
  /-- The name of the pool in error messages. -/
  name : String
  entries : Arena kind (Counted α)
  deriving DecidableEq

namespace Pool

variable {kind : ObjectKind} {α : Type}

/-- A pool without entries. -/
def empty (name : String) (limit : Nat) : Pool kind α := ⟨name, Arena.empty limit⟩

/-- The number of entries. -/
def size (p : Pool kind α) : Nat := p.entries.size

/-- Whether a handle names an entry. -/
def contains (p : Pool kind α) (id : Handle kind) : Bool := p.entries.contains id

/-- The entry with its count, or the error that there is none. -/
def lookup (p : Pool kind α) (id : Handle kind) : Except AclError (Counted α) :=
  match p.entries.get? id with
  | some c => .ok c
  | none => .error (.notFound (.object id.ref))

/-- The value of an entry. -/
def get (p : Pool kind α) (id : Handle kind) : Except AclError α :=
  (p.lookup id).map Counted.value

/-- The number of references to an entry. -/
def refs (p : Pool kind α) (id : Handle kind) : Except AclError Nat :=
  (p.lookup id).map Counted.refs

/-- The values with their handles, in handle order. -/
def toList (p : Pool kind α) : List (Handle kind × α) :=
  p.entries.toList.map (fun e => (e.1, e.2.value))

/-! ### Changes -/

/-- Adds an entry. -/
def insert (p : Pool kind α) (value : α) : Except AclError (Handle kind × Pool kind α) :=
  match p.entries.insert? (Counted.new value) with
  | some (id, entries) => .ok (id, { p with entries := entries })
  | none => .error (.exhausted (.full (.pool p.name)))

/-- Gives an entry another value. -/
def set (p : Pool kind α) (id : Handle kind) (value : α) : Except AclError (Pool kind α) := do
  let c ← p.lookup id
  return { p with entries := p.entries.set id { c with value := value } }

/-- Checks that nothing refers to an entry. -/
def checkFree (p : Pool kind α) (id : Handle kind) : Except AclError Unit := do
  let c ← p.lookup id
  if 0 < c.refs then throw (.inUse (.referenced id.ref c.refs))

/-- Takes out an entry that nothing refers to. -/
def remove (p : Pool kind α) (id : Handle kind) : Except AclError (α × Pool kind α) := do
  p.checkFree id
  match p.entries.remove? id with
  | some (c, entries) => return (c.value, { p with entries := entries })
  | none => throw (.notFound (.object id.ref))

/-- Counts one more reference to an entry. -/
def acquire (p : Pool kind α) (id : Handle kind) : Except AclError (Pool kind α) :=
  match p.entries.retain id with
  | .ok entries => .ok { p with entries := entries }
  | .error e => .error (.ofCount e id.ref)

/-- Counts one reference to an entry less. -/
def release (p : Pool kind α) (id : Handle kind) : Except AclError (Pool kind α) :=
  match p.entries.release id with
  | .ok entries => .ok { p with entries := entries }
  | .error e => .error (.ofCount e id.ref)

/-- Checks that each of several handles names an entry. -/
def checkAll (p : Pool kind α) (ids : List (Handle kind)) : Except AclError Unit :=
  match ids.find? (fun id => !p.contains id) with
  | some id => .error (.notFound (.object id.ref))
  | none => .ok ()

/-- Lists entries. -/
def query (p : Pool kind α) (q : Query (Handle kind)) : Except AclError (Page (Handle kind)) :=
  match p.entries.select q with
  | some page => .ok page
  | none => .error (.notFound (.queriedEntry p.name))

end Pool

end AclPlane
