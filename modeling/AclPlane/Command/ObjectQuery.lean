import AclPlane.Command

/-!
Queries over the objects of one kind, by raw handles.
-/

namespace AclPlane

/-- The parameters of commands that query objects. -/
structure QueryParams where
  kind : ObjectKind
  /-- The raw handle to get, or to list after.  Getting without a key counts. -/
  key : Option RawHandle
  /-- The size of a page. -/
  count : Option Nat
  deriving DecidableEq, Repr

/-- A query over the objects of one kind. -/
structure ObjectQuery where
  kind : ObjectKind
  query : Query RawHandle
  deriving DecidableEq, Repr

namespace ObjectQuery

/-- The command of a query. -/
def command (q : ObjectQuery) : AccessCommand :=
  match q.query with
  | .count => .get
  | .get _ => .get
  | .first _ => .getFirst
  | .next _ _ => .getNext

/-- The query of a command. -/
def ofCommand (cmd : AccessCommand) (p : QueryParams) : Except AclError ObjectQuery :=
  match cmd with
  | .get => .ok ⟨p.kind, match p.key with
      | some key => .get key
      | none => .count⟩
  | .getFirst => do return ⟨p.kind, .first (← Command.required cmd .count p.count)⟩
  | .getNext => do
    let key ← Command.required cmd .referenceKey p.key
    return ⟨p.kind, .next key (← Command.required cmd .count p.count)⟩
  | _ => .error (.unsupported cmd .objectQuery)

/-- A query over handles of one kind, provided that its key is a handle. -/
def typed (kind : ObjectKind) (q : Query RawHandle) : Except AclError (Query (Handle kind)) :=
  q.mapKeyM (fun raw => match Handle.ofRaw? raw with
    | some h => .ok h
    | none => .error (.invalidParam (.notHandle raw)))

end ObjectQuery

end AclPlane
