/-!
Retrieval over ordered keys.

Every kind of object is listed by the same four commands.  A query is run over the live keys
and answers with their number and with the keys it selects, in ascending order.

* `Query.select` — runs a query; it fails only for a `get` of a key that is not live.
-/

namespace AclPlane

/-- A retrieval command over keys of type `κ`. -/
inductive Query (κ : Type) where
  /-- The number of keys only. -/
  | count
  /-- The given key, if it is live. -/
  | get (key : κ)
  /-- At most `n` keys from the start. -/
  | first (n : Nat)
  /-- At most `n` keys strictly after the given one, which need not be live. -/
  | next (after : κ) (n : Nat)
  deriving DecidableEq, Repr

/-- The answer to a query: the number of live keys and those selected. -/
structure Page (κ : Type) where
  total : Nat
  items : List κ
  deriving DecidableEq, Repr

/-- The page with each of its keys replaced by its image under `f`. -/
def Page.map {κ ι : Type} (f : κ → ι) (p : Page κ) : Page ι :=
  ⟨p.total, p.items.map f⟩

namespace Query

variable {κ ι : Type}

/-- Replaces the key of a query, unless the replacement fails. -/
def mapKeyM {ε : Type} (f : κ → Except ε ι) : Query κ → Except ε (Query ι)
  | count => .ok count
  | get key => (f key).map get
  | first n => .ok (first n)
  | next after n => (f after).map (next · n)

variable [Ord κ]

/-- The keys in ascending order. -/
def sortKeys (keys : List κ) : List κ :=
  keys.mergeSort (fun a b => (compare a b).isLE)

/-- Runs the query over the live keys, which may come in any order. -/
def select (q : Query κ) (live : List κ) : Option (Page κ) :=
  let keys := sortKeys live
  match q with
  | count => some ⟨keys.length, []⟩
  | get key =>
    if keys.any (fun k => compare k key == .eq) then some ⟨keys.length, [key]⟩ else none
  | first n => some ⟨keys.length, keys.take n⟩
  | next after n =>
    some ⟨keys.length, (keys.dropWhile (fun k => (compare k after).isLE)).take n⟩

end Query

end AclPlane
