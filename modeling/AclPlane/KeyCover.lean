import AclPlane.Catalog

/-!
Covering a set of fields with few compatible key blocks.

A greedy pass, which takes the block exposing the most uncovered fields and the lowest number
among equals, bounds the size of a cover from above.  A search over all smaller selections then
either finds a smaller cover or shows that there is none; it stops after
`maxCombinations` selections, and the greedy cover stands.

* `smallestCover?` — the first cover in the order of size, then of the candidates' positions.
* `compile` — the cover of a set of fields, with a given first block or without.
-/

namespace AclPlane.KeyCover

/-! ### Covers -/

/-- Whether no two blocks of a selection exclude each other. -/
def compatible : List KeyBlock → Bool
  | [] => true
  | b :: rest => rest.all (fun c => !b.excludes c.id) && compatible rest

/-- Whether every field is exposed by some block of a selection. -/
def covers (fields : FieldSet) (blocks : List KeyBlock) : Bool :=
  fields.toList.all (fun k => blocks.any (·.exposes k))

/-- Whether a selection is a cover: compatible blocks that expose every field. -/
def isCover (fields : FieldSet) (blocks : List KeyBlock) : Bool :=
  compatible blocks && covers fields blocks

/-! ### The greedy cover -/

/-- The number of fields of a set that a block exposes. -/
def gain (uncovered : FieldSet) (b : KeyBlock) : Nat :=
  (uncovered.toList.filter b.exposes).length

/-- The first block with the greatest gain, if any gains. -/
def bestBlock? (uncovered : FieldSet) : List KeyBlock → Option KeyBlock
  | [] => none
  | b :: rest =>
    match bestBlock? uncovered rest with
    | some c => if gain uncovered b < gain uncovered c then some c else some b
    | none => if 0 < gain uncovered b then some b else none

/-- Takes a best block among the candidates compatible with those already taken, until every
field is covered.  Each block covers a further field, so `steps` need not exceed the number of
fields. -/
def greedyFrom (candidates : List KeyBlock) :
    Nat → FieldSet → List KeyBlock → Option (List KeyBlock)
  | steps, uncovered, taken =>
    if uncovered.isEmpty then some taken.reverse
    else match steps with
      | 0 => none
      | steps + 1 =>
        let usable := candidates.filter
          (fun b => !taken.any (fun t => t.id == b.id || t.excludes b.id))
        match bestBlock? uncovered usable with
        | none => none
        | some b => greedyFrom candidates steps (uncovered.without b.exposes) (b :: taken)

/-- The greedy cover of the fields, if the greedy pass finds one. -/
def greedy? (fields : FieldSet) (candidates : List KeyBlock) : Option (List KeyBlock) :=
  greedyFrom candidates fields.size fields []

/-! ### The search for a smallest cover -/

/-- The number of selections that a search examines before it gives up. -/
def maxCombinations : Nat := 65536

/-- How far a search has come. -/
inductive Search where
  | found (blocks : List KeyBlock)
  /-- Nothing found yet; so many selections may still be examined. -/
  | searching (left : Nat)
  | gaveUp
  deriving DecidableEq

/-- Examines the selections made of `taken` and `k` of the candidates, those with an earlier
candidate first. -/
def searchSize (valid : List KeyBlock → Bool) :
    Nat → List KeyBlock → List KeyBlock → Nat → Search
  | 0, _, taken, left =>
    match left with
    | 0 => .gaveUp
    | left + 1 => if valid taken.reverse then .found taken.reverse else .searching left
  | _ + 1, [], _, left => .searching left
  | k + 1, b :: rest, taken, left =>
    if rest.length < k then .searching left
    else match searchSize valid k rest (b :: taken) left with
      | .searching left => searchSize valid (k + 1) rest taken left
      | done => done

/-- Examines the selections of the given sizes, one size after another. -/
def searchSizes (valid : List KeyBlock → Bool) (candidates : List KeyBlock) :
    List Nat → Nat → Search
  | [], left => .searching left
  | k :: sizes, left =>
    match searchSize valid k candidates [] left with
    | .searching left => searchSizes valid candidates sizes left
    | done => done

/-- The first cover of at most `limit` blocks, smaller covers first, unless the search gives
up before it comes to it. -/
def smallestCover? (fields : FieldSet) (candidates : List KeyBlock) (limit : Nat) :
    Option (List KeyBlock) :=
  match searchSizes (isCover fields) candidates (List.range' 1 (min limit candidates.length))
      maxCombinations with
  | .found blocks => some blocks
  | _ => none

/-! ### Compilation -/

/-- The blocks that can extend a cover: those exposing a remaining field, other than the forced
block and compatible with it. -/
def candidates (catalog : Catalog) (remaining : FieldSet) (forced : Option KeyBlock) :
    List KeyBlock :=
  catalog.toList.filter (fun b =>
    (match forced with
      | some f => !(b.id == f.id) && !f.excludes b.id
      | none => true) &&
    remaining.toList.any b.exposes)

/-- A smallest cover of the remaining fields by at most `budget` candidates. -/
def choose? (remaining : FieldSet) (candidates : List KeyBlock) (budget : Nat) :
    Option (List KeyBlock) :=
  if remaining.isEmpty then some []
  else
    let greedy := greedy? remaining candidates
    let limit := match greedy with
      | some g => min (g.length - 1) budget
      | none => budget
    match smallestCover? remaining candidates limit with
    | some smaller => some smaller
    | none => greedy.filter (fun g => g.length ≤ budget)

/-- Block numbers in ascending order. -/
def sortIds (ids : List KeyBlockId) : List KeyBlockId :=
  ids.mergeSort (fun a b => (compare a b).isLE)

/-- The block that a cover is to begin with. -/
def forcedBlock (catalog : Catalog) (maxBlocks : Nat) (first : Option KeyBlockId) :
    Except AclError (Option KeyBlock) :=
  match first with
  | none => .ok none
  | some id =>
    match catalog.get? id with
    | none => .error (.invalidParam (.unknownBlock id))
    | some b => if maxBlocks = 0 then .error (.exhausted .zeroBlockBudget) else .ok (some b)

/-- A cover of the fields by at most `maxBlocks` compatible blocks: the given first block, if
any, and then the others in ascending order of their numbers. -/
def compile (catalog : Catalog) (maxBlocks : Nat) (fields : FieldSet)
    (first : Option KeyBlockId) : Except AclError (List KeyBlockId) := do
  if fields.isEmpty then throw (.invalidParam .noFields)
  match fields.toList.find? (fun k => !catalog.exposes k) with
  | some k => throw (.invalidParam (.fieldNotExposed k))
  | none => pure ()
  let forced ← forcedBlock catalog maxBlocks first
  let remaining := match forced with
    | some b => fields.without b.exposes
    | none => fields
  let budget := match forced with
    | some _ => maxBlocks - 1
    | none => maxBlocks
  match choose? remaining (candidates catalog remaining forced) budget with
  | some blocks =>
    return (forced.map KeyBlock.id).toList ++ sortIds (blocks.map KeyBlock.id)
  | none => throw (.exhausted (.noCover fields.size maxBlocks))

end AclPlane.KeyCover
