import AclPlane.Core

/-!
Operations on the rules of a region.

* `Core.setRules` — stores a batch, all of it or nothing.
* `Core.deleteRules`, `Core.deleteAllRules` — empties slots.
* `Core.moveBlock`, `Core.shiftPriority` — rearranges rules.
* `Core.listRules` — lists rules.
-/

namespace AclPlane.Core

/-! ### Storing and deleting -/

/-- Checks the pairs of a batch one after another; `seen` holds the earlier offsets. -/
def checkBatch (t : RuleTable) (fields : FieldSet) (bounds : PriorityRange) :
    List Nat → List (Nat × Rule) → Except AclError Unit
  | _, [] => .ok ()
  | seen, (offset, r) :: rest => do
    t.checkOffset offset
    if seen.contains offset then throw (.invalidParam (.offsetTwice offset))
    r.check fields bounds
    checkBatch t fields bounds (offset :: seen) rest

/-- Stores `rules[i]` at `offsets[i]`. -/
def setRules (c : Core) (region : Handle .region) (offsets : List Nat) (rules : List Rule) :
    Except AclError (Change Unit) := do
  let target ← c.regions.get region
  if offsets.length ≠ rules.length then
    throw (.invalidParam (.batchLengths offsets.length rules.length))
  if c.config.maxRuleBatch < rules.length then
    throw (.exhausted (.ruleBatch rules.length c.config.maxRuleBatch))
  let kt ← c.keyTypes.get target.keyType
  let batch := offsets.zip rules
  checkBatch target.table kt.fields c.config.rulePriority [] batch
  let refs := PoolRefs.concat (rules.map Rule.refs)
  c.pools.checkRefs refs
  if rules.isEmpty then return .quiet c ()
  return {
    call := some (.writeRules region (batch.map (fun e => e.2.image e.1)))
    commit := do
      let acquired ← c.pools.acquire refs
      let target ← c.regions.get region
      let (replaced, table) ← target.table.setAll batch
      let pools ← acquired.release (PoolRefs.concat (replaced.map Rule.refs))
      return {
        core := { c with
          regions := c.regions.setTable region table
          pools := pools
          stats := { c.stats with rulesSet := c.stats.rulesSet + rules.length } }
        events := []
        result := () } }

/-- The listed offsets that hold a rule, each once. -/
def occupiedOffsets (t : RuleTable) (offsets : List Nat) : Except AclError (List Nat) := do
  offsets.forM t.checkOffset
  return (offsets.filter (fun offset => (t.rule? offset).isSome)).eraseDups

/-- Empties the listed slots; those that are empty already are passed over. -/
def deleteRules (c : Core) (region : Handle .region) (offsets : List Nat) :
    Except AclError (Change Unit) := do
  let target ← c.regions.get region
  let occupied ← occupiedOffsets target.table offsets
  if occupied.isEmpty then return .quiet c ()
  return {
    call := some (.clearRules region occupied)
    commit := do
      let target ← c.regions.get region
      let (cleared, table) ← target.table.clearAll occupied
      let pools ← c.pools.release (PoolRefs.concat (cleared.map Rule.refs))
      return {
        core := { c with
          regions := c.regions.setTable region table
          pools := pools
          stats := { c.stats with rulesDeleted := c.stats.rulesDeleted + occupied.length } }
        events := []
        result := () } }

/-- Empties every slot of a region. -/
def deleteAllRules (c : Core) (region : Handle .region) : Except AclError (Change Unit) := do
  let target ← c.regions.get region
  c.deleteRules region (target.table.occupied.map Prod.fst)

/-! ### Rearranging -/

/-- Moves a block of slots; the rules at its destination take over the slots that it leaves. -/
def moveBlock (c : Core) (region : Handle .region) (src size dst : Nat) :
    Except AclError (Change Unit) := do
  let target ← c.regions.get region
  target.table.checkBlock src size dst
  return {
    call := some (.moveRules region src size dst)
    commit := do
      let target ← c.regions.get region
      let table ← target.table.moveBlock src size dst
      return ⟨{ c with regions := c.regions.setTable region table }, [], ()⟩ }

/-- Adds `delta` to the priority of every rule in the band from `low` to `high`. -/
def shiftPriority (c : Core) (region : Handle .region) (low high : Nat) (delta : Int) :
    Except AclError (Change Unit) := do
  let target ← c.regions.get region
  let updates ← target.table.planShift low high delta c.config.rulePriority
  if updates.isEmpty then return .quiet c ()
  return {
    call := some (.setRulePriorities region updates)
    commit := do
      let target ← c.regions.get region
      let table := target.table.setPriorities updates
      return ⟨{ c with regions := c.regions.setTable region table }, [], ()⟩ }

/-! ### Listing -/

/-- Which slots a listing shows. -/
inductive RuleLookup where
  /-- The occupied slots from the start, at most `max` of them. -/
  | scan (max : Nat)
  /-- Exactly these slots, occupied or not. -/
  | slots (offsets : List Nat)
  deriving DecidableEq, Repr

/-- One slot of a listing. -/
structure RuleEntry where
  offset : Nat
  occupied : Bool
  /-- The rule, if there is one and rules were asked for. -/
  rule : Option Rule
  deriving DecidableEq, Repr

/-- A listing: the number of rules in the region, and the slots shown. -/
structure RuleListing where
  total : Nat
  entries : List RuleEntry
  deriving DecidableEq, Repr

/-- The entry of a slot. -/
def ruleEntry (want : Bool) (offset : Nat) (r : Option Rule) : RuleEntry :=
  ⟨offset, r.isSome, if want then r else none⟩

/-- Lists slots of a region, with their rules if they are wanted. -/
def listRules (c : Core) (region : Handle .region) (lookup : RuleLookup) (want : Bool) :
    Except AclError RuleListing := do
  let target ← c.regions.get region
  let entries ← match lookup with
    | .scan max =>
      pure ((target.table.occupied.take max).map (fun e => ruleEntry want e.1 (some e.2)))
    | .slots offsets =>
      offsets.mapM (fun offset => do return ruleEntry want offset (← target.table.get offset))
  return ⟨target.table.used, entries⟩

/-- The flow counter of the rule at an offset. -/
def ruleFlowCounter (c : Core) (region : Handle .region) (offset : Nat) :
    Except AclError (Option FlowCounterId) := do
  let target ← c.regions.get region
  match ← target.table.get offset with
  | some r => return r.flowCounter?
  | none => throw (.notFound (.rule region offset))

end AclPlane.Core
