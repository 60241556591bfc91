import AclPlane.Config

/-!
Configurations read from a parsed document.

A document names the fields that it overrides; the others keep their standard values.  Names
that mean nothing are passed over.  A number is an integer that fits its field, and no field is
named twice.

* `Config.ofDocument?` — the configuration that a document describes.
-/

namespace AclPlane

/-- A parsed document, as far as a configuration can make use of it. -/
inductive Document where
  /-- An integer without a minus sign. -/
  | number (n : Nat)
  /-- Named values, in order; a name that is no text is `none`. -/
  | record (entries : List (Option String × Document))
  | list (items : List Document)
  /-- Nothing at all, which serves as a record without entries. -/
  | blank
  /-- A value of which no use can be made. -/
  | other
  deriving Repr

namespace Document

/-- The entries of a record whose fields are declared in the given order.  Where records may be
written as lists, a list gives the values of the first fields. -/
def entries? (positional : Bool) (fields : List String) :
    Document → Option (List (String × Document))
  | record entries => entries.mapM (fun e => e.1.map (fun name => (name, e.2)))
  | blank => some []
  | list items =>
    if positional && items.length ≤ fields.length then some (fields.zip items) else none
  | _ => none

/-- The value of a field that is named at most once: `none` if it is named twice, and
`some none` if it is not named. -/
def field? (entries : List (String × Document)) (name : String) : Option (Option Document) :=
  match entries.filter (fun e => e.1 == name) with
  | [] => some none
  | [e] => some (some e.2)
  | _ => none

/-- An integer below `bound`. -/
def below? (bound : Nat) : Document → Option Nat
  | number n => if n < bound then some n else none
  | _ => none

/-- A field read by `read?`, with a standard value for when it is not named. -/
def fieldOr? {α : Type} (entries : List (String × Document)) (name : String) (standard : α)
    (read? : Document → Option α) : Option α :=
  match field? entries name with
  | none => none
  | some none => some standard
  | some (some d) => read? d

/-- A field that has to be named. -/
def required? {α : Type} (entries : List (String × Document)) (name : String)
    (read? : Document → Option α) : Option α :=
  (field? entries name).bind (fun d => d.bind read?)

end Document

/-- A range of priorities; the usual one is zero where it is not named. -/
def PriorityRange.ofDocument? (positional : Bool) (d : Document) : Option PriorityRange := do
  let entries ← d.entries? positional ["min", "max", "default"]
  let min ← Document.required? entries "min" (Document.below? UInt32.size)
  let max ← Document.required? entries "max" (Document.below? UInt32.size)
  let usual ← Document.fieldOr? entries "default" 0 (Document.below? UInt32.size)
  return ⟨min, max, usual⟩

namespace Config

/-- The configuration that a document describes. -/
def ofDocument? (positional : Bool) (d : Document) : Option Config := do
  let entries ← d.entries? positional (ConfigField.all.map ConfigField.name)
  let number := fun (field : ConfigField) (bound standard : Nat) =>
    Document.fieldOr? entries field.name standard (Document.below? bound)
  let range := fun (field : ConfigField) (standard : PriorityRange) =>
    Document.fieldOr? entries field.name standard (PriorityRange.ofDocument? positional)
  return {
    maxKeyBlocks := ← number .maxKeyBlocks UInt64.size standard.maxKeyBlocks
    maxKeyTypes := ← number .maxKeyTypes UInt64.size standard.maxKeyTypes
    maxRegions := ← number .maxRegions UInt64.size standard.maxRegions
    maxRulesPerRegion := ← number .maxRulesPerRegion UInt32.size standard.maxRulesPerRegion
    hwRuleBudget := ← number .hwRuleBudget UInt64.size standard.hwRuleBudget
    maxAcls := ← number .maxAcls UInt64.size standard.maxAcls
    maxGroups := ← number .maxGroups UInt64.size standard.maxGroups
    maxAclsPerGroup := ← number .maxAclsPerGroup UInt64.size standard.maxAclsPerGroup
    maxRuleBatch := ← number .maxRuleBatch UInt64.size standard.maxRuleBatch
    maxRangeComparators := ← number .maxRangeComparators UInt64.size standard.maxRangeComparators
    maxCustomBytesRanges := ← number .maxCustomBytesRanges UInt64.size standard.maxCustomBytesRanges
    maxCustomByteSets := ← number .maxCustomByteSets UInt64.size standard.maxCustomByteSets
    maxPbsEntries := ← number .maxPbsEntries UInt64.size standard.maxPbsEntries
    maxPortLists := ← number .maxPortLists UInt64.size standard.maxPortLists
    maxVlanGroups := ← number .maxVlanGroups UInt64.size standard.maxVlanGroups
    groupPriority := ← range .groupPriority standard.groupPriority
    rulePriority := ← range .rulePriority standard.rulePriority }

end Config

end AclPlane
