import AclPlane.Core

/-!
Operations on key types.  The device takes no part in them.
-/

namespace AclPlane.Core

/-- The key type for the listed fields, found or compiled. -/
def createKeyType (c : Core) (fields : List BasicKey) (hint : Option KeyBlockId) :
    Except AclError (Change (Handle .keyType)) := do
  let (id, keyTypes) ← c.keyTypes.intern c.catalog fields hint
  let created := if c.keyTypes.size < keyTypes.size then 1 else 0
  return .quiet
    { c with
      keyTypes := keyTypes
      stats := { c.stats with keyTypesCreated := c.stats.keyTypesCreated + created } } id

/-- Removes a key type that no region uses. -/
def destroyKeyType (c : Core) (id : Handle .keyType) : Except AclError (Change Unit) := do
  let keyTypes ← c.keyTypes.destroy id
  return .inside { c with keyTypes := keyTypes } [.objectDeleted id.ref] ()

end AclPlane.Core
