import AclPlane.Command.ObjectQuery
import AclPlane.Core

/-!
Listing the objects of any kind.
-/

namespace AclPlane.Core

/-- Runs a query over raw handles through a query over handles of one kind. -/
def listing {kind : ObjectKind} (q : Query RawHandle)
    (run : Query (Handle kind) → Except AclError (Page (Handle kind))) :
    Except AclError (Page RawHandle) := do
  let page ← run (← ObjectQuery.typed kind q)
  return page.map Handle.raw

/-- Lists the objects of one kind. -/
def queryObjects (c : Core) (q : ObjectQuery) : Except AclError (Page RawHandle) :=
  match q.kind with
  | .keyType => listing q.query c.keyTypes.query
  | .region => listing q.query c.regions.query
  | .acl => listing q.query c.acls.query
  | .group => listing q.query c.groups.query
  | .pbs => listing q.query c.pools.pbs.query
  | .range => listing q.query c.pools.ranges.pool.query
  | .customBytes => listing q.query c.pools.customBytes.query
  | .portList => listing q.query c.pools.portLists.query
  | .vlanGroup => listing q.query c.pools.vlanGroups.query

end AclPlane.Core
