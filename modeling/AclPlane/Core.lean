import AclPlane.Binding
import AclPlane.Device
import AclPlane.Event
import AclPlane.Group
import AclPlane.Pools

/-!
The model of one device: every object the control plane owns, and its statistics.

An operation on the model is planned as a `Change`: the device call to make, and what is left to
do once the device has accepted it.  Planning validates the request; the steps that are left,
its `commit`, look objects up and count references again, so each of them can fail on a model
that contradicts itself.
-/

namespace AclPlane

/-! ### Statistics -/

/-- Counters of what has happened. -/
structure Stats where
  keyTypesCreated : Nat
  regionsCreated : Nat
  regionsDestroyed : Nat
  rulesSet : Nat
  rulesDeleted : Nat
  /-- Binding and adding. -/
  binds : Nat
  /-- Unbinding and deleting. -/
  unbinds : Nat
  /-- Device calls that failed, so that their change was dropped. -/
  hwFailures : Nat
  deriving DecidableEq, Repr

/-- Nothing has happened yet. -/
def Stats.zero : Stats := ⟨0, 0, 0, 0, 0, 0, 0, 0⟩

/-! ### The model -/

/-- The model of one device. -/
structure Core where
  config : Config
  catalog : Catalog
  keyTypes : KeyTypes
  regions : Regions
  acls : Acls
  groups : Groups
  bindings : Bindings
  pools : Pools
  stats : Stats
  deriving DecidableEq

namespace Core

/-- The model without objects, for a configuration that passes its check. -/
def new (config : Config) (catalog : Catalog) : Except AclError Core :=
  match config.check with
  | .error e => .error (.invalidParam (.config e))
  | .ok () => .ok {
      config := config
      catalog := catalog
      keyTypes := KeyTypes.empty config.maxKeyTypes config.maxKeyBlocks
      regions := Regions.empty config
      acls := Acls.empty config.maxAcls
      groups := Groups.empty config
      bindings := Bindings.empty
      pools := Pools.empty config
      stats := Stats.zero }

/-- The model with one more failed device call on record. -/
def countFailure (c : Core) : Core :=
  { c with stats := { c.stats with hwFailures := c.stats.hwFailures + 1 } }

end Core

/-! ### Planned changes -/

/-- What an operation leaves behind. -/
structure Commit (α : Type) where
  /-- The model afterwards. -/
  core : Core
  /-- What is reported afterwards. -/
  events : List Event
  /-- The result of the operation. -/
  result : α

/-- A change of the model that has passed validation. -/
structure Change (α : Type) where
  /-- The call that the device has to accept first. -/
  call : Option DeviceCall
  /-- What is done after that. -/
  commit : Except AclError (Commit α)

namespace Change

/-- A change that takes no device call. -/
def inside {α : Type} (core : Core) (events : List Event) (result : α) : Change α :=
  ⟨none, .ok ⟨core, events, result⟩⟩

/-- A change that takes no device call and reports nothing. -/
def quiet {α : Type} (core : Core) (result : α) : Change α := inside core [] result

end Change

end AclPlane
