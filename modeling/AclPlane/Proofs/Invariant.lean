import AclPlane.Controller
import AclPlane.Proofs.DeviceRegion

/-!
What holds of a model and its device between operations.

* `Core.Sound`: the tables of the model agree with each other.  Above all, every reference count
  is the number of references that the model holds: `Core.users` counts the regions of a key
  type, `Core.references` the uses of a pool entry.
* `Core.Mirrors`: the tables of the device are the image of the model; `Core.Shown` says so of ACLs,
  groups and bindings alone.
* `Core.InStep`: both.

`Change.Lands` is what is to be shown of a planned change: its commit does not fail, the device
accepts its call, and afterwards model and device are in step again.
-/

namespace AclPlane

/-! ### References held by the model -/

/-- The number of directions in which an entry carries a binding. -/
def Bindings.references (b : Bindings) : PoolEntry → ℕ
  | .vlanGroup id => Direction.all.countP fun d => b.isBoundAt ⟨.vlanGroup id, d⟩
  | _ => 0

/-- A region of the device is the image of a region of the model, whose key type is among the
given ones. -/
structure Region.Mirrored (kts : KeyTypes) (r : Region) (d : DeviceRegion) : Prop where
  hwSize : d.hwSize = r.hwSize
  keyBlocks : ∃ kt, kts.types.get? r.keyType = some kt ∧ d.keyBlocks = kt.value.blocks
  rules : d.Holds r.table

namespace Core

/-- The number of regions of a key type. -/
def users (c : Core) (id : Handle .keyType) : ℕ :=
  c.regions.regions.total fun r => [r.keyType].count id

/-- The number of references that the stored rules hold to an entry. -/
def ruleReferences (c : Core) (e : PoolEntry) : ℕ :=
  c.regions.regions.total fun r => r.table.refs.count e

/-- The number of references to an entry, from rules and from bindings. -/
def references (c : Core) (e : PoolEntry) : ℕ := c.ruleReferences e + c.bindings.references e

/-! ### Invariants -/

/-- The tables of the model agree with each other. -/
structure Sound (c : Core) : Prop where
  keyTypes : c.keyTypes.types.Consistent
  regions : c.regions.regions.Consistent
  acls : c.acls.acls.Consistent
  groups : c.groups.groups.Consistent
  pools : c.pools.Consistent
  capacity_le : ∀ id r, c.regions.regions.get? id = some r → r.table.capacity ≤ r.hwSize
  entries_ne : ∀ key, c.bindings.entries.get? key ≠ some []
  users_eq : ∀ id, c.keyTypes.types.refCount id = c.users id
  references_eq : ∀ e, c.pools.refCount e = c.references e
  refCount_le : ∀ e, c.pools.refCount e ≤ maxCount

/-- The device has the ACLs, the groups and the bindings of the model. -/
structure Shown (c : Core) (t : DeviceTables) : Prop where
  acls : ∀ id, t.acls.get? id = (c.acls.acls.get? id).map Acl.regions
  groups : ∀ id, t.groups.get? id = (c.groups.groups.get? id).map fun g => (g.acls, g.next)
  bindings : ∀ key, t.bindings.get? key = (c.bindings.entries.get? key).map Bindings.rawTargets

/-- The tables of the device are the image of the model. -/
structure Mirrors (c : Core) (t : DeviceTables) : Prop extends c.Shown t where
  regions : ∀ id, Option.Rel (Region.Mirrored c.keyTypes) (c.regions.regions.get? id)
    (t.regions.get? id)

/-- The model is sound and the device mirrors it. -/
structure InStep (c : Core) (t : DeviceTables) : Prop where
  sound : c.Sound
  mirrors : c.Mirrors t

end Core

/-! ### Changes that go through -/

namespace Change

variable {α : Type}

/-- The tables of the device after the call of a change, unless the device refuses it. -/
def tables (change : Change α) (t : DeviceTables) : Except DeviceError DeviceTables :=
  match change.call with
  | none => .ok t
  | some call => (t.apply call).map Prod.fst

/-- No call of a change invokes another operation than `op`, the device accepts the call, the
commit does not fail, and if the counts have room for it, model and device are in step
afterwards. -/
def Lands (change : Change α) (op : Option DeviceOp) (t : DeviceTables) (room : Prop) : Prop :=
  (∀ call, change.call = some call → op = some call.op) ∧
    ∃ done t', change.commit = .ok done ∧ change.tables t = .ok t' ∧ (room → done.core.InStep t')

variable {op : Option DeviceOp} {t : DeviceTables} {room : Prop} {core : Core}

lemma lands_inside {events : List Event} {result : α} (h : core.InStep t) :
    (inside core events result).Lands op t room := by
  refine ⟨fun call hcall => ?_, _, t, rfl, rfl, fun _ => h⟩
  cases hcall

lemma lands_quiet {result : α} (h : core.InStep t) : (quiet core result).Lands op t room :=
  lands_inside h

/-- A change lands if its commit has a result and the device accepts its call. -/
lemma lands_call {call : DeviceCall} {done : Commit α} (t' : DeviceTables)
    (ht : t.apply call = .ok (t', false)) (h : room → done.core.InStep t') :
    (⟨some call, .ok done⟩ : Change α).Lands (some call.op) t room := by
  refine ⟨fun call' hcall => ?_, done, t', rfl, map_eq_ok.mpr ⟨_, ht, rfl⟩, h⟩
  cases hcall
  rfl

end Change

/-! ### Consequences -/

namespace Core

variable {c : Core} {t : DeviceTables} {id : Handle .region} {r : Region}

lemma rel_iff {α β : Type} {R : α → β → Prop} {x : Option α} {y : Option β} :
    Option.Rel R x y ↔ (x = none → y = none) ∧ ∀ a, x = some a → ∃ b, y = some b ∧ R a b := by
  constructor
  · rintro (⟨h⟩ | _)
    · exact ⟨fun hx => (Option.some_ne_none _ hx).elim, fun a ha => by
        cases ha
        exact ⟨_, rfl, h⟩⟩
    · exact ⟨fun _ => rfl, fun a ha => by cases ha⟩
  · rintro ⟨hnone, hsome⟩
    cases x with
    | none =>
        rw [hnone rfl]
        exact .none
    | some a =>
        obtain ⟨b, rfl, hab⟩ := hsome a rfl
        exact .some hab

lemma Mirrors.exists_region (h : c.Mirrors t) (hr : c.regions.regions.get? id = some r) :
    ∃ d, t.regions.get? id = some d ∧ r.Mirrored c.keyTypes d :=
  (rel_iff.mp (h.regions id)).2 r hr

lemma Mirrors.region_eq_none (h : c.Mirrors t) (hr : c.regions.regions.get? id = none) :
    t.regions.get? id = none :=
  (rel_iff.mp (h.regions id)).1 hr

lemma Mirrors.contains_region (h : c.Mirrors t) (hr : c.regions.contains id = true) :
    t.regions.contains id = true := by
  obtain ⟨r, hr⟩ := Arena.contains_iff.mp hr
  obtain ⟨d, hd, -⟩ := h.exists_region hr
  rw [OrderedMap.contains, hd]
  rfl

/-- The references of a region are among all references. -/
lemma refs_le_ruleReferences (hr : c.regions.regions.get? id = some r) (e : PoolEntry) :
    r.table.refs.count e ≤ c.ruleReferences e :=
  Arena.le_total (fun r : Region => r.table.refs.count e) hr

lemma Sound.refs_le (h : c.Sound) (hr : c.regions.regions.get? id = some r) (e : PoolEntry) :
    r.table.refs.count e ≤ c.pools.refCount e := by
  rw [h.references_eq e, references]
  exact le_trans (refs_le_ruleReferences hr e) (Nat.le_add_right _ _)

lemma users_pos (hr : c.regions.regions.get? id = some r) : 0 < c.users r.keyType := by
  have hle := Arena.le_total (fun r' : Region => [r'.keyType].count r.keyType) hr
  rw [List.count_singleton_self] at hle
  exact hle

/-! ### Beginning -/

/-- A new model has nothing to show. -/
lemma shown_new {config : Config} {catalog : Catalog} (h : Core.new config catalog = .ok c) :
    c.Shown DeviceTables.empty := by
  rw [Core.new] at h
  split at h
  · cases h
  · cases h
    refine ⟨fun id => ?_, fun id => ?_, fun key => rfl⟩
    · rw [show (Acls.empty config.maxAcls).acls.get? id = none from Arena.get?_empty _]
      rfl
    · rw [show (Groups.empty config).groups.get? id = none from Arena.get?_empty _]
      rfl

/-- A new model and an empty device are in step. -/
lemma inStep_new {config : Config} {catalog : Catalog} (h : Core.new config catalog = .ok c) :
    c.InStep DeviceTables.empty := by
  have hshown := shown_new h
  rw [Core.new] at h
  split at h
  · cases h
  rw [Except.ok.injEq] at h
  subst h
  have hregion : ∀ id, (Regions.empty config).regions.get? id = none := fun _ => Arena.get?_empty _
  refine ⟨⟨Arena.consistent_empty _, Arena.consistent_empty _, Arena.consistent_empty _,
    Arena.consistent_empty _, Pools.consistent_empty _, fun id r hr => ?_, fun key hkey => ?_,
    fun id => Arena.refCount_empty _, fun e => ?_, fun e => ?_⟩,
    ⟨hshown, fun id => ?_⟩⟩
  · rw [hregion] at hr
    cases hr
  · cases hkey
  · rw [Pools.refCount_empty]
    cases e <;> rfl
  · rw [Pools.refCount_empty]
    exact Nat.zero_le _
  · rw [hregion]
    exact Option.Rel.none

end Core

end AclPlane
