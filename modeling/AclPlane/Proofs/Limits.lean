import AclPlane.Proofs.Pools.CustomBytes
import AclPlane.Proofs.Transition.Shape

/-!
The limits of a configuration hold in every run.

* `Config.maxObjects`: the limit on the live objects of a kind.
* `Core.Configured`: the tables of the model have the limits of a configuration, which no transition
  changes (`Core.Configured.transition`).
* `Controller.configured_run`: so it is in every run.
* `Controller.length_le_maxObjects`: no run has more live objects of a kind than the limit.
-/

namespace AclPlane

/-- The limit on the live objects of a kind. -/
def Config.maxObjects (config : Config) : ObjectKind → ℕ
  | .keyType => config.maxKeyTypes
  | .region => config.maxRegions
  | .acl => config.maxAcls
  | .group => config.maxGroups
  | .pbs => config.maxPbsEntries
  | .range => config.maxRangeComparators
  | .customBytes => config.maxCustomByteSets
  | .portList => config.maxPortLists
  | .vlanGroup => config.maxVlanGroups

/-! ### The limit of an arena -/

namespace Arena

variable {kind : ObjectKind} {α : Type} {a a' : Arena kind α} {h : Handle kind} {v : α}
  {make : Handle kind → α}

lemma limit_insertWith? (hc : a.Consistent) (hi : a.insertWith? make = some (h, a')) :
    a'.limit = a.limit := by
  rcases insertWith?_cases hc hi with ⟨_, -, -, rfl⟩ | ⟨-, -, -, rfl⟩
  · rfl
  · rfl

lemma limit_remove? (hr : a.remove? h = some (v, a')) : a'.limit = a.limit := by
  obtain ⟨-, rfl⟩ := remove?_eq_some_iff.mp hr
  rfl

end Arena

namespace Core

variable {c c' : Core} {config : Config} {op : Option Operation} {done : Commit OpResult}

/-! ### Limits over a transition -/

/-- The limit of a shape stays. -/
lemma Transition.limit_eq (ht : Transition c op done) (hs : c.Steady) (kind : ObjectKind) :
    (done.core.shape kind).limit = (c.shape kind).limit := by
  cases ht.reshaped with
  | same shape_eq => rw [shape_eq]
  | inserted k id created inserted others =>
      by_cases hk : kind = k
      · subst hk
        exact Arena.limit_insertWith? (hs.shape kind) inserted
      · rw [others kind hk]
  | removed k id asked removed others =>
      by_cases hk : kind = k
      · subst hk
        exact Arena.limit_remove? removed
      · rw [others kind hk]

lemma maxBlocks_intern {catalog : Catalog} {fields : List BasicKey} {hint : Option KeyBlockId}
    {k k' : KeyTypes} {id : Handle .keyType} (h : k.intern catalog fields hint = .ok (id, k')) :
    k'.maxBlocks = k.maxBlocks := by
  rcases KeyTypes.intern_cases h with rfl | ⟨kt, hreg⟩
  · rfl
  · obtain ⟨_, -, rfl⟩ := KeyTypes.register_eq_ok.mp hreg
    rfl

lemma ranges_countBinding {key : BindingKey} {list : List BoundEntry} {pools : Pools}
    (h : c.countBinding key list = .ok pools) : pools.ranges = c.pools.ranges := by
  rw [countBinding] at h
  split at h
  · split at h
    · simp only [bind_eq_ok, pure_eq_ok] at h
      obtain ⟨_, -, rfl⟩ := h
      rfl
    · simp only [bind_eq_ok, pure_eq_ok] at h
      obtain ⟨_, -, rfl⟩ := h
      rfl
    · cases h
      rfl
  · cases h
    rfl

/-- The tables of the model have the limits of a configuration. -/
structure Configured (config : Config) (c : Core) : Prop where
  config_eq : c.config = config
  limit_eq : ∀ kind, (c.shape kind).limit = config.maxObjects kind
  maxBlocks_eq : c.keyTypes.maxBlocks = config.maxKeyBlocks
  maxRules_eq : c.regions.maxRulesPerRegion = config.maxRulesPerRegion
  budget_eq : c.regions.hwRuleBudget = config.hwRuleBudget
  customBytes : c.pools.ranges.Within config.maxCustomBytesRanges

lemma configured_new {catalog : Catalog} (h : Core.new config catalog = .ok c) :
    c.Configured config := by
  rw [Core.new] at h
  split at h
  · cases h
  · cases h
    refine ⟨rfl, fun kind => ?_, rfl, rfl, rfl, rfl, Nat.zero_le _⟩
    cases kind <;> rfl

/-- No transition changes a limit. -/
theorem Configured.transition (h : c.Configured config) (hs : c.Steady)
    (ht : Transition c op done) : done.core.Configured config := by
  have hlimit : ∀ kind, (done.core.shape kind).limit = config.maxObjects kind := fun kind =>
    (ht.limit_eq hs kind).trans (h.limit_eq kind)
  cases ht with
  | createKeyType found =>
      exact { h with
        limit_eq := hlimit
        maxBlocks_eq := (maxBlocks_intern found).trans h.maxBlocks_eq }
  | destroyKeyType destroyed =>
      obtain ⟨_, _, -, -, -, rfl⟩ := KeyTypes.destroy_eq_ok.mp destroyed
      exact { h with limit_eq := hlimit }
  | createRegion found planned inserted counted =>
      obtain ⟨_, -, rfl⟩ := KeyTypes.acquire_eq_ok.mp counted
      exact { h with limit_eq := hlimit }
  | resizeRegion found planned resized => exact { h with limit_eq := hlimit }
  | destroyRegion unused removed uncounted released =>
      obtain ⟨_, -, -, rfl⟩ := KeyTypes.release_eq_ok.mp uncounted
      exact { h with
        limit_eq := hlimit
        customBytes := Pools.within_release h.customBytes released }
  | setRules found lengths typed checked live taken stored released =>
      exact { h with
        limit_eq := hlimit
        customBytes := Pools.within_release (Pools.within_acquire h.customBytes taken) released }
  | deleteRules found asked listed emptied released =>
      exact { h with
        limit_eq := hlimit
        customBytes := Pools.within_release h.customBytes released }
  | bind checked bindable counted =>
      exact { h with
        limit_eq := hlimit
        customBytes := ranges_countBinding counted ▸ h.customBytes }
  | unbind checked bound counted =>
      exact { h with
        limit_eq := hlimit
        customBytes := ranges_countBinding counted ▸ h.customBytes }
  | bindAdd checked bindable planned counted =>
      exact { h with
        limit_eq := hlimit
        customBytes := ranges_countBinding counted ▸ h.customBytes }
  | bindDelete checked planned counted =>
      exact { h with
        limit_eq := hlimit
        customBytes := ranges_countBinding counted ▸ h.customBytes }
  | createPoolEntry created =>
      exact { h with
        limit_eq := hlimit
        customBytes := Pools.within_create h.customBytes hs.pools created }
  | editPoolEntry edited =>
      exact { h with
        limit_eq := hlimit
        customBytes := Pools.within_edit h.customBytes hs.pools edited }
  | addPoolMembers added =>
      exact { h with
        limit_eq := hlimit
        customBytes := Pools.ranges_add added ▸ h.customBytes }
  | deletePoolMembers deleted =>
      exact { h with
        limit_eq := hlimit
        customBytes := Pools.ranges_delete deleted ▸ h.customBytes }
  | destroyPoolEntry destroyed =>
      exact { h with
        limit_eq := hlimit
        customBytes := Pools.within_destroy h.customBytes destroyed }
  | _ => exact { h with limit_eq := hlimit }

end Core

/-! ### Runs -/

namespace Controller

variable {s : Controller} {config : Config} {given : Option (List KeyBlock)} {sink : Sink}

theorem configured_run (hs : Controller.start config given sink = .ok s) (steps : List Step) :
    (s.run steps).core.Configured config :=
  run_invariant_of_steady hs Core.configured_new
    (fun _ h => ⟨h.config_eq, fun kind => by cases kind <;> exact h.limit_eq _, h.maxBlocks_eq,
      h.maxRules_eq, h.budget_eq, h.customBytes⟩)
    (fun hs h ht => h.transition hs ht) steps

/-- No run has more live objects of a kind than the limit. -/
theorem length_le_maxObjects (hs : Controller.start config given sink = .ok s) (steps : List Step)
    {kind : ObjectKind} {ids : List (Handle kind)} (hnodup : ids.Nodup)
    (hlive : ∀ id ∈ ids, (s.run steps).core.isLive id = true) :
    ids.length ≤ config.maxObjects kind := by
  have hshape := (steady_run hs steps).shape kind
  calc ids.length ≤ ((s.run steps).core.shape kind).size :=
        Arena.length_le_size hshape hnodup fun id hid =>
          ((s.run steps).core.isLive_eq_contains id).symm.trans (hlive id hid)
    _ ≤ ((s.run steps).core.shape kind).limit := hshape.size_le
    _ = config.maxObjects kind := (configured_run hs steps).limit_eq kind

end Controller

end AclPlane
