import AclPlane.Proofs.KeyTypes
import AclPlane.Proofs.Transition.Steps

/-!
What holds of the model in every run, even if a reference count has stopped at its greatest value.

Such a count is too small from then on, so the counts of key types and of the entries that rules
refer to say nothing any more.  VLAN groups are referred to by bindings alone, and there are fewer
directions than a count can tell apart.

* `Core.Steady`: arenas are consistent, and VLAN groups count their directions.
* `Core.Steady.transition`: every transition keeps a model steady.
* `Controller.steady_run`: so the model is steady after every run.
-/

namespace AclPlane

namespace Core

variable {c : Core}

/-- The arenas of the model are consistent, and VLAN groups count their directions. -/
structure Steady (c : Core) : Prop where
  keyTypes : c.keyTypes.types.Consistent
  regions : c.regions.regions.Consistent
  acls : c.acls.acls.Consistent
  groups : c.groups.groups.Consistent
  pools : c.pools.Consistent
  vlanGroups : c.CountsDirections

lemma Sound.steady (h : c.Sound) : c.Steady :=
  ⟨h.keyTypes, h.regions, h.acls, h.groups, h.pools, h.countsDirections⟩

/-! ### Changes of one table -/

/-- A region may get another table. -/
lemma Steady.withTable (h : c.Steady) {region : Handle .region} {r : Region}
    (hr : c.regions.regions.get? region = some r) (table : RuleTable) :
    (c.withTable region table).Steady := by
  refine { h with regions := ?_ }
  rw [Core.withTable, setTable_eq hr]
  exact h.regions.set hr

/-- A group may be replaced. -/
lemma Steady.withGroup (h : c.Steady) {id : Handle .group} {g : Group}
    (hg : c.groups.groups.get? id = some g) (g' : Group) : (c.withGroup id g').Steady :=
  { h with groups := h.groups.set hg }

/-- Rules may take references and give them back. -/
lemma Steady.withPools (h : c.Steady) {pools : Pools} (hrec : c.pools.Recounted pools)
    (hvlan : pools.vlanGroups = c.pools.vlanGroups) : { c with pools := pools }.Steady := by
  refine { h with pools := hrec.consistent h.pools, vlanGroups := fun id => ?_ }
  rw [Pools.refCount, hvlan]
  exact h.vlanGroups id

/-- Entries of pools may come, change and go with their counts. -/
lemma Steady.sameCounts (h : c.Steady) {pools : Pools} (hp : c.pools.SameCounts pools) :
    { c with pools := pools }.Steady :=
  { h with
    pools := hp.consistent h.pools
    vlanGroups := fun id => (hp.refCount h.pools _).trans (h.vlanGroups id) }

/-- The VLAN group of a key counts its directions with the new entries. -/
lemma Steady.rebound (h : c.Steady) {key : BindingKey} {list : List BoundEntry} {pools : Pools}
    (stats : Stats) (hkey : c.checkBindingKey key = .ok ())
    (hcount : c.countBinding key list = .ok pools) : (c.rebound key list pools stats).Steady := by
  obtain ⟨pools', hcount', hrec, hexact⟩ :=
    exists_countBinding h.vlanGroups list (contains_of_checkBindingKey hkey)
  obtain rfl := Except.ok.inj (hcount.symm.trans hcount')
  refine { h with pools := hrec.consistent h.pools, vlanGroups := fun id => ?_ }
  have hpools := hexact (.vlanGroup id)
  have hbindings := c.bindings.references_commit key list (.vlanGroup id)
  have hold := h.vlanGroups id
  change pools.refCount (.vlanGroup id) = (c.bindings.commit key list).references (.vlanGroup id)
  omega

/-! ### Every transition -/

theorem Steady.transition {op : Option Operation} {done : Commit OpResult} (h : c.Steady)
    (ht : Transition c op done) : done.core.Steady := by
  cases ht with
  | createKeyType found =>
      exact { h with keyTypes := (KeyTypes.sameUse_intern h.keyTypes found).consistent }
  | destroyKeyType destroyed =>
      exact { h with keyTypes := (KeyTypes.sameUse_destroy h.keyTypes destroyed).consistent }
  | createRegion found planned inserted counted =>
      obtain ⟨hrec, -⟩ := KeyTypes.recounted_acquire counted
      exact { h with
        keyTypes := hrec.consistent h.keyTypes
        regions := h.regions.insertWith? inserted }
  | resizeRegion found planned resized => exact { h with regions := h.regions.set found }
  | destroyRegion unused removed uncounted released =>
      obtain ⟨hkeyTypes, -⟩ := KeyTypes.recounted_release uncounted
      obtain ⟨hrec, hvlan⟩ := Pools.recounted_of_release released
      exact { h.withPools hrec hvlan with
        keyTypes := hkeyTypes.consistent h.keyTypes
        regions := h.regions.remove? removed }
  | createAcl planned inserted => exact { h with acls := h.acls.insertWith? inserted }
  | editAcl found planned => exact { h with acls := h.acls.set found }
  | destroyAcl unlisted unbound removed => exact { h with acls := h.acls.remove? removed }
  | setRules found lengths typed checked live taken stored released =>
      obtain ⟨htaken, hvlan⟩ := Pools.recounted_of_acquire taken
      obtain ⟨hreleased, hvlan'⟩ := Pools.recounted_of_release released
      exact { (h.withTable found _).withPools (htaken.trans hreleased) (hvlan'.trans hvlan) with }
  | deleteRules found asked listed emptied released =>
      obtain ⟨hrec, hvlan⟩ := Pools.recounted_of_release released
      exact { (h.withTable found _).withPools hrec hvlan with }
  | moveBlock found moved => exact h.withTable found _
  | shiftPriority found planned => exact h.withTable found _
  | createGroup planned inserted => exact { h with groups := h.groups.insertWith? inserted }
  | setGroupAcls found checked => exact h.withGroup found _
  | addGroupAcl found planned => exact h.withGroup found _
  | deleteGroupAcl found planned => exact h.withGroup found _
  | chainGroups found planned => exact h.withGroup found _
  | unchainGroup found followed => exact h.withGroup found _
  | setGroupPriority found allowed => exact h.withGroup found _
  | destroyGroup unbound unfollowing removed =>
      exact { h with groups := h.groups.remove? removed }
  | bind checked bindable counted => exact h.rebound _ checked counted
  | unbind checked bound counted => exact h.rebound _ checked counted
  | bindAdd checked bindable planned counted => exact h.rebound _ checked counted
  | bindDelete checked planned counted => exact h.rebound _ checked counted
  | createPoolEntry created => exact h.sameCounts (Pools.sameCounts_create created)
  | editPoolEntry edited => exact h.sameCounts (Pools.sameCounts_edit edited)
  | addPoolMembers added => exact h.sameCounts (Pools.sameCounts_add added)
  | deletePoolMembers deleted => exact h.sameCounts (Pools.sameCounts_delete deleted)
  | addPbsPorts added => exact h.sameCounts (.of_pbs (Pools.sameCounts_addPorts added))
  | deletePbsPorts deleted => exact h.sameCounts (.of_pbs (Pools.sameCounts_deletePorts deleted))
  | destroyPoolEntry destroyed => exact h.sameCounts (Pools.sameCounts_destroy destroyed)
  | _ => exact h

end Core

namespace Controller

variable {s : Controller} {config : Config} {given : Option (List KeyBlock)} {sink : Sink}

/-- The model is steady after every run. -/
theorem steady_run (hs : Controller.start config given sink = .ok s) (steps : List Step) :
    (s.run steps).core.Steady :=
  run_invariant hs (fun hnew => (Core.inStep_new hnew).sound.steady) (fun _ h => { h with })
    (fun h ht => h.transition ht) steps

/-- What a new model has, and what every transition of a steady model and every change of the
statistics keep, holds throughout every run. -/
theorem run_invariant_of_steady {p : Core → Prop}
    (hs : Controller.start config given sink = .ok s)
    (hnew : ∀ {catalog c}, Core.new config catalog = .ok c → p c)
    (hstats : ∀ {c} stats, p c → p { c with stats := stats })
    (hstep : ∀ {c op done}, c.Steady → p c → Core.Transition c op done → p done.core)
    (steps : List Step) : p (s.run steps).core :=
  run_induction (p := fun _ c => p c) hs hnew
    (fun {steps _ _} h _ => hstep (steady_run hs steps) h) (fun stats h _ => hstats stats h) steps

end Controller

end AclPlane
