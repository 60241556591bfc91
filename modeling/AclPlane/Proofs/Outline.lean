import AclPlane.Proofs.Marks.Plans
import AclPlane.Proofs.Readings
import AclPlane.Proofs.RegionLayout

/-!
A model apart from its rules.

An operation on rules changes one table, the reference counts in the pools and the statistics.  The
outline of a model is what is left without them, so that two models with one outline differ in their
rules at most: the counts follow from the rules, since the model is sound.

* `Arena.map`: an arena with other objects, and `eq_of_map_eq`, which tells what is lost by it.
* `Core.outline`: the model without rules, reference counts and statistics.
* `Core.Transition.outline_eq`: operations on rules keep the outline.
* `Core.eq_of_outline`: sound models with one outline, the same rules and the same statistics are
  equal.
* `RuleOp.account`, `Core.Transition.stats_eq`: what an operation on rules adds to the statistics,
  told by the rules of its region.
* `Core.Transition.get?_of_ne`: operations on rules leave other regions alone.
-/

namespace AclPlane

/-! ### Arenas with other objects -/

namespace Arena

variable {kind : ObjectKind} {α β : Type} {a b : Arena kind α} {h : Handle kind} {v w : α}
  {f : α → β}

/-- The arena with `f` applied to every object. -/
def map (f : α → β) (a : Arena kind α) : Arena kind β :=
  ⟨a.slots.map fun slot => ⟨slot.generation, slot.value.map f⟩, a.free, a.size, a.limit⟩

lemma get?_map (f : α → β) (a : Arena kind α) (h : Handle kind) :
    (a.map f).get? h = (a.get? h).map f := by
  have hslot : (a.map f).slots[h.index.toNat]? =
      a.slots[h.index.toNat]?.map fun slot => ⟨slot.generation, slot.value.map f⟩ :=
    List.getElem?_map
  rw [get?, hslot, get?]
  cases a.slots[h.index.toNat]? with
  | none => rfl
  | some slot =>
      by_cases hg : slot.generation = h.generation
      · simp [hg]
      · simp [hg]

/-- A new object that `f` does not tell from the old one makes no difference. -/
lemma map_set (hv : a.get? h = some v) (hw : f w = f v) : (a.set h w).map f = a.map f := by
  have hslot : (a.map f).slots[h.index.toNat]? = some ⟨h.generation, some (f v)⟩ := by
    rw [map, List.getElem?_map, get?_eq_some_iff.mp hv]
    rfl
  obtain ⟨hlt, heq⟩ := List.getElem?_eq_some_iff.mp hslot
  have hslots : ((a.set h w).map f).slots = (a.map f).slots := by
    calc ((a.set h w).map f).slots
        = (a.map f).slots.set h.index.toNat ⟨h.generation, some (f w)⟩ := by
          rw [set_eq hv, map, List.map_set]
          rfl
      _ = (a.map f).slots.set h.index.toNat (a.map f).slots[h.index.toNat] := by rw [heq, hw]
      _ = (a.map f).slots := List.set_getElem_self hlt
  rw [set_eq hv] at hslots ⊢
  exact congrArg (fun slots => (⟨slots, a.free, a.size, a.limit⟩ : Arena kind β)) hslots

/-- Arenas are equal if they are so under `f` and `f` tells their objects apart. -/
lemma eq_of_map_eq (ha : a.Consistent) (hmap : a.map f = b.map f)
    (hobject : ∀ h v w, a.get? h = some v → b.get? h = some w → f v = f w → v = w) : a = b := by
  obtain ⟨hmapped, hfree, hsize, hlimit⟩ := Arena.mk.inj hmap
  have hslots : a.slots = b.slots := by
    refine List.ext_getElem? fun i => ?_
    have hi := congrArg (fun slots => slots[i]?) hmapped
    simp only [List.getElem?_map] at hi
    cases hsa : a.slots[i]? with
    | none =>
        rw [hsa, Option.map_none, eq_comm, Option.map_eq_none_iff] at hi
        rw [hi]
    | some slot =>
        rw [hsa, Option.map_some, eq_comm, Option.map_eq_some_iff] at hi
        obtain ⟨slot', hsb, heq⟩ := hi
        obtain ⟨g, x⟩ := slot
        obtain ⟨g', x'⟩ := slot'
        simp only [Slot.mk.injEq] at heq
        obtain ⟨rfl, hx⟩ := heq
        cases x with
        | none =>
            rw [Option.map_none, Option.map_eq_none_iff] at hx
            rw [hsb, hx]
        | some v =>
            rw [Option.map_some, Option.map_eq_some_iff] at hx
            obtain ⟨w, rfl, hw⟩ := hx
            -- the handle of this slot names both objects
            have hlt : i < UInt32.size :=
              lt_of_lt_of_le (List.getElem?_eq_some_iff.mp hsa).1 ha.length_le
            have hindex : (UInt32.ofNat i).toNat = i := UInt32.toNat_ofNat_of_lt' hlt
            have hv : a.get? (⟨UInt32.ofNat i, g'⟩ : Handle kind) = some v :=
              get?_eq_some_iff.mpr (by rw [hindex]; exact hsa)
            have hw' : b.get? (⟨UInt32.ofNat i, g'⟩ : Handle kind) = some w :=
              get?_eq_some_iff.mpr (by rw [hindex]; exact hsb)
            rw [hsb, hobject _ v w hv hw' hw.symm]
  obtain ⟨_, _, _, _⟩ := a
  obtain ⟨_, _, _, _⟩ := b
  subst hslots hfree hsize hlimit
  rfl

end Arena

/-! ### Pools without counts -/

namespace Pool

variable {kind : ObjectKind} {α : Type} {p q : Pool kind α} {id : Handle kind}
  {ids : List (Handle kind)}

/-- The pool with every count forgotten. -/
def outline (p : Pool kind α) : Pool kind α :=
  { p with entries := p.entries.map fun c => .new c.value }

lemma outline_acquire (h : p.acquire id = .ok q) : q.outline = p.outline := by
  rw [acquire, Arena.retain] at h
  cases hc : p.entries.get? id with
  | none =>
      rw [hc] at h
      cases h
  | some c =>
      rw [hc] at h
      cases h
      exact congrArg (Pool.mk p.name) (Arena.map_set hc rfl)

lemma outline_release (h : p.release id = .ok q) : q.outline = p.outline := by
  rw [release, Arena.release] at h
  cases hc : p.entries.get? id with
  | none =>
      rw [hc] at h
      cases h
  | some c =>
      simp only [hc, Counted.release?] at h
      by_cases hzero : c.refs = 0
      · rw [if_pos hzero] at h
        cases h
      · rw [if_neg hzero] at h
        cases h
        exact congrArg (Pool.mk p.name) (Arena.map_set hc rfl)

lemma outline_acquireAll (h : ids.foldlM acquire p = .ok q) : q.outline = p.outline :=
  foldlM_keeps (p := fun q => q.outline = p.outline)
    (fun _ _ _ hr hstep => (outline_acquire hstep).trans hr) h rfl

lemma outline_releaseAll (h : ids.foldlM release p = .ok q) : q.outline = p.outline :=
  foldlM_keeps (p := fun q => q.outline = p.outline)
    (fun _ _ _ hr hstep => (outline_release hstep).trans hr) h rfl

/-- Pools with one outline have the same entries. -/
lemma contains_of_outline (h : q.outline = p.outline) (id : Handle kind) :
    q.contains id = p.contains id := by
  have hget := congrArg (fun r : Pool kind α => (r.entries.get? id).isSome) h
  simp only [outline, Arena.get?_map, Option.isSome_map] at hget
  exact hget

lemma checkAll_of_outline (h : q.outline = p.outline) (ids : List (Handle kind)) :
    q.checkAll ids = p.checkAll ids := by
  rw [checkAll, checkAll, funext (contains_of_outline h)]

/-- Pools with one outline and the same counts are equal. -/
lemma eq_of_outline (hp : p.entries.Consistent) (h : p.outline = q.outline)
    (hcount : ∀ id, p.refCount id = q.refCount id) : p = q := by
  obtain ⟨hname, hmapped⟩ := Pool.mk.inj h
  have hentries : p.entries = q.entries := by
    refine Arena.eq_of_map_eq hp hmapped fun id v w hv hw hvalue => ?_
    have hrefs : v.refs = w.refs :=
      calc v.refs = p.refCount id := (Arena.refCount_eq hv).symm
        _ = q.refCount id := hcount id
        _ = w.refs := Arena.refCount_eq hw
    have hvalues : v.value = w.value := (Counted.mk.inj hvalue).1
    obtain ⟨_, _⟩ := v
    obtain ⟨_, _⟩ := w
    subst hrefs hvalues
    rfl
  obtain ⟨_, _⟩ := p
  obtain ⟨_, _⟩ := q
  subst hname hentries
  rfl

end Pool

namespace Pools

variable {p q : Pools} {refs : PoolRefs}

/-- The pools with every count forgotten. -/
def outline (p : Pools) : Pools where
  pbs := p.pbs.outline
  ranges := { p.ranges with pool := p.ranges.pool.outline }
  customBytes := p.customBytes.outline
  portLists := p.portLists.outline
  vlanGroups := p.vlanGroups.outline

lemma outline_acquire (h : p.acquire refs = .ok q) : q.outline = p.outline := by
  simp only [acquire, bind_eq_ok, pure_eq_ok] at h
  obtain ⟨_, hpbs, _, hranges, _, hbytes, _, hports, rfl⟩ := h
  simp only [outline, Pool.outline_acquireAll hpbs, Pool.outline_acquireAll hranges,
    Pool.outline_acquireAll hbytes, Pool.outline_acquireAll hports]

lemma outline_release (h : p.release refs = .ok q) : q.outline = p.outline := by
  simp only [release, bind_eq_ok, pure_eq_ok] at h
  obtain ⟨_, hpbs, _, hranges, _, hbytes, _, hports, rfl⟩ := h
  simp only [outline, Pool.outline_releaseAll hpbs, Pool.outline_releaseAll hranges,
    Pool.outline_releaseAll hbytes, Pool.outline_releaseAll hports]

/-- The check of references does not read the counts. -/
lemma checkRefs_of_outline (h : q.outline = p.outline) (refs : PoolRefs) :
    q.checkRefs refs = p.checkRefs refs := by
  obtain ⟨hpbs, hranges, hbytes, hports, -⟩ := Pools.mk.inj h
  obtain ⟨hranges, -⟩ := RangePool.mk.inj hranges
  rw [checkRefs, checkRefs, Pool.checkAll_of_outline hpbs, Pool.checkAll_of_outline hranges,
    Pool.checkAll_of_outline hbytes, Pool.checkAll_of_outline hports]

lemma eq_of_outline (hp : p.Consistent) (h : p.outline = q.outline)
    (hcount : ∀ e, p.refCount e = q.refCount e) : p = q := by
  obtain ⟨hpbs, hranges, hbytes, hports, hvlans⟩ := Pools.mk.inj h
  obtain ⟨hranges, hlimit⟩ := RangePool.mk.inj hranges
  obtain ⟨pbs, ⟨ranges, maxCustomBytes⟩, bytes, ports, vlans⟩ := p
  obtain ⟨pbs', ⟨ranges', maxCustomBytes'⟩, bytes', ports', vlans'⟩ := q
  obtain rfl : pbs = pbs' := Pool.eq_of_outline hp.pbs hpbs fun id => hcount (.pbs id)
  obtain rfl : ranges = ranges' :=
    Pool.eq_of_outline hp.ranges hranges fun id => hcount (.range id)
  obtain rfl : maxCustomBytes = maxCustomBytes' := hlimit
  obtain rfl : bytes = bytes' :=
    Pool.eq_of_outline hp.customBytes hbytes fun id => hcount (.customBytes id)
  obtain rfl : ports = ports' :=
    Pool.eq_of_outline hp.portLists hports fun id => hcount (.portList id)
  obtain rfl : vlans = vlans' :=
    Pool.eq_of_outline hp.vlanGroups hvlans fun id => hcount (.vlanGroup id)
  rfl

end Pools

/-! ### Tables -/

/-- Tables are equal if they have the same slots with the same rules, and count them. -/
lemma RuleTable.eq_of_rule? {t t' : RuleTable} (hcapacity : t.capacity = t'.capacity)
    (hrule : ∀ k, t.rule? k = t'.rule? k) (ht : t.Exact) (ht' : t'.Exact) : t = t' := by
  have hslots : t.slots = t'.slots := by
    refine Array.ext hcapacity fun i hi hi' => ?_
    have hrulei := hrule i
    rw [rule?, rule?, Array.getElem?_eq_getElem hi, Array.getElem?_eq_getElem hi'] at hrulei
    exact hrulei
  have hused : t.used = t'.used := by
    calc t.used = t.total fun _ => 1 := ht
      _ = t'.total fun _ => 1 := total_congr hrule
      _ = t'.used := ht'.symm
  obtain ⟨_, _⟩ := t
  obtain ⟨_, _⟩ := t'
  subst hslots hused
  rfl

/-! ### Models -/

/-- The region with its slots emptied. -/
def Region.outline (r : Region) : Region := { r with table := .empty r.table.capacity }

/-- As many slots as before are the same region to the outline. -/
lemma Region.outline_withTable (r : Region) {table : RuleTable}
    (hcapacity : table.capacity = r.table.capacity) :
    { r with table := table }.outline = r.outline := by
  rw [outline, outline, hcapacity]

lemma Region.capacity_of_outline {r r' : Region} (h : r'.outline = r.outline) :
    r'.table.capacity = r.table.capacity := by
  have hslots := congrArg (fun r : Region => r.table.capacity) h
  simp only [outline, RuleTable.capacity_empty] at hslots
  exact hslots

lemma Region.keyType_of_outline {r r' : Region} (h : r'.outline = r.outline) :
    r'.keyType = r.keyType := by
  have hkeyType := congrArg (fun r : Region => r.keyType) h
  exact hkeyType

namespace Core

variable {c c' : Core} {id : Handle .region} {r r' : Region} {op : RuleOp}
  {done : Commit OpResult}

/-- The model without its rules, its reference counts in the pools and its statistics. -/
def outline (c : Core) : Core :=
  { c with
    regions := { c.regions with regions := c.regions.regions.map Region.outline }
    pools := c.pools.outline
    stats := .zero }

/-- Another table of one region, other counts and other statistics do not show in the outline. -/
lemma outline_withTable (hr : c.regions.regions.get? id = some r) {table : RuleTable}
    (hcapacity : table.capacity = r.table.capacity) {pools : Pools}
    (hpools : pools.outline = c.pools.outline) (stats : Stats) :
    { c.withTable id table with pools := pools, stats := stats }.outline = c.outline := by
  have hregions : (c.regions.setTable id table).regions.map Region.outline =
      c.regions.regions.map Region.outline := by
    rw [setTable_eq hr]
    exact Arena.map_set hr (r.outline_withTable hcapacity)
  have hrest : (c.regions.setTable id table).maxRulesPerRegion = c.regions.maxRulesPerRegion ∧
      (c.regions.setTable id table).hwRuleBudget = c.regions.hwRuleBudget ∧
      (c.regions.setTable id table).hwUsed = c.regions.hwUsed := ⟨rfl, rfl, rfl⟩
  simp only [outline, withTable, hregions, hrest, hpools]

/-- Operations on rules keep the outline. -/
theorem Transition.outline_eq (ht : Transition c (some (.rule op)) done) :
    done.core.outline = c.outline := by
  cases ht with
  | observe reading => cases reading _ rfl
  | setRules found lengths typed checked live taken stored released =>
      refine outline_withTable found (RuleTable.capacity_setAll stored) ?_ _
      rw [Pools.outline_release released, Pools.outline_acquire taken]
  | setNoRules found => rfl
  | deleteRules found asked listed emptied released =>
      exact outline_withTable found (RuleTable.capacity_clearAll emptied)
        (Pools.outline_release released) _
  | deleteNoRules found asked listed => rfl
  | moveBlock found moved =>
      exact outline_withTable found (RuleTable.capacity_moveBlock moved) rfl _
  | shiftPriority found planned =>
      exact outline_withTable found (RuleTable.capacity_setPriorities _) rfl _
  | shiftNothing found planned => rfl

/-- Models with one outline have the same regions up to their rules. -/
lemma get?_of_outline (h : c'.outline = c.outline) (id : Handle .region) :
    (c'.regions.regions.get? id).map Region.outline =
      (c.regions.regions.get? id).map Region.outline := by
  have hget := congrArg (fun x : Core => x.regions.regions.get? id) h
  simp only [outline, Arena.get?_map] at hget
  exact hget

lemma exists_of_outline (h : c'.outline = c.outline) (hr : c.regions.regions.get? id = some r) :
    ∃ r', c'.regions.regions.get? id = some r' ∧ r'.outline = r.outline := by
  have hget := get?_of_outline h id
  rw [hr, Option.map_some] at hget
  exact Option.map_eq_some_iff.mp hget

/-- Sound models with one outline, the same rules and the same statistics are equal: the reference
counts are the numbers of references that rules and bindings hold. -/
theorem eq_of_outline (hc : c.Sound) (hc' : c'.Sound) (h : c.outline = c'.outline)
    (htable : ∀ id r r', c.regions.regions.get? id = some r →
      c'.regions.regions.get? id = some r' → r.outline = r'.outline → r.table = r'.table)
    (hstats : c.stats = c'.stats) : c = c' := by
  obtain ⟨hconfig, hcatalog, hkeyTypes, hregions', hacls, hgroups, hbindings, hpools', -⟩ :=
    Core.mk.inj h
  obtain ⟨harena', hmax, hbudget, hwUsed⟩ := Regions.mk.inj hregions'
  have harena : c.regions.regions = c'.regions.regions := by
    refine Arena.eq_of_map_eq hc.regions harena' fun id r r' hr hr' houtline => ?_
    have hsame : r.table = r'.table := htable id r r' hr hr' houtline
    obtain ⟨_, _, _, _, _⟩ := r
    obtain ⟨_, _, _, _, _⟩ := r'
    simp only [Region.outline, Region.mk.injEq] at houtline
    obtain ⟨hkeyType, hwidth, hcapacity, hwSize, -⟩ := houtline
    subst hkeyType hwidth hcapacity hwSize hsame
    rfl
  have hregions : c.regions = c'.regions := by
    cases hx : c.regions
    cases hy : c'.regions
    rw [hx, hy] at harena hmax hbudget hwUsed
    subst harena hmax hbudget hwUsed
    rfl
  have hcounts : ∀ e, c.pools.refCount e = c'.pools.refCount e := by
    intro e
    calc c.pools.refCount e = c.references e := hc.references_eq e
      _ = c'.references e := by
        rw [references, references, ruleReferences, ruleReferences, hregions, hbindings]
      _ = c'.pools.refCount e := (hc'.references_eq e).symm
  have hpools : c.pools = c'.pools := Pools.eq_of_outline hc.pools hpools' hcounts
  obtain ⟨_, _, _, _, _, _, _, _, _⟩ := c
  obtain ⟨_, _, _, _, _, _, _, _, _⟩ := c'
  subst hconfig hcatalog hkeyTypes hregions hacls hgroups hbindings hpools hstats
  rfl

end Core

/-! ### Statistics -/

/-- What an operation on rules adds to the statistics if its region has the rules of a table. -/
def RuleOp.account (t : RuleTable) : RuleOp → Stats → Stats
  | set _ _ rules, stats => { stats with rulesSet := stats.rulesSet + rules.length }
  | delete _ offsets, stats => { stats with
      rulesDeleted := stats.rulesDeleted +
        (offsets.filter fun offset => (t.rule? offset).isSome).eraseDups.length }
  | deleteAll _, stats => { stats with
      rulesDeleted := stats.rulesDeleted + t.occupied.length }
  | move _ _, stats => stats
  | shiftPriority _ _, stats => stats

/-- The order in which two operations are put on record does not matter. -/
lemma RuleOp.account_comm (a b : RuleOp) (t t' : RuleTable) (stats : Stats) :
    a.account t (b.account t' stats) = b.account t' (a.account t stats) := by
  cases a <;> cases b <;> simp only [account, Nat.add_right_comm]

namespace Core

variable {c : Core} {r : Region} {op : RuleOp} {done : Commit OpResult}

/-- All rules of a table are the listed ones among its offsets, each once. -/
lemma length_occupiedOffsets {t : RuleTable} {occupied : List ℕ}
    (h : occupiedOffsets t (t.occupied.map Prod.fst) = .ok occupied) :
    occupied.length = t.occupied.length := by
  simp only [occupiedOffsets, bind_eq_ok, pure_eq_ok] at h
  obtain ⟨_, -, rfl⟩ := h
  have hall : ((t.occupied.map Prod.fst).filter fun offset => (t.rule? offset).isSome) =
      t.occupied.map Prod.fst := by
    refine List.filter_eq_self.mpr fun offset hoffset => ?_
    obtain ⟨e, he, rfl⟩ := List.mem_map.mp hoffset
    rw [RuleTable.mem_occupied_iff.mp he]
    rfl
  have hnodup : (t.occupied.map Prod.fst).Nodup :=
    List.pairwise_map.mpr (t.pairwise_occupied.imp fun hlt => Nat.ne_of_lt hlt)
  rw [hall]
  calc (t.occupied.map Prod.fst).eraseDups.length = (t.occupied.map Prod.fst).length :=
        List.length_eraseDups_eq_iff.mpr hnodup
    _ = t.occupied.length := List.length_map ..

lemma account_of_occupiedOffsets {region : Handle .region} {offsets occupied : List ℕ}
    (asked : op = .delete region offsets ∨
      op = .deleteAll region ∧ offsets = r.table.occupied.map Prod.fst)
    (listed : occupiedOffsets r.table offsets = .ok occupied) (stats : Stats) :
    op.region = region ∧ op.account r.table stats =
      { stats with rulesDeleted := stats.rulesDeleted + occupied.length } := by
  rcases asked with rfl | ⟨rfl, rfl⟩
  · simp only [occupiedOffsets, bind_eq_ok, pure_eq_ok] at listed
    obtain ⟨_, -, rfl⟩ := listed
    exact ⟨rfl, rfl⟩
  · rw [length_occupiedOffsets listed]
    exact ⟨rfl, rfl⟩

/-- An operation on rules is about a live region, and its rules tell what happens to the
statistics. -/
theorem Transition.stats_eq (ht : Transition c (some (.rule op)) done) :
    ∃ r, c.regions.regions.get? op.region = some r ∧
      done.core.stats = op.account r.table c.stats := by
  cases ht with
  | observe reading => cases reading _ rfl
  | setRules found lengths typed checked live taken stored released => exact ⟨_, found, rfl⟩
  | setNoRules found => exact ⟨_, found, rfl⟩
  | deleteRules found asked listed emptied released =>
      obtain ⟨hregion, haccount⟩ := account_of_occupiedOffsets asked listed c.stats
      exact ⟨_, hregion ▸ found, haccount.symm⟩
  | deleteNoRules found asked listed =>
      obtain ⟨hregion, haccount⟩ := account_of_occupiedOffsets asked listed c.stats
      exact ⟨_, hregion ▸ found, haccount.symm⟩
  | moveBlock found moved => exact ⟨_, found, rfl⟩
  | shiftPriority found planned => exact ⟨_, found, rfl⟩
  | shiftNothing found planned => exact ⟨_, found, rfl⟩

/-! ### Other regions -/

/-- An operation on rules leaves the other regions alone. -/
lemma Transition.get?_of_ne (ht : Transition c (some (.rule op)) done) {id : Handle .region}
    (hid : id ≠ op.region) : done.core.regions.regions.get? id = c.regions.regions.get? id := by
  have hother : ∀ {region r} (table : RuleTable), c.regions.regions.get? region = some r →
      id ≠ region → (c.regions.setTable region table).regions.get? id =
        c.regions.regions.get? id := fun table hr hne =>
    (get?_setTable hr table id).trans (if_neg hne)
  cases ht with
  | observe reading => cases reading _ rfl
  | setRules found lengths typed checked live taken stored released => exact hother _ found hid
  | deleteRules found asked listed emptied released =>
      obtain ⟨hregion, -⟩ := account_of_occupiedOffsets asked listed c.stats
      exact hother _ found (hregion ▸ hid)
  | moveBlock found moved => exact hother _ found hid
  | shiftPriority found planned => exact hother _ found hid
  | setNoRules found => rfl
  | deleteNoRules found asked listed => rfl
  | shiftNothing found planned => rfl

end Core

end AclPlane
