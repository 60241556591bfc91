import AclPlane.Proofs.Limits
import AclPlane.Proofs.Pools.Revisions

/-!
The contents of pools are well-formed and within limits.

Only some of the operations on a pool check what they are given.  The others lead from contents that
pass the check to contents that pass it too, so that everything in the pools passes it.

* `Pools.Checked`: all contents pass the checks of their pools.
* `CustomByteSet.check_eq_ok`: the sets of custom bytes that pass are those in reach and those that
  end past the greatest offset.
* `RangePool.length_le_customBytesInUse`: what the pool counts before it lets another comparator on
  custom bytes in is all of these comparators.
* `Controller.pools_well_formed`: what this means in every run.
-/

namespace AclPlane

/-! ### What the checks say -/

lemma RangeComparator.check_eq_ok {r : RangeComparator} {u : Unit} :
    r.check = .ok u ↔ r.min ≤ r.max ∧ r.max ≤ r.field.limit := by
  simp only [check, guard_eq_ok, last_guard_eq_ok, pure_eq_ok, not_lt, and_true]

/-- A set that passes has one to four bytes.  They are in reach, or else so far out that their end
wraps around. -/
lemma CustomByteSet.check_eq_ok {s : CustomByteSet} {u : Unit} (hoffset : s.offset < UInt16.size) :
    s.check = .ok u ↔ 1 ≤ s.size ∧ s.size ≤ 4 ∧
      (s.offset + s.size ≤ maxReach ∨ UInt16.size ≤ s.offset + s.size) := by
  have hreach : s.size ≤ 4 →
      (s.reach ≤ maxReach ↔ s.offset + s.size ≤ maxReach ∨ UInt16.size ≤ s.offset + s.size) := by
    intro hsize
    simp only [reach, maxReach, UInt16.size] at hoffset ⊢
    omega
  simp only [check, guard_eq_ok, last_guard_eq_ok, pure_eq_ok, not_or, not_lt, and_true, and_assoc]
  exact and_congr_right fun _ => and_congr_right hreach

example : (CustomByteSet.mk .l2Start 65535 1).check = .ok () := by decide

/-- Different comparators on custom bytes are all counted. -/
lemma RangePool.length_le_customBytesInUse {p : RangePool} (hc : p.pool.entries.Consistent)
    {ids : List (Handle .range)} (hnodup : ids.Nodup)
    (hids : ∀ id ∈ ids, ∃ r, p.pool.value? id = some r ∧ r.field = .customBytes) :
    ids.length ≤ p.customBytesInUse none := by
  have hsub : ids ⊆ (p.pool.toList.filter
      fun e => some e.1 != none && e.2.isCustomBytes).map Prod.fst := by
    intro id hid
    obtain ⟨r, hr, hfield⟩ := hids id hid
    refine List.mem_map.mpr ⟨(id, r), List.mem_filter.mpr ⟨?_, ?_⟩, rfl⟩
    · exact (Pool.mem_toList_iff hc).mpr hr
    · simp [RangeComparator.isCustomBytes, hfield]
  calc ids.length
      ≤ ((p.pool.toList.filter
          fun e => some e.1 != none && e.2.isCustomBytes).map Prod.fst).length :=
        (hnodup.subperm hsub).length_le
    _ = p.customBytesInUse none := List.length_map ..

namespace Pools

variable {p q : Pools}

/-- All contents pass the checks of their pools. -/
structure Checked (p : Pools) : Prop where
  ranges : p.ranges.pool.Checked RangeComparator.check
  customBytes : Pool.Checked CustomByteSet.check p.customBytes
  pbs : Pool.Checked PbsDestination.check p.pbs
  vlanGroups : Pool.Checked VlanGroupPool.checkMembers p.vlanGroups

lemma checked_empty (c : Config) : (empty c).Checked :=
  ⟨Pool.checked_empty _ _, Pool.checked_empty _ _, Pool.checked_empty _ _, Pool.checked_empty _ _⟩

lemma Checked.revised (hp : p.Checked) (h : p.Revised q) : q.Checked :=
  ⟨hp.ranges.guarded h.ranges, hp.customBytes.guarded h.customBytes, h.pbs hp.pbs,
    h.vlanGroups hp.vlanGroups⟩

end Pools

namespace Controller

variable {s : Controller} {config : Config} {given : Option (List KeyBlock)} {sink : Sink}

/-- Every run keeps the contents of the pools checked. -/
theorem checked_run (hs : Controller.start config given sink = .ok s) (steps : List Step) :
    (s.run steps).core.pools.Checked := by
  refine run_invariant_of_steady (p := fun c => c.pools.Checked) hs (fun hnew => ?_) (fun _ h => h)
    (fun hs h ht => h.revised (ht.revised hs)) steps
  rw [Core.new] at hnew
  split at hnew
  · cases hnew
  · cases hnew
    exact Pools.checked_empty _

/-- After every run, the interval of every comparator is in order and within the limit of its field,
and no more than the configured number of comparators are on custom bytes.  Every custom-byte set
passes its check.  Every port group of a PBS entry has a port and none twice, and every VLAN of a
VLAN group lies between 1 and 4094. -/
theorem pools_well_formed (hs : Controller.start config given sink = .ok s) (steps : List Step) :
    let p := (s.run steps).core.pools
    (∀ id r, p.ranges.pool.value? id = some r → r.min ≤ r.max ∧ r.max ≤ r.field.limit) ∧
    (∀ ids : List (Handle .range), ids.Nodup →
      (∀ id ∈ ids, ∃ r, p.ranges.pool.value? id = some r ∧ r.field = .customBytes) →
        ids.length ≤ config.maxCustomBytesRanges) ∧
    (∀ id set, p.customBytes.value? id = some set → set.check = .ok ()) ∧
    (∀ id ports, p.pbs.value? id = some (.portGroup ports) → ports ≠ [] ∧ ports.Nodup) ∧
    (∀ id vlans, p.vlanGroups.value? id = some vlans →
      ∀ v ∈ OrderedSet.members vlans, 1 ≤ v ∧ v ≤ 4094) := by
  intro p
  have hchecked : p.Checked := checked_run hs steps
  refine ⟨fun id r hr => RangeComparator.check_eq_ok.mp (hchecked.ranges id r hr),
    fun ids hnodup hids => ?_, hchecked.customBytes,
    fun id ports hd => PbsDestination.check_portGroup_eq_ok.mp (hchecked.pbs id _ hd),
    fun id vlans hg => VlanGroupPool.checkVlans_eq_ok.mp (hchecked.vlanGroups id vlans hg)⟩
  calc ids.length ≤ p.ranges.customBytesInUse none :=
        RangePool.length_le_customBytesInUse (steady_run hs steps).pools.ranges hnodup hids
    _ ≤ config.maxCustomBytesRanges := (configured_run hs steps).customBytes.inUse_le

/-- Makes an entry of every pool, turns the comparator into one on custom bytes, gives the port
group a port that it has and another, and takes VLANs out of the group and puts others in. -/
def stocking : List Step :=
  [.operation (.pool (.create (.range ⟨.l4DstPort, 80, 90⟩))),
   .operation (.pool (.edit (.range ⟨0, 1⟩) (.range ⟨.customBytes, 7, 7⟩))),
   .operation (.pool (.create (.customBytes ⟨.l3Start, 124, 4⟩))),
   .operation (.pool (.create (.pbs (.portGroup [⟨1⟩, ⟨2⟩])))),
   .addPbsPorts ⟨0, 1⟩ [⟨2⟩, ⟨3⟩, ⟨3⟩],
   .deletePbsPorts ⟨0, 1⟩ [⟨1⟩],
   .operation (.pool (.create (.vlanGroup [10, 4094]))),
   .operation (.pool (.delete (.vlanGroup ⟨0, 1⟩) (.vlanGroup [10]))),
   .operation (.pool (.add (.vlanGroup ⟨0, 1⟩) (.vlanGroup [1, 4095]))),
   .operation (.pool (.add (.vlanGroup ⟨0, 1⟩) (.vlanGroup [1])))]

/-- The port group has the ports 2 and 3, each once, and the VLANs of the group are in bounds. -/
theorem well_formed_of_stocking :
    (∃ ports, (fresh.run stocking).core.pools.pbs.value? ⟨0, 1⟩ = some (.portGroup ports) ∧
      ports = [⟨2⟩, ⟨3⟩] ∧ ports.Nodup) ∧
    ∃ vlans, (fresh.run stocking).core.pools.vlanGroups.value? ⟨0, 1⟩ = some vlans ∧
      OrderedSet.members vlans = [1, 4094] ∧ ∀ v ∈ OrderedSet.members vlans, 1 ≤ v ∧ v ≤ 4094 := by
  obtain ⟨-, -, -, hpbs, hvlans⟩ := pools_well_formed start_fresh stocking
  have hports : (fresh.run stocking).core.pools.pbs.value? ⟨0, 1⟩ =
      some (.portGroup [⟨2⟩, ⟨3⟩]) := by decide +kernel
  have hgroup : ((fresh.run stocking).core.pools.vlanGroups.value? ⟨0, 1⟩).map
      OrderedSet.members = some [1, 4094] := by decide +kernel
  obtain ⟨vlans, hvalue, hmembers⟩ := Option.map_eq_some_iff.mp hgroup
  exact ⟨⟨_, hports, rfl, (hpbs _ _ hports).2⟩, vlans, hvalue, hmembers, hvlans _ _ hvalue⟩

end Controller

end AclPlane
