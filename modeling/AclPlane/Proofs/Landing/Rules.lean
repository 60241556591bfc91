import AclPlane.Proofs.Frame
import AclPlane.Proofs.Regions

/-!
Operations on rules go through.

A batch takes the references of its rules before it gives back those of the rules that it
replaces.  What it gives back had been counted: the offsets of a batch are distinct, so the rules
replaced are rules of the table (`RuleTable.replaced_eq`), and counts never drop while references
are taken.
-/

namespace AclPlane.Core

variable {c : Core} {t : DeviceTables} {room : Prop} {id : Handle .region} {r : Region}
  {d : DeviceRegion}

/-! ### The parts of a device region that rules do not touch -/

lemma foldl_keeps {β γ : Type} (f : DeviceRegion → β → DeviceRegion) (g : DeviceRegion → γ)
    (hf : ∀ d b, g (f d b) = g d) (l : List β) (d : DeviceRegion) : g (l.foldl f d) = g d := by
  induction l generalizing d with
  | nil => rfl
  | cons b l ih => rw [List.foldl_cons, ih, hf]

lemma takeMoved_keeps {γ : Type} (g : DeviceRegion → γ) (hg : ∀ d k, g (d.clear k) = g d)
    (moves : List (ℕ × ℕ)) (d : DeviceRegion) : g (d.takeMoved moves).2 = g d := by
  induction moves generalizing d with
  | nil => rfl
  | cons m moves ih =>
      cases hm : d.rules.get? m.1 with
      | none =>
          rw [DeviceRegion.takeMoved_cons_of_none hm]
          exact ih d
      | some image =>
          rw [DeviceRegion.takeMoved_cons_of_some hm, ih, hg]

lemma moveBlock_keeps {γ : Type} (g : DeviceRegion → γ) (hg : ∀ d k, g (d.clear k) = g d)
    (hg' : ∀ d e, g (DeviceRegion.putMoved d e) = g d) (d : DeviceRegion) (src size dst : ℕ) :
    g (d.moveBlock src size dst) = g d := by
  rw [DeviceRegion.moveBlock_eq, foldl_keeps DeviceRegion.putMoved g hg', takeMoved_keeps g hg]

/-! ### Storing -/

/-- The pairs of a batch lie in the table, at distinct offsets. -/
lemma of_checkBatch {table : RuleTable} {fields : FieldSet} {bounds : PriorityRange}
    {seen : List ℕ} {batch : List (ℕ × Rule)} {u : Unit}
    (h : checkBatch table fields bounds seen batch = .ok u) :
    (∀ e ∈ batch, e.1 < table.capacity ∧ e.1 ∉ seen) ∧ (batch.map Prod.fst).Nodup := by
  induction batch generalizing seen with
  | nil => exact ⟨fun e he => absurd he List.not_mem_nil, List.nodup_nil⟩
  | cons e batch ih =>
      simp only [checkBatch, bind_eq_ok, guard_eq_ok, RuleTable.checkOffset_eq_ok] at h
      obtain ⟨_, hlt, hseen, _, -, hrest⟩ := h
      obtain ⟨hmem, hnodup⟩ := ih hrest
      refine ⟨fun e' he' => ?_, ?_⟩
      · rcases List.mem_cons.mp he' with rfl | he'
        · exact ⟨hlt, by simpa using hseen⟩
        · exact ⟨(hmem e' he').1, fun hs => (hmem e' he').2 (List.mem_cons_of_mem _ hs)⟩
      · rw [List.map_cons, List.nodup_cons]
        refine ⟨fun hin => ?_, hnodup⟩
        obtain ⟨e', he', heq⟩ := List.mem_map.mp hin
        exact (hmem e' he').2 (heq ▸ List.mem_cons_self ..)

lemma count_concat_refs (rules : List Rule) (e : PoolEntry) :
    (PoolRefs.concat (rules.map Rule.refs)).count e = (rules.map fun r => r.refs.count e).sum := by
  rw [PoolRefs.count_concat, List.map_map]
  rfl

/-- A batch exchanges the references of the rules that it replaces for those of its own. -/
lemma count_refs_setAll {table table' : RuleTable} {offsets : List ℕ} {rules replaced : List Rule}
    (hlen : offsets.length = rules.length)
    (h : table.setAll (offsets.zip rules) = .ok (replaced, table')) (e : PoolEntry) :
    table'.refs.count e + (PoolRefs.concat (replaced.map Rule.refs)).count e =
      table.refs.count e + (PoolRefs.concat (rules.map Rule.refs)).count e := by
  have hrules : ((offsets.zip rules).map fun e' => e'.2.refs.count e) =
      rules.map fun r => r.refs.count e := by
    calc ((offsets.zip rules).map fun e' => e'.2.refs.count e)
        = ((offsets.zip rules).map Prod.snd).map fun r => r.refs.count e := by
          rw [List.map_map]
          rfl
      _ = rules.map fun r => r.refs.count e := by rw [List.map_snd_zip hlen.ge]
  rw [RuleTable.refs_count, RuleTable.refs_count, count_concat_refs, count_concat_refs,
    RuleTable.total_setAll (fun r => r.refs.count e) h, hrules]

/-- Clearing slots gives up the references of the rules in them. -/
lemma count_refs_clearAll {table table' : RuleTable} {offsets : List ℕ} {cleared : List Rule}
    (h : table.clearAll offsets = .ok (cleared, table')) (e : PoolEntry) :
    table'.refs.count e + (PoolRefs.concat (cleared.map Rule.refs)).count e =
      table.refs.count e := by
  rw [RuleTable.refs_count, RuleTable.refs_count, count_concat_refs]
  exact RuleTable.total_clearAll _ h

/-- The device takes images that lie in the region. -/
lemma apply_writeRules (hd : t.regions.get? id = some d) {images : List RuleImage}
    (h : ∀ image ∈ images, image.offset < d.hwSize) :
    t.apply (.writeRules id images) =
      .ok (t.setRegion id (images.foldl DeviceRegion.write d), false) := by
  have hcheck : images.forM (fun image => d.checkOffset image.offset) = .ok () := by
    refine forM_eq_ok.mpr fun image himage => ?_
    rw [DeviceRegion.checkOffset, if_neg (Nat.not_le.mpr (h image himage))]
  simp only [DeviceTables.apply, DeviceTables.region, hd, ok_bind, hcheck]
  rfl

theorem lands_setRules (h : c.InStep t) {offsets : List ℕ} {rules : List Rule}
    {change : Change Unit} (hp : c.setRules id offsets rules = .ok change)
    (hroom : room → ∀ e, c.pools.refCount e +
      (PoolRefs.concat (rules.map Rule.refs)).count e ≤ maxCount) :
    change.Lands (some .writeRules) t room := by
  simp only [setRules, bind_eq_ok, guard_eq_ok, Regions.get_eq_ok, not_not, ne_eq] at hp
  obtain ⟨r, hr, hlen, -, kt, -, _, hbatch, _, hrefs, hp⟩ := hp
  split at hp
  · simp only [pure_eq_ok] at hp
    subst hp
    exact Change.lands_quiet h
  simp only [pure_eq_ok] at hp
  subst hp
  obtain ⟨hmem, hnodup⟩ := of_checkBatch hbatch
  obtain ⟨d, hd, hm⟩ := h.mirrors.exists_region hr
  obtain ⟨acquired, hacq, hrec, hle, hexact⟩ := Pools.exists_acquire h.sound.refCount_le hrefs
  obtain ⟨replaced, table, hset⟩ := RuleTable.exists_setAll fun e he => (hmem e he).1
  have hreplaced : ∀ e,
      (PoolRefs.concat (replaced.map Rule.refs)).count e ≤ acquired.refCount e := by
    intro e
    rw [count_concat_refs, RuleTable.replaced_eq hnodup hset]
    refine le_trans (RuleTable.sum_filterMap_le_total _ r.table hnodup) ?_
    rw [← RuleTable.refs_count]
    exact le_trans (h.sound.refs_le hr e) (hle e)
  obtain ⟨pools, hrel, hrec', hgiven⟩ := Pools.exists_release hreplaced
  have hget : c.regions.get id = .ok r := Regions.get_eq_ok.mpr hr
  simp only [hacq, hget, hset, hrel, ok_bind]
  refine Change.lands_call _ (apply_writeRules hd fun image himage => ?_) fun hroom' => ?_
  · obtain ⟨e, he, rfl⟩ := List.mem_map.mp himage
    rw [hm.hwSize]
    exact lt_of_lt_of_le (hmem e he).1 (h.sound.capacity_le id r hr)
  · refine h.setTable hr hd (RuleTable.capacity_setAll hset)
      (foldl_keeps DeviceRegion.write DeviceRegion.hwSize (fun _ _ => rfl) _ _)
      (foldl_keeps DeviceRegion.write DeviceRegion.keyBlocks (fun _ _ => rfl) _ _)
      (hm.rules.writeRules hset) (hrec'.consistent (hrec.consistent h.sound.pools))
      (fun e => ?_) (fun e => ?_) _
    · have htaken := hexact (hroom hroom') e
      have hback := hgiven e
      have hexchange := count_refs_setAll hlen hset e
      omega
    · refine le_trans (Nat.le_of_add_right_le (hgiven e).le) ?_
      rw [hexact (hroom hroom') e]
      exact hroom hroom' e

/-! ### Deleting -/

/-- The listed offsets that hold a rule lie in the table. -/
lemma lt_of_occupiedOffsets {table : RuleTable} {offsets occupied : List ℕ}
    (h : occupiedOffsets table offsets = .ok occupied) : ∀ i ∈ occupied, i < table.capacity := by
  simp only [occupiedOffsets, bind_eq_ok, forM_eq_ok, RuleTable.checkOffset_eq_ok,
    pure_eq_ok] at h
  obtain ⟨_, hlt, rfl⟩ := h
  intro i hi
  exact hlt i (List.mem_filter.mp (List.mem_eraseDups.mp hi)).1

theorem lands_deleteRules (h : c.InStep t) {offsets : List ℕ} {change : Change Unit}
    (hp : c.deleteRules id offsets = .ok change) : change.Lands (some .clearRules) t room := by
  simp only [deleteRules, bind_eq_ok, Regions.get_eq_ok] at hp
  obtain ⟨r, hr, occupied, hoccupied, hp⟩ := hp
  split at hp
  · simp only [pure_eq_ok] at hp
    subst hp
    exact Change.lands_quiet h
  simp only [pure_eq_ok] at hp
  subst hp
  obtain ⟨d, hd, hm⟩ := h.mirrors.exists_region hr
  obtain ⟨cleared, table, hclear⟩ := RuleTable.exists_clearAll (lt_of_occupiedOffsets hoccupied)
  obtain ⟨pools, hrel, hrec, hgiven⟩ := Pools.exists_release fun e =>
    le_trans (Nat.le_of_add_left_le (count_refs_clearAll hclear e).le) (h.sound.refs_le hr e)
  have hget : c.regions.get id = .ok r := Regions.get_eq_ok.mpr hr
  simp only [hget, hclear, hrel, ok_bind]
  refine Change.lands_call (t.setRegion id (occupied.foldl DeviceRegion.clear d)) ?_ fun _ => ?_
  · simp only [DeviceTables.apply, DeviceTables.region, hd, ok_bind]
    rfl
  · refine h.setTable hr hd (RuleTable.capacity_clearAll hclear)
      (foldl_keeps DeviceRegion.clear DeviceRegion.hwSize (fun _ _ => rfl) _ _)
      (foldl_keeps DeviceRegion.clear DeviceRegion.keyBlocks (fun _ _ => rfl) _ _)
      (hm.rules.clearRules hclear) (hrec.consistent h.sound.pools) (fun e => ?_) (fun e => ?_) _
    · have hback := hgiven e
      have hsplit := count_refs_clearAll hclear e
      omega
    · exact le_trans (Nat.le_of_add_right_le (hgiven e).le) (h.sound.refCount_le e)

theorem lands_deleteAllRules (h : c.InStep t) {change : Change Unit}
    (hp : c.deleteAllRules id = .ok change) : change.Lands (some .clearRules) t room := by
  simp only [deleteAllRules, bind_eq_ok] at hp
  obtain ⟨r, -, hp⟩ := hp
  exact lands_deleteRules h hp

/-! ### Rearranging -/

/-- Rearranging the rules of a region asks nothing of the pools. -/
lemma InStep.rearrange (h : c.InStep t) (hr : c.regions.regions.get? id = some r)
    (hd : t.regions.get? id = some d) {d' : DeviceRegion} {table : RuleTable}
    (hcap : table.capacity = r.table.capacity) (hsize : d'.hwSize = d.hwSize)
    (hblocks : d'.keyBlocks = d.keyBlocks) (hrules : d'.Holds table)
    (hcount : ∀ e, table.refs.count e = r.table.refs.count e) :
    { c with regions := c.regions.setTable id table }.InStep (t.setRegion id d') :=
  h.setTable hr hd hcap hsize hblocks hrules h.sound.pools (fun e => by rw [hcount e])
    h.sound.refCount_le c.stats

theorem lands_moveBlock (h : c.InStep t) {src size dst : ℕ} {change : Change Unit}
    (hp : c.moveBlock id src size dst = .ok change) : change.Lands (some .moveRules) t room := by
  simp only [moveBlock, bind_eq_ok, Regions.get_eq_ok, RuleTable.checkBlock_eq_ok,
    pure_eq_ok] at hp
  obtain ⟨r, hr, _, hblock, rfl⟩ := hp
  obtain ⟨d, hd, hm⟩ := h.mirrors.exists_region hr
  obtain ⟨table, hmove⟩ : ∃ table, r.table.moveBlock src size dst = .ok table :=
    ⟨_, RuleTable.moveBlock_eq_ok.mpr ⟨hblock, rfl⟩⟩
  have hget : c.regions.get id = .ok r := Regions.get_eq_ok.mpr hr
  have hcap : r.table.capacity ≤ d.hwSize := by
    rw [hm.hwSize]
    exact h.sound.capacity_le id r hr
  have hbounds : ¬(d.hwSize < src + size ∨ d.hwSize < dst + size) := by
    omega
  simp only [hget, hmove, ok_bind]
  refine Change.lands_call (t.setRegion id (d.moveBlock src size dst)) ?_ fun _ => ?_
  · simp only [DeviceTables.apply, DeviceTables.moveRules, DeviceTables.region, hd, ok_bind,
      hbounds, if_false]
    rfl
  · refine h.rearrange hr hd (RuleTable.capacity_moveBlock hmove)
      (moveBlock_keeps DeviceRegion.hwSize (fun _ _ => rfl) (fun _ _ => rfl) _ _ _ _)
      (moveBlock_keeps DeviceRegion.keyBlocks (fun _ _ => rfl) (fun _ _ => rfl) _ _ _ _)
      (hm.rules.moveBlock hmove) fun e => ?_
    rw [RuleTable.refs_count, RuleTable.refs_count, RuleTable.total_moveBlock hmove]

/-- A shift changes priorities of rules of the table. -/
lemma exists_rule?_of_planShift {table : RuleTable} {low high : ℕ} {delta : ℤ}
    {bounds : PriorityRange} {updates : List (ℕ × ℕ)}
    (h : table.planShift low high delta bounds = .ok updates) {u : ℕ × ℕ} (hu : u ∈ updates) :
    ∃ rule, table.rule? u.1 = some rule := by
  simp only [RuleTable.planShift, guard_eq_ok] at h
  obtain ⟨e, he, hf⟩ := exists_of_mem_mapM h.2 hu
  simp only [bind_eq_ok, pure_eq_ok] at hf
  obtain ⟨_, -, rfl⟩ := hf
  exact ⟨e.2, RuleTable.mem_occupied_iff.mp (List.mem_filter.mp he).1⟩

theorem lands_shiftPriority (h : c.InStep t) {low high : ℕ} {delta : ℤ} {change : Change Unit}
    (hp : c.shiftPriority id low high delta = .ok change) :
    change.Lands (some .setRulePriorities) t room := by
  simp only [shiftPriority, bind_eq_ok, Regions.get_eq_ok] at hp
  obtain ⟨r, hr, updates, hplan, hp⟩ := hp
  split at hp
  · simp only [pure_eq_ok] at hp
    subst hp
    exact Change.lands_quiet h
  simp only [pure_eq_ok] at hp
  subst hp
  obtain ⟨d, hd, hm⟩ := h.mirrors.exists_region hr
  have hget : c.regions.get id = .ok r := Regions.get_eq_ok.mpr hr
  have hall : ¬(updates.any fun u => !d.rules.contains u.1) = true := by
    rw [Bool.not_eq_true, List.any_eq_false]
    intro u hu
    obtain ⟨rule, hrule⟩ := exists_rule?_of_planShift hplan hu
    rw [hm.rules.contains hrule]
    decide
  simp only [hget, ok_bind]
  refine Change.lands_call (t.setRegion id (updates.foldl DeviceRegion.setPriority d)) ?_
    fun _ => ?_
  · simp only [DeviceTables.apply, DeviceTables.setRulePriorities, DeviceTables.region, hd, ok_bind,
      if_neg hall]
    rfl
  · refine h.rearrange hr hd (RuleTable.capacity_setPriorities updates)
      (foldl_keeps DeviceRegion.setPriority DeviceRegion.hwSize (fun _ _ => rfl) _ _)
      (foldl_keeps DeviceRegion.setPriority DeviceRegion.keyBlocks (fun _ _ => rfl) _ _)
      (hm.rules.setPriorities updates) fun e => ?_
    rw [RuleTable.refs_count, RuleTable.refs_count]
    exact RuleTable.total_setPriorities (fun _ _ => rfl) updates

end AclPlane.Core
