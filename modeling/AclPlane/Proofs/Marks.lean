import AclPlane.Proofs.Hits

/-!
Rules that carry bits of their own.

The device keeps its activity bits by offsets.  `Marks` are what they stand for: the rules of a
region by their offsets, each of them with its bit.  Whatever is done to the rules, each takes its
bit along.

* `Marks.store`, `drop`, `relocate`, `shift`, `hit`, `clear`: what becomes of the rules and their
  bits.
* `Marks.readings`: the bits that are read one after another.
* `Marks.Fit`: the rules are those of a table, and the bits are those of a device region.
* `Marks.Fit.store` and so on: table and device region change along with the marks.
-/

namespace AclPlane

/-- The rule after a shift of the priorities in a band. -/
def Rule.shift (low high : ℕ) (delta : ℤ) (r : Rule) : Rule :=
  if RuleTable.inBand low high r.priority then { r with priority := (r.priority + delta).toNat }
  else r

/-- The rules of a region by their offsets, each with its bit. -/
def Marks : Type := ℕ → Option (Rule × Bool)

namespace Marks

/-! ### What is done to the rules -/

/-- No rules. -/
def none : Marks := fun _ => Option.none

/-- The rule at an offset. -/
def rule? (m : Marks) (offset : ℕ) : Option Rule := (m offset).map Prod.fst

/-- The bit of the rule at an offset; without a rule it is not set. -/
def bit (m : Marks) (offset : ℕ) : Bool := (m offset).any Prod.snd

/-- Other contents for a slot. -/
def put (m : Marks) (offset : ℕ) (x : Option (Rule × Bool)) : Marks :=
  fun i => if i = offset then x else m i

/-- Stores rules, one after another, each with its bit clear. -/
def store (m : Marks) (batch : List (ℕ × Rule)) : Marks :=
  batch.foldl (fun m e => m.put e.1 (some (e.2, false))) m

/-- Drops the rules at the listed offsets, and their bits. -/
def drop (m : Marks) (offsets : List ℕ) : Marks :=
  fun i => if offsets.contains i then Option.none else m i

/-- Moves a block of slots: the rules in them take their bits along. -/
def relocate (m : Marks) (src size dst : ℕ) : Marks := fun i =>
  match (relocations src size dst).find? (·.2 == i) with
  | some move => m move.1
  | Option.none => m i

/-- Shifts the priorities in a band. -/
def shift (m : Marks) (low high : ℕ) (delta : ℤ) : Marks :=
  fun i => (m i).map fun e => (e.1.shift low high delta, e.2)

/-- Sets the bit of the rule at an offset, if there is one. -/
def hit (m : Marks) (offset : ℕ) : Marks := m.put offset ((m offset).map fun e => (e.1, true))

/-- Clears the bit of the rule at an offset, if there is one. -/
def clear (m : Marks) (offset : ℕ) : Marks := m.put offset ((m offset).map fun e => (e.1, false))

/-- The rules after their bits have been read, and cleared if asked to. -/
def afterReading (clear? : Bool) (offsets : List ℕ) (m : Marks) : Marks :=
  if clear? then offsets.foldl clear m else m

/-- The bits that are read one after another. -/
def readings (clear? : Bool) : Marks → List ℕ → List Bool
  | _, [] => []
  | m, offset :: offsets =>
    m.bit offset :: (m.afterReading clear? [offset]).readings clear? offsets

variable {m : Marks} {t t' : RuleTable} {d : DeviceRegion} {offset src size dst k : ℕ}

/-! ### Small facts -/

lemma eq_none_of_rule? (h : m.rule? k = Option.none) : m k = Option.none :=
  Option.map_eq_none_iff.mp h

lemma rule?_put (m : Marks) (offset : ℕ) (x : Option (Rule × Bool)) (k : ℕ) :
    (m.put offset x).rule? k = if k = offset then x.map Prod.fst else m.rule? k := by
  rw [rule?, put]
  split <;> rfl

lemma bit_put (m : Marks) (offset : ℕ) (x : Option (Rule × Bool)) (k : ℕ) :
    (m.put offset x).bit k = if k = offset then x.any Prod.snd else m.bit k := by
  rw [bit, put]
  split <;> rfl

lemma drop_cons (m : Marks) (offset : ℕ) (offsets : List ℕ) :
    m.drop (offset :: offsets) = (m.put offset Option.none).drop offsets := by
  funext i
  simp only [drop, put, List.contains_cons]
  by_cases hi : i = offset
  · simp [hi]
  · simp [hi]

lemma relocate_target {move : ℕ × ℕ} (h : move ∈ relocations src size dst) :
    m.relocate src size dst move.2 = m move.1 := by
  have hfind : (relocations src size dst).find? (·.2 == move.2) = some move :=
    find?_eq_some_of_nodup (nodup_snd_relocations src size dst) h
  rw [relocate, hfind]

lemma relocate_of_not_mem (h : k ∉ (relocations src size dst).map Prod.fst) :
    m.relocate src size dst k = m k := by
  have hfind : (relocations src size dst).find? (·.2 == k) = Option.none := by
    rw [List.find?_eq_none]
    intro move hmove htarget
    refine h ((perm_relocations src size dst).subset ?_)
    rw [← beq_iff_eq.mp htarget]
    exact List.mem_map_of_mem hmove
  rw [relocate, hfind]

/-- Where there is no rule, there is nothing to hit. -/
lemma hit_of_none (h : m offset = Option.none) : m.hit offset = m := by
  funext i
  rw [hit, put, h]
  split
  · next hi => rw [hi, h, Option.map_none]
  · rfl

/-! ### Marks of a region -/

/-- The rules are those of the table, and their bits are those of the device region. -/
structure Fit (m : Marks) (t : RuleTable) (d : DeviceRegion) : Prop where
  rules : ∀ i, m.rule? i = t.rule? i
  bits : ∀ i, m.bit i = d.isHit i

lemma Fit.bit_eq_false (h : m.Fit t d) (hk : t.rule? k = Option.none) : d.isHit k = false := by
  rw [← h.bits k, bit, eq_none_of_rule? ((h.rules k).trans hk)]
  rfl

lemma Fit.hitsHeld (h : m.Fit t d) (hd : d.Holds t) : d.HitsHeld := by
  intro i hi
  refine h.bit_eq_false ?_
  rw [hd i, Option.map_eq_none_iff] at hi
  exact hi

lemma fit_none (capacity : ℕ) (keyBlocks : List KeyBlockId) (hwSize : ℕ) :
    none.Fit (.empty capacity) ⟨keyBlocks, hwSize, .empty, .empty⟩ :=
  ⟨fun _ => (RuleTable.rule?_empty capacity).symm, fun _ => rfl⟩

/-- A rule is written with its bit clear. -/
lemma Fit.write (h : m.Fit t d) (hlt : offset < t.capacity) (r : Rule) :
    (m.put offset (some (r, false))).Fit (t.put offset (some r)) (d.write (r.image offset)) := by
  constructor
  · intro i
    rw [rule?_put, RuleTable.rule?_put hlt, h.rules i]
    rfl
  · intro i
    rw [bit_put, DeviceRegion.isHit_write, h.bits i]
    by_cases hi : i = offset
    · rw [if_pos hi, hi]
      simp [Rule.image]
    · rw [if_neg hi, bne_iff_ne.mpr (show i ≠ (r.image offset).offset from hi), Bool.and_true]

lemma Fit.erase (h : m.Fit t d) (hlt : offset < t.capacity) :
    (m.put offset Option.none).Fit (t.put offset Option.none) (d.clear offset) := by
  constructor
  · intro i
    rw [rule?_put, RuleTable.rule?_put hlt, h.rules i]
    rfl
  · intro i
    rw [bit_put, DeviceRegion.isHit_clear, h.bits i]
    by_cases hi : i = offset
    · rw [if_pos hi, hi, bne_self_eq_false, Bool.and_false]
      rfl
    · rw [if_neg hi, bne_iff_ne.mpr hi, Bool.and_true]

lemma Fit.store {batch : List (ℕ × Rule)} {replaced : List Rule} (h : m.Fit t d)
    (hset : t.setAll batch = .ok (replaced, t')) :
    (m.store batch).Fit t' ((batch.map fun e => e.2.image e.1).foldl DeviceRegion.write d) := by
  induction batch generalizing m t d replaced with
  | nil =>
      cases hset
      exact h
  | cons e batch ih =>
      have hlt := RuleTable.lt_of_setAll hset
      obtain ⟨rest, hrest, -⟩ := (RuleTable.setAll_cons hlt).mp hset
      exact ih (h.write hlt e.2) hrest

lemma Fit.drop {offsets : List ℕ} {cleared : List Rule} (h : m.Fit t d)
    (hclear : t.clearAll offsets = .ok (cleared, t')) :
    (m.drop offsets).Fit t' (offsets.foldl DeviceRegion.clear d) := by
  induction offsets generalizing m t d cleared with
  | nil =>
      cases hclear
      exact h
  | cons offset offsets ih =>
      have hlt := RuleTable.lt_of_clearAll hclear
      obtain ⟨rest, hrest, -⟩ := (RuleTable.clearAll_cons hlt).mp hclear
      rw [drop_cons]
      exact ih (h.erase hlt) hrest

/-- Where there is no rule, there is nothing to drop. -/
lemma Fit.drop_occupied {offsets occupied : List ℕ} (h : m.Fit t d)
    (hoccupied : Core.occupiedOffsets t offsets = .ok occupied) :
    m.drop occupied = m.drop offsets := by
  simp only [Core.occupiedOffsets, bind_eq_ok, pure_eq_ok] at hoccupied
  obtain ⟨_, -, rfl⟩ := hoccupied
  funext i
  rw [Marks.drop, Marks.drop]
  cases hr : t.rule? i with
  | none => rw [eq_none_of_rule? ((h.rules i).trans hr), ite_self, ite_self]
  | some r =>
      have hmem : ((offsets.filter fun offset => (t.rule? offset).isSome).eraseDups).contains i =
          offsets.contains i := by
        rw [Bool.eq_iff_iff]
        simp [hr]
      rw [hmem]

lemma Fit.drop_all (h : m.Fit t d) : m.drop (t.occupied.map Prod.fst) = none := by
  funext i
  rw [Marks.drop]
  split
  · rfl
  · next hnot =>
      rw [List.contains_iff_mem] at hnot
      refine eq_none_of_rule? ((h.rules i).trans ?_)
      cases hr : t.rule? i with
      | none => rfl
      | some r => exact absurd (List.mem_map_of_mem (RuleTable.mem_occupied_iff.mpr hr)) hnot

/-- In a block move the bits go where their rules go. -/
lemma Fit.relocate (h : m.Fit t d) (hd : d.Holds t)
    (hmove : t.moveBlock src size dst = .ok t') :
    (m.relocate src size dst).Fit t' (d.moveBlock src size dst) := by
  have hheld := h.hitsHeld hd
  constructor
  · intro i
    by_cases hi : i ∈ (relocations src size dst).map Prod.fst
    · obtain ⟨move, hm, rfl⟩ := List.mem_map.mp ((perm_relocations src size dst).symm.subset hi)
      rw [rule?, relocate_target hm, RuleTable.rule?_moveBlock_target hmove hm]
      exact h.rules move.1
    · rw [rule?, relocate_of_not_mem hi, RuleTable.rule?_moveBlock_of_not_mem hmove hi]
      exact h.rules i
  · intro i
    by_cases hi : i ∈ (relocations src size dst).map Prod.fst
    · obtain ⟨move, hm, rfl⟩ := List.mem_map.mp ((perm_relocations src size dst).symm.subset hi)
      rw [bit, relocate_target hm, DeviceRegion.isHit_moveBlock_target hheld hm]
      exact h.bits move.1
    · rw [bit, relocate_of_not_mem hi, DeviceRegion.isHit_moveBlock_of_not_mem hheld hi]
      exact h.bits i

lemma Fit.resize (h : m.Fit t d) {capacity hwSize : ℕ} (hresize : t.resize capacity = .ok t') :
    m.Fit t' { d with hwSize := hwSize } :=
  ⟨fun i => (h.rules i).trans (RuleTable.rule?_resize hresize i).symm, h.bits⟩

/-! ### Bits alone -/

lemma Fit.hit (h : m.Fit t d) {r : Rule} (hr : t.rule? offset = some r) :
    (m.hit offset).Fit t (d.hit offset) := by
  obtain ⟨e, he, -⟩ := Option.map_eq_some_iff.mp ((h.rules offset).trans hr)
  constructor
  · intro i
    rw [Marks.hit, rule?_put, ← h.rules i]
    split
    · next hi =>
        rw [hi, rule?, he]
        rfl
    · rfl
  · intro i
    rw [Marks.hit, bit_put, DeviceRegion.isHit_hit, ← h.bits i, he]
    by_cases hi : i = offset
    · rw [if_pos hi, hi, beq_self_eq_true, Bool.or_true]
      rfl
    · rw [if_neg hi, beq_false_of_ne hi, Bool.or_false]

lemma Fit.clearHit (h : m.Fit t d) (offset : ℕ) : (m.clear offset).Fit t (d.clearHit offset) := by
  constructor
  · intro i
    rw [clear, rule?_put, ← h.rules i]
    split
    · next hi =>
        rw [hi, rule?]
        cases m offset <;> rfl
    · rfl
  · intro i
    rw [clear, bit_put, DeviceRegion.isHit_clearHit, ← h.bits i]
    by_cases hi : i = offset
    · rw [if_pos hi, hi, bne_self_eq_false, Bool.and_false]
      cases m offset <;> rfl
    · rw [if_neg hi, bne_iff_ne.mpr hi, Bool.and_true]

lemma Fit.afterReading (h : m.Fit t d) (clear? : Bool) (offsets : List ℕ) :
    (m.afterReading clear? offsets).Fit t (d.afterReading clear? offsets) := by
  cases clear? with
  | false => exact h
  | true =>
      change (offsets.foldl clear m).Fit t (offsets.foldl DeviceRegion.clearHit d)
      induction offsets generalizing m d with
      | nil => exact h
      | cons offset offsets ih => exact ih (h.clearHit offset)

/-- The device reads the bits of the rules. -/
lemma Fit.readings (h : m.Fit t d) (clear? : Bool) (offsets : List ℕ) :
    d.readings clear? offsets = m.readings clear? offsets := by
  induction offsets generalizing m d with
  | nil => rfl
  | cons offset offsets ih =>
      rw [DeviceRegion.readings, Marks.readings, h.bits offset,
        ih (h.afterReading clear? [offset])]

/-! ### Priorities -/

/-- What a shift of priorities plans. -/
lemma eq_of_planShift {low high : ℕ} {delta : ℤ} {bounds : PriorityRange} {updates : List (ℕ × ℕ)}
    (h : t.planShift low high delta bounds = .ok updates) :
    updates = (t.occupied.filter fun e => RuleTable.inBand low high e.2.priority).map
      fun e => (e.1, (e.2.priority + delta).toNat) := by
  simp only [RuleTable.planShift, guard_eq_ok] at h
  refine eq_map_of_mapM h.2 fun e u hu => ?_
  simp only [bind_eq_ok, pure_eq_ok, RuleTable.shifted] at hu
  obtain ⟨priority, hshifted, rfl⟩ := hu
  split at hshifted
  · cases hshifted
  · split at hshifted
    · cases hshifted
    · cases hshifted
      rfl

/-- A shift of priorities, seen from one slot. -/
lemma rule?_of_planShift {low high : ℕ} {delta : ℤ} {bounds : PriorityRange}
    {updates : List (ℕ × ℕ)} (h : t.planShift low high delta bounds = .ok updates) (k : ℕ) :
    (t.setPriorities updates).rule? k = (t.rule? k).map (Rule.shift low high delta) := by
  have hmem : k ∈ updates.map Prod.fst ↔
      ∃ r, t.rule? k = some r ∧ RuleTable.inBand low high r.priority = true := by
    rw [eq_of_planShift h, List.map_map]
    simp only [List.mem_map, List.mem_filter, Function.comp_apply, Prod.exists,
      RuleTable.mem_occupied_iff]
    constructor
    · rintro ⟨_, r, ⟨hr, hband⟩, rfl⟩
      exact ⟨r, hr, hband⟩
    · rintro ⟨r, hr, hband⟩
      exact ⟨k, r, ⟨hr, hband⟩, rfl⟩
  have hpriority : ∀ u ∈ updates,
      u.2 = (t.rule? u.1).elim 0 fun r => (r.priority + delta).toNat := by
    intro u hu
    rw [eq_of_planShift h] at hu
    obtain ⟨e, he, rfl⟩ := List.mem_map.mp hu
    rw [RuleTable.mem_occupied_iff.mp (List.mem_filter.mp he).1]
    rfl
  have hset := RuleTable.rule?_setPriorities (t := t) (k := k)
    (fun k => (t.rule? k).elim 0 fun r => (r.priority + delta).toNat) hpriority
  rw [hset]
  cases hr : t.rule? k with
  | none => rw [Option.map_none, Option.map_none, ite_self]
  | some r =>
      simp only [Option.map_some, Option.elim_some, Rule.shift]
      by_cases hband : RuleTable.inBand low high r.priority = true
      · rw [if_pos (hmem.mpr ⟨r, hr, hband⟩), if_pos hband]
      · rw [if_neg hband, if_neg]
        intro hk
        obtain ⟨r', hr', hband'⟩ := hmem.mp hk
        cases hr.symm.trans hr'
        exact hband hband'

/-- Other priorities leave the bits alone. -/
lemma Fit.shift (h : m.Fit t d) {low high : ℕ} {delta : ℤ} {bounds : PriorityRange}
    {updates : List (ℕ × ℕ)} (hplan : t.planShift low high delta bounds = .ok updates) :
    (m.shift low high delta).Fit (t.setPriorities updates)
      (updates.foldl DeviceRegion.setPriority d) := by
  constructor
  · intro i
    rw [rule?_of_planShift hplan, ← h.rules i, rule?, rule?, Marks.shift, Option.map_map,
      Option.map_map]
    rfl
  · intro i
    have hits := Core.foldl_keeps DeviceRegion.setPriority (fun d => d.isHit i)
      (fun d update => d.isHit_setPriority update i) updates d
    rw [hits, ← h.bits i, bit, bit, Marks.shift]
    cases m i <;> rfl

end Marks

end AclPlane
