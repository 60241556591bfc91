import AclPlane.Proofs.Readings

/-!
The activity bits of a device region under every change of it.

Hits are kept apart from the images.  What a change does to them is told by their offsets, and for a
block move it takes that no slot without an image is hit, since the device moves only what it finds.

* `DeviceRegion.isHit_write`, `isHit_clear`, `isHit_hit`: changes of one slot.
* `DeviceRegion.isHit_setPriority`: priorities have no bits.
* `DeviceRegion.isHit_moveBlock_target`, `isHit_moveBlock_of_not_mem`: a bit goes where its image
  goes.
-/

namespace AclPlane.DeviceRegion

variable {d : DeviceRegion} {offset k src size dst : ℕ}

/-! ### One slot -/

/-- A rule that is written starts with its bit clear. -/
lemma isHit_write (d : DeviceRegion) (image : RuleImage) (k : ℕ) :
    (d.write image).isHit k = (d.isHit k && k != image.offset) := d.isHit_clearHit image.offset k

/-- A rule that is cleared takes its bit with it. -/
lemma isHit_clear (d : DeviceRegion) (offset k : ℕ) :
    (d.clear offset).isHit k = (d.isHit k && k != offset) := d.isHit_clearHit offset k

lemma isHit_hit (d : DeviceRegion) (offset k : ℕ) :
    (d.hit offset).isHit k = (d.isHit k || k == offset) := by
  rw [isHit, hit, OrderedSet.has, OrderedMap.contains, OrderedMap.get?_insert]
  by_cases hk : k = offset
  · rw [if_pos hk, hk, beq_self_eq_true, Bool.or_true]
    rfl
  · rw [if_neg hk, beq_false_of_ne hk, Bool.or_false]
    rfl

/-- Another priority keeps the bit. -/
lemma isHit_setPriority (d : DeviceRegion) (update : ℕ × ℕ) (k : ℕ) :
    (d.setPriority update).isHit k = d.isHit k := rfl

/-! ### Block moves -/

/-- Only slots with an image are hit. -/
def HitsHeld (d : DeviceRegion) : Prop := ∀ i, d.rules.get? i = none → d.isHit i = false

lemma HitsHeld.clear (h : d.HitsHeld) (offset : ℕ) : (d.clear offset).HitsHeld := by
  intro i hi
  rw [isHit_clear]
  by_cases heq : i = offset
  · rw [heq, bne_self_eq_false, Bool.and_false]
  · have hkept : (d.clear offset).rules.get? i = d.rules.get? i := by
      rw [DeviceRegion.clear, OrderedMap.get?_erase, if_neg heq]
    rw [h i (hkept ▸ hi), Bool.false_and]

/-- Taking slots leaves none of them hit. -/
lemma isHit_takeMoved (h : d.HitsHeld) (moves : List (ℕ × ℕ)) (k : ℕ) :
    (d.takeMoved moves).2.isHit k = (d.isHit k && !(moves.map Prod.fst).contains k) := by
  induction moves generalizing d with
  | nil => simp [takeMoved]
  | cons m moves ih =>
      rw [List.map_cons, List.contains_cons, Bool.not_or]
      cases hm : d.rules.get? m.1 with
      | none =>
          rw [takeMoved_cons_of_none hm, ih h]
          by_cases hk : k = m.1
          · rw [hk, h m.1 hm, Bool.false_and, Bool.false_and]
          · rw [beq_false_of_ne hk, Bool.not_false, Bool.true_and]
      | some image =>
          rw [takeMoved_cons_of_some hm, ih (h.clear m.1), isHit_clear, Bool.and_assoc]
          rfl

/-- A rule that has been moved brings its bit. -/
lemma isHit_putMoved (d : DeviceRegion) (e : RuleImage × Bool) (k : ℕ) :
    (putMoved d e).isHit k = (d.isHit k || (k == e.1.offset && e.2)) := by
  cases hbit : e.2 with
  | false => simp [putMoved, hbit, isHit]
  | true =>
      have hput : (putMoved d e).isHit k = (d.hit e.1.offset).isHit k := by
        simp only [putMoved, hbit, if_true, isHit, hit]
      rw [hput, isHit_hit, Bool.and_true]

lemma isHit_putAll_of_not_mem {moved : List (RuleImage × Bool)}
    (h : k ∉ moved.map fun e => e.1.offset) (d : DeviceRegion) :
    (moved.foldl putMoved d).isHit k = d.isHit k := by
  induction moved generalizing d with
  | nil => rfl
  | cons e moved ih =>
      rw [List.map_cons, List.mem_cons, not_or] at h
      rw [List.foldl_cons, ih h.2, isHit_putMoved, beq_false_of_ne h.1, Bool.false_and,
        Bool.or_false]

/-- Where a moved rule lands, its own bit is the only one that is added. -/
lemma isHit_putAll_of_mem {moved : List (RuleImage × Bool)}
    (hnodup : (moved.map fun e => e.1.offset).Nodup) {e : RuleImage × Bool} (he : e ∈ moved)
    (d : DeviceRegion) :
    (moved.foldl putMoved d).isHit e.1.offset = (d.isHit e.1.offset || e.2) := by
  induction moved generalizing d with
  | nil => cases he
  | cons e' moved ih =>
      rw [List.map_cons, List.nodup_cons] at hnodup
      rw [List.foldl_cons]
      rcases List.mem_cons.mp he with rfl | he
      · rw [isHit_putAll_of_not_mem hnodup.1, isHit_putMoved, beq_self_eq_true, Bool.true_and]
      · have hne : e.1.offset ≠ e'.1.offset := by
          intro heq
          exact hnodup.1 (heq ▸ List.mem_map_of_mem he)
        rw [ih hnodup.2 he, isHit_putMoved, beq_false_of_ne hne, Bool.false_and, Bool.or_false]

/-- The bit of a slot that is relocated arrives at its target. -/
theorem isHit_moveBlock_target (h : d.HitsHeld) {m : ℕ × ℕ} (hm : m ∈ relocations src size dst) :
    (d.moveBlock src size dst).isHit m.2 = d.isHit m.1 := by
  obtain ⟨hmoved, -⟩ := takeMoved_spec (nodup_fst_relocations src size dst) d
  have hsnd := nodup_snd_relocations src size dst
  have hleft : (d.takeMoved (relocations src size dst)).2.isHit m.2 = false := by
    have hmem : m.2 ∈ (relocations src size dst).map Prod.fst :=
      (perm_relocations src size dst).subset (List.mem_map_of_mem hm)
    rw [isHit_takeMoved h, List.contains_iff_mem.mpr hmem, Bool.not_true, Bool.and_false]
  rw [moveBlock_eq, hmoved]
  cases himage : d.rules.get? m.1 with
  | none =>
      rw [isHit_putAll_of_not_mem (not_mem_offsets_taken hsnd hm himage), hleft, h m.1 himage]
  | some image =>
      have htaken : d.taken m = some ({ image with offset := m.2 }, d.isHit m.1) := by
        rw [taken, himage]
        rfl
      have hput := isHit_putAll_of_mem ((sublist_offsets_taken d _).nodup hsnd)
        (List.mem_filterMap.mpr ⟨m, hm, htaken⟩) (d.takeMoved (relocations src size dst)).2
      rw [hleft, Bool.false_or] at hput
      exact hput

/-- A slot that is not relocated keeps its bit. -/
theorem isHit_moveBlock_of_not_mem (h : d.HitsHeld)
    (hk : k ∉ (relocations src size dst).map Prod.fst) :
    (d.moveBlock src size dst).isHit k = d.isHit k := by
  obtain ⟨hmoved, -⟩ := takeMoved_spec (nodup_fst_relocations src size dst) d
  have hcontains : ((relocations src size dst).map Prod.fst).contains k = false := by
    rw [Bool.eq_false_iff, ne_eq, List.contains_iff_mem]
    exact hk
  rw [moveBlock_eq, hmoved, isHit_putAll_of_not_mem, isHit_takeMoved h, hcontains, Bool.not_false,
    Bool.and_true]
  intro hmem
  exact hk ((perm_relocations src size dst).subset ((sublist_offsets_taken d _).subset hmem))

end AclPlane.DeviceRegion
