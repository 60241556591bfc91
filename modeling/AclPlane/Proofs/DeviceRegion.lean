import AclPlane.Device
import AclPlane.Proofs.Rearrange

/-!
Device regions as images of rule tables.

`DeviceRegion.Holds` says that a region of the device holds the images of a table's rules and
nothing else.  Every change of a table has a counterpart in the device that keeps it:
`Holds.writeRules`, `Holds.clearRules`, `Holds.moveBlock` and `Holds.setPriorities`.

The device moves a block by taking images out of the occupied slots alone, whereas a table takes
the content of every slot.  `get?_moveBlock_target` and `get?_moveBlock_of_not_mem` describe the
outcome in the same terms as for tables.
-/

namespace AclPlane

namespace DeviceRegion

variable {d : DeviceRegion} {t t' : RuleTable} {offset k src size dst : ℕ} {r : Rule}

/-- The images in the region are those of the rules of the table. -/
def Holds (d : DeviceRegion) (t : RuleTable) : Prop :=
  ∀ i, d.rules.get? i = (t.rule? i).map fun r => r.image i

lemma Holds.congr (h : d.Holds t) (ht : ∀ i, t'.rule? i = t.rule? i) : d.Holds t' := by
  intro i
  rw [h i, ht i]

lemma Holds.contains (h : d.Holds t) (hr : t.rule? k = some r) : d.rules.contains k = true := by
  rw [OrderedMap.contains, h k, hr]
  rfl

/-! ### Writing and clearing -/

lemma Holds.write (h : d.Holds t) (hlt : offset < t.capacity) (r : Rule) :
    (d.write (r.image offset)).Holds (t.put offset (some r)) := by
  intro i
  rw [RuleTable.rule?_put hlt]
  simp only [DeviceRegion.write, OrderedMap.get?_insert]
  by_cases hi : i = offset
  · subst hi
    rw [if_pos (show i = (r.image i).offset from rfl), if_pos rfl]
    rfl
  · rw [if_neg hi, if_neg (show ¬i = (r.image offset).offset from hi)]
    exact h i

lemma Holds.clear (h : d.Holds t) (hlt : offset < t.capacity) :
    (d.clear offset).Holds (t.put offset none) := by
  intro i
  rw [RuleTable.rule?_put hlt]
  simp only [DeviceRegion.clear, OrderedMap.get?_erase]
  by_cases hi : i = offset
  · rw [if_pos hi, if_pos hi]
    rfl
  · rw [if_neg hi, if_neg hi]
    exact h i

/-- Writing a batch to the device goes along with storing it in the table. -/
lemma Holds.writeRules {batch : List (ℕ × Rule)} {replaced : List Rule} (h : d.Holds t)
    (hset : t.setAll batch = .ok (replaced, t')) :
    ((batch.map fun e => e.2.image e.1).foldl DeviceRegion.write d).Holds t' := by
  induction batch generalizing d t replaced with
  | nil =>
      cases hset
      exact h
  | cons e batch ih =>
      have hlt := RuleTable.lt_of_setAll hset
      obtain ⟨rest, hrest, -⟩ := (RuleTable.setAll_cons hlt).mp hset
      exact ih (h.write hlt e.2) hrest

/-- Clearing slots of the device goes along with emptying those of the table. -/
lemma Holds.clearRules {offsets : List ℕ} {cleared : List Rule} (h : d.Holds t)
    (hclear : t.clearAll offsets = .ok (cleared, t')) :
    (offsets.foldl DeviceRegion.clear d).Holds t' := by
  induction offsets generalizing d t cleared with
  | nil =>
      cases hclear
      exact h
  | cons offset offsets ih =>
      have hlt := RuleTable.lt_of_clearAll hclear
      obtain ⟨rest, hrest, -⟩ := (RuleTable.clearAll_cons hlt).mp hclear
      exact ih (h.clear hlt) hrest

/-! ### Priorities -/

lemma Holds.setPriority (h : d.Holds t) (u : ℕ × ℕ) :
    (d.setPriority u).Holds (t.setPriorities [u]) := by
  intro i
  rw [RuleTable.rule?_setPriorities_singleton]
  simp only [DeviceRegion.setPriority, OrderedMap.modify]
  have hu := h u.1
  cases hr : t.rule? u.1 with
  | none =>
      rw [hr, Option.map_none] at hu
      simp only [hu]
      by_cases hi : i = u.1
      · rw [if_pos hi, h i, hi, hr]
        rfl
      · rw [if_neg hi]
        exact h i
  | some r =>
      rw [hr] at hu
      rw [hu]
      simp only [Option.map_some, OrderedMap.get?_insert]
      by_cases hi : i = u.1
      · rw [if_pos hi, if_pos hi, hi, hr]
        rfl
      · rw [if_neg hi, if_neg hi]
        exact h i

/-- New priorities in the device go along with those in the table. -/
lemma Holds.setPriorities (h : d.Holds t) (updates : List (ℕ × ℕ)) :
    (updates.foldl DeviceRegion.setPriority d).Holds (t.setPriorities updates) := by
  induction updates generalizing d t with
  | nil => exact h
  | cons u updates ih =>
      rw [RuleTable.setPriorities_cons]
      exact ih (h.setPriority u)

/-! ### Block moves -/

/-- What is taken out of a slot: its image with the offset it goes to, and its activity bit. -/
def taken (d : DeviceRegion) (m : ℕ × ℕ) : Option (RuleImage × Bool) :=
  (d.rules.get? m.1).map fun image => ({ image with offset := m.2 }, d.hits.has m.1)

lemma has_erase_of_ne {hits : OrderedSet ℕ} {i j : ℕ} (h : i ≠ j) :
    OrderedSet.has (hits.erase j) i = hits.has i := by
  rw [OrderedSet.has, OrderedMap.contains, OrderedMap.get?_erase, if_neg h]
  rfl

lemma taken_clear_of_ne {m : ℕ × ℕ} (h : m.1 ≠ offset) : (d.clear offset).taken m = d.taken m := by
  simp only [taken, DeviceRegion.clear, OrderedMap.get?_erase, if_neg h, has_erase_of_ne h]

lemma takeMoved_cons_of_none {m : ℕ × ℕ} (h : d.rules.get? m.1 = none) (moves : List (ℕ × ℕ)) :
    d.takeMoved (m :: moves) = d.takeMoved moves := by
  rw [DeviceRegion.takeMoved, h]

lemma takeMoved_cons_of_some {m : ℕ × ℕ} {image : RuleImage} (h : d.rules.get? m.1 = some image)
    (moves : List (ℕ × ℕ)) : d.takeMoved (m :: moves) =
      (({ image with offset := m.2 }, d.hits.has m.1) :: ((d.clear m.1).takeMoved moves).1,
        ((d.clear m.1).takeMoved moves).2) := by
  rw [DeviceRegion.takeMoved, h]

/-- Taking distinct slots hands out their images, and empties those slots. -/
lemma takeMoved_spec {moves : List (ℕ × ℕ)} (hnodup : (moves.map Prod.fst).Nodup)
    (d : DeviceRegion) :
    (d.takeMoved moves).1 = moves.filterMap d.taken ∧
      ∀ i, (d.takeMoved moves).2.rules.get? i =
        if i ∈ moves.map Prod.fst then none else d.rules.get? i := by
  induction moves generalizing d with
  | nil => exact ⟨rfl, fun i => rfl⟩
  | cons m moves ih =>
      rw [List.map_cons, List.nodup_cons] at hnodup
      cases hm : d.rules.get? m.1 with
      | none =>
          obtain ⟨hmoved, hleft⟩ := ih hnodup.2 d
          rw [takeMoved_cons_of_none hm]
          refine ⟨?_, fun i => ?_⟩
          · rw [hmoved, List.filterMap_cons_none]
            rw [taken, hm]
            rfl
          · rw [hleft i, List.map_cons]
            by_cases hi : i = m.1
            · rw [hi, if_neg hnodup.1, if_pos (List.mem_cons_self ..), hm]
            · simp only [List.mem_cons, hi, false_or]
      | some image =>
          obtain ⟨hmoved, hleft⟩ := ih hnodup.2 (d.clear m.1)
          have hlater : moves.filterMap (d.clear m.1).taken = moves.filterMap d.taken := by
            refine List.filterMap_congr fun m' hm' => taken_clear_of_ne ?_
            intro heq
            exact hnodup.1 (heq ▸ List.mem_map_of_mem hm')
          rw [takeMoved_cons_of_some hm]
          refine ⟨?_, fun i => ?_⟩
          · rw [hmoved, hlater, List.filterMap_cons_some]
            rw [taken, hm]
            rfl
          · rw [hleft i, List.map_cons, DeviceRegion.clear, OrderedMap.get?_erase]
            by_cases hi : i = m.1
            · simp only [List.mem_cons, hi, true_or, if_true, ite_self]
            · simp only [List.mem_cons, hi, false_or, if_false]

lemma get?_putAll_of_not_mem {moved : List (RuleImage × Bool)}
    (h : k ∉ moved.map fun e => e.1.offset) (d : DeviceRegion) :
    (moved.foldl putMoved d).rules.get? k = d.rules.get? k := by
  induction moved generalizing d with
  | nil => rfl
  | cons e moved ih =>
      rw [List.map_cons, List.mem_cons, not_or] at h
      rw [List.foldl_cons, ih h.2, putMoved, OrderedMap.get?_insert, if_neg h.1]

lemma get?_putAll_of_mem {moved : List (RuleImage × Bool)}
    (hnodup : (moved.map fun e => e.1.offset).Nodup) {e : RuleImage × Bool} (he : e ∈ moved)
    (d : DeviceRegion) : (moved.foldl putMoved d).rules.get? e.1.offset = some e.1 := by
  induction moved generalizing d with
  | nil => cases he
  | cons e' moved ih =>
      rw [List.map_cons, List.nodup_cons] at hnodup
      rw [List.foldl_cons]
      rcases List.mem_cons.mp he with rfl | he
      · rw [get?_putAll_of_not_mem hnodup.1, putMoved, OrderedMap.get?_insert_self]
      · exact ih hnodup.2 he _

/-- The images that are taken go to some of the targets. -/
lemma sublist_offsets_taken (d : DeviceRegion) (moves : List (ℕ × ℕ)) :
    ((moves.filterMap d.taken).map fun e => e.1.offset).Sublist (moves.map Prod.snd) := by
  induction moves with
  | nil => exact List.Sublist.refl _
  | cons m moves ih =>
      rw [List.map_cons]
      cases hm : d.rules.get? m.1 with
      | none =>
          rw [List.filterMap_cons_none (by rw [taken, hm]; rfl)]
          exact ih.cons _
      | some image =>
          rw [List.filterMap_cons_some
            (show d.taken m = some ({ image with offset := m.2 }, d.hits.has m.1) by
              rw [taken, hm]; rfl)]
          exact ih.cons_cons _

/-- Nothing is put into the target of an empty slot. -/
lemma not_mem_offsets_taken {moves : List (ℕ × ℕ)} {m : ℕ × ℕ}
    (hsnd : (moves.map Prod.snd).Nodup) (hm : m ∈ moves)
    (hnone : d.rules.get? m.1 = none) :
    m.2 ∉ (moves.filterMap d.taken).map fun e => e.1.offset := by
  intro hmem
  obtain ⟨e, he, heq⟩ := List.mem_map.mp hmem
  obtain ⟨m', hm', htaken⟩ := List.mem_filterMap.mp he
  rw [taken, Option.map_eq_some_iff] at htaken
  obtain ⟨image, himage, rfl⟩ := htaken
  have hsame : m' = m := List.inj_on_of_nodup_map hsnd hm' hm heq
  rw [hsame, hnone] at himage
  cases himage

lemma moveBlock_eq (d : DeviceRegion) (src size dst : ℕ) :
    d.moveBlock src size dst = (d.takeMoved (relocations src size dst)).1.foldl putMoved
      (d.takeMoved (relocations src size dst)).2 := rfl

/-- The image of a slot that is relocated arrives at its target. -/
theorem get?_moveBlock_target {m : ℕ × ℕ} (hm : m ∈ relocations src size dst) (d : DeviceRegion) :
    (d.moveBlock src size dst).rules.get? m.2 =
      (d.rules.get? m.1).map fun image => { image with offset := m.2 } := by
  obtain ⟨hmoved, hleft⟩ := takeMoved_spec (nodup_fst_relocations src size dst) d
  have hsnd := nodup_snd_relocations src size dst
  rw [moveBlock_eq, hmoved]
  cases himage : d.rules.get? m.1 with
  | some image =>
      have htaken : d.taken m = some ({ image with offset := m.2 }, d.hits.has m.1) := by
        rw [taken, himage]
        rfl
      exact get?_putAll_of_mem ((sublist_offsets_taken d _).nodup hsnd)
        (List.mem_filterMap.mpr ⟨m, hm, htaken⟩) _
  | none =>
      -- nothing is put into the target, which has been emptied
      rw [get?_putAll_of_not_mem, hleft, if_pos]
      · rfl
      · exact (perm_relocations src size dst).subset (List.mem_map_of_mem hm)
      · exact not_mem_offsets_taken hsnd hm himage

/-- A slot that is not relocated keeps its image. -/
theorem get?_moveBlock_of_not_mem (hk : k ∉ (relocations src size dst).map Prod.fst)
    (d : DeviceRegion) : (d.moveBlock src size dst).rules.get? k = d.rules.get? k := by
  obtain ⟨hmoved, hleft⟩ := takeMoved_spec (nodup_fst_relocations src size dst) d
  rw [moveBlock_eq, hmoved, get?_putAll_of_not_mem, hleft, if_neg hk]
  intro hmem
  exact hk ((perm_relocations src size dst).subset ((sublist_offsets_taken d _).subset hmem))

/-- A block move of the device goes along with that of the table. -/
lemma Holds.moveBlock (h : d.Holds t) (hmove : t.moveBlock src size dst = .ok t') :
    (d.moveBlock src size dst).Holds t' := by
  intro i
  by_cases hi : i ∈ (relocations src size dst).map Prod.fst
  · obtain ⟨m, hm, rfl⟩ := List.mem_map.mp ((perm_relocations src size dst).symm.subset hi)
    rw [get?_moveBlock_target hm, RuleTable.rule?_moveBlock_target hmove hm, h m.1]
    cases t.rule? m.1 <;> rfl
  · rw [get?_moveBlock_of_not_mem hi, RuleTable.rule?_moveBlock_of_not_mem hmove hi]
    exact h i

end DeviceRegion

end AclPlane
