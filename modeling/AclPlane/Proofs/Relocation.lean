import AclPlane.Relocation
import Mathlib.Tactic

/-!
The moves of a block.

`relocations` lists, for a block and its destination, which slot goes where.

* `nodup_fst_relocations`, `nodup_snd_relocations`: no slot is left twice or taken twice, so that a
  move is found by either of its slots (`find?_eq_some_of_nodup`).
* `perm_relocations`: the slots that are taken are the slots that are left, so that nothing
  outside is disturbed and nothing is lost.
-/

namespace AclPlane

/-- Where keys differ, an element is found by its key. -/
lemma find?_eq_some_of_nodup {α : Type} {key : α → ℕ} {l : List α} {a : α}
    (hnodup : (l.map key).Nodup) (ha : a ∈ l) : l.find? (key · == key a) = some a := by
  have hsome : (l.find? (key · == key a)).isSome = true :=
    List.find?_isSome.mpr ⟨a, ha, beq_self_eq_true _⟩
  obtain ⟨found, hfound⟩ := Option.isSome_iff_exists.mp hsome
  have hkey : key found = key a := by simpa using List.find?_some hfound
  rw [hfound, List.inj_on_of_nodup_map hnodup (List.mem_of_find?_eq_some hfound) ha hkey]

variable {src size dst start slot : ℕ}

lemma mem_blockSlots : slot ∈ blockSlots start size ↔ start ≤ slot ∧ slot < start + size := by
  simp [blockSlots, List.mem_range'_1]

lemma inBlock_iff : inBlock start size slot = true ↔ slot ∈ blockSlots start size := by
  simp [inBlock, mem_blockSlots]

lemma nodup_blockSlots : (blockSlots start size).Nodup := List.nodup_range'

/-- The slots of one block that lie outside another. -/
def outside (start size other : ℕ) : List ℕ :=
  (blockSlots start size).filter fun s => !inBlock other size s

lemma mem_outside {other : ℕ} :
    slot ∈ outside start size other ↔
      slot ∈ blockSlots start size ∧ slot ∉ blockSlots other size := by
  rw [outside, List.mem_filter, Bool.not_eq_true', ← Bool.not_eq_true, inBlock_iff]

lemma nodup_append_outside (start size other : ℕ) :
    (blockSlots start size ++ outside other size start).Nodup := by
  refine List.nodup_append'.mpr ⟨nodup_blockSlots, nodup_blockSlots.filter _, ?_⟩
  intro s hs hs'
  exact (mem_outside.mp hs').2 hs

/-- The slots of two blocks may be listed from either of them. -/
lemma perm_append_outside (src size dst : ℕ) :
    (blockSlots dst size ++ outside src size dst).Perm
      (blockSlots src size ++ outside dst size src) := by
  refine (List.perm_ext_iff_of_nodup (nodup_append_outside _ _ _)
    (nodup_append_outside _ _ _)).mpr fun s => ?_
  rw [List.mem_append, List.mem_append, mem_outside, mem_outside]
  tauto

lemma length_outside (src size dst : ℕ) :
    (outside src size dst).length = (outside dst size src).length := by
  have h := (perm_append_outside src size dst).length_eq
  simp only [List.length_append, blockSlots, List.length_range'] at h
  omega

lemma relocations_eq (src size dst : ℕ) :
    relocations src size dst = (blockSlots src size).zip (blockSlots dst size) ++
      (outside dst size src).zip (outside src size dst) := rfl

lemma map_fst_relocations (src size dst : ℕ) :
    (relocations src size dst).map Prod.fst = blockSlots src size ++ outside dst size src := by
  rw [relocations_eq, List.map_append, List.map_fst_zip (by simp [blockSlots]),
    List.map_fst_zip (length_outside dst size src).le]

lemma map_snd_relocations (src size dst : ℕ) :
    (relocations src size dst).map Prod.snd = blockSlots dst size ++ outside src size dst := by
  rw [relocations_eq, List.map_append, List.map_snd_zip (by simp [blockSlots]),
    List.map_snd_zip (length_outside src size dst).le]

/-- No slot is left twice. -/
lemma nodup_fst_relocations (src size dst : ℕ) :
    ((relocations src size dst).map Prod.fst).Nodup := by
  rw [map_fst_relocations]
  exact nodup_append_outside src size dst

/-- No slot is taken twice. -/
lemma nodup_snd_relocations (src size dst : ℕ) :
    ((relocations src size dst).map Prod.snd).Nodup := by
  rw [map_snd_relocations]
  exact nodup_append_outside dst size src

/-- The slots that are taken are the slots that are left. -/
theorem perm_relocations (src size dst : ℕ) :
    ((relocations src size dst).map Prod.snd).Perm ((relocations src size dst).map Prod.fst) := by
  rw [map_fst_relocations, map_snd_relocations]
  exact perm_append_outside src size dst

/-- Every slot that is left lies in one of the two blocks. -/
lemma lt_of_mem_relocations {n : ℕ} (hsrc : src + size ≤ n) (hdst : dst + size ≤ n)
    (hs : slot ∈ (relocations src size dst).map Prod.fst) : slot < n := by
  rw [map_fst_relocations, List.mem_append, mem_outside, mem_blockSlots, mem_blockSlots] at hs
  omega

end AclPlane
