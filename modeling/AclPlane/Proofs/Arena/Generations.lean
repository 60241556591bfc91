import AclPlane.Proofs.Arena

/-!
The generations of a slot.

Each removal gives its slot the next generation, and after 2 ^ 32 - 1 of them the first one comes
again.  Until then no handle that has been in use before resolves.

* `toNat_iterate_nextGeneration`: the generation after any number of removals.
* `Arena.Freed`: how often the slot of a handle has been freed since the handle was in use.
* `Freed.insertWith?`, `Freed.remove?`: an insertion does not free a slot, a removal frees its own.
* `Freed.contains_iff`: a handle resolves exactly as long as its slot has not been freed.
-/

namespace AclPlane.Arena

/-! ### Iterated generations -/

lemma toNat_nextGeneration {g : UInt32} (hg : g ≠ 0) :
    (nextGeneration g).toNat = g.toNat % (2 ^ 32 - 1) + 1 := by
  have hpos : g.toNat ≠ 0 := fun h => hg (UInt32.toNat_inj.mp h)
  have hlt := g.toNat_lt
  have hadd : (g + 1).toNat = (g.toNat + 1) % 2 ^ 32 := UInt32.toNat_add g 1
  rw [nextGeneration]
  split
  · next hzero =>
      rw [hzero] at hadd
      have hone : (1 : UInt32).toNat = 1 := rfl
      have hz : (0 : UInt32).toNat = 0 := rfl
      omega
  · next hne =>
      have hne' : (g + 1).toNat ≠ 0 := fun h => hne (UInt32.toNat_inj.mp h)
      omega

/-- The generations run from 1 to 2 ^ 32 - 1 and then begin again. -/
lemma toNat_iterate_nextGeneration {g : UInt32} (hg : g ≠ 0) (n : ℕ) :
    (nextGeneration^[n] g).toNat = (g.toNat - 1 + n) % (2 ^ 32 - 1) + 1 := by
  have hpos : g.toNat ≠ 0 := fun h => hg (UInt32.toNat_inj.mp h)
  have hlt := g.toNat_lt
  induction n with
  | zero =>
      rw [Function.iterate_zero_apply]
      omega
  | succ n ih =>
      have hne : nextGeneration^[n] g ≠ 0 := by
        intro hzero
        rw [hzero] at ih
        have hz : (0 : UInt32).toNat = 0 := rfl
        omega
      rw [Function.iterate_succ_apply', toNat_nextGeneration hne, ih]
      omega

lemma iterate_nextGeneration_ne {g : UInt32} (hg : g ≠ 0) {n : ℕ} (hpos : 0 < n)
    (hlt : n < 2 ^ 32 - 1) : nextGeneration^[n] g ≠ g := by
  intro heq
  have hn := toNat_iterate_nextGeneration hg n
  rw [heq] at hn
  have hnat : g.toNat ≠ 0 := fun h => hg (UInt32.toNat_inj.mp h)
  have hg' := g.toNat_lt
  omega

/-! ### Freed slots -/

variable {kind : ObjectKind} {α : Type} {a a' : Arena kind α} {h k : Handle kind} {v : α} {n : ℕ}
  {make : Handle kind → α}

/-- The slot of a handle has been freed `n` times since the handle was in use. -/
def Freed (a : Arena kind α) (h : Handle kind) (n : ℕ) : Prop :=
  ∃ value, a.slots[h.index.toNat]? = some ⟨nextGeneration^[n] h.generation, value⟩ ∧
    (n = 0 → value.isSome = true)

lemma freed_zero_iff : a.Freed h 0 ↔ a.contains h = true := by
  rw [contains_iff]
  constructor
  · rintro ⟨value, hs, hvalue⟩
    obtain ⟨v, rfl⟩ := Option.isSome_iff_exists.mp (hvalue rfl)
    exact ⟨v, get?_eq_some_iff.mpr hs⟩
  · rintro ⟨v, hv⟩
    exact ⟨some v, get?_eq_some_iff.mp hv, fun _ => rfl⟩

/-- An insertion frees no slot. -/
lemma Freed.insertWith? (hf : a.Freed h n) (hc : a.Consistent)
    (hi : a.insertWith? make = some (k, a')) : a'.Freed h n := by
  obtain ⟨value, hs, hvalue⟩ := hf
  obtain ⟨hlt, -⟩ := List.getElem?_eq_some_iff.mp hs
  rcases insertWith?_cases hc hi with ⟨rest, -, hk, rfl⟩ | ⟨-, hk, -, rfl⟩
  · by_cases hindex : k.index = h.index
    · -- the slot was vacant and keeps its generation
      rw [hindex, hs, Option.some.injEq, Slot.mk.injEq] at hk
      refine ⟨some (make k), ?_, fun _ => rfl⟩
      simp only [hindex, List.getElem?_set_self hlt, hk.1]
    · refine ⟨value, ?_, hvalue⟩
      have hne : k.index.toNat ≠ h.index.toNat := fun he => hindex (UInt32.toNat_inj.mp he)
      simp only [List.getElem?_set_ne hne, hs]
  · exact ⟨value, by simp only [List.getElem?_append_left hlt, hs], hvalue⟩

/-- A removal frees the slot of its handle. -/
lemma Freed.remove? (hf : a.Freed h n) (hr : a.remove? k = some (v, a')) :
    a'.Freed h (n + if k.index = h.index then 1 else 0) := by
  obtain ⟨value, hs, hvalue⟩ := hf
  obtain ⟨hlt, -⟩ := List.getElem?_eq_some_iff.mp hs
  obtain ⟨hk, rfl⟩ := remove?_eq_some_iff.mp hr
  by_cases hindex : k.index = h.index
  · have hslot := get?_eq_some_iff.mp hk
    rw [hindex, hs, Option.some.injEq, Slot.mk.injEq] at hslot
    rw [if_pos hindex]
    refine ⟨none, ?_, fun hz => absurd hz n.succ_ne_zero⟩
    simp only [hindex, List.getElem?_set_self hlt, ← hslot.1, Function.iterate_succ_apply']
  · rw [if_neg hindex, Nat.add_zero]
    refine ⟨value, ?_, hvalue⟩
    have hne : k.index.toNat ≠ h.index.toNat := fun he => hindex (UInt32.toNat_inj.mp he)
    simp only [List.getElem?_set_ne hne, hs]

/-- Until its generation comes again, a handle resolves exactly if its slot has not been freed. -/
lemma Freed.contains_iff (hf : a.Freed h n) (hg : h.generation ≠ 0) (hn : n < 2 ^ 32 - 1) :
    a.contains h = true ↔ n = 0 := by
  constructor
  · intro hlive
    by_contra hne
    obtain ⟨value, hs, -⟩ := hf
    obtain ⟨v, hv⟩ := Arena.contains_iff.mp hlive
    rw [get?_eq_some_iff.mp hv, Option.some.injEq, Slot.mk.injEq] at hs
    exact iterate_nextGeneration_ne hg (Nat.pos_of_ne_zero hne) hn hs.1.symm
  · rintro rfl
    exact freed_zero_iff.mp hf

/-- A handle that resolves has a generation. -/
lemma Consistent.generation_ne_zero (hc : a.Consistent) (hlive : a.contains h = true) :
    h.generation ≠ 0 := by
  obtain ⟨v, hv⟩ := Arena.contains_iff.mp hlive
  exact hc.generation_ne _ (List.mem_of_getElem? (get?_eq_some_iff.mp hv))

end AclPlane.Arena
