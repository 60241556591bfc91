import AclPlane.KeyCover
import Mathlib.Tactic

/-!
The greedy pass takes covers.

* `compatible_iff`, `covers_iff`: what the two halves of a cover say of its blocks.
* `GreedyState`: what holds of the blocks taken so far and of the fields that they leave.
* `of_greedy?`: if the greedy pass comes to an end, it has taken distinct candidates that form a
  cover.
-/

namespace AclPlane

/-! ### Sets of fields -/

namespace FieldSet

variable {s : FieldSet} {k : BasicKey}

lemma mem_toList_iff : k ∈ s.toList ↔ s.contains k = true := by
  rw [contains, List.contains_iff_mem]

@[simp] lemma contains_without (s : FieldSet) (p : BasicKey → Bool) (k : BasicKey) :
    (s.without p).contains k = (s.contains k && !p k) := contains_ofPred _ k

lemma isEmpty_iff : s.isEmpty = true ↔ ∀ k, s.contains k = false := by
  rw [isEmpty, List.isEmpty_iff, List.eq_nil_iff_forall_not_mem]
  refine forall_congr' fun k => ?_
  rw [mem_toList_iff, Bool.not_eq_true]

end FieldSet

namespace KeyCover

variable {fields uncovered : FieldSet} {candidates blocks taken : List KeyBlock}

/-! ### Covers -/

lemma compatible_iff :
    compatible blocks = true ↔ blocks.Pairwise (fun b c => b.excludes c.id = false) := by
  induction blocks with
  | nil => simp [compatible]
  | cons b rest ih => simp [compatible, ih]

lemma covers_iff : covers fields blocks = true ↔
    ∀ k, fields.contains k = true → ∃ b ∈ blocks, b.exposes k = true := by
  simp only [covers, List.all_eq_true, List.any_eq_true, FieldSet.mem_toList_iff]

lemma isCover_iff : isCover fields blocks = true ↔
    blocks.Pairwise (fun b c => b.excludes c.id = false) ∧
      ∀ k, fields.contains k = true → ∃ b ∈ blocks, b.exposes k = true := by
  rw [isCover, Bool.and_eq_true, compatible_iff, covers_iff]

/-! ### The greedy pass -/

/-- The best block is one of those it is chosen from. -/
lemma mem_of_bestBlock? {b : KeyBlock} (h : bestBlock? uncovered blocks = some b) : b ∈ blocks := by
  induction blocks with
  | nil => cases h
  | cons b₀ rest ih =>
      rw [bestBlock?] at h
      split at h
      · next c hbest =>
          split at h
          · cases h
            exact List.mem_cons_of_mem _ (ih hbest)
          · cases h
            exact List.mem_cons_self ..
      · split at h
        · cases h
          exact List.mem_cons_self ..
        · cases h

/-- The greedy pass has taken distinct candidates, the last one in front, none of which an earlier
one excludes, and they expose every field that is no longer uncovered. -/
structure GreedyState (fields : FieldSet) (candidates : List KeyBlock) (uncovered : FieldSet)
    (taken : List KeyBlock) : Prop where
  subset : ∀ b ∈ taken, b ∈ candidates
  nodup : (taken.map KeyBlock.id).Nodup
  compatible : taken.Pairwise (fun b c => c.excludes b.id = false)
  exposed : ∀ k, fields.contains k = true →
    uncovered.contains k = true ∨ ∃ b ∈ taken, b.exposes k = true

lemma greedyState_nil (fields : FieldSet) (candidates : List KeyBlock) :
    GreedyState fields candidates fields [] :=
  ⟨by simp, List.nodup_nil, List.Pairwise.nil, fun _ => .inl⟩

/-- Taking another usable candidate. -/
lemma GreedyState.take (h : GreedyState fields candidates uncovered taken) {b : KeyBlock}
    (hb : b ∈ candidates) (hfree : ∀ t ∈ taken, t.id ≠ b.id ∧ t.excludes b.id = false) :
    GreedyState fields candidates (uncovered.without b.exposes) (b :: taken) := by
  refine ⟨List.forall_mem_cons.mpr ⟨hb, h.subset⟩, ?_,
    List.pairwise_cons.mpr ⟨fun t ht => (hfree t ht).2, h.compatible⟩, fun k hk => ?_⟩
  · rw [List.map_cons, List.nodup_cons]
    refine ⟨fun hmem => ?_, h.nodup⟩
    obtain ⟨t, ht, heq⟩ := List.mem_map.mp hmem
    exact (hfree t ht).1 heq
  · by_cases hkb : b.exposes k = true
    · exact .inr ⟨b, List.mem_cons_self .., hkb⟩
    · rcases h.exposed k hk with hun | ⟨t, ht, hkt⟩
      · exact .inl (by simp [hun, hkb])
      · exact .inr ⟨t, List.mem_cons_of_mem _ ht, hkt⟩

/-- When nothing is left uncovered, what has been taken is a cover. -/
lemma GreedyState.done (h : GreedyState fields candidates uncovered taken)
    (hdone : uncovered.isEmpty = true) :
    (∀ b ∈ taken.reverse, b ∈ candidates) ∧ (taken.reverse.map KeyBlock.id).Nodup ∧
      isCover fields taken.reverse = true := by
  refine ⟨fun b hb => h.subset b (List.mem_reverse.mp hb), ?_, ?_⟩
  · rw [List.map_reverse, List.nodup_reverse]
    exact h.nodup
  · rw [isCover_iff, List.pairwise_reverse]
    refine ⟨h.compatible, fun k hk => ?_⟩
    rcases h.exposed k hk with hun | ⟨b, hb, hkb⟩
    · rw [FieldSet.isEmpty_iff.mp hdone k] at hun
      cases hun
    · exact ⟨b, List.mem_reverse.mpr hb, hkb⟩

lemma of_greedyFrom {steps : ℕ} (h : GreedyState fields candidates uncovered taken)
    (hrun : greedyFrom candidates steps uncovered taken = some blocks) :
    (∀ b ∈ blocks, b ∈ candidates) ∧ (blocks.map KeyBlock.id).Nodup ∧
      isCover fields blocks = true := by
  induction steps generalizing uncovered taken with
  | zero =>
      rw [greedyFrom] at hrun
      split at hrun
      · next hdone =>
          cases hrun
          exact h.done hdone
      · cases hrun
  | succ steps ih =>
      rw [greedyFrom] at hrun
      split at hrun
      · next hdone =>
          cases hrun
          exact h.done hdone
      · simp only at hrun
        split at hrun
        · cases hrun
        · next b hbest =>
            obtain ⟨hb, husable⟩ := List.mem_filter.mp (mem_of_bestBlock? hbest)
            refine ih (h.take hb fun t ht => ?_) hrun
            simp only [Bool.not_eq_true', List.any_eq_false, Bool.or_eq_true, beq_iff_eq,
              not_or, Bool.not_eq_true] at husable
            exact husable t ht

/-- A greedy cover is made of distinct candidates. -/
theorem of_greedy? (h : greedy? fields candidates = some blocks) :
    (∀ b ∈ blocks, b ∈ candidates) ∧ (blocks.map KeyBlock.id).Nodup ∧
      isCover fields blocks = true :=
  of_greedyFrom (greedyState_nil fields candidates) h

end KeyCover

end AclPlane
