import AclPlane.OrderedSet
import Mathlib.Tactic

/-!
Members of ordered maps and sets.

The values of a map and the members of a set are lists; `OrderedMap.mem_values_iff` and
`OrderedSet.mem_members_iff` say what is in them in terms of look-ups.  Sets with the same members
are equal (`OrderedSet.ext_has`), so elements may be added in any order (`OrderedSet.addAll_congr`).
-/

namespace AclPlane

namespace OrderedMap

variable {κ α : Type} [Ord κ] [Std.LawfulEqOrd κ] {m : OrderedMap κ α} {k : κ} {v : α}

lemma mem_values_iff : v ∈ m.values ↔ ∃ k, m.get? k = some v := by
  simp only [values, List.mem_map, Prod.exists, exists_eq_right, mem_toList_iff]

omit [Std.LawfulEqOrd κ] in
lemma contains_iff : m.contains k = true ↔ ∃ v, m.get? k = some v := by
  rw [contains, Option.isSome_iff_exists]

/-- A change of one value leaves the others alone. -/
lemma get?_modify [Std.TransOrd κ] [DecidableEq κ] (k k' : κ) (f : α → α) :
    (m.modify k f).get? k' = if k' = k then (m.get? k).map f else m.get? k' := by
  rw [modify]
  split
  · next v hv => rw [get?_insert, hv, Option.map_some]
  · next hnone =>
      by_cases hk : k' = k
      · rw [if_pos hk, hk, hnone, Option.map_none]
      · rw [if_neg hk]

/-- Nothing is erased where there is nothing. -/
lemma erase_of_get?_eq_none [Std.TransOrd κ] [DecidableEq κ] (h : m.get? k = none) :
    m.erase k = m := by
  refine ext_get? fun k' => ?_
  rw [get?_erase]
  split
  · next hk => rw [hk, h]
  · rfl

end OrderedMap

namespace OrderedSet

variable {κ : Type} [Ord κ] [Std.LawfulEqOrd κ] {s : OrderedSet κ} {k : κ} {ks : List κ}

lemma mem_members_iff : k ∈ members s ↔ has s k = true := by
  rw [has, OrderedMap.contains_iff, members, List.mem_map]
  constructor
  · rintro ⟨⟨k', u⟩, he, rfl⟩
    exact ⟨u, OrderedMap.mem_toList_iff.mp he⟩
  · rintro ⟨u, hu⟩
    exact ⟨(k, u), OrderedMap.mem_toList_iff.mpr hu, rfl⟩

/-- A set has the members that are added to it. -/
lemma has_addAll [Std.TransOrd κ] [DecidableEq κ] :
    has (addAll s ks) k = true ↔ has s k = true ∨ k ∈ ks := by
  induction ks generalizing s with
  | nil => simp [addAll]
  | cons k' ks ih =>
      have hinsert : has (s.insert k' ()) k = true ↔ has s k = true ∨ k = k' := by
        simp only [has, OrderedMap.contains, OrderedMap.get?_insert]
        by_cases hk : k = k'
        · simp [hk]
        · simp [hk]
      rw [show addAll s (k' :: ks) = addAll (s.insert k' ()) ks from rfl, ih, hinsert,
        List.mem_cons, or_assoc]

/-- Sets with the same members are equal. -/
lemma ext_has [Std.TransOrd κ] {t : OrderedSet κ} (h : ∀ k, has s k = true ↔ has t k = true) :
    s = t := by
  refine OrderedMap.ext_get? fun k => Option.ext fun u => ?_
  simpa only [has, OrderedMap.contains_iff, Unique.exists_iff] using h k

/-- It does not matter in which order elements are added, nor how often. -/
lemma addAll_congr [Std.TransOrd κ] [DecidableEq κ] {ks' : List κ} (h : ∀ k, k ∈ ks ↔ k ∈ ks') :
    addAll s ks = addAll s ks' :=
  ext_has fun k => by rw [has_addAll, has_addAll, h]

/-- What is left after a removal has been there before. -/
lemma has_of_has_removeAll [DecidableEq κ] (h : has (removeAll s ks) k = true) :
    has s k = true := by
  induction ks generalizing s with
  | nil => exact h
  | cons k' ks ih =>
      have herased : has (s.erase k') k = true := ih h
      rw [has, OrderedMap.contains, OrderedMap.get?_erase] at herased
      split at herased
      · cases herased
      · exact herased

end OrderedSet

end AclPlane
