import Mathlib.Data.List.Sort
import Mathlib.Data.List.TakeWhile

/-!
Stable sorting by descending keys.

A list that descends by its keys is determined by the elements of each key in their order, and a
stable sort keeps that order.  So removing elements commutes with sorting, and a list stays sorted
when an element is put behind those of equal or higher key.

* `List.eq_of_descending`: descending lists with the same elements of each key are equal.
* `List.filter_sortDescending`: elements may be removed before or after sorting.
* `List.sortDescending_concat`: a new last element goes behind its equals.
-/

namespace List

variable {α : Type} {key : α → ℕ} {l l' : List α} {a b : α}

/-! ### Descending lists -/

/-- A list whose keys do not ascend. -/
def Descending (key : α → ℕ) (l : List α) : Prop := l.Pairwise fun a b => key b ≤ key a

/-- The first element of a descending list has the greatest key. -/
lemma Descending.key_le_head (h : (a :: l).Descending key) (hb : b ∈ a :: l) : key b ≤ key a := by
  rcases mem_cons.mp hb with rfl | hb
  · exact le_rfl
  · exact rel_of_pairwise_cons h hb

/-- Descending lists with the same elements of each key, in the same order, are equal. -/
theorem eq_of_descending (h : l.Descending key) (h' : l'.Descending key)
    (heq : ∀ n, l.filter (fun a => key a = n) = l'.filter (fun a => key a = n)) : l = l' := by
  have hmem : ∀ a, a ∈ l ↔ a ∈ l' := fun a => by
    simpa using congrArg (a ∈ ·) (heq (key a))
  induction l generalizing l' with
  | nil =>
      cases l' with
      | nil => rfl
      | cons b l' => exact absurd ((hmem b).mpr mem_cons_self) not_mem_nil
  | cons a l ih =>
      cases l' with
      | nil => exact absurd ((hmem a).mp mem_cons_self) not_mem_nil
      | cons b l' =>
          -- either head has the greatest key of all, so both are the first elements of that key
          have hkey : key a = key b := le_antisymm
            (h'.key_le_head ((hmem a).mp mem_cons_self))
            (h.key_le_head ((hmem b).mpr mem_cons_self))
          have hhead := heq (key a)
          rw [filter_cons_of_pos (by simp), filter_cons_of_pos (by simp [hkey]),
            List.cons.injEq] at hhead
          obtain ⟨rfl, -⟩ := hhead
          have htail : ∀ n, l.filter (fun a => key a = n) = l'.filter (fun a => key a = n) := by
            intro n
            have hn := heq n
            rw [filter_cons, filter_cons] at hn
            split at hn
            · exact tail_eq_of_cons_eq hn
            · exact hn
          rw [ih (Pairwise.of_cons h) (Pairwise.of_cons h') htail fun c => by
            simpa using congrArg (c ∈ ·) (htail (key c))]

/-! ### Sorting -/

/-- Whether the key of the second does not exceed that of the first. -/
def keyDescends (key : α → ℕ) (a b : α) : Bool := key b ≤ key a

lemma keyDescends_iff : keyDescends key a b = true ↔ key b ≤ key a := decide_eq_true_iff

lemma keyDescends_trans (a b c : α) (hab : keyDescends key a b = true)
    (hbc : keyDescends key b c = true) : keyDescends key a c = true :=
  keyDescends_iff.mpr ((keyDescends_iff.mp hbc).trans (keyDescends_iff.mp hab))

lemma keyDescends_total (a b : α) : (keyDescends key a b || keyDescends key b a) = true := by
  rw [Bool.or_eq_true, keyDescends_iff, keyDescends_iff]
  exact le_total _ _

/-- The list stably sorted by descending keys. -/
def sortDescending (key : α → ℕ) (l : List α) : List α := l.mergeSort (keyDescends key)

lemma descending_sortDescending (key : α → ℕ) (l : List α) :
    (l.sortDescending key).Descending key :=
  (pairwise_mergeSort keyDescends_trans keyDescends_total l).imp keyDescends_iff.mp

lemma perm_sortDescending (key : α → ℕ) (l : List α) : (l.sortDescending key).Perm l :=
  mergeSort_perm ..

@[simp] lemma mem_sortDescending : a ∈ l.sortDescending key ↔ a ∈ l :=
  (perm_sortDescending key l).mem_iff

/-- Sorting keeps the order of the elements of each key. -/
lemma filter_key_sortDescending (key : α → ℕ) (l : List α) (n : ℕ) :
    (l.sortDescending key).filter (fun a => key a = n) = l.filter (fun a => key a = n) := by
  -- the elements of one key are in order already, so sorting keeps them as a sublist
  have hsorted : (l.filter fun a => key a = n).Pairwise (keyDescends key · · = true) :=
    Pairwise.imp_of_mem (fun ha hb _ => keyDescends_iff.mpr
      ((of_decide_eq_true (mem_filter.mp hb).2).trans
        (of_decide_eq_true (mem_filter.mp ha).2).symm).le) (pairwise_of_forall fun _ _ => trivial)
  have hsub := (sublist_mergeSort keyDescends_trans keyDescends_total hsorted filter_sublist).filter
    fun a => decide (key a = n)
  rw [filter_filter, filter_congr fun a _ => Bool.and_self _] at hsub
  exact (hsub.eq_of_length ((perm_sortDescending key l).filter _).length_eq.symm).symm

/-- A descending list with the same elements of each key is the sorted list. -/
lemma Descending.eq_sortDescending (h : l.Descending key)
    (heq : ∀ n, l.filter (fun a => key a = n) = l'.filter (fun a => key a = n)) :
    l = l'.sortDescending key :=
  eq_of_descending h (descending_sortDescending key l') fun n => by
    rw [heq, filter_key_sortDescending]

/-- Elements may be removed before or after sorting. -/
theorem filter_sortDescending (key : α → ℕ) (p : α → Bool) (l : List α) :
    (l.sortDescending key).filter p = (l.filter p).sortDescending key := by
  refine Descending.eq_sortDescending ((descending_sortDescending key l).filter p) fun n => ?_
  rw [filter_comm, filter_key_sortDescending, filter_comm]

/-- What comes from the first element of lower key on has a lower key. -/
lemma Descending.key_lt_of_mem_dropWhile (h : l.Descending key)
    (hb : b ∈ l.dropWhile fun b => key a ≤ key b) : key b < key a := by
  induction l with
  | nil => cases hb
  | cons c l ih =>
      rw [dropWhile_cons] at hb
      split at hb
      · exact ih (Pairwise.of_cons h) hb
      · next hc => exact (h.key_le_head hb).trans_lt (by simpa using hc)

/-- A list stays descending when an element is put behind those of equal or higher key. -/
lemma Descending.place (h : l.Descending key) (a : α) :
    (l.takeWhile (fun b => key a ≤ key b) ++ a :: l.dropWhile fun b => key a ≤ key b).Descending
      key := by
  refine pairwise_append.mpr ⟨h.sublist (takeWhile_sublist _),
    pairwise_cons.mpr ⟨fun b hb => (h.key_lt_of_mem_dropWhile hb).le,
      h.sublist (dropWhile_sublist _)⟩, fun b hb c hc => ?_⟩
  have hab : key a ≤ key b := by simpa using mem_takeWhile_imp hb
  rcases mem_cons.mp hc with rfl | hc
  · exact hab
  · exact (h.key_lt_of_mem_dropWhile hc).le.trans hab

/-- A new last element goes behind the elements of equal or higher key. -/
theorem sortDescending_concat (key : α → ℕ) (l : List α) (a : α) :
    (l ++ [a]).sortDescending key =
      (l.sortDescending key).takeWhile (fun b => key a ≤ key b) ++
        a :: (l.sortDescending key).dropWhile fun b => key a ≤ key b := by
  have hsorted := descending_sortDescending key l
  refine ((hsorted.place a).eq_sortDescending fun n => ?_).symm
  rw [filter_append, filter_append, ← filter_key_sortDescending key l, filter_cons, filter_cons,
    filter_nil]
  generalize l.sortDescending key = sorted at hsorted
  have hsplit := congrArg (filter fun b => decide (key b = n))
    (takeWhile_append_dropWhile (p := fun b => decide (key a ≤ key b)) (l := sorted))
  rw [filter_append] at hsplit
  split
  · next hn =>
      -- nothing of the key of `a` comes behind it
      have hnone : (sorted.dropWhile fun b => key a ≤ key b).filter (fun b => key b = n) = [] := by
        refine filter_eq_nil_iff.mpr fun b hb => ?_
        rw [decide_eq_true_iff, ← of_decide_eq_true hn]
        exact (hsorted.key_lt_of_mem_dropWhile hb).ne
      rw [hnone, append_nil] at hsplit
      rw [hnone, hsplit]
  · rw [hsplit, append_nil]

end List
