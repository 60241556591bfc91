import Mathlib.Tactic

/-!
First occurrences in a list.

`List.eraseDups` keeps the first of equal elements.  `List.nodup_eraseDups` says that there are no
repetitions afterwards, `List.eraseDups_filter` that it does not matter whether elements are left
out before or after, and `List.length_eraseDups_eq_iff` that by the length one sees whether there
were any.
-/

namespace List

variable {α : Type} [DecidableEq α]

/-- What follows the first occurrence of an element has become shorter. -/
lemma length_filter_lt_cons (a : α) (l : List α) :
    (l.filter fun b => !b == a).length < (a :: l).length :=
  Nat.lt_succ_of_le (List.length_filter_le _ l)

lemma eraseDups_filter (p : α → Bool) (l : List α) :
    (l.filter p).eraseDups = l.eraseDups.filter p := by
  -- by the length, since the equation for `eraseDups` drops an element anywhere in the tail
  induction hn : l.length using Nat.strong_induction_on generalizing l with
  | _ n ih =>
      cases l with
      | nil => rfl
      | cons a l =>
          have hlt : (l.filter fun b => !b == a).length < n := hn ▸ length_filter_lt_cons a l
          have htail := ih _ hlt (l.filter fun b => !b == a) rfl
          rw [List.eraseDups_cons]
          cases hp : p a with
          | true =>
              rw [List.filter_cons_of_pos hp, List.filter_cons_of_pos hp, List.eraseDups_cons,
                ← htail, List.filter_comm]
          | false =>
              have hp' : ¬p a = true := by simp [hp]
              have hsame : (l.filter fun b => !b == a).filter p = l.filter p := by
                rw [List.filter_filter]
                refine List.filter_congr fun b _ => ?_
                by_cases hb : b = a
                · simp [hb, hp]
                · simp [hb]
              rw [List.filter_cons_of_neg hp', List.filter_cons_of_neg hp', ← htail, hsame]

lemma nodup_eraseDups (l : List α) : l.eraseDups.Nodup := by
  induction hn : l.length using Nat.strong_induction_on generalizing l with
  | _ n ih =>
      cases l with
      | nil => exact List.nodup_nil
      | cons a l =>
          have hlt : (l.filter fun b => !b == a).length < n := hn ▸ length_filter_lt_cons a l
          rw [List.eraseDups_cons, List.nodup_cons]
          refine ⟨fun hmem => ?_, ih _ hlt _ rfl⟩
          simpa using (List.mem_filter.mp (List.mem_eraseDups.mp hmem)).2

/-- Nothing is lost with the repetitions exactly if there are none. -/
lemma length_eraseDups_eq_iff {l : List α} : l.eraseDups.length = l.length ↔ l.Nodup := by
  constructor
  · intro h
    have hsub : l.eraseDups.Subperm l :=
      (nodup_eraseDups l).subperm fun a ha => List.mem_eraseDups.mp ha
    exact (hsub.perm_of_length_le h.ge).nodup_iff.mp (nodup_eraseDups l)
  · intro h
    have hsame : l.eraseDups.Perm l :=
      (List.perm_ext_iff_of_nodup (nodup_eraseDups l) h).mpr fun a => List.mem_eraseDups
    exact hsame.length_eq

end List
