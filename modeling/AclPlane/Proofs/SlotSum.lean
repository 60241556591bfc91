import Mathlib.Algebra.BigOperators.Group.List.Basic
import Mathlib.Tactic

/-!
Sums over slots.

Arenas and rule tables keep their contents in numbered slots, some of them empty.  `slotSum f`
adds `f` up over the occupied slots, and `slotSum_set` says how the sum changes with one slot.
-/

namespace AclPlane

variable {α : Type} {l : List (Option α)} {i : ℕ} {x : Option α}

/-- The sum of `f` over the occupied slots. -/
def slotSum (f : α → ℕ) (l : List (Option α)) : ℕ := (l.map fun o => o.elim 0 f).sum

@[simp] lemma slotSum_nil (f : α → ℕ) : slotSum f [] = 0 := rfl

@[simp] lemma slotSum_cons (f : α → ℕ) (o : Option α) (l : List (Option α)) :
    slotSum f (o :: l) = o.elim 0 f + slotSum f l := rfl

@[simp] lemma slotSum_append (f : α → ℕ) (l l' : List (Option α)) :
    slotSum f (l ++ l') = slotSum f l + slotSum f l' := by
  simp [slotSum]

@[simp] lemma slotSum_replicate_none (f : α → ℕ) (n : ℕ) :
    slotSum f (List.replicate n none) = 0 := by
  simp [slotSum]

/-- Changing one slot exchanges its old term for the new one. -/
lemma slotSum_set (f : α → ℕ) (hi : l[i]? = some x) (y : Option α) :
    slotSum f (l.set i y) + x.elim 0 f = slotSum f l + y.elim 0 f := by
  induction l generalizing i with
  | nil => simp at hi
  | cons o l ih =>
      cases i with
      | zero =>
          obtain rfl : o = x := by simpa using hi
          simp only [List.set_cons_zero, slotSum_cons]
          omega
      | succ i =>
          have h := ih (i := i) (by simpa using hi)
          simp only [List.set_cons_succ, slotSum_cons]
          omega

lemma le_slotSum (f : α → ℕ) (hi : l[i]? = some x) : x.elim 0 f ≤ slotSum f l := by
  have h := slotSum_set f hi none
  simp only [Option.elim_none, Nat.add_zero] at h
  omega

/-- The sum over the slots is the sum over the list of their contents. -/
lemma slotSum_eq_sum_filterMap (f : α → ℕ) (l : List (Option α)) :
    slotSum f l = ((l.filterMap id).map f).sum := by
  induction l with
  | nil => rfl
  | cons o l ih => cases o <;> simp [ih]

end AclPlane
