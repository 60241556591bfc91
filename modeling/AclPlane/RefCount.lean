/-!
Values with an explicit reference count.

A count changes only when it is told to; a look-up never touches it.  Counts are 32 bits wide:
`retain` stays at the greatest count once it is reached, and `release?` of a value without
references fails.
-/

namespace AclPlane

/-- The greatest reference count. -/
def maxCount : Nat := UInt32.size - 1

/-- A value and the number of references to it. -/
structure Counted (α : Type) where
  value : α
  refs : Nat
  deriving DecidableEq, Repr

namespace Counted

variable {α : Type}

/-- A value nothing refers to. -/
def new (value : α) : Counted α := ⟨value, 0⟩

/-- Takes one more reference. -/
def retain (c : Counted α) : Counted α := { c with refs := min (c.refs + 1) maxCount }

/-- Gives one reference back. -/
def release? (c : Counted α) : Option (Counted α) :=
  if c.refs = 0 then none else some { c with refs := c.refs - 1 }

@[simp] theorem refs_new (value : α) : (new value).refs = 0 := rfl

@[simp] theorem value_retain (c : Counted α) : c.retain.value = c.value := rfl

theorem refs_retain (c : Counted α) (h : c.refs < maxCount) : c.retain.refs = c.refs + 1 := by
  simp only [retain]
  omega

theorem release?_eq_none_iff (c : Counted α) : c.release? = none ↔ c.refs = 0 := by
  simp [release?]

theorem release?_retain (c : Counted α) (h : c.refs < maxCount) : c.retain.release? = some c := by
  have hr := refs_retain c h
  simp only [release?, hr, Nat.add_one_ne_zero, if_false, Nat.add_sub_cancel, Option.some.injEq]
  rfl

end Counted

end AclPlane
