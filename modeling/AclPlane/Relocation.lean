/-!
Moving a block of slots.

The block `src, …, src + size - 1` goes to `dst, …, dst + size - 1`.  The slots of the
destination that lie outside the source fill the slots that the block leaves behind, in
ascending order.  `relocations` lists the moves, each as a pair of a slot and the slot that its
content goes to.
-/

namespace AclPlane

/-- Whether a slot lies in the block of `size` slots from `start`. -/
def inBlock (start size slot : Nat) : Bool := start ≤ slot && slot < start + size

/-- The slots from `start` on. -/
def blockSlots (start size : Nat) : List Nat := List.range' start size

/-- The moves that take a block to its destination: those of the block, then those of the slots
that it displaces. -/
def relocations (src size dst : Nat) : List (Nat × Nat) :=
  let vacated := (blockSlots src size).filter (fun s => !inBlock dst size s)
  let displaced := (blockSlots dst size).filter (fun s => !inBlock src size s)
  (blockSlots src size).zip (blockSlots dst size) ++ displaced.zip vacated

end AclPlane
