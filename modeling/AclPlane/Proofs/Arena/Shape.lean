import AclPlane.Proofs.Arena

/-!
An arena apart from its objects.

Which handles an arena has handed out and which it is going to hand out depends on its slots, its
free list and its limit, but not on the objects in the slots.

* `Arena.shape`: the arena with its objects forgotten.
* `insertWith?_shape`, `remove?_shape`: an insertion is one of the shape, and so is a removal.
* `shape_set`, `shape_retain`, `shape_release`: nothing else touches the shape.
-/

namespace AclPlane

/-- A slot with its object forgotten. -/
def Slot.shape {α : Type} (slot : Slot α) : Slot Unit :=
  ⟨slot.generation, slot.value.map fun _ => ()⟩

namespace Arena

variable {kind : ObjectKind} {α β : Type} {a a' : Arena kind α} {h : Handle kind} {v w : α}
  {make : Handle kind → α}

/-- The arena with its objects forgotten. -/
def shape (a : Arena kind α) : Arena kind Unit :=
  ⟨a.slots.map Slot.shape, a.free, a.size, a.limit⟩

/-! ### Look-ups -/

lemma getElem?_shape (i : ℕ) : a.shape.slots[i]? = a.slots[i]?.map Slot.shape :=
  List.getElem?_map

lemma get?_shape (h : Handle kind) : a.shape.get? h = (a.get? h).map fun _ => () := by
  rw [get?, getElem?_shape, get?]
  cases a.slots[h.index.toNat]? with
  | none => rfl
  | some slot =>
      by_cases hg : slot.generation = h.generation
      · simp [Slot.shape, hg]
      · simp [Slot.shape, hg]

@[simp] lemma contains_shape (h : Handle kind) : a.shape.contains h = a.contains h := by
  rw [contains, get?_shape, Option.isSome_map, contains]

lemma map_fst_liveFrom_shape (i : ℕ) (slots : List (Slot α)) :
    (liveFrom i (slots.map Slot.shape) : List (Handle kind × Unit)).map Prod.fst =
      (liveFrom i slots).map Prod.fst := by
  induction slots generalizing i with
  | nil => rfl
  | cons slot rest ih =>
      obtain ⟨g, _ | value⟩ := slot
      · exact ih (i + 1)
      · exact congrArg (_ :: ·) (ih (i + 1))

lemma handles_shape (a : Arena kind α) : a.shape.handles = a.handles :=
  map_fst_liveFrom_shape 0 a.slots

lemma nextHandle?_shape (a : Arena kind α) : a.shape.nextHandle? = a.nextHandle? := by
  have hlength : a.shape.slots.length = a.slots.length := List.length_map ..
  have hfree : a.shape.free = a.free := rfl
  rw [nextHandle?, nextHandle?, hlength, hfree, show a.shape.isFull = a.isFull from rfl]
  split
  · rfl
  · cases a.free with
    | nil => rfl
    | cons index rest => simp only [getElem?_shape, Option.map_map]; rfl

lemma Consistent.shape (hc : a.Consistent) : a.shape.Consistent where
  mem_free_iff i := by
    rw [show a.shape.free = a.free from rfl, hc.mem_free_iff]
    refine exists_congr fun g => ?_
    rw [getElem?_shape, Option.map_eq_some_iff]
    constructor
    · exact fun hs => ⟨_, hs, rfl⟩
    · rintro ⟨⟨g', value⟩, hs, heq⟩
      simp only [Slot.shape, Slot.mk.injEq, Option.map_eq_none_iff] at heq
      obtain ⟨rfl, rfl⟩ := heq
      exact hs
  nodup_free := hc.nodup_free
  length_le := le_of_eq_of_le (List.length_map ..) hc.length_le
  size_eq := by
    have hslot : (fun slot : Slot α => slot.value.isSome) =
        (fun slot => slot.value.isSome) ∘ Slot.shape := funext fun _ => Option.isSome_map.symm
    calc a.size = a.slots.countP (fun slot => slot.value.isSome) := hc.size_eq
      _ = a.shape.slots.countP (fun slot => slot.value.isSome) := by
        rw [hslot, ← List.countP_map]
        rfl
  size_le := hc.size_le
  generation_ne slot hmem := by
    obtain ⟨slot, hslot, rfl⟩ := List.mem_map.mp hmem
    exact hc.generation_ne slot hslot

/-! ### Changes -/

/-- An insertion is one of the shape. -/
lemma insertWith?_shape (hi : a.insertWith? make = some (h, a')) :
    a.shape.insert? () = some (h, a'.shape) := by
  have hn := nextHandle?_of_insertWith? hi
  rw [insertWith?, hn] at hi
  rw [insert?, insertWith?, nextHandle?_shape, hn, show a.shape.free = a.free from rfl]
  cases hf : a.free with
  | nil =>
      rw [hf] at hi
      cases hi
      simp [shape, Slot.shape, hf]
  | cons index rest =>
      rw [hf] at hi
      cases hi
      simp [shape, Slot.shape]

/-- A removal is one of the shape. -/
lemma remove?_shape (hr : a.remove? h = some (v, a')) :
    a.shape.remove? h = some ((), a'.shape) := by
  obtain ⟨hv, rfl⟩ := remove?_eq_some_iff.mp hr
  refine remove?_eq_some_iff.mpr ⟨by rw [get?_shape, hv]; rfl, ?_⟩
  simp [shape, Slot.shape]

/-- Replacing an object leaves the shape alone. -/
lemma shape_set (hv : a.get? h = some v) : (a.set h w).shape = a.shape := by
  have hslot : (a.slots.map Slot.shape)[h.index.toNat]? = some ⟨h.generation, some ()⟩ := by
    rw [List.getElem?_map, get?_eq_some_iff.mp hv]
    rfl
  obtain ⟨hlt, heq⟩ := List.getElem?_eq_some_iff.mp hslot
  rw [set_eq hv, shape, shape, List.map_set]
  congr 1
  calc (a.slots.map Slot.shape).set h.index.toNat ⟨h.generation, some ()⟩ =
      (a.slots.map Slot.shape).set h.index.toNat (a.slots.map Slot.shape)[h.index.toNat] := by
        rw [heq]
    _ = a.slots.map Slot.shape := List.set_getElem_self hlt

variable {c c' : Arena kind (Counted β)}

/-- Counting a reference leaves the shape alone. -/
lemma shape_retain (hr : c.retain h = .ok c') : c'.shape = c.shape := by
  rw [retain] at hr
  split at hr
  · next hget =>
      cases hr
      exact shape_set hget
  · cases hr

lemma shape_release (hr : c.release h = .ok c') : c'.shape = c.shape := by
  rw [release] at hr
  split at hr
  · next hget =>
      split at hr
      · cases hr
        exact shape_set hget
      · cases hr
  · cases hr

end Arena

end AclPlane
