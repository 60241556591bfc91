import AclPlane.Arena
import AclPlane.Proofs.SlotSum

/-!
Arenas as finite maps.

The free list, the number of live objects and the vacant slots of an arena are kept apart, so
`Arena.Consistent` says how they agree; every operation keeps it.  Under it an arena is a finite
map from handles to objects:

* `get?_insertWith?` extends the map at `nextHandle?`, which is fresh (`get?_of_nextHandle?`);
* `get?_set` replaces the object of a live handle, and so does `modify` (`modify_eq_set`);
* `get?_remove?` takes a handle out;
* `mem_toList_iff`: the list of an arena is the graph of the map;
* `All`: a property of every object, with what each operation has to show to keep it.

`Arena.total` sums a function of the objects, and the three lemmas `total_insertWith?`,
`total_set` and `total_remove?` say how each operation changes the sum.
-/

namespace AclPlane.Arena

variable {kind : ObjectKind} {α : Type} {a a' : Arena kind α} {h k : Handle kind} {v w : α}
  {make : Handle kind → α}

/-! ### Consistency -/

/-- The free list names each vacant slot once, the size counts the occupied slots and stays
within the limit, every slot has an index of 32 bits, and no slot has generation zero. -/
structure Consistent (a : Arena kind α) : Prop where
  mem_free_iff : ∀ i : UInt32, i ∈ a.free ↔ ∃ g, a.slots[i.toNat]? = some ⟨g, none⟩
  nodup_free : a.free.Nodup
  length_le : a.slots.length ≤ UInt32.size
  size_eq : a.size = a.slots.countP (·.value.isSome)
  size_le : a.size ≤ a.limit
  generation_ne : ∀ slot ∈ a.slots, slot.generation ≠ 0

/-- An arena begins consistent. -/
lemma consistent_empty (limit : Nat) : (empty limit : Arena kind α).Consistent where
  mem_free_iff i := by simp [empty]
  nodup_free := List.nodup_nil
  length_le := Nat.zero_le _
  size_eq := rfl
  size_le := Nat.zero_le _
  generation_ne := by simp [empty]

/-! ### Look-ups -/

/-- A handle names the object of its slot if the generations agree. -/
lemma get?_eq_some_iff :
    a.get? h = some v ↔ a.slots[h.index.toNat]? = some ⟨h.generation, some v⟩ := by
  rw [get?]
  cases hs : a.slots[h.index.toNat]? with
  | none => simp
  | some slot =>
      obtain ⟨g, value⟩ := slot
      by_cases hg : g = h.generation
      · simp [hg]
      · simp [hg]

/-- Handles of one slot differ in their generations. -/
lemma generation_ne (hi : k.index = h.index) (hk : k ≠ h) : h.generation ≠ k.generation := by
  intro hg
  apply hk
  cases k
  cases h
  simp_all

lemma get?_congr {b : Arena kind α} (hs : b.slots[h.index.toNat]? = a.slots[h.index.toNat]?) :
    b.get? h = a.get? h := by
  rw [get?, get?, hs]

/-- A handle whose slot has another generation, or no object, resolves to nothing. -/
lemma get?_eq_none_of_slot {g : UInt32} {x : Option α} (hs : a.slots[h.index.toNat]? = some ⟨g, x⟩)
    (hg : g = h.generation → x = none) : a.get? h = none := by
  rw [get?, hs]
  by_cases hgen : g = h.generation
  · simp [hgen, hg hgen]
  · simp [hgen]

lemma get?_eq_none_of_le (hl : a.slots.length ≤ h.index.toNat) : a.get? h = none := by
  rw [get?, List.getElem?_eq_none hl]

@[simp] lemma get?_empty (limit : Nat) : (empty limit : Arena kind α).get? h = none :=
  get?_eq_none_of_le (Nat.zero_le _)

lemma contains_iff : a.contains h = true ↔ ∃ v, a.get? h = some v := by
  rw [contains, Option.isSome_iff_exists]

lemma index_lt (hv : a.get? h = some v) : h.index.toNat < a.slots.length :=
  (List.getElem?_eq_some_iff.mp (get?_eq_some_iff.mp hv)).1

/-! ### Replacing an object -/

lemma set_eq (hv : a.get? h = some v) :
    a.set h w = { a with slots := a.slots.set h.index.toNat ⟨h.generation, some w⟩ } := by
  rw [set, if_pos (contains_iff.mpr ⟨v, hv⟩)]

/-- To store the object that is there changes nothing. -/
lemma set_self (hv : a.get? h = some v) : a.set h v = a := by
  obtain ⟨hlt, hslot⟩ := List.getElem?_eq_some_iff.mp (get?_eq_some_iff.mp hv)
  rw [set_eq hv, ← hslot, List.set_getElem_self hlt]

/-- An object that is replaced keeps its handle, and the others stay. -/
lemma get?_set (hv : a.get? h = some v) :
    (a.set h w).get? k = if k = h then some w else a.get? k := by
  rw [set_eq hv]
  by_cases hk : k = h
  · subst hk
    rw [if_pos rfl, get?_eq_some_iff, List.getElem?_set_self (index_lt hv)]
  · rw [if_neg hk]
    by_cases hi : k.index = h.index
    · -- the same slot, so the generations differ and neither arena resolves `k`
      have hg := generation_ne hi hk
      have hslot := get?_eq_some_iff.mp hv
      rw [← hi] at hslot
      rw [get?_eq_none_of_slot hslot (fun hgen => absurd hgen hg)]
      refine get?_eq_none_of_slot (g := h.generation) (x := some w) ?_ (fun hgen => absurd hgen hg)
      rw [hi]
      exact List.getElem?_set_self (index_lt hv)
    · refine get?_congr (List.getElem?_set_ne fun he => hi ?_)
      exact (UInt32.toNat_inj.mp he).symm

lemma modify_eq_set {f : α → α} (hv : a.get? h = some v) : a.modify h f = a.set h (f v) := by
  rw [modify, hv]

/-- The slots that are free stay free when an object is replaced. -/
lemma Consistent.set (hc : a.Consistent) (hv : a.get? h = some v) : (a.set h w).Consistent := by
  have hslot := get?_eq_some_iff.mp hv
  have hlt := index_lt hv
  rw [set_eq hv]
  refine ⟨fun i => ?_, hc.nodup_free, by simpa using hc.length_le, ?_, hc.size_le, ?_⟩
  · rw [hc.mem_free_iff i]
    by_cases hi : i = h.index
    · subst hi
      rw [List.getElem?_set_self hlt, hslot]
      simp
    · have hne : h.index.toNat ≠ i.toNat := fun he => hi (UInt32.toNat_inj.mp he).symm
      rw [List.getElem?_set_ne hne]
  · have hget : a.slots[h.index.toNat] = ⟨h.generation, some v⟩ :=
      (List.getElem?_eq_some_iff.mp hslot).2
    have hpos : 0 < a.slots.countP (·.value.isSome) :=
      List.countP_pos_iff.mpr ⟨_, List.getElem_mem hlt, by simp [hget]⟩
    simp only [hc.size_eq, List.countP_set hlt, hget, Option.isSome_some, if_true]
    omega
  · intro slot hmem
    rcases List.mem_or_eq_of_mem_set hmem with hmem | rfl
    · exact hc.generation_ne slot hmem
    · exact hc.generation_ne ⟨h.generation, some v⟩ (List.mem_of_getElem? hslot)

/-! ### Insertion -/

/-- The next handle names either the vacant slot that was freed last or the slot behind all
others. -/
lemma nextHandle?_cases (hc : a.Consistent) (hn : a.nextHandle? = some h) :
    (∃ rest, a.free = h.index :: rest ∧ a.slots[h.index.toNat]? = some ⟨h.generation, none⟩) ∨
      (a.free = [] ∧ h.index.toNat = a.slots.length ∧ h.generation = 1) := by
  rw [nextHandle?] at hn
  split at hn
  · exact absurd hn (by simp)
  cases hf : a.free with
  | nil =>
      rw [hf] at hn
      dsimp only at hn
      split at hn
      · next hlt =>
          rw [Option.some.injEq] at hn
          subst hn
          exact Or.inr ⟨rfl, UInt32.toNat_ofNat_of_lt hlt, rfl⟩
      · exact absurd hn (by simp)
  | cons index rest =>
      rw [hf] at hn
      obtain ⟨g, hg⟩ := (hc.mem_free_iff index).mp (by rw [hf]; exact List.mem_cons_self ..)
      simp only [hg, Option.map_some, Option.some.injEq] at hn
      subst hn
      exact Or.inl ⟨rest, rfl, hg⟩

/-- The next handle is fresh. -/
lemma get?_of_nextHandle? (hc : a.Consistent) (hn : a.nextHandle? = some h) : a.get? h = none := by
  rcases nextHandle?_cases hc hn with ⟨rest, -, hs⟩ | ⟨-, hl, -⟩
  · exact get?_eq_none_of_slot hs fun _ => rfl
  · exact get?_eq_none_of_le hl.ge

/-- There is a next handle only below the limit. -/
lemma size_lt_of_nextHandle? (hn : a.nextHandle? = some h) : a.size < a.limit := by
  rw [nextHandle?] at hn
  split at hn
  · exact absurd hn (by simp)
  · next hfull => simpa [isFull] using hfull

/-- As long as there is a next handle, an object can be inserted under it. -/
lemma exists_insertWith? (hn : a.nextHandle? = some h) (make : Handle kind → α) :
    ∃ a', a.insertWith? make = some (h, a') := by
  rw [insertWith?]
  rw [hn]
  dsimp only
  split
  · exact ⟨_, rfl⟩
  · exact ⟨_, rfl⟩

lemma nextHandle?_of_insertWith? (hi : a.insertWith? make = some (h, a')) :
    a.nextHandle? = some h := by
  rw [insertWith?] at hi
  cases hn : a.nextHandle? with
  | none => simp [hn] at hi
  | some n =>
      obtain ⟨b, hb⟩ := exists_insertWith? hn make
      rw [insertWith?] at hb
      rw [hb, Option.some.injEq, Prod.mk.injEq] at hi
      rw [hi.1]

/-- What an insertion does to the slots and the free list. -/
lemma insertWith?_cases (hc : a.Consistent) (hi : a.insertWith? make = some (h, a')) :
    (∃ rest, a.free = h.index :: rest ∧ a.slots[h.index.toNat]? = some ⟨h.generation, none⟩ ∧
        a' = { a with
          slots := a.slots.set h.index.toNat ⟨h.generation, some (make h)⟩
          free := rest
          size := a.size + 1 }) ∨
      (a.free = [] ∧ h.index.toNat = a.slots.length ∧ h.generation = 1 ∧
        a' = { a with
          slots := a.slots ++ [⟨h.generation, some (make h)⟩]
          size := a.size + 1 }) := by
  have hn := nextHandle?_of_insertWith? hi
  rw [insertWith?, hn] at hi
  rcases nextHandle?_cases hc hn with ⟨rest, hf, hs⟩ | ⟨hf, hl, hg⟩
  · rw [hf] at hi
    simp only [Option.some.injEq, Prod.mk.injEq, true_and] at hi
    exact Or.inl ⟨rest, hf, hs, hi.symm⟩
  · simp only [hf, Option.some.injEq, Prod.mk.injEq, true_and] at hi
    exact Or.inr ⟨hf, hl, hg, by rw [← hi, hf]⟩

/-- An insertion extends the map at its handle. -/
lemma get?_insertWith? (hc : a.Consistent) (hi : a.insertWith? make = some (h, a'))
    (k : Handle kind) :
    a'.get? k = if k = h then some (make h) else a.get? k := by
  rcases insertWith?_cases hc hi with ⟨rest, -, hs, rfl⟩ | ⟨-, hl, -, rfl⟩
  · have hlt := (List.getElem?_eq_some_iff.mp hs).1
    by_cases hk : k = h
    · subst hk
      rw [if_pos rfl, get?_eq_some_iff]
      exact List.getElem?_set_self hlt
    · rw [if_neg hk]
      by_cases hidx : k.index = h.index
      · -- the slot was vacant, and its new occupant has the generation of `h`
        have hg := generation_ne hidx hk
        have hvacant : a.get? k = none :=
          get?_eq_none_of_slot (g := h.generation) (by rw [hidx]; exact hs) fun _ => rfl
        rw [hvacant]
        refine get?_eq_none_of_slot (g := h.generation) (x := some (make h)) ?_
          (fun hgen => absurd hgen hg)
        rw [hidx]
        exact List.getElem?_set_self hlt
      · refine get?_congr (List.getElem?_set_ne fun he => hidx ?_)
        exact (UInt32.toNat_inj.mp he).symm
  · by_cases hk : k = h
    · subst hk
      rw [if_pos rfl, get?_eq_some_iff]
      simp [hl]
    · rw [if_neg hk]
      rcases Nat.lt_trichotomy k.index.toNat a.slots.length with hlt | heq | hgt
      · exact get?_congr (List.getElem?_append_left hlt)
      · have hidx : k.index = h.index := UInt32.toNat_inj.mp (heq.trans hl.symm)
        have hg := generation_ne hidx hk
        rw [get?_eq_none_of_le heq.ge]
        exact get?_eq_none_of_slot (g := h.generation) (x := some (make h)) (by simp [heq])
          (fun hgen => absurd hgen hg)
      · rw [get?_eq_none_of_le hgt.le]
        exact get?_eq_none_of_le (by simpa using Nat.succ_le_of_lt hgt)

/-- An insertion keeps what is there. -/
lemma get?_insertWith?_of_some (hc : a.Consistent) (hi : a.insertWith? make = some (h, a'))
    (hv : a.get? k = some v) : a'.get? k = some v := by
  have hfresh := get?_of_nextHandle? hc (nextHandle?_of_insertWith? hi)
  rw [get?_insertWith? hc hi, if_neg]
  · exact hv
  · rintro rfl
    rw [hfresh] at hv
    cases hv

/-- An object comes into a free slot or a new one. -/
lemma Consistent.insertWith? (hc : a.Consistent) (hi : a.insertWith? make = some (h, a')) :
    a'.Consistent := by
  have hsize := size_lt_of_nextHandle? (nextHandle?_of_insertWith? hi)
  have hn := nextHandle?_of_insertWith? hi
  rcases insertWith?_cases hc hi with ⟨rest, hf, hs, rfl⟩ | ⟨hf, hl, hg, rfl⟩
  · have hlt := (List.getElem?_eq_some_iff.mp hs).1
    have hget := (List.getElem?_eq_some_iff.mp hs).2
    have hnodup := hc.nodup_free
    rw [hf, List.nodup_cons] at hnodup
    refine ⟨fun i => ?_, hnodup.2, by simpa using hc.length_le, ?_, hsize, fun slot hmem => ?_⟩
    · by_cases hi : i = h.index
      · subst hi
        rw [List.getElem?_set_self hlt]
        simpa using hnodup.1
      · have hne : h.index.toNat ≠ i.toNat := fun he => hi (UInt32.toNat_inj.mp he).symm
        have hmem := hc.mem_free_iff i
        rw [hf, List.mem_cons, or_iff_right hi] at hmem
        rw [List.getElem?_set_ne hne, hmem]
    · simp [List.countP_set hlt, hget, hc.size_eq]
    · rcases List.mem_or_eq_of_mem_set hmem with hmem | rfl
      · exact hc.generation_ne slot hmem
      · exact hc.generation_ne ⟨h.generation, none⟩ (List.mem_of_getElem? hs)
  · have hlt : a.slots.length < UInt32.size := by
      rw [← hl]
      exact h.index.toNat_lt
    refine ⟨fun i => ?_, hc.nodup_free, by simpa using Nat.succ_le_of_lt hlt, ?_, hsize,
      fun slot hmem => ?_⟩
    · rw [hc.mem_free_iff i]
      by_cases hi : i.toNat < a.slots.length
      · rw [List.getElem?_append_left hi]
      · rw [List.getElem?_eq_none (Nat.le_of_not_lt hi),
          List.getElem?_append_right (Nat.le_of_not_lt hi)]
        cases i.toNat - a.slots.length <;> simp
    · simp [hc.size_eq]
    · rcases List.mem_append.mp hmem with hmem | hmem
      · exact hc.generation_ne slot hmem
      · rw [List.mem_singleton.mp hmem]
        simp [hg]

/-! ### Removal -/

lemma remove?_eq_some_iff : a.remove? h = some (v, a') ↔ a.get? h = some v ∧
    a' = { a with
      slots := a.slots.set h.index.toNat ⟨nextGeneration h.generation, none⟩
      free := h.index :: a.free
      size := a.size - 1 } := by
  rw [remove?]
  cases a.get? h with
  | none => simp
  | some value => simp [eq_comm]

lemma exists_remove? (hv : a.get? h = some v) : ∃ a', a.remove? h = some (v, a') :=
  ⟨_, remove?_eq_some_iff.mpr ⟨hv, rfl⟩⟩

/-- A removal takes its handle out of the map. -/
lemma get?_remove? (hr : a.remove? h = some (v, a')) (k : Handle kind) :
    a'.get? k = if k = h then none else a.get? k := by
  obtain ⟨hv, rfl⟩ := remove?_eq_some_iff.mp hr
  have hslot := get?_eq_some_iff.mp hv
  by_cases hidx : k.index = h.index
  · have hnone : Arena.get? { a with
        slots := a.slots.set h.index.toNat ⟨nextGeneration h.generation, none⟩
        free := h.index :: a.free
        size := a.size - 1 } k = none := by
      refine get?_eq_none_of_slot (g := nextGeneration h.generation) ?_ fun _ => rfl
      rw [hidx]
      exact List.getElem?_set_self (index_lt hv)
    rw [hnone]
    by_cases hk : k = h
    · rw [if_pos hk]
    · have hg := generation_ne hidx hk
      rw [if_neg hk]
      exact (get?_eq_none_of_slot (h := k) (by rw [hidx]; exact hslot)
        (fun hgen => absurd hgen hg)).symm
  · rw [if_neg fun hk => hidx (by rw [hk])]
    exact get?_congr (List.getElem?_set_ne fun he => hidx (UInt32.toNat_inj.mp he).symm)

/-- No slot ever has the generation zero, even when generations wrap around. -/
lemma nextGeneration_ne (g : UInt32) : nextGeneration g ≠ 0 := by
  rw [nextGeneration]
  split
  · decide
  · assumption

/-- The slot of a removed object becomes free. -/
lemma Consistent.remove? (hc : a.Consistent) (hr : a.remove? h = some (v, a')) :
    a'.Consistent := by
  obtain ⟨hv, rfl⟩ := remove?_eq_some_iff.mp hr
  have hslot := get?_eq_some_iff.mp hv
  have hlt := index_lt hv
  have hget : a.slots[h.index.toNat] = ⟨h.generation, some v⟩ :=
    (List.getElem?_eq_some_iff.mp hslot).2
  refine ⟨fun i => ?_, List.nodup_cons.mpr ⟨fun hmem => ?_, hc.nodup_free⟩,
    by simpa using hc.length_le, ?_, le_trans (Nat.sub_le _ _) hc.size_le, fun slot hmem => ?_⟩
  · by_cases hi : i = h.index
    · subst hi
      rw [List.getElem?_set_self hlt]
      simp
    · have hne : h.index.toNat ≠ i.toNat := fun he => hi (UInt32.toNat_inj.mp he).symm
      rw [List.mem_cons, or_iff_right hi, hc.mem_free_iff i, List.getElem?_set_ne hne]
  · obtain ⟨g, hg⟩ := (hc.mem_free_iff h.index).mp hmem
    rw [hslot] at hg
    simp at hg
  · simp [List.countP_set hlt, hget, hc.size_eq]
  · rcases List.mem_or_eq_of_mem_set hmem with hmem | rfl
    · exact hc.generation_ne slot hmem
    · exact nextGeneration_ne h.generation

/-! ### Listing -/

/-- The list of the objects from a slot on has those whose slots hold one. -/
lemma mem_liveFrom_iff {i : ℕ} {slots : List (Slot α)} :
    (h, v) ∈ (liveFrom i slots : List (Handle kind × α)) ↔
      ∃ n, slots[n]? = some ⟨h.generation, some v⟩ ∧ h.index = UInt32.ofNat (i + n) := by
  induction slots generalizing i with
  | nil => simp [liveFrom]
  | cons slot rest ih =>
      obtain ⟨g, _ | value⟩ := slot
      · rw [liveFrom, ih]
        constructor
        · rintro ⟨n, hn, hi⟩
          exact ⟨n + 1, by simpa using hn, by rw [hi]; congr 1; omega⟩
        · rintro ⟨_ | n, hn, hi⟩
          · simp at hn
          · exact ⟨n, by simpa using hn, by rw [hi]; congr 1; omega⟩
      · rw [liveFrom, List.mem_cons, ih]
        constructor
        · rintro (heq | ⟨n, hn, hi⟩)
          · rw [Prod.mk.injEq] at heq
            exact ⟨0, by simp [heq.1, heq.2], by rw [heq.1]; rfl⟩
          · exact ⟨n + 1, by simpa using hn, by rw [hi]; congr 1; omega⟩
        · rintro ⟨_ | n, hn, hi⟩
          · left
            cases h
            simp_all
          · exact Or.inr ⟨n, by simpa using hn, by rw [hi]; congr 1; omega⟩

/-- The list of an arena is the graph of its map. -/
lemma mem_toList_iff (hc : a.Consistent) : (h, v) ∈ a.toList ↔ a.get? h = some v := by
  rw [toList, mem_liveFrom_iff, get?_eq_some_iff]
  constructor
  · rintro ⟨n, hn, hi⟩
    have hlt : n < UInt32.size :=
      lt_of_lt_of_le (List.getElem?_eq_some_iff.mp hn).1 hc.length_le
    rw [hi, Nat.zero_add, UInt32.toNat_ofNat_of_lt' hlt]
    exact hn
  · exact fun hs => ⟨h.index.toNat, hs, by simp⟩

/-- The slots are listed in ascending order. -/
lemma pairwise_liveFrom {i : ℕ} {slots : List (Slot α)} (hle : i + slots.length ≤ UInt32.size) :
    (liveFrom i slots : List (Handle kind × α)).Pairwise fun e e' => e.1.index < e'.1.index := by
  induction slots generalizing i with
  | nil => exact List.Pairwise.nil
  | cons slot rest ih =>
      rw [List.length_cons] at hle
      have htail := ih (i := i + 1) (by omega)
      obtain ⟨g, _ | value⟩ := slot
      · exact htail
      · rw [liveFrom, List.pairwise_cons]
        refine ⟨fun ⟨h, v⟩ hmem => ?_, htail⟩
        obtain ⟨n, hn, hi⟩ := mem_liveFrom_iff.mp hmem
        have hlt := (List.getElem?_eq_some_iff.mp hn).1
        rw [hi, UInt32.lt_iff_toNat_lt, UInt32.toNat_ofNat_of_lt' (by omega),
          UInt32.toNat_ofNat_of_lt' (by omega)]
        omega

/-- No handle is listed twice. -/
lemma nodup_handles (hc : a.Consistent) : a.handles.Nodup := by
  have hpairwise : (liveFrom 0 a.slots : List (Handle kind × α)).Pairwise _ :=
    pairwise_liveFrom (by simpa using hc.length_le)
  refine List.pairwise_map.mpr (hpairwise.imp fun {e e'} hlt heq => ?_)
  rw [heq] at hlt
  exact UInt32.lt_irrefl _ hlt

lemma map_snd_liveFrom (i : ℕ) (slots : List (Slot α)) :
    (liveFrom i slots : List (Handle kind × α)).map Prod.snd = slots.filterMap Slot.value := by
  induction slots generalizing i with
  | nil => rfl
  | cons slot rest ih =>
      obtain ⟨g, _ | value⟩ := slot
      · simp [liveFrom, ih]
      · simp [liveFrom, ih]

/-- The number on record is that of the live handles. -/
lemma length_handles (hc : a.Consistent) : a.handles.length = a.size := by
  have hmap : a.toList.map Prod.snd = a.slots.filterMap Slot.value := map_snd_liveFrom 0 a.slots
  rw [handles, List.length_map, ← List.length_map Prod.snd, hmap, hc.size_eq]
  induction a.slots with
  | nil => rfl
  | cons slot rest ih =>
      obtain ⟨g, _ | value⟩ := slot
      · simpa using ih
      · simpa using ih

/-- There are no more distinct live handles than live objects. -/
lemma length_le_size (hc : a.Consistent) {ids : List (Handle kind)} (hnodup : ids.Nodup)
    (hlive : ∀ id ∈ ids, a.contains id = true) : ids.length ≤ a.size := by
  rw [← length_handles hc]
  refine (hnodup.subperm fun id hid => ?_).length_le
  obtain ⟨v, hv⟩ := contains_iff.mp (hlive id hid)
  exact List.mem_map.mpr ⟨(id, v), (mem_toList_iff hc).mpr hv, rfl⟩

/-! ### Properties of all objects -/

/-- Every object satisfies `p`. -/
def All (p : α → Prop) (a : Arena kind α) : Prop := ∀ h v, a.get? h = some v → p v

variable {p q : α → Prop}

lemma all_empty (limit : Nat) : (empty limit : Arena kind α).All p := by
  intro h v hv
  rw [get?_empty] at hv
  cases hv

lemma All.mono (ha : a.All p) (hpq : ∀ v, p v → q v) : a.All q := fun h v hv => hpq v (ha h v hv)

/-- What holds of all objects and of a new one holds of all afterwards. -/
lemma All.insertWith? (ha : a.All p) (hc : a.Consistent)
    (hi : a.insertWith? make = some (h, a')) (hp : p (make h)) : a'.All p := by
  intro k v hv
  rw [get?_insertWith? hc hi] at hv
  split at hv
  · cases hv
    exact hp
  · exact ha k v hv

lemma All.set (ha : a.All p) (hv : a.get? h = some v) (hw : p w) : (a.set h w).All p := by
  intro k v' hv'
  rw [get?_set hv] at hv'
  split at hv'
  · cases hv'
    exact hw
  · exact ha k v' hv'

/-- What holds of all objects holds of those that stay. -/
lemma All.remove? (ha : a.All p) (hr : a.remove? h = some (v, a')) : a'.All p := by
  intro k v' hv'
  rw [get?_remove? hr] at hv'
  split at hv'
  · cases hv'
  · exact ha k v' hv'

/-! ### Liveness and search -/

lemma contains_of_insertWith? (hc : a.Consistent) (hi : a.insertWith? make = some (h, a'))
    (hk : a.contains k = true) : a'.contains k = true := by
  obtain ⟨v, hv⟩ := contains_iff.mp hk
  rw [contains, get?_insertWith? hc hi]
  split
  · rfl
  · rw [hv]
    rfl

/-- What has been inserted is there. -/
lemma contains_insertWith? (hc : a.Consistent) (hi : a.insertWith? make = some (h, a')) :
    a'.contains h = true :=
  contains_iff.mpr ⟨make h, by rw [get?_insertWith? hc hi, if_pos rfl]⟩

lemma contains_set (hv : a.get? h = some v) (k : Handle kind) :
    (a.set h w).contains k = a.contains k := by
  rw [contains, get?_set hv, contains]
  split
  · next hk =>
      rw [hk, hv]
      rfl
  · rfl

/-- A removal ends the life of one handle only. -/
lemma contains_of_remove? (hr : a.remove? h = some (v, a')) (hk : a.contains k = true)
    (hne : k ≠ h) : a'.contains k = true := by
  rw [contains, get?_remove? hr, if_neg hne]
  exact hk

lemma not_contains_of_remove? (hr : a.remove? h = some (v, a')) : a'.contains h = false := by
  rw [contains, get?_remove? hr, if_pos rfl]
  rfl

/-- A search finds nothing exactly if no object is as wanted. -/
lemma find?_eq_none_iff (hc : a.Consistent) {p : α → Bool} :
    a.find? p = none ↔ a.All fun v => p v = false := by
  rw [find?, Option.map_eq_none_iff, List.find?_eq_none]
  constructor
  · intro hnone h v hv
    simpa using hnone (h, v) ((mem_toList_iff hc).mpr hv)
  · intro hall e he
    rw [hall e.1 e.2 ((mem_toList_iff hc).mp he)]
    decide

/-- What a search finds is as wanted. -/
lemma exists_of_find? (hc : a.Consistent) {p : α → Bool} (hp : a.find? p = some h) :
    ∃ v, a.get? h = some v ∧ p v = true := by
  rw [find?, Option.map_eq_some_iff] at hp
  obtain ⟨e, he, rfl⟩ := hp
  have hwanted := List.find?_some he
  exact ⟨e.2, (mem_toList_iff hc).mp (List.mem_of_find?_eq_some he), hwanted⟩

/-- What a search finds is live. -/
lemma contains_of_find? (hc : a.Consistent) {p : α → Bool} (hp : a.find? p = some h) :
    a.contains h = true := by
  obtain ⟨v, hv, -⟩ := exists_of_find? hc hp
  exact contains_iff.mpr ⟨v, hv⟩

/-! ### Sums over the objects -/

/-- The sum of `f` over the live objects. -/
def total (f : α → ℕ) (a : Arena kind α) : ℕ := (a.toList.map fun e => f e.2).sum

lemma total_eq_slotSum (f : α → ℕ) (a : Arena kind α) :
    a.total f = slotSum f (a.slots.map Slot.value) := by
  have hmap : (a.toList.map fun e => f e.2) = (a.toList.map Prod.snd).map f := by
    rw [List.map_map]
    rfl
  rw [total, hmap, toList, map_snd_liveFrom, slotSum_eq_sum_filterMap, List.filterMap_map]
  rfl

@[simp] lemma total_empty (f : α → ℕ) (limit : ℕ) : (empty limit : Arena kind α).total f = 0 := rfl

/-- A sum changes by the object that is replaced. -/
lemma total_set (f : α → ℕ) (hv : a.get? h = some v) :
    (a.set h w).total f + f v = a.total f + f w := by
  have hslot : (a.slots.map Slot.value)[h.index.toNat]? = some (some v) := by
    simp [get?_eq_some_iff.mp hv]
  rw [total_eq_slotSum, total_eq_slotSum, set_eq hv, List.map_set]
  exact slotSum_set f hslot (some w)

/-- A sum grows by the object that is inserted. -/
lemma total_insertWith? (f : α → ℕ) (hc : a.Consistent) (hi : a.insertWith? make = some (h, a')) :
    a'.total f = a.total f + f (make h) := by
  rw [total_eq_slotSum, total_eq_slotSum]
  rcases insertWith?_cases hc hi with ⟨rest, -, hs, rfl⟩ | ⟨-, -, -, rfl⟩
  · have hslot : (a.slots.map Slot.value)[h.index.toNat]? = some none := by simp [hs]
    have hset := slotSum_set f hslot (some (make h))
    simpa [List.map_set] using hset
  · simp

/-- A sum shrinks by the object that is removed. -/
lemma total_remove? (f : α → ℕ) (hr : a.remove? h = some (v, a')) :
    a'.total f + f v = a.total f := by
  obtain ⟨hv, rfl⟩ := remove?_eq_some_iff.mp hr
  have hslot : (a.slots.map Slot.value)[h.index.toNat]? = some (some v) := by
    simp [get?_eq_some_iff.mp hv]
  rw [total_eq_slotSum, total_eq_slotSum, List.map_set]
  exact slotSum_set f hslot none

lemma le_total (f : α → ℕ) (hv : a.get? h = some v) : f v ≤ a.total f := by
  have hslot : (a.slots.map Slot.value)[h.index.toNat]? = some (some v) := by
    simp [get?_eq_some_iff.mp hv]
  rw [total_eq_slotSum]
  exact le_slotSum f hslot

end AclPlane.Arena
