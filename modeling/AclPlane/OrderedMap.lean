/-!
Finite maps kept in ascending key order.

The entries are a list sorted by key, so listing a map needs no further sorting and two maps
with the same look-ups are equal.  Nothing is inserted by a look-up.

* `get?_insert`, `get?_erase`, `get?_mapValues` — what each operation does to look-ups.
* `mem_toList_iff` — the listed entries are the look-ups that succeed.
* `ext_get?` — maps with the same look-ups are equal.
-/

namespace AclPlane

/-- A finite map from `κ` to `α`, its entries in strictly ascending key order. -/
structure OrderedMap (κ : Type) (α : Type) [Ord κ] where
  toList : List (κ × α)
  sorted : toList.Pairwise (fun a b => compare a.1 b.1 = .lt)

namespace OrderedMap

variable {κ α β : Type} [Ord κ]

/-! ### Operations on sorted lists of entries -/

/-- The value listed under `k`. -/
def find (k : κ) : List (κ × α) → Option α
  | [] => none
  | e :: rest => if compare k e.1 = .eq then some e.2 else find k rest

/-- Puts `v` under `k`, in front of the entries with a greater key. -/
def place (k : κ) (v : α) : List (κ × α) → List (κ × α)
  | [] => [(k, v)]
  | e :: rest =>
    match compare k e.1 with
    | .lt => (k, v) :: e :: rest
    | .eq => (k, v) :: rest
    | .gt => e :: place k v rest

theorem mem_place {k : κ} {v : α} {e : κ × α} {l : List (κ × α)} (h : e ∈ place k v l) :
    e = (k, v) ∨ e ∈ l := by
  induction l with
  | nil => simpa [place] using h
  | cons e' rest ih =>
    simp only [place] at h
    split at h
    · simpa using h
    · simp only [List.mem_cons] at h ⊢
      exact h.imp_right Or.inr
    · simp only [List.mem_cons] at h ⊢
      rcases h with h | h
      · exact Or.inr (Or.inl h)
      · exact (ih h).imp_right Or.inr

theorem sorted_place [Std.TransOrd κ] [Std.LawfulEqOrd κ] {k : κ} {v : α} {l : List (κ × α)}
    (h : l.Pairwise (fun a b => compare a.1 b.1 = .lt)) :
    (place k v l).Pairwise (fun a b => compare a.1 b.1 = .lt) := by
  induction l with
  | nil => simp [place]
  | cons e rest ih =>
    have hhead := (List.pairwise_cons.1 h).1
    have htail := (List.pairwise_cons.1 h).2
    simp only [place]
    split
    next hlt =>
      refine List.pairwise_cons.2 ⟨fun b hb => ?_, h⟩
      rcases List.mem_cons.1 hb with rfl | hb
      · exact hlt
      · exact Std.TransCmp.lt_trans hlt (hhead b hb)
    next heq =>
      have hk : k = e.1 := Std.LawfulEqOrd.eq_of_compare heq
      exact List.pairwise_cons.2 ⟨fun b hb => by simpa [hk] using hhead b hb, htail⟩
    next hgt =>
      refine List.pairwise_cons.2 ⟨fun b hb => ?_, ih htail⟩
      rcases mem_place hb with rfl | hb
      · exact Std.OrientedCmp.lt_of_gt hgt
      · exact hhead b hb

/-! ### The map operations -/

/-- The map without entries. -/
def empty : OrderedMap κ α := ⟨[], List.Pairwise.nil⟩

instance : Inhabited (OrderedMap κ α) := ⟨empty⟩

instance [DecidableEq κ] [DecidableEq α] : DecidableEq (OrderedMap κ α) := fun a b =>
  if h : a.toList = b.toList then
    isTrue (by cases a; cases b; simpa using h)
  else isFalse (fun hab => h (by rw [hab]))

/-- The value under `k`, if there is one. -/
def get? (m : OrderedMap κ α) (k : κ) : Option α := find k m.toList

/-- Whether there is a value under `k`. -/
def contains (m : OrderedMap κ α) (k : κ) : Bool := (m.get? k).isSome

/-- The number of entries. -/
def size (m : OrderedMap κ α) : Nat := m.toList.length

/-- Whether the map has no entries. -/
def isEmpty (m : OrderedMap κ α) : Bool := m.toList.isEmpty

/-- The keys, ascending. -/
def keys (m : OrderedMap κ α) : List κ := m.toList.map Prod.fst

/-- The values, in ascending order of their keys. -/
def values (m : OrderedMap κ α) : List α := m.toList.map Prod.snd

/-- The greatest key. -/
def lastKey? (m : OrderedMap κ α) : Option κ := m.toList.getLast?.map Prod.fst

/-- The map without the key `k`. -/
def erase (m : OrderedMap κ α) (k : κ) : OrderedMap κ α :=
  ⟨m.toList.filter (fun e => compare k e.1 != .eq), m.sorted.filter _⟩

/-- The map with every value `v` under a key `k` replaced by `f k v`. -/
def mapValues (f : κ → α → β) (m : OrderedMap κ α) : OrderedMap κ β :=
  ⟨m.toList.map (fun e => (e.1, f e.1 e.2)), List.pairwise_map.2 m.sorted⟩

variable [Std.LawfulEqOrd κ]

/-- The map with `v` under `k`, in place of what was there. -/
def insert [Std.TransOrd κ] (m : OrderedMap κ α) (k : κ) (v : α) : OrderedMap κ α :=
  ⟨place k v m.toList, sorted_place m.sorted⟩

/-- The map of a list of entries; of two entries with one key the earlier counts. -/
def ofList [Std.TransOrd κ] (entries : List (κ × α)) : OrderedMap κ α :=
  entries.foldr (fun e m => m.insert e.1 e.2) empty

/-- The map with `f` applied to the value under `k`, if there is one. -/
def modify [Std.TransOrd κ] (m : OrderedMap κ α) (k : κ) (f : α → α) : OrderedMap κ α :=
  match m.get? k with
  | some v => m.insert k (f v)
  | none => m

/-! ### Look-ups after each operation -/

theorem compare_refl (k : κ) : compare k k = .eq := Std.ReflCmp.compare_self

theorem find_place (k k' : κ) (v : α) (l : List (κ × α)) :
    find k' (place k v l) = if compare k' k = .eq then some v else find k' l := by
  induction l with
  | nil => simp [place, find]
  | cons e rest ih =>
    simp only [place]
    split
    · simp [find]
    next heq =>
      have hk : k = e.1 := Std.LawfulEqOrd.eq_of_compare heq
      simp only [find, ← hk]
      split <;> rfl
    next hgt =>
      simp only [find, ih]
      by_cases h : compare k' e.1 = .eq
      · have hk : k' = e.1 := Std.LawfulEqOrd.eq_of_compare h
        have hne : compare k' k ≠ .eq := by
          intro h'
          have : k' = k := Std.LawfulEqOrd.eq_of_compare h'
          rw [← this, hk, compare_refl] at hgt
          exact absurd hgt (by decide)
        simp [h, hne]
      · simp [h]

theorem find_filter_ne (k k' : κ) (l : List (κ × α)) :
    find k' (l.filter (fun e => compare k e.1 != .eq)) =
      if compare k k' = .eq then none else find k' l := by
  induction l with
  | nil => simp [find]
  | cons e rest ih =>
    by_cases h : compare k e.1 = .eq
    · have hk : k = e.1 := Std.LawfulEqOrd.eq_of_compare h
      rw [List.filter_cons_of_neg (by simp [h]), ih]
      by_cases h' : compare k k' = .eq
      · simp [h']
      · have hne : compare k' e.1 ≠ .eq := by
          intro h''
          have : k' = e.1 := Std.LawfulEqOrd.eq_of_compare h''
          exact h' (by rw [hk, this, compare_refl])
        simp [h', find, hne]
    · rw [List.filter_cons_of_pos (by simp [h])]
      simp only [find, ih]
      by_cases h' : compare k' e.1 = .eq
      · have hk : k' = e.1 := Std.LawfulEqOrd.eq_of_compare h'
        simp only [hk, h, if_false]
      · simp [h']

omit [Std.LawfulEqOrd κ] in
@[simp] theorem get?_empty (k : κ) : (empty : OrderedMap κ α).get? k = none := rfl

theorem get?_insert [Std.TransOrd κ] [DecidableEq κ] (m : OrderedMap κ α) (k k' : κ) (v : α) :
    (m.insert k v).get? k' = if k' = k then some v else m.get? k' := by
  by_cases h : k' = k
  · rw [if_pos h]
    simp [get?, insert, find_place, h]
  · have hne : compare k' k ≠ .eq := fun h' => h (Std.LawfulEqOrd.eq_of_compare h')
    simp [get?, insert, find_place, h, hne]

@[simp] theorem get?_insert_self [Std.TransOrd κ] (m : OrderedMap κ α) (k : κ) (v : α) :
    (m.insert k v).get? k = some v := by
  simp [get?, insert, find_place]

theorem get?_erase [DecidableEq κ] (m : OrderedMap κ α) (k k' : κ) :
    (m.erase k).get? k' = if k' = k then none else m.get? k' := by
  by_cases h : k' = k
  · rw [if_pos h]
    simp [get?, erase, find_filter_ne, h]
  · have hne : compare k k' ≠ .eq := fun h' => h (Std.LawfulEqOrd.eq_of_compare h').symm
    simp [get?, erase, find_filter_ne, h, hne]

@[simp] theorem get?_erase_self (m : OrderedMap κ α) (k : κ) : (m.erase k).get? k = none := by
  simp [get?, erase, find_filter_ne]

theorem find_map (f : κ → α → β) (k : κ) (l : List (κ × α)) :
    find k (l.map (fun e => (e.1, f e.1 e.2))) = (find k l).map (f k) := by
  induction l with
  | nil => rfl
  | cons e rest ih =>
    simp only [List.map_cons, find, ih]
    split
    next h => rw [show k = e.1 from Std.LawfulEqOrd.eq_of_compare h]; rfl
    · rfl

theorem get?_mapValues (f : κ → α → β) (m : OrderedMap κ α) (k : κ) :
    (m.mapValues f).get? k = (m.get? k).map (f k) :=
  find_map f k m.toList

/-! ### Listing and equality -/

theorem find_eq_some_iff {l : List (κ × α)}
    (h : l.Pairwise (fun a b => compare a.1 b.1 = .lt)) {k : κ} {v : α} :
    find k l = some v ↔ (k, v) ∈ l := by
  induction l with
  | nil => simp [find]
  | cons e rest ih =>
    have hhead := (List.pairwise_cons.1 h).1
    have htail := (List.pairwise_cons.1 h).2
    simp only [find, List.mem_cons]
    split
    next heq =>
      have hk : k = e.1 := Std.LawfulEqOrd.eq_of_compare heq
      constructor
      · intro hv
        rw [Option.some.injEq] at hv
        exact Or.inl (by rw [hk, ← hv])
      · rintro (hv | hv)
        · rw [← hv]
        · have := hhead _ hv
          rw [← hk, compare_refl] at this
          exact absurd this (by decide)
    next hne =>
      rw [ih htail]
      constructor
      · exact Or.inr
      · rintro (hv | hv)
        · exact absurd (by rw [← hv]; exact compare_refl _) hne
        · exact hv

theorem mem_toList_iff {m : OrderedMap κ α} {k : κ} {v : α} :
    (k, v) ∈ m.toList ↔ m.get? k = some v :=
  (find_eq_some_iff m.sorted).symm

theorem eq_of_sorted_of_mem_iff [Std.TransOrd κ] {l l' : List (κ × α)}
    (h : l.Pairwise (fun a b => compare a.1 b.1 = .lt))
    (h' : l'.Pairwise (fun a b => compare a.1 b.1 = .lt))
    (hmem : ∀ e, e ∈ l ↔ e ∈ l') : l = l' := by
  induction l generalizing l' with
  | nil =>
    cases l' with
    | nil => rfl
    | cons e rest => exact absurd ((hmem e).2 (List.mem_cons_self ..)) (by simp)
  | cons e rest ih =>
    cases l' with
    | nil => exact absurd ((hmem e).1 (List.mem_cons_self ..)) (by simp)
    | cons e' rest' =>
      have hhead := (List.pairwise_cons.1 h).1
      have hhead' := (List.pairwise_cons.1 h').1
      have hee : e = e' := by
        rcases List.mem_cons.1 ((hmem e).1 (List.mem_cons_self ..)) with heq | hin
        · exact heq
        rcases List.mem_cons.1 ((hmem e').2 (List.mem_cons_self ..)) with heq | hin'
        · exact heq.symm
        have hlt := hhead' e hin
        have hlt' := hhead e' hin'
        have := Std.TransCmp.lt_trans hlt hlt'
        rw [compare_refl] at this
        exact absurd this (by decide)
      subst hee
      have irrefl : ∀ b : κ × α, compare b.1 b.1 ≠ .lt := fun b hb => by
        rw [compare_refl] at hb
        exact absurd hb (by decide)
      congr 1
      refine ih (List.pairwise_cons.1 h).2 (List.pairwise_cons.1 h').2 (fun b => ?_)
      constructor
      · intro hb
        rcases List.mem_cons.1 ((hmem b).1 (List.mem_cons_of_mem _ hb)) with rfl | hb'
        · exact absurd (hhead b hb) (irrefl b)
        · exact hb'
      · intro hb
        rcases List.mem_cons.1 ((hmem b).2 (List.mem_cons_of_mem _ hb)) with rfl | hb'
        · exact absurd (hhead' b hb) (irrefl b)
        · exact hb'

/-- Maps with the same look-ups are equal. -/
theorem ext_get? [Std.TransOrd κ] {m m' : OrderedMap κ α} (h : ∀ k, m.get? k = m'.get? k) :
    m = m' := by
  have hl : m.toList = m'.toList :=
    eq_of_sorted_of_mem_iff m.sorted m'.sorted (fun e => by
      rw [show e = (e.1, e.2) from rfl, mem_toList_iff, mem_toList_iff, h])
  cases m
  cases m'
  simpa using hl

end OrderedMap

end AclPlane
