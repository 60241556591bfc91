import AclPlane.Proofs.RefCount

/-!
The values of a pool as a finite map.

* `Pool.value?`: the value of an entry, with the count left aside.
* `Pool.value?_insert`, `Pool.value?_set`, `Pool.value?_remove`: the look-ups after each change.
* `Pool.value?_acquire`, `Pool.value?_release`: counting leaves the values as they are.
-/

namespace AclPlane.Pool

variable {kind : ObjectKind} {α : Type} {p q : Pool kind α} {id k : Handle kind} {v : α}

/-- The value of an entry. -/
def value? (p : Pool kind α) (id : Handle kind) : Option α := (p.entries.get? id).map Counted.value

@[simp] lemma value?_empty (name : String) (limit : ℕ) (id : Handle kind) :
    (empty name limit : Pool kind α).value? id = none := by
  rw [value?, show (empty name limit : Pool kind α).entries.get? id = none from Arena.get?_empty _]
  rfl

lemma get_eq_ok : p.get id = .ok v ↔ p.value? id = some v := by
  rw [get, lookup, value?]
  cases p.entries.get? id with
  | none => simp [Except.map]
  | some c => simp [Except.map]

/-- The list of a pool is the graph of its map. -/
lemma mem_toList_iff (hc : p.entries.Consistent) : (id, v) ∈ p.toList ↔ p.value? id = some v := by
  rw [toList, List.mem_map, value?, Option.map_eq_some_iff]
  constructor
  · rintro ⟨⟨i, c⟩, hmem, heq⟩
    obtain ⟨rfl, rfl⟩ := Prod.mk.inj heq
    exact ⟨c, (Arena.mem_toList_iff hc).mp hmem, rfl⟩
  · rintro ⟨c, hget, rfl⟩
    exact ⟨(id, c), (Arena.mem_toList_iff hc).mpr hget, rfl⟩

/-! ### Changes -/

/-- A new entry gets a handle of its own. -/
lemma value?_insert (hc : p.entries.Consistent) (h : p.insert v = .ok (id, q)) :
    p.value? id = none ∧ ∀ k, q.value? k = if k = id then some v else p.value? k := by
  rw [insert] at h
  split at h
  · next hins =>
      cases h
      have hfresh := Arena.get?_of_nextHandle? hc (Arena.nextHandle?_of_insertWith? hins)
      refine ⟨by rw [value?, hfresh]; rfl, fun k => ?_⟩
      rw [value?, Arena.get?_insertWith? hc hins k]
      by_cases hk : k = id
      · rw [if_pos hk, if_pos hk]
        rfl
      · rw [if_neg hk, if_neg hk]
        rfl
  · cases h

/-- Only what is there can be given another value. -/
lemma value?_set (h : p.set id v = .ok q) :
    (p.value? id).isSome = true ∧ ∀ k, q.value? k = if k = id then some v else p.value? k := by
  simp only [set, bind_eq_ok, pure_eq_ok, lookup_eq_ok] at h
  obtain ⟨c, hc, rfl⟩ := h
  refine ⟨by rw [value?, hc]; rfl, fun k => ?_⟩
  rw [value?, Arena.get?_set hc]
  by_cases hk : k = id
  · rw [if_pos hk, if_pos hk]
    rfl
  · rw [if_neg hk, if_neg hk]
    rfl

lemma exists_set {w : α} (h : p.value? id = some w) (v : α) : ∃ q, p.set id v = .ok q := by
  rw [value?, Option.map_eq_some_iff] at h
  obtain ⟨c, hc, -⟩ := h
  rw [set, lookup_eq_ok.mpr hc]
  exact ⟨_, rfl⟩

/-- An entry that is removed takes its value with it. -/
lemma value?_remove (h : p.remove id = .ok (v, q)) (k : Handle kind) :
    q.value? k = if k = id then none else p.value? k := by
  simp only [remove, bind_eq_ok] at h
  obtain ⟨_, -, h⟩ := h
  split at h
  · next hrem =>
      cases h
      rw [value?, Arena.get?_remove? hrem k]
      by_cases hk : k = id
      · rw [if_pos hk, if_pos hk]
        rfl
      · rw [if_neg hk, if_neg hk]
        rfl
  · cases h

/-! ### Counting -/

lemma recounted_of_acquire (h : p.acquire id = .ok q) : p.entries.Recounted q.entries := by
  have hall : [id].foldlM acquire p = .ok q := by
    rw [List.foldlM_cons, h]
    rfl
  exact recounted_of_acquireAll hall

lemma recounted_of_release (h : p.release id = .ok q) : p.entries.Recounted q.entries := by
  have hall : [id].foldlM release p = .ok q := by
    rw [List.foldlM_cons, h]
    rfl
  exact recounted_of_releaseAll hall

lemma value?_acquire (h : p.acquire id = .ok q) (k : Handle kind) : q.value? k = p.value? k :=
  (recounted_of_acquire h).value k

lemma value?_release (h : p.release id = .ok q) (k : Handle kind) : q.value? k = p.value? k :=
  (recounted_of_release h).value k

end AclPlane.Pool
