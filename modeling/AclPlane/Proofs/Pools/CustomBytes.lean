import AclPlane.Proofs.Pools

/-!
Comparators on custom bytes.

Creating or editing a comparator looks at how many of the others work on custom bytes; the other
operations of the pool leave the number alone or lower it.

* `RangePool.customBytesInUse_none`, `RangePool.customBytesInUse_some`: the number is a sum over the
  comparators.
* `RangePool.Within`: no more comparators work on custom bytes than may.
* `Pools.within_create`, `Pools.within_edit`, `Pools.within_destroy`, `Pools.within_acquire`,
  `Pools.within_release`: what the operations on pools do to it.
-/

namespace AclPlane

/-! ### Sums over the values of a pool -/

namespace Pool

variable {kind : ObjectKind} {α : Type} {p q : Pool kind α} {id : Handle kind}
  {ids : List (Handle kind)} (f : α → ℕ)

/-- The sum of `f` over the values of a pool. -/
def total (p : Pool kind α) : ℕ := p.entries.total fun c => f c.value

/-- A count that changes makes no difference to a sum over the values. -/
lemma total_set_count {c w : Counted α} (hc : p.entries.get? id = some c)
    (hw : w.value = c.value) :
    (p.entries.set id w).total (fun c => f c.value) = p.total f := by
  have htotal := Arena.total_set (w := w) (fun c : Counted α => f c.value) hc
  rw [hw] at htotal
  exact Nat.add_right_cancel htotal

/-- A sum over the values does not depend on the counts. -/
lemma total_acquireAll (h : ids.foldlM acquire p = .ok q) : q.total f = p.total f := by
  refine foldlM_keeps (p := fun q => q.total f = p.total f) (fun r i r' hr hstep => ?_) h rfl
  rw [acquire, Arena.retain] at hstep
  cases hc : r.entries.get? i with
  | none =>
      rw [hc] at hstep
      cases hstep
  | some c =>
      rw [hc] at hstep
      cases hstep
      exact (total_set_count f hc (w := c.retain) rfl).trans hr

lemma total_releaseAll (h : ids.foldlM release p = .ok q) : q.total f = p.total f := by
  refine foldlM_keeps (p := fun q => q.total f = p.total f) (fun r i r' hr hstep => ?_) h rfl
  rw [release, Arena.release] at hstep
  cases hc : r.entries.get? i with
  | none =>
      rw [hc] at hstep
      cases hstep
  | some c =>
      by_cases hrefs : c.refs = 0
      · simp only [hc, Counted.release?, if_pos hrefs] at hstep
        cases hstep
      · simp only [hc, Counted.release?, if_neg hrefs] at hstep
        cases hstep
        exact (total_set_count f hc (w := { c with refs := c.refs - 1 }) rfl).trans hr

end Pool

/-! ### The limit -/

/-- One for a comparator on custom bytes. -/
def RangeComparator.weight (r : RangeComparator) : ℕ := if r.isCustomBytes then 1 else 0

namespace RangePool

variable {p q : RangePool} {id : Handle .range} {r : RangeComparator}

/-- The comparators on custom bytes, one left out, as a sum. -/
lemma customBytesInUse_eq (p : RangePool) (except : Option (Handle .range)) :
    p.customBytesInUse except = (p.pool.entries.toList.map fun e =>
      if some e.1 = except then 0 else e.2.value.weight).sum := by
  rw [customBytesInUse, Pool.toList, List.filter_map, List.length_map]
  induction p.pool.entries.toList with
  | nil => rfl
  | cons e rest ih =>
      rw [List.map_cons, List.sum_cons, ← ih, List.filter_cons]
      by_cases hid : some e.1 = except
      · simp [hid]
      · by_cases hcustom : e.2.value.isCustomBytes = true
        · simp [hid, hcustom, RangeComparator.weight, Nat.add_comm]
        · simp [hid, hcustom, RangeComparator.weight]

/-- The comparators on custom bytes are counted by their weights. -/
lemma customBytesInUse_none (p : RangePool) :
    p.customBytesInUse none = p.pool.total RangeComparator.weight := by
  simp [customBytesInUse_eq, Pool.total, Arena.total]

/-- The comparator that is left out accounts for the difference. -/
lemma customBytesInUse_some (hc : p.pool.entries.Consistent) {c : Counted RangeComparator}
    (hget : p.pool.entries.get? id = some c) :
    p.customBytesInUse (some id) + c.value.weight = p.pool.total RangeComparator.weight := by
  -- the handle is listed once, with this comparator
  have hsum : ∀ l : List (Handle .range × Counted RangeComparator), (l.map Prod.fst).Nodup →
      (id, c) ∈ l →
        (l.map fun e => if some e.1 = some id then 0 else e.2.value.weight).sum +
          c.value.weight = (l.map fun e => e.2.value.weight).sum := by
    intro l hnodup hmem
    induction l with
    | nil => cases hmem
    | cons e rest ih =>
        rw [List.map_cons, List.nodup_cons] at hnodup
        rw [List.map_cons, List.map_cons, List.sum_cons, List.sum_cons]
        rcases List.mem_cons.mp hmem with rfl | hmem
        · have hrest : ∀ e ∈ rest, (if some e.1 = some id then 0 else e.2.value.weight) =
              e.2.value.weight := fun e he =>
            if_neg fun heq => hnodup.1 (List.mem_map.mpr ⟨e, he, Option.some.inj heq⟩)
          rw [List.map_congr_left hrest, if_pos rfl, Nat.zero_add]
          exact Nat.add_comm _ _
        · have hne : ¬some e.1 = some id := fun heq =>
            hnodup.1 (List.mem_map.mpr ⟨(id, c), hmem, (Option.some.inj heq).symm⟩)
          have htail := ih hnodup.2 hmem
          rw [if_neg hne]
          omega
  rw [customBytesInUse_eq]
  exact hsum _ (Arena.nodup_handles hc) ((Arena.mem_toList_iff hc).mpr hget)

/-- Only comparators on custom bytes are held against the limit. -/
lemma checkCustomBytes_eq_ok {except : Option (Handle .range)} {u : Unit} :
    p.checkCustomBytes r except = .ok u ↔
      (r.isCustomBytes = true → p.customBytesInUse except < p.maxCustomBytes) := by
  rw [checkCustomBytes]
  split
  · next h =>
      simp only [reduceCtorEq, false_iff, Classical.not_imp, not_lt]
      exact h
  · next h => simpa using h

/-- The pool has the given limit, and no more comparators work on custom bytes. -/
structure Within (limit : ℕ) (p : RangePool) : Prop where
  max_eq : p.maxCustomBytes = limit
  inUse_le : p.customBytesInUse none ≤ limit

variable {limit : ℕ}

/-- The check makes room for a comparator beside the others. -/
lemma add_weight_le {except : Option (Handle .range)} {u : Unit}
    (h : p.checkCustomBytes r except = .ok u) (hmax : p.maxCustomBytes = limit)
    (hle : p.customBytesInUse except ≤ limit) : p.customBytesInUse except + r.weight ≤ limit := by
  rw [RangeComparator.weight]
  split
  · next hcustom =>
      rw [← hmax]
      exact checkCustomBytes_eq_ok.mp h hcustom
  · exact hle

lemma Within.of_total (h : p.Within limit) (hmax : q.maxCustomBytes = p.maxCustomBytes)
    (htotal : q.pool.total RangeComparator.weight = p.pool.total RangeComparator.weight) :
    q.Within limit := by
  refine ⟨hmax.trans h.max_eq, ?_⟩
  rw [customBytesInUse_none, htotal, ← customBytesInUse_none]
  exact h.inUse_le

/-- A new comparator on custom bytes is checked against the limit before it comes in. -/
lemma Within.create (h : p.Within limit) (hc : p.pool.entries.Consistent)
    (hcreate : p.create r = .ok (id, q)) : q.Within limit := by
  simp only [RangePool.create, Pool.insert, bind_eq_ok, pure_eq_ok, Prod.mk.injEq] at hcreate
  obtain ⟨_, -, _, hcheck, ⟨i, pool⟩, hins, rfl, rfl⟩ := hcreate
  split at hins
  · next hins' =>
      cases hins
      have htotal := Arena.total_insertWith? (fun c : Counted RangeComparator => c.value.weight)
        hc hins'
      have hroom := add_weight_le hcheck h.max_eq h.inUse_le
      refine ⟨h.max_eq, ?_⟩
      rw [customBytesInUse_none] at hroom ⊢
      exact htotal.trans_le hroom
  · cases hins

/-- A comparator that becomes one on custom bytes is checked without itself. -/
lemma Within.edit (h : p.Within limit) (hc : p.pool.entries.Consistent)
    (hedit : p.edit id r = .ok q) : q.Within limit := by
  simp only [RangePool.edit, Pool.set, bind_eq_ok, pure_eq_ok, Pool.lookup_eq_ok] at hedit
  obtain ⟨_, -, _, -, _, hcheck, pool, ⟨c, hget, rfl⟩, rfl⟩ := hedit
  have htotal := Arena.total_set (w := { c with value := r })
    (fun c : Counted RangeComparator => c.value.weight) hget
  have hothers := customBytesInUse_some hc hget
  have hle := h.inUse_le
  rw [customBytesInUse_none] at hle
  have hroom := add_weight_le hcheck h.max_eq (by omega)
  refine ⟨h.max_eq, ?_⟩
  rw [customBytesInUse_none]
  simp only [Pool.total] at hothers htotal ⊢
  omega

lemma Within.remove (h : p.Within limit) {value : RangeComparator}
    {pool : Pool .range RangeComparator} (hremove : p.pool.remove id = .ok (value, pool)) :
    { p with pool := pool }.Within limit := by
  simp only [Pool.remove, bind_eq_ok] at hremove
  obtain ⟨_, -, hremove⟩ := hremove
  split at hremove
  · next hrem =>
      cases hremove
      have htotal := Arena.total_remove? (fun c : Counted RangeComparator => c.value.weight) hrem
      have hle := h.inUse_le
      refine ⟨h.max_eq, ?_⟩
      rw [customBytesInUse_none] at hle ⊢
      simp only [Pool.total] at hle ⊢
      omega
  · cases hremove

end RangePool

/-! ### Operations on pools -/

namespace Pools

variable {p q : Pools} {refs : PoolRefs} {entry : PoolEntry} {value : PoolValue} {limit : ℕ}

/-- References to comparators do not change how many there are. -/
lemma within_acquire (h : p.ranges.Within limit) (ha : p.acquire refs = .ok q) :
    q.ranges.Within limit := by
  simp only [acquire, bind_eq_ok, pure_eq_ok] at ha
  obtain ⟨_, -, ranges, hranges, _, -, _, -, rfl⟩ := ha
  exact h.of_total rfl (Pool.total_acquireAll _ hranges)

lemma within_release (h : p.ranges.Within limit) (hr : p.release refs = .ok q) :
    q.ranges.Within limit := by
  simp only [release, bind_eq_ok, pure_eq_ok] at hr
  obtain ⟨_, -, ranges, hranges, _, -, _, -, rfl⟩ := hr
  exact h.of_total rfl (Pool.total_releaseAll _ hranges)

/-- Entries of other kinds do not touch the comparators. -/
lemma within_create (h : p.ranges.Within limit) (hc : p.Consistent)
    (hcreate : p.create value = .ok (entry, q)) : q.ranges.Within limit := by
  cases value with
  | range r =>
      simp only [create, bind_eq_ok, pure_eq_ok, Prod.mk.injEq] at hcreate
      obtain ⟨⟨id, pool⟩, hp, -, rfl⟩ := hcreate
      exact h.create hc.ranges hp
  | _ =>
      simp only [create, bind_eq_ok, pure_eq_ok, Prod.mk.injEq] at hcreate
      obtain ⟨_, -, -, rfl⟩ := hcreate
      exact h

lemma within_edit (h : p.ranges.Within limit) (hc : p.Consistent)
    (hedit : p.edit entry value = .ok q) : q.ranges.Within limit := by
  unfold edit at hedit
  split at hedit
  · simp only [bind_eq_ok, pure_eq_ok] at hedit
    obtain ⟨_, -, rfl⟩ := hedit
    exact h
  · simp only [bind_eq_ok, pure_eq_ok] at hedit
    obtain ⟨pool, hp, rfl⟩ := hedit
    exact h.edit hc.ranges hp
  · simp only [bind_eq_ok, pure_eq_ok] at hedit
    obtain ⟨_, -, rfl⟩ := hedit
    exact h
  · simp only [bind_eq_ok, pure_eq_ok] at hedit
    obtain ⟨_, -, rfl⟩ := hedit
    exact h
  · cases hedit
  · cases hedit

/-- Members are added to port lists and VLAN groups only. -/
lemma ranges_add (h : p.add entry value = .ok q) : q.ranges = p.ranges := by
  unfold add at h
  split at h
  · simp only [bind_eq_ok, pure_eq_ok] at h
    obtain ⟨_, -, rfl⟩ := h
    rfl
  · simp only [bind_eq_ok, pure_eq_ok] at h
    obtain ⟨_, -, rfl⟩ := h
    rfl
  · cases h

lemma ranges_delete (h : p.delete entry value = .ok q) : q.ranges = p.ranges := by
  unfold delete at h
  split at h
  · simp only [bind_eq_ok, pure_eq_ok] at h
    obtain ⟨_, -, rfl⟩ := h
    rfl
  · simp only [bind_eq_ok, pure_eq_ok] at h
    obtain ⟨_, -, rfl⟩ := h
    rfl
  · cases h

lemma within_destroy (h : p.ranges.Within limit) (hdestroy : p.destroy entry = .ok q) :
    q.ranges.Within limit := by
  cases entry with
  | range id =>
      simp only [destroy, bind_eq_ok, pure_eq_ok] at hdestroy
      obtain ⟨⟨v, pool⟩, hp, rfl⟩ := hdestroy
      exact h.remove hp
  | _ =>
      simp only [destroy, bind_eq_ok, pure_eq_ok] at hdestroy
      obtain ⟨_, -, rfl⟩ := hdestroy
      exact h

end Pools

end AclPlane
