import AclPlane.Pool
import AclPlane.Proofs.Arena
import AclPlane.Proofs.Fallible

/-!
Reference counts in arenas and pools.

`Arena.refCount` extends the counts to all handles, with zero for those that name nothing, so
that creating and removing an object nothing refers to leave the counts alone
(`refCount_insertWith?`, `refCount_remove?`).

* `Arena.Recounted`: one arena holds the objects of another under other counts.
* `Pool.exists_acquireAll`: taking references to live entries always succeeds, and with room
  below the greatest count it adds each of them.
* `Pool.exists_releaseAll`: giving references back succeeds if they had been taken.
-/

namespace AclPlane

/-! ### Counts in an arena -/

namespace Arena

variable {kind : ObjectKind} {β : Type} {a a' : Arena kind (Counted β)} {h k : Handle kind}
  {c w : Counted β} {make : Handle kind → Counted β}

/-- The number of references to an object; none to a handle that names nothing. -/
def refCount (a : Arena kind (Counted β)) (h : Handle kind) : ℕ := (a.refs? h).getD 0

lemma refCount_eq (hv : a.get? h = some c) : a.refCount h = c.refs := by
  rw [refCount, refs?, hv]
  rfl

lemma refCount_eq_zero (hv : a.get? h = none) : a.refCount h = 0 := by
  rw [refCount, refs?, hv]
  rfl

lemma exists_get?_of_refCount_pos (hpos : 0 < a.refCount h) : ∃ c, a.get? h = some c := by
  cases hv : a.get? h with
  | none =>
      rw [refCount_eq_zero hv] at hpos
      exact absurd hpos (Nat.lt_irrefl 0)
  | some c => exact ⟨c, rfl⟩

@[simp] lemma refCount_empty (limit : ℕ) :
    (empty limit : Arena kind (Counted β)).refCount h = 0 :=
  refCount_eq_zero (get?_empty limit)

lemma refCount_set (hv : a.get? h = some c) (w : Counted β) (k : Handle kind) :
    (a.set h w).refCount k = if k = h then w.refs else a.refCount k := by
  have hget : (a.set h w).get? k = if k = h then some w else a.get? k := get?_set hv
  by_cases hk : k = h
  · rw [if_pos hk] at hget ⊢
    exact refCount_eq hget
  · rw [if_neg hk] at hget ⊢
    rw [refCount, refs?, hget]
    rfl

/-- A new object that nothing refers to changes no count. -/
lemma refCount_insertWith? (hc : a.Consistent) (hi : a.insertWith? make = some (h, a'))
    (hz : (make h).refs = 0) (k : Handle kind) : a'.refCount k = a.refCount k := by
  have hget := get?_insertWith? hc hi k
  by_cases hk : k = h
  · subst hk
    rw [if_pos rfl] at hget
    rw [refCount_eq hget, hz,
      refCount_eq_zero (get?_of_nextHandle? hc (nextHandle?_of_insertWith? hi))]
  · rw [if_neg hk] at hget
    rw [refCount, refs?, hget]
    rfl

/-- Removing an object that nothing refers to changes no count. -/
lemma refCount_remove? (hr : a.remove? h = some (c, a')) (hz : c.refs = 0) (k : Handle kind) :
    a'.refCount k = a.refCount k := by
  have hv := (remove?_eq_some_iff.mp hr).1
  have hget := get?_remove? hr k
  by_cases hk : k = h
  · subst hk
    rw [if_pos rfl] at hget
    rw [refCount_eq_zero hget, refCount_eq hv, hz]
  · rw [if_neg hk] at hget
    rw [refCount, refs?, hget]
    rfl

/-! ### One reference more or less -/

/-- The objects of `a'` are those of `a`, under counts of their own. -/
structure Recounted (a a' : Arena kind (Counted β)) : Prop where
  consistent : a.Consistent → a'.Consistent
  value : ∀ h, (a'.get? h).map Counted.value = (a.get? h).map Counted.value

namespace Recounted

lemma refl (a : Arena kind (Counted β)) : a.Recounted a := ⟨fun h => h, fun _ => rfl⟩

lemma trans {a'' : Arena kind (Counted β)} (h : a.Recounted a') (h' : a'.Recounted a'') :
    a.Recounted a'' :=
  ⟨fun hc => h'.consistent (h.consistent hc), fun k => (h'.value k).trans (h.value k)⟩

lemma contains_eq (hr : a.Recounted a') (k : Handle kind) : a'.contains k = a.contains k := by
  have hv := congrArg Option.isSome (hr.value k)
  rw [Option.isSome_map, Option.isSome_map] at hv
  exact hv

end Recounted

/-- Changing the count of an object keeps the values. -/
lemma recounted_set (hv : a.get? h = some c) (hw : w.value = c.value) :
    a.Recounted (a.set h w) := by
  refine ⟨fun hc => hc.set hv, fun k => ?_⟩
  have hget : (a.set h w).get? k = if k = h then some w else a.get? k := get?_set hv
  by_cases hk : k = h
  · rw [hget, if_pos hk, hk, hv]
    simp [hw]
  · rw [hget, if_neg hk]

/-- A reference to a live object can always be taken. -/
lemma exists_retain (hh : a.contains h = true) :
    ∃ a', a.retain h = .ok a' ∧ a.Recounted a' ∧
      ∀ k, a'.refCount k = if k = h then min (a.refCount h + 1) maxCount else a.refCount k := by
  obtain ⟨c, hc⟩ := contains_iff.mp hh
  refine ⟨a.set h c.retain, ?_, recounted_set hc rfl, fun k => ?_⟩
  · rw [retain, hc]
  · rw [refCount_set hc, refCount_eq hc]
    rfl

/-- Whatever the counts, taking a reference and giving one back leave the objects alone. -/
lemma recounted_of_retain (hr : a.retain h = .ok a') : a.Recounted a' := by
  rw [retain] at hr
  split at hr
  · next hc =>
      cases hr
      exact recounted_set hc rfl
  · cases hr

lemma recounted_of_release (hr : a.release h = .ok a') : a.Recounted a' := by
  rw [release] at hr
  split at hr
  · next c hc =>
      split at hr
      · next c' hc' =>
          cases hr
          rw [Counted.release?] at hc'
          split at hc'
          · cases hc'
          · cases hc'
            exact recounted_set hc rfl
      · cases hr
  · cases hr

/-- A reference that has been taken can be given back. -/
lemma exists_release (hpos : 0 < a.refCount h) :
    ∃ a', a.release h = .ok a' ∧ a.Recounted a' ∧
      ∀ k, a'.refCount k + [h].count k = a.refCount k := by
  obtain ⟨c, hc⟩ := exists_get?_of_refCount_pos hpos
  rw [refCount_eq hc] at hpos
  refine ⟨a.set h { c with refs := c.refs - 1 }, ?_, recounted_set hc rfl, fun k => ?_⟩
  · rw [release, hc]
    simp only [Counted.release?, if_neg hpos.ne']
  · rw [refCount_set hc]
    by_cases hk : k = h
    · rw [if_pos hk, hk, List.count_singleton_self, refCount_eq hc]
      exact Nat.sub_add_cancel hpos
    · rw [if_neg hk, List.count_eq_zero_of_not_mem (by simpa using hk), Nat.add_zero]

/-- With room below the greatest count, one reference more counts. -/
lemma refCount_retain {n : ℕ}
    (hk : n = if k = h then min (a.refCount h + 1) maxCount else a.refCount k)
    (hroom : a.refCount h + 1 ≤ maxCount) : n = a.refCount k + [h].count k := by
  by_cases hkh : k = h
  · rw [if_pos hkh, min_eq_left hroom] at hk
    rw [hk, hkh, List.count_singleton_self]
  · rw [if_neg hkh] at hk
    rw [hk, List.count_eq_zero_of_not_mem (by simpa using hkh), Nat.add_zero]

end Arena

/-! ### Counts in a pool -/

namespace Pool

variable {kind : ObjectKind} {α : Type} {p q r : Pool kind α} {id : Handle kind}
  {ids : List (Handle kind)}

/-- The number of references to an entry; none to a handle that names nothing. -/
def refCount (p : Pool kind α) (id : Handle kind) : ℕ := p.entries.refCount id

lemma refCount_empty (name : String) (limit : ℕ) (id : Handle kind) :
    (empty name limit : Pool kind α).refCount id = 0 :=
  Arena.refCount_empty limit

lemma lookup_eq_ok {c : Counted α} : p.lookup id = .ok c ↔ p.entries.get? id = some c := by
  rw [lookup]
  cases p.entries.get? id with
  | none => simp
  | some c' => simp

/-- A reference to a live entry can always be taken. -/
lemma exists_acquire (hid : p.contains id = true) :
    ∃ q, p.acquire id = .ok q ∧ p.entries.Recounted q.entries ∧
      ∀ k, q.refCount k = if k = id then min (p.refCount id + 1) maxCount else p.refCount k := by
  obtain ⟨entries, he, hrec, hcount⟩ := Arena.exists_retain hid
  refine ⟨{ p with entries := entries }, ?_, hrec, hcount⟩
  rw [acquire, he]

/-- A reference that has been taken can be given back. -/
lemma exists_release (hpos : 0 < p.refCount id) :
    ∃ q, p.release id = .ok q ∧ p.entries.Recounted q.entries ∧
      ∀ k, q.refCount k + [id].count k = p.refCount k := by
  obtain ⟨entries, he, hrec, hcount⟩ := Arena.exists_release hpos
  refine ⟨{ p with entries := entries }, ?_, hrec, hcount⟩
  rw [release, he]

/-! ### Many references -/

/-- References to live entries can always be taken.  No count drops, and with room below the
greatest count each of the references counts. -/
lemma exists_acquireAll (hmax : ∀ id, p.refCount id ≤ maxCount)
    (hids : ∀ id ∈ ids, p.contains id = true) :
    ∃ q, ids.foldlM acquire p = .ok q ∧ p.entries.Recounted q.entries ∧
      (∀ id, p.refCount id ≤ q.refCount id) ∧
      ((∀ id, p.refCount id + ids.count id ≤ maxCount) →
        ∀ id, q.refCount id = p.refCount id + ids.count id) := by
  induction ids generalizing p with
  | nil => exact ⟨p, rfl, Arena.Recounted.refl p.entries, fun _ => le_rfl, fun _ _ => rfl⟩
  | cons i ids ih =>
      obtain ⟨p', hp', hrec, hcount⟩ := exists_acquire (hids i (List.mem_cons_self ..))
      have hmax' : ∀ id, p'.refCount id ≤ maxCount := by
        intro id
        rw [hcount id]
        split
        · exact Nat.min_le_right _ _
        · exact hmax id
      have hids' : ∀ id ∈ ids, p'.contains id = true := by
        intro id hid
        rw [contains, hrec.contains_eq]
        exact hids id (List.mem_cons_of_mem _ hid)
      obtain ⟨q, hq, hrec', hle, hroom⟩ := ih hmax' hids'
      refine ⟨q, ?_, hrec.trans hrec', fun id => ?_, fun h => ?_⟩
      · rw [List.foldlM_cons, hp']
        exact hq
      · refine le_trans ?_ (hle id)
        rw [hcount id]
        split
        · next hi =>
            rw [hi]
            exact le_min (Nat.le_succ _) (hmax i)
        · exact le_rfl
      · have hsplit : ∀ id, (i :: ids).count id = [i].count id + ids.count id := by
          intro id
          rw [← List.singleton_append, List.count_append]
        -- with room, the first reference counts
        have hstep : ∀ id, p'.refCount id = p.refCount id + [i].count id := by
          intro id
          refine Arena.refCount_retain (hcount id) ?_
          have hi := h i
          rw [List.count_cons_self] at hi
          exact le_trans (Nat.add_le_add_left (Nat.le_add_left 1 _) _) hi
        intro id
        rw [hroom (fun id => ?_) id, hstep id, hsplit id, Nat.add_assoc]
        rw [hstep id, Nat.add_assoc, ← hsplit id]
        exact h id

/-- References that have been taken can be given back. -/
lemma exists_releaseAll (hids : ∀ id, ids.count id ≤ p.refCount id) :
    ∃ q, ids.foldlM release p = .ok q ∧ p.entries.Recounted q.entries ∧
      ∀ id, q.refCount id + ids.count id = p.refCount id := by
  induction ids generalizing p with
  | nil => exact ⟨p, rfl, Arena.Recounted.refl p.entries, fun _ => rfl⟩
  | cons i ids ih =>
      have hsplit : ∀ id, (i :: ids).count id = [i].count id + ids.count id := by
        intro id
        rw [← List.singleton_append, List.count_append]
      have hpos : 0 < p.refCount i := by
        have hi := hids i
        rw [List.count_cons_self] at hi
        omega
      obtain ⟨p', hp', hrec, hstep⟩ := exists_release hpos
      have hids' : ∀ id, ids.count id ≤ p'.refCount id := by
        intro id
        have h₁ := hids id
        have h₂ := hstep id
        rw [hsplit id] at h₁
        omega
      obtain ⟨q, hq, hrec', hcount⟩ := ih hids'
      refine ⟨q, ?_, hrec.trans hrec', fun id => ?_⟩
      · rw [List.foldlM_cons, hp']
        exact hq
      · have h₁ := hstep id
        have h₂ := hcount id
        rw [hsplit id]
        omega

/-- Whatever the counts, references leave the entries alone. -/
lemma recounted_of_acquireAll (h : ids.foldlM acquire p = .ok q) :
    p.entries.Recounted q.entries := by
  refine foldlM_keeps (p := fun q => p.entries.Recounted q.entries) (fun r i r' hr hstep => ?_) h
    (.refl _)
  rw [acquire] at hstep
  split at hstep
  · next hretain =>
      cases hstep
      exact hr.trans (Arena.recounted_of_retain hretain)
  · cases hstep

lemma recounted_of_releaseAll (h : ids.foldlM release p = .ok q) :
    p.entries.Recounted q.entries := by
  refine foldlM_keeps (p := fun q => p.entries.Recounted q.entries) (fun r i r' hr hstep => ?_) h
    (.refl _)
  rw [release] at hstep
  split at hstep
  · next hrelease =>
      cases hstep
      exact hr.trans (Arena.recounted_of_release hrelease)
  · cases hstep

/-! ### Edits of entries -/

/-- The entries of `q` may differ from those of `p`, but their counts do not. -/
structure SameCounts (p q : Pool kind α) : Prop where
  consistent : p.entries.Consistent → q.entries.Consistent
  refCount : p.entries.Consistent → ∀ id, q.refCount id = p.refCount id

lemma sameCounts_insert {value : α} (h : p.insert value = .ok (id, q)) : p.SameCounts q := by
  rw [insert] at h
  split at h
  · next id' entries hi =>
      rw [Except.ok.injEq, Prod.mk.injEq] at h
      obtain ⟨rfl, rfl⟩ := h
      exact ⟨fun hc => hc.insertWith? hi, fun hc => Arena.refCount_insertWith? hc hi rfl⟩
  · cases h

lemma sameCounts_set {value : α} (h : p.set id value = .ok q) : p.SameCounts q := by
  simp only [set, bind_eq_ok, pure_eq_ok, lookup_eq_ok] at h
  obtain ⟨c, hc, rfl⟩ := h
  refine ⟨fun hcons => hcons.set hc, fun _ k => ?_⟩
  rw [refCount, Arena.refCount_set hc]
  by_cases hk : k = id
  · rw [if_pos hk, hk, refCount, Arena.refCount_eq hc]
  · rw [if_neg hk, refCount]

lemma sameCounts_remove {value : α} (h : p.remove id = .ok (value, q)) : p.SameCounts q := by
  simp only [remove, checkFree, bind_eq_ok, last_guard_eq_ok, lookup_eq_ok] at h
  obtain ⟨_, ⟨c, hc, hfree, -⟩, hrem⟩ := h
  obtain ⟨entries, hr⟩ := Arena.exists_remove? hc
  rw [hr] at hrem
  simp only [pure_eq_ok, Prod.mk.injEq] at hrem
  obtain ⟨-, rfl⟩ := hrem
  exact ⟨fun hcons => hcons.remove? hr,
    fun _ => Arena.refCount_remove? hr (Nat.eq_zero_of_not_pos hfree)⟩

end Pool

end AclPlane
