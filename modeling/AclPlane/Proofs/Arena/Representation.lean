import AclPlane.Proofs.Arena
import AclPlane.Proofs.OrderedMap

/-!
The histories of an arena against a finite map.

Vacancy is recorded in three places of an arena: the free list, the slots and the size.  Whatever
has been asked of it, with handles of any kind, they agree, and what the arena answers is what a
finite map answers that is extended at fresh keys.

* `Arena.Edit`, `Arena.run`: the changes, and histories of them.
* `MapStep`, `MapRun`: the same changes of a finite map from handles to objects.
* `Arena.Represents`: every look-up of an arena is one of the map, and so is its list.
* `Arena.Sound`: how the records of an arena agree, and what the next handle is.
* `exists_mapStep`: one change keeps an arena and a map together; `represents_run`: so does every
  history.
-/

namespace AclPlane

namespace Arena

variable {kind : ObjectKind} {α : Type} {a : Arena kind α} {m : OrderedMap (Handle kind) α}

/-! ### Histories -/

/-- A change of an arena. -/
inductive Edit (kind : ObjectKind) (α : Type) where
  | insert (value : α)
  /-- Stores an object made from its own handle. -/
  | insertWith (make : Handle kind → α)
  /-- Applies a function to the object of a handle. -/
  | modify (h : Handle kind) (f : α → α)
  | remove (h : Handle kind)

/-- The answer to a change. -/
inductive Answer (kind : ObjectKind) (α : Type) where
  /-- The handle of the new object, if there was room for it. -/
  | inserted (h : Option (Handle kind))
  /-- The object that the handle named, as it was before the change. -/
  | resolved (value : Option α)

/-- The answer to an insertion, and the arena after it. -/
def afterInsert (a : Arena kind α) : Option (Handle kind × Arena kind α) →
    Answer kind α × Arena kind α
  | some (h, a') => (.inserted (some h), a')
  | none => (.inserted none, a)

/-- The answer to a change, and the arena after it. -/
def edit (a : Arena kind α) : Edit kind α → Answer kind α × Arena kind α
  | .insert value => a.afterInsert (a.insert? value)
  | .insertWith make => a.afterInsert (a.insertWith? make)
  | .modify h f => (.resolved (a.get? h), a.modify h f)
  | .remove h =>
    match a.remove? h with
    | some (value, a') => (.resolved (some value), a')
    | none => (.resolved none, a)

/-- The answers to a history, and the arena after it. -/
def run (a : Arena kind α) : List (Edit kind α) → List (Answer kind α) × Arena kind α
  | [] => ([], a)
  | e :: edits =>
    ((a.edit e).1 :: ((a.edit e).2.run edits).1, ((a.edit e).2.run edits).2)

/-! ### Histories of a finite map -/

/-- There is no room for a further key: the limit is reached, or every index is taken. -/
def Full (limit : ℕ) (m : OrderedMap (Handle kind) α) : Prop :=
  limit ≤ m.size ∨ UInt32.size ≤ m.size

/-- A change of a map with its answer: an insertion extends the map at some fresh key, unless
there is no room, and a removal shrinks it. -/
inductive MapStep (limit : ℕ) (m : OrderedMap (Handle kind) α) :
    Edit kind α → Answer kind α → OrderedMap (Handle kind) α → Prop
  | insert {value : α} {h : Handle kind} (room : ¬Full limit m) (fresh : m.get? h = none) :
      MapStep limit m (.insert value) (.inserted (some h)) (m.insert h value)
  | insertFull {value : α} (full : Full limit m) :
      MapStep limit m (.insert value) (.inserted none) m
  | insertWith {make : Handle kind → α} {h : Handle kind} (room : ¬Full limit m)
      (fresh : m.get? h = none) :
      MapStep limit m (.insertWith make) (.inserted (some h)) (m.insert h (make h))
  | insertWithFull {make : Handle kind → α} (full : Full limit m) :
      MapStep limit m (.insertWith make) (.inserted none) m
  | modify {h : Handle kind} {f : α → α} :
      MapStep limit m (.modify h f) (.resolved (m.get? h)) (m.modify h f)
  | remove {h : Handle kind} :
      MapStep limit m (.remove h) (.resolved (m.get? h)) (m.erase h)

/-- A history of a map with its answers. -/
inductive MapRun (limit : ℕ) : OrderedMap (Handle kind) α → List (Edit kind α) →
    List (Answer kind α) → OrderedMap (Handle kind) α → Prop
  | nil {m : OrderedMap (Handle kind) α} : MapRun limit m [] [] m
  | cons {m m' m'' : OrderedMap (Handle kind) α} {e : Edit kind α} {r : Answer kind α}
      {edits : List (Edit kind α)} {answers : List (Answer kind α)}
      (head : MapStep limit m e r m') (tail : MapRun limit m' edits answers m'') :
      MapRun limit m (e :: edits) (r :: answers) m''

/-! ### Arenas that represent a map -/

/-- Look-ups and the list of an arena are those of a map. -/
structure Represents (a : Arena kind α) (m : OrderedMap (Handle kind) α) : Prop where
  get?_eq : ∀ h, a.get? h = m.get? h
  contains_eq : ∀ h, a.contains h = m.contains h
  toList_eq : a.toList = m.toList

/-- Handles are listed in strictly ascending order. -/
lemma sorted_toList (hc : a.Consistent) :
    a.toList.Pairwise (fun e e' => compare e.1 e'.1 = .lt) := by
  have hpairwise : (liveFrom 0 a.slots : List (Handle kind × α)).Pairwise _ :=
    pairwise_liveFrom (by simpa using hc.length_le)
  refine hpairwise.imp fun {e e'} hlt => ?_
  rw [Handle.compare_eq_lex, Std.compare_eq_lt.mpr hlt]
  rfl

lemma represents_of_get? (hc : a.Consistent) (hget : ∀ h, a.get? h = m.get? h) :
    a.Represents m := by
  refine ⟨hget, fun h => by rw [contains, hget, OrderedMap.contains], ?_⟩
  refine OrderedMap.eq_of_sorted_of_mem_iff (sorted_toList hc) m.sorted fun e => ?_
  rw [← Prod.mk.eta (p := e), mem_toList_iff hc, OrderedMap.mem_toList_iff, hget]

lemma represents_empty (limit : ℕ) :
    (empty limit : Arena kind α).Represents OrderedMap.empty :=
  represents_of_get? (consistent_empty limit) fun h => by rw [get?_empty, OrderedMap.get?_empty]

/-- There are as many objects as keys. -/
lemma Represents.size_eq (hc : a.Consistent) (hr : a.Represents m) : m.size = a.size := by
  rw [OrderedMap.size, ← hr.toList_eq, ← length_handles hc, handles, List.length_map]

/-! ### Agreeing records -/

/-- The records of an arena agree, and the next handle is the one that the next insertion
answers. -/
structure Sound (a : Arena kind α) : Prop where
  /-- The free list holds the places of the vacant slots, each once. -/
  mem_free_iff : ∀ n : ℕ, n ∈ a.free.map UInt32.toNat ↔ ∃ g, a.slots[n]? = some ⟨g, none⟩
  nodup_free : a.free.Nodup
  size_eq : a.size = a.slots.countP (·.value.isSome)
  size_le : a.size ≤ a.limit
  one_le_generation : ∀ slot ∈ a.slots, 1 ≤ slot.generation
  nextHandle?_eq_none_iff : a.nextHandle? = none ↔ a.limit ≤ a.size ∨ UInt32.size ≤ a.size
  insertWith?_handle : ∀ make, (a.insertWith? make).map Prod.fst = a.nextHandle?
  get?_nextHandle : ∀ h, a.nextHandle? = some h → a.get? h = none
  ascending : a.handles.Pairwise (fun h k => compare h k = .lt)

lemma Consistent.mem_map_free_iff (hc : a.Consistent) (n : ℕ) :
    n ∈ a.free.map UInt32.toNat ↔ ∃ g, a.slots[n]? = some ⟨g, none⟩ := by
  rw [List.mem_map]
  constructor
  · rintro ⟨i, hi, rfl⟩
    exact (hc.mem_free_iff i).mp hi
  · rintro ⟨g, hg⟩
    have hlt : n < UInt32.size := lt_of_lt_of_le (List.getElem?_eq_some_iff.mp hg).1 hc.length_le
    have hn : (UInt32.ofNat n).toNat = n := UInt32.toNat_ofNat_of_lt' hlt
    exact ⟨UInt32.ofNat n, (hc.mem_free_iff _).mpr ⟨g, by rw [hn, hg]⟩, hn⟩

/-- Every slot is occupied exactly if none is on the free list. -/
lemma Consistent.free_eq_nil_iff (hc : a.Consistent) :
    a.free = [] ↔ a.size = a.slots.length := by
  rw [hc.size_eq, List.countP_eq_length, ← List.map_eq_nil_iff (f := UInt32.toNat),
    List.eq_nil_iff_forall_not_mem]
  simp only [hc.mem_map_free_iff, not_exists]
  constructor
  · intro h slot hslot
    obtain ⟨n, hn⟩ := List.mem_iff_getElem?.mp hslot
    obtain ⟨g, _ | value⟩ := slot
    · exact absurd hn (h n g)
    · rfl
  · intro h n g hn
    have hsome := h _ (List.mem_of_getElem? hn)
    cases hsome

/-- There is no next handle exactly if the limit is reached or every index is taken. -/
lemma Consistent.nextHandle?_eq_none_iff (hc : a.Consistent) :
    a.nextHandle? = none ↔ a.limit ≤ a.size ∨ UInt32.size ≤ a.size := by
  have hcount : a.size ≤ a.slots.length := by
    rw [hc.size_eq]
    exact List.countP_le_length
  have hlen := hc.length_le
  by_cases hfull : a.limit ≤ a.size
  · simp [nextHandle?, isFull, hfull]
  simp only [nextHandle?, isFull, hfull, decide_false, Bool.false_eq_true, if_false, false_or]
  cases hf : a.free with
  | nil =>
      have hall := hc.free_eq_nil_iff.mp hf
      dsimp only
      split
      · simp only [reduceCtorEq, false_iff]
        omega
      · simp only [true_iff]
        omega
  | cons index rest =>
      obtain ⟨g, hg⟩ := (hc.mem_free_iff index).mp (by rw [hf]; exact List.mem_cons_self ..)
      have hvacant : a.size ≠ a.slots.length := fun he => by
        rw [hc.free_eq_nil_iff.mpr he] at hf
        cases hf
      simp only [hg, Option.map_some, reduceCtorEq, false_iff]
      omega

lemma Consistent.sound (hc : a.Consistent) : a.Sound where
  mem_free_iff := hc.mem_map_free_iff
  nodup_free := hc.nodup_free
  size_eq := hc.size_eq
  size_le := hc.size_le
  one_le_generation slot hslot := by
    have hne := hc.generation_ne slot hslot
    rw [UInt32.le_iff_toNat_le]
    exact Nat.one_le_iff_ne_zero.mpr fun h => hne (UInt32.toNat_inj.mp h)
  nextHandle?_eq_none_iff := hc.nextHandle?_eq_none_iff
  insertWith?_handle make := by
    cases hn : a.nextHandle? with
    | none =>
        rw [Arena.insertWith?, hn]
        rfl
    | some h =>
        obtain ⟨a', ha'⟩ := exists_insertWith? hn make
        rw [ha']
        rfl
  get?_nextHandle h hn := get?_of_nextHandle? hc hn
  ascending := List.pairwise_map.mpr (sorted_toList hc)

/-! ### Steps and histories -/

/-- An insertion extends the map, or there is no room for it. -/
lemma Represents.afterInsert (hc : a.Consistent) (hr : a.Represents m) (make : Handle kind → α) :
    (∃ h a', a.afterInsert (a.insertWith? make) = (.inserted (some h), a') ∧
        ¬Full a.limit m ∧ m.get? h = none ∧ a'.Represents (m.insert h (make h)) ∧
        a'.Consistent ∧ a'.limit = a.limit) ∨
      (a.afterInsert (a.insertWith? make) = (.inserted none, a) ∧ Full a.limit m) := by
  have hfull : a.nextHandle? = none ↔ Full a.limit m := by
    rw [hc.nextHandle?_eq_none_iff, Full, hr.size_eq hc]
  cases hi : a.insertWith? make with
  | none =>
      refine .inr ⟨rfl, hfull.mp ?_⟩
      rw [← hc.sound.insertWith?_handle make, hi]
      rfl
  | some e =>
      obtain ⟨h, a'⟩ := e
      have hn := nextHandle?_of_insertWith? hi
      have hlimit : a'.limit = a.limit := by
        rcases insertWith?_cases hc hi with ⟨_, _, _, rfl⟩ | ⟨_, _, _, rfl⟩
        · rfl
        · rfl
      refine .inl ⟨h, a', rfl, ?_, ?_, ?_, hc.insertWith? hi, hlimit⟩
      · rw [← hfull, hn]
        exact Option.some_ne_none h
      · rw [← hr.get?_eq, get?_of_nextHandle? hc hn]
      · refine represents_of_get? (hc.insertWith? hi) fun k => ?_
        rw [get?_insertWith? hc hi, OrderedMap.get?_insert, hr.get?_eq]

/-- **One change.**  What an arena answers is an answer of the map that it represents. -/
theorem exists_mapStep (hc : a.Consistent) (hr : a.Represents m) (e : Edit kind α) :
    ∃ m', MapStep a.limit m e (a.edit e).1 m' ∧ (a.edit e).2.Represents m' ∧
      (a.edit e).2.Consistent ∧ (a.edit e).2.limit = a.limit := by
  cases e with
  | insert value =>
      rcases hr.afterInsert hc (fun _ => value) with
        ⟨h, a', he, hroom, hfresh, hr', hc', hlimit⟩ | ⟨he, hfull⟩
      · rw [edit, insert?, he]
        exact ⟨_, .insert hroom hfresh, hr', hc', hlimit⟩
      · rw [edit, insert?, he]
        exact ⟨_, .insertFull hfull, hr, hc, rfl⟩
  | insertWith make =>
      rcases hr.afterInsert hc make with
        ⟨h, a', he, hroom, hfresh, hr', hc', hlimit⟩ | ⟨he, hfull⟩
      · rw [edit, he]
        exact ⟨_, .insertWith hroom hfresh, hr', hc', hlimit⟩
      · rw [edit, he]
        exact ⟨_, .insertWithFull hfull, hr, hc, rfl⟩
  | modify h f =>
      have hstep : MapStep a.limit m (.modify h f) (.resolved (a.get? h)) (m.modify h f) := by
        rw [hr.get?_eq]
        exact .modify
      refine ⟨_, hstep, ?_⟩
      rw [edit, OrderedMap.modify, ← hr.get?_eq]
      cases hv : a.get? h with
      | none =>
          rw [modify, hv]
          exact ⟨hr, hc, rfl⟩
      | some v =>
          rw [modify_eq_set hv]
          refine ⟨represents_of_get? (hc.set hv) fun k => ?_, hc.set hv, by rw [set_eq hv]⟩
          rw [get?_set hv, OrderedMap.get?_insert, hr.get?_eq]
  | remove h =>
      have hstep : MapStep a.limit m (.remove h) (.resolved (a.get? h)) (m.erase h) := by
        rw [hr.get?_eq]
        exact .remove
      cases hv : a.get? h with
      | none =>
          have hnone : a.remove? h = none := by rw [remove?, hv]
          rw [hv, OrderedMap.erase_of_get?_eq_none (hr.get?_eq h ▸ hv)] at hstep
          rw [edit, hnone]
          exact ⟨m, hstep, hr, hc, rfl⟩
      | some v =>
          obtain ⟨a', ha'⟩ := exists_remove? hv
          rw [hv] at hstep
          rw [edit, ha']
          refine ⟨_, hstep, represents_of_get? (hc.remove? ha') fun k => ?_, hc.remove? ha', ?_⟩
          · rw [get?_remove? ha', OrderedMap.get?_erase, hr.get?_eq]
          · obtain ⟨-, rfl⟩ := remove?_eq_some_iff.mp ha'
            rfl

/-- A history keeps an arena and a map together. -/
lemma exists_mapRun (hc : a.Consistent) (hr : a.Represents m) (edits : List (Edit kind α)) :
    ∃ m', MapRun a.limit m edits (a.run edits).1 m' ∧ (a.run edits).2.Represents m' ∧
      (a.run edits).2.Consistent ∧ (a.run edits).2.limit = a.limit := by
  induction edits generalizing a m with
  | nil => exact ⟨m, .nil, hr, hc, rfl⟩
  | cons e edits ih =>
      obtain ⟨m', hstep, hr', hc', hlimit'⟩ := exists_mapStep hc hr e
      obtain ⟨m'', hrun, hr'', hc'', hlimit''⟩ := ih hc' hr'
      rw [hlimit'] at hrun hlimit''
      exact ⟨m'', .cons hstep hrun, hr'', hc'', hlimit''⟩

/-- **Every history.**  Whatever is asked of an arena that was empty at first, its records agree,
the next handle is the one that the next insertion answers, and its answers and objects are those
of a finite map. -/
theorem represents_run (limit : ℕ) (edits : List (Edit kind α)) :
    ((empty limit).run edits).2.Sound ∧ ((empty limit).run edits).2.limit = limit ∧
      ∃ m, MapRun limit OrderedMap.empty edits ((empty limit).run edits).1 m ∧
        ((empty limit).run edits).2.Represents m := by
  obtain ⟨m, hrun, hr, hc, hlimit⟩ :=
    exists_mapRun (consistent_empty limit) (represents_empty limit) edits
  exact ⟨hc.sound, hlimit, m, hrun, hr⟩

/-- The second removal comes with a stale handle. -/
example : ((empty 8 : Arena .acl ℕ).run
    [.insert 1, .remove ⟨0, 1⟩, .insert 2, .remove ⟨0, 1⟩]).2.toList = [(⟨0, 2⟩, 2)] := by
  decide

end Arena

end AclPlane
