import AclPlane.Proofs.Frame
import AclPlane.Proofs.OrderedMap

/-!
Requests for key types, taken apart.

* `KeyTypes.register_eq_ok`, `KeyTypes.destroy_eq_ok`, `KeyTypes.acquire_eq_ok`,
  `KeyTypes.release_eq_ok`: what each change of the key types does.
* `KeyTypes.internAny_eq_ok`, `KeyTypes.internHinted_eq_ok`: a request finds a key type or
  registers one that has been compiled.
* `KeyTypes.Linked`: interned handles are live and have the fields that they are interned for;
  `KeyTypes.Linked.contains_of_intern`: so what a request gives is live.
-/

namespace AclPlane.KeyTypes

variable {k k' : KeyTypes} {id : Handle .keyType} {kt : KeyType} {catalog : Catalog}
  {fields : FieldSet} {first : KeyBlockId}

/-! ### Changes -/

/-- A new key type becomes the interned one of its fields if there is none yet. -/
lemma register_eq_ok : k.register kt = .ok (id, k') ↔
    ∃ types, k.types.insertWith? (fun _ => Counted.new kt) = some (id, types) ∧
      k' = { k with
        types := types
        interned := if k.interned.contains kt.fields then k.interned
          else k.interned.insert kt.fields id } := by
  rw [register, Arena.insert?]
  cases k.types.insertWith? (fun _ => Counted.new kt) with
  | none => simp
  | some e =>
      obtain ⟨i, types⟩ := e
      simp only [Except.ok.injEq, Prod.mk.injEq, Option.some.injEq]
      constructor
      · rintro ⟨rfl, rfl⟩
        exact ⟨types, ⟨rfl, rfl⟩, rfl⟩
      · rintro ⟨_, ⟨rfl, rfl⟩, rfl⟩
        exact ⟨rfl, rfl⟩

lemma destroy_eq_ok : k.destroy id = .ok k' ↔
    ∃ ct types, k.types.get? id = some ct ∧ ct.refs = 0 ∧
      k.types.remove? id = some (ct, types) ∧
      k' = { k with
        types := types
        interned := if k.interned.get? ct.value.fields = some id
          then k.interned.erase ct.value.fields else k.interned } := by
  simp only [destroy, bind_eq_ok, guard_eq_ok, lookup_eq_ok, Nat.pos_iff_ne_zero, not_not]
  refine exists_congr fun ct => ?_
  constructor
  · rintro ⟨hct, hrefs, h⟩
    obtain ⟨types, hrem⟩ := Arena.exists_remove? hct
    simp only [hrem, pure_eq_ok] at h
    exact ⟨types, hct, hrefs, hrem, h.symm⟩
  · rintro ⟨types, hct, hrefs, hrem, rfl⟩
    refine ⟨hct, hrefs, ?_⟩
    simp only [hrem, pure_eq_ok]

lemma acquire_eq_ok : k.acquire id = .ok k' ↔
    ∃ ct, k.types.get? id = some ct ∧ k' = { k with types := k.types.set id ct.retain } := by
  rw [acquire, Arena.retain]
  cases k.types.get? id with
  | none => simp
  | some ct => simp [eq_comm]

lemma release_eq_ok : k.release id = .ok k' ↔
    ∃ ct, k.types.get? id = some ct ∧ ct.refs ≠ 0 ∧
      k' = { k with types := k.types.set id { ct with refs := ct.refs - 1 } } := by
  rw [release, Arena.release]
  cases k.types.get? id with
  | none => simp
  | some ct =>
      by_cases hrefs : ct.refs = 0
      · simp [Counted.release?, hrefs]
      · simp [Counted.release?, hrefs, eq_comm]

/-- Counting leaves the key types and the interned handles as they are. -/
lemma recounted_acquire (h : k.acquire id = .ok k') :
    k.types.Recounted k'.types ∧ k'.interned = k.interned ∧ k'.maxBlocks = k.maxBlocks := by
  obtain ⟨ct, hct, rfl⟩ := acquire_eq_ok.mp h
  exact ⟨Arena.recounted_set hct rfl, rfl, rfl⟩

lemma recounted_release (h : k.release id = .ok k') :
    k.types.Recounted k'.types ∧ k'.interned = k.interned ∧ k'.maxBlocks = k.maxBlocks := by
  obtain ⟨ct, hct, -, rfl⟩ := release_eq_ok.mp h
  exact ⟨Arena.recounted_set hct rfl, rfl, rfl⟩

/-! ### Requests -/

/-- A request in any blocks finds the interned key type, or compiles one if there is none. -/
lemma internAny_eq_ok : k.internAny catalog fields = .ok (id, k') ↔
    (k.interned.get? fields = some id ∧ k' = k) ∨
      (k.interned.get? fields = none ∧ ∃ blocks,
        KeyCover.compile catalog k.maxBlocks fields none = .ok blocks ∧
          k.register ⟨fields, blocks⟩ = .ok (id, k')) := by
  rw [internAny]
  cases k.interned.get? fields with
  | some i => simp [eq_comm]
  | none => simp [bind_eq_ok]

/-- A request with a first block finds a key type that suits it, or the interned one if that is
what is compiled, or registers what is compiled. -/
lemma internHinted_eq_ok : k.internHinted catalog fields first = .ok (id, k') ↔
    (k.findHinted? fields first = some id ∧ k' = k) ∨
      (k.findHinted? fields first = none ∧ ∃ blocks,
        KeyCover.compile catalog k.maxBlocks fields (some first) = .ok blocks ∧
          ((k.internedAs? fields blocks = some id ∧ k' = k) ∨
            k.internedAs? fields blocks = none ∧ k.register ⟨fields, blocks⟩ = .ok (id, k'))) := by
  rw [internHinted]
  cases k.findHinted? fields first with
  | some i => simp [eq_comm]
  | none =>
      simp only [bind_eq_ok, reduceCtorEq, false_and, true_and, false_or]
      refine exists_congr fun blocks => and_congr_right fun _ => ?_
      cases k.internedAs? fields blocks with
      | some i => simp [pure_eq_ok, @eq_comm _ k k']
      | none => simp

/-! ### Interned handles -/

/-- Interned handles are live, and their key types have the fields that they are interned for. -/
def Linked (k : KeyTypes) : Prop :=
  ∀ fields id, k.interned.get? fields = some id →
    ∃ ct, k.types.get? id = some ct ∧ ct.value.fields = fields

lemma linked_empty (maxKeyTypes maxBlocks : ℕ) : (empty maxKeyTypes maxBlocks).Linked := by
  intro fields id h
  cases h

lemma Linked.register (h : k.Linked) (hc : k.types.Consistent)
    (hr : k.register kt = .ok (id, k')) : k'.Linked := by
  obtain ⟨types, hins, rfl⟩ := register_eq_ok.mp hr
  intro fields i hi
  have hget := Arena.get?_insertWith? hc hins
  -- what was interned before lies apart from the new handle
  have hold : k.interned.get? fields = some i →
      ∃ ct, types.get? i = some ct ∧ ct.value.fields = fields := by
    intro hi
    obtain ⟨ct, hct, hfields⟩ := h fields i hi
    refine ⟨ct, ?_, hfields⟩
    rw [hget, if_neg]
    · exact hct
    · rintro rfl
      rw [Arena.get?_of_nextHandle? hc (Arena.nextHandle?_of_insertWith? hins)] at hct
      cases hct
  simp only at hi
  split at hi
  · exact hold hi
  · rw [OrderedMap.get?_insert] at hi
    split at hi
    · next heq =>
        cases hi
        exact ⟨Counted.new kt, by rw [hget, if_pos rfl], heq.symm⟩
    · exact hold hi

lemma Linked.intern (h : k.Linked) (hc : k.types.Consistent) {list : List BasicKey}
    {hint : Option KeyBlockId} (hr : k.intern catalog list hint = .ok (id, k')) : k'.Linked := by
  rcases intern_cases hr with rfl | ⟨kt, hr⟩
  · exact h
  · exact h.register hc hr

lemma contains_of_register (hc : k.types.Consistent) (hr : k.register kt = .ok (id, k')) :
    k'.types.contains id = true := by
  obtain ⟨types, hins, rfl⟩ := register_eq_ok.mp hr
  exact Arena.contains_insertWith? hc hins

/-- Whether it is found or compiled, what a request gives is live. -/
lemma Linked.contains_of_intern (h : k.Linked) (hc : k.types.Consistent) {list : List BasicKey}
    {hint : Option KeyBlockId} (hr : k.intern catalog list hint = .ok (id, k')) :
    k'.types.contains id = true := by
  have hlive : ∀ fields i, k.interned.get? fields = some i → k.types.contains i = true := by
    intro fields i hi
    obtain ⟨ct, hct, -⟩ := h fields i hi
    exact Arena.contains_iff.mpr ⟨ct, hct⟩
  cases hint with
  | none =>
      rcases internAny_eq_ok.mp hr with ⟨hid, rfl⟩ | ⟨-, blocks, -, hregister⟩
      · exact hlive _ _ hid
      · exact contains_of_register hc hregister
  | some first =>
      rcases internHinted_eq_ok.mp hr with
        ⟨hfound, rfl⟩ | ⟨-, blocks, -, ⟨hfound, rfl⟩ | ⟨-, hregister⟩⟩
      · rcases Option.or_eq_some_iff.mp hfound with hexact | ⟨-, hwider⟩
        · exact Arena.contains_of_find? hc hexact
        · exact Arena.contains_of_find? hc hwider
      · exact hlive _ _ (Option.filter_eq_some_iff.mp hfound).1
      · exact contains_of_register hc hregister

/-- A key type that goes takes its interned handle with it. -/
lemma Linked.destroy (h : k.Linked) (hd : k.destroy id = .ok k') : k'.Linked := by
  obtain ⟨ct, types, hct, -, hrem, rfl⟩ := destroy_eq_ok.mp hd
  intro fields i hi
  simp only at hi ⊢
  have hkept : k.interned.get? fields = some i ∧ i ≠ id := by
    split at hi
    · rw [OrderedMap.get?_erase] at hi
      split at hi
      · cases hi
      · next hne =>
          refine ⟨hi, ?_⟩
          rintro rfl
          obtain ⟨ct', hct', hfields⟩ := h fields i hi
          rw [hct, Option.some.injEq] at hct'
          exact hne (by rw [← hfields, hct'])
    · next hno =>
        refine ⟨hi, ?_⟩
        rintro rfl
        obtain ⟨ct', hct', hfields⟩ := h fields i hi
        rw [hct, Option.some.injEq] at hct'
        exact hno (by rw [hct', hfields, hi])
  obtain ⟨ct', hct', hfields⟩ := h fields i hkept.1
  exact ⟨ct', by rw [Arena.get?_remove? hrem, if_neg hkept.2, hct'], hfields⟩

lemma Linked.recounted (h : k.Linked) (hrec : k.types.Recounted k'.types)
    (hi : k'.interned = k.interned) : k'.Linked := by
  intro fields id hid
  rw [hi] at hid
  obtain ⟨ct, hct, hfields⟩ := h fields id hid
  have hvalue := hrec.value id
  rw [hct, Option.map_some, Option.map_eq_some_iff] at hvalue
  obtain ⟨ct', hct', heq⟩ := hvalue
  exact ⟨ct', hct', by rw [heq, hfields]⟩

end AclPlane.KeyTypes
