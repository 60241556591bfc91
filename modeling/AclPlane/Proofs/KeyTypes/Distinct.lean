import AclPlane.Proofs.KeyTypes.Compiled

/-!
When two live key types have the same fields and the same blocks.

A request with a first block looks through all live key types before it compiles, and what it
compiles begins with that block, so it never makes a second copy.  A request without a first block
looks only at the key type that is interned for its fields.  Once that one has been destroyed the
request compiles, even if another live key type has the very blocks that come out.

* `KeyTypes.Overlooks`: a request is about to make a copy of a live key type.
* `KeyTypes.distinct_handle_iff`: only such a request makes equal key types out of distinct ones.
* `KeyTypes.distinct_iff`: so key types stay distinct in exactly the runs without such a request.
* `KeyTypes.copy_after_destroy`: there is one after an interned key type has been destroyed.
-/

namespace AclPlane.KeyTypes

variable {k k' : KeyTypes} {id : Handle .keyType} {kt : KeyType} {catalog : Catalog}

/-! ### Requests -/

/-- A request to the key types. -/
inductive Request where
  | intern (fields : List BasicKey) (hint : Option KeyBlockId)
  | acquire (id : Handle .keyType)
  | release (id : Handle .keyType)
  | destroy (id : Handle .keyType)

/-- What comes of a request, without the handle that it may give. -/
def answer (k : KeyTypes) (catalog : Catalog) : Request → Except AclError KeyTypes
  | .intern fields hint => (k.intern catalog fields hint).map Prod.snd
  | .acquire id => k.acquire id
  | .release id => k.release id
  | .destroy id => k.destroy id

/-- The key types after a request; one that fails leaves them as they are. -/
def handle (k : KeyTypes) (catalog : Catalog) (r : Request) : KeyTypes :=
  match k.answer catalog r with
  | .ok k' => k'
  | .error _ => k

/-- The key types after several requests. -/
def handleAll (k : KeyTypes) (catalog : Catalog) (requests : List Request) : KeyTypes :=
  requests.foldl (fun k r => k.handle catalog r) k

lemma handleAll_concat (k : KeyTypes) (catalog : Catalog) (requests : List Request) (r : Request) :
    k.handleAll catalog (requests ++ [r]) = (k.handleAll catalog requests).handle catalog r := by
  rw [handleAll, List.foldl_append]
  rfl

/-- Two live key types never have both the same fields and the same blocks. -/
def Distinct (k : KeyTypes) : Prop :=
  ∀ id id' ct ct', k.types.get? id = some ct → k.types.get? id' = some ct' →
    ct.value = ct'.value → id = id'

/-- A request without a first block is about to copy a live key type: none is interned for its
fields, the key type has the blocks that will be compiled, and there is room for the copy. -/
def Overlooks (k : KeyTypes) (catalog : Catalog) : Request → Prop
  | .intern fields none =>
    k.interned.get? (FieldSet.ofList fields) = none ∧ k.types.nextHandle?.isSome = true ∧
      ∃ id ct, k.types.get? id = some ct ∧ ct.value.fields = FieldSet.ofList fields ∧
        KeyCover.compile catalog k.maxBlocks (FieldSet.ofList fields) none = .ok ct.value.blocks
  | _ => False

/-! ### One change -/

/-- A new key type is distinct from the others unless one of them is equal to it. -/
lemma Distinct.register_iff (h : k.Distinct) (hc : k.types.Consistent)
    (hr : k.register kt = .ok (id, k')) :
    k'.Distinct ↔ ∀ i ct, k.types.get? i = some ct → ct.value ≠ kt := by
  obtain ⟨types, hins, rfl⟩ := register_eq_ok.mp hr
  have hget := Arena.get?_insertWith? hc hins
  have hfresh := Arena.get?_of_nextHandle? hc (Arena.nextHandle?_of_insertWith? hins)
  have hne : ∀ {i ct}, k.types.get? i = some ct → i ≠ id := by
    rintro i ct hct rfl
    cases hfresh.symm.trans hct
  constructor
  · rintro hdistinct i ct hct rfl
    refine hne hct (hdistinct i id ct (Counted.new ct.value) ?_ ?_ rfl)
    · exact (hget i).trans ((if_neg (hne hct)).trans hct)
    · exact (hget id).trans (if_pos rfl)
  · intro hnone i j ct ct' hi hj heq
    rw [hget] at hi hj
    split at hi <;> split at hj
    · next hi' hj' => exact hi'.trans hj'.symm
    · cases hi
      exact absurd heq.symm (hnone j ct' hj)
    · cases hj
      exact absurd heq (hnone i ct hi)
    · exact h i j ct ct' hi hj heq

lemma Distinct.destroy (h : k.Distinct) (hd : k.destroy id = .ok k') : k'.Distinct := by
  obtain ⟨ct, types, -, -, hrem, rfl⟩ := destroy_eq_ok.mp hd
  have hold : ∀ {i ct}, types.get? i = some ct → k.types.get? i = some ct := by
    intro i ct hct
    rw [Arena.get?_remove? hrem] at hct
    split at hct
    · cases hct
    · exact hct
  exact fun i j ct ct' hi hj => h i j ct ct' (hold hi) (hold hj)

lemma Distinct.recounted (h : k.Distinct) (hrec : k.types.Recounted k'.types) : k'.Distinct := by
  intro i j ct ct' hi hj heq
  have hvalue : ∀ {i ct}, k'.types.get? i = some ct →
      ∃ ct₀, k.types.get? i = some ct₀ ∧ ct₀.value = ct.value := by
    intro i ct hct
    have hv := hrec.value i
    rwa [hct, Option.map_some, eq_comm, Option.map_eq_some_iff] at hv
  obtain ⟨ct₀, hi₀, hv⟩ := hvalue hi
  obtain ⟨ct₀', hj₀, hv'⟩ := hvalue hj
  exact h i j ct₀ ct₀' hi₀ hj₀ (hv.trans (heq.trans hv'.symm))

/-- What a request with a first block compiles, when no live key type suits it, is new. -/
lemma ne_of_findHinted?_eq_none (hc : k.types.Consistent) (hcatalog : catalog.Lawful)
    {fields : FieldSet} {first : KeyBlockId} {blocks : List KeyBlockId}
    (hnone : k.findHinted? fields first = none)
    (hcompile : KeyCover.compile catalog k.maxBlocks fields (some first) = .ok blocks)
    {ct : Counted KeyType} (hct : k.types.get? id = some ct) : ct.value ≠ ⟨fields, blocks⟩ := by
  intro heq
  obtain ⟨-, -, rest, hblocks, -⟩ := KeyCover.isCover_of_compile hcatalog hcompile
  rw [findHinted?, Option.or_eq_none_iff] at hnone
  have hunsuited : ct.value.suits fields first = false :=
    (Arena.find?_eq_none_iff hc).mp hnone.2 id ct hct
  rw [heq, KeyType.suits, KeyType.firstBlock?, hblocks] at hunsuited
  simp [FieldSet.subset, FieldSet.contains] at hunsuited

/-! ### One request -/

lemma consistent_handle (hc : k.types.Consistent) (catalog : Catalog) (r : Request) :
    (k.handle catalog r).types.Consistent := by
  cases hanswer : k.answer catalog r with
  | error e => rwa [handle, hanswer]
  | ok k' =>
      rw [handle, hanswer]
      cases r with
      | intern fields hint =>
          obtain ⟨⟨id, k'⟩, hintern, rfl⟩ := map_eq_ok.mp hanswer
          exact (sameUse_intern hc hintern).consistent
      | acquire id => exact (recounted_acquire hanswer).1.consistent hc
      | release id => exact (recounted_release hanswer).1.consistent hc
      | destroy id => exact (sameUse_destroy hc hanswer).consistent

/-- Distinct key types stay distinct unless a request overlooks one. -/
lemma Distinct.handle (h : k.Distinct) (hc : k.types.Consistent) (hcatalog : catalog.Lawful)
    {r : Request} (hseen : ¬k.Overlooks catalog r) : (k.handle catalog r).Distinct := by
  cases hanswer : k.answer catalog r with
  | error e => rwa [KeyTypes.handle, hanswer]
  | ok k' =>
      rw [KeyTypes.handle, hanswer]
      cases r with
      | acquire id => exact h.recounted (recounted_acquire hanswer).1
      | release id => exact h.recounted (recounted_release hanswer).1
      | destroy id => exact h.destroy hanswer
      | intern fields hint =>
          obtain ⟨⟨id, k'⟩, hintern, rfl⟩ := map_eq_ok.mp hanswer
          cases hint with
          | none =>
              rcases internAny_eq_ok.mp hintern with ⟨-, rfl⟩ | ⟨hlost, blocks, hcompile, hr⟩
              · exact h
              · refine (h.register_iff hc hr).mpr fun i ct hct heq =>
                  hseen ⟨hlost, ?_, i, ct, hct, ?_⟩
                · obtain ⟨types, hins, -⟩ := register_eq_ok.mp hr
                  rw [Arena.nextHandle?_of_insertWith? hins]
                  rfl
                · rw [heq]
                  exact ⟨rfl, hcompile⟩
          | some first =>
              rcases internHinted_eq_ok.mp hintern with
                ⟨-, rfl⟩ | ⟨hnone, blocks, hcompile, ⟨-, rfl⟩ | ⟨-, hr⟩⟩
              · exact h
              · exact h
              · exact (h.register_iff hc hr).mpr fun i ct hct =>
                  ne_of_findHinted?_eq_none hc hcatalog hnone hcompile hct

/-- A request that overlooks a key type makes a copy of it. -/
lemma Distinct.not_distinct_of_overlooks (h : k.Distinct) (hc : k.types.Consistent) {r : Request}
    (hover : k.Overlooks catalog r) : ¬(k.handle catalog r).Distinct := by
  cases r with
  | intern fields hint =>
      cases hint with
      | none =>
          obtain ⟨hlost, hroom, i, ct, hct, hfields, hcompile⟩ := hover
          obtain ⟨id, hnext⟩ := Option.isSome_iff_exists.mp hroom
          obtain ⟨types, hins⟩ := Arena.exists_insertWith? hnext fun _ =>
            Counted.new (⟨FieldSet.ofList fields, ct.value.blocks⟩ : KeyType)
          have hr := register_eq_ok.mpr ⟨types, hins, rfl⟩
          have hanswer : k.answer catalog (.intern fields none) = .ok _ :=
            map_eq_ok.mpr ⟨_, internAny_eq_ok.mpr (.inr ⟨hlost, _, hcompile, hr⟩), rfl⟩
          rw [KeyTypes.handle, hanswer]
          intro hdistinct
          refine (h.register_iff hc hr).mp hdistinct i ct hct ?_
          rw [← hfields]
      | some first => exact hover.elim
  | acquire id => exact hover.elim
  | release id => exact hover.elim
  | destroy id => exact hover.elim

/-- Distinct key types stay distinct in exactly the requests that overlook none of them. -/
theorem Distinct.handle_iff (h : k.Distinct) (hc : k.types.Consistent) (hcatalog : catalog.Lawful)
    (r : Request) : (k.handle catalog r).Distinct ↔ ¬k.Overlooks catalog r :=
  ⟨fun hdistinct hover => h.not_distinct_of_overlooks hc hover hdistinct, h.handle hc hcatalog⟩

/-! ### Many requests -/

variable {maxKeyTypes maxBlocks : ℕ}

lemma consistent_handleAll (requests : List Request) :
    ((empty maxKeyTypes maxBlocks).handleAll catalog requests).types.Consistent := by
  induction requests using List.reverseRecOn with
  | nil => exact Arena.consistent_empty _
  | append_singleton requests r ih =>
      rw [handleAll_concat]
      exact consistent_handle ih catalog r

lemma distinct_empty : (empty maxKeyTypes maxBlocks).Distinct := by
  intro id id' ct ct' hct
  rw [show (empty maxKeyTypes maxBlocks).types.get? id = none from Arena.get?_empty _] at hct
  cases hct

/-- Over a catalog of the device, live key types stay distinct throughout a run exactly if no
request of the run overlooks one: the requests with a first block, the counting of regions and the
destruction of key types never make a copy. -/
theorem distinct_iff {given : Option (List KeyBlock)} (hgiven : Catalog.ofGiven given = .ok catalog)
    (maxKeyTypes maxBlocks : ℕ) (requests : List Request) :
    (∀ before, before <+: requests →
      ((empty maxKeyTypes maxBlocks).handleAll catalog before).Distinct) ↔
    ∀ before r, before ++ [r] <+: requests →
      ¬((empty maxKeyTypes maxBlocks).handleAll catalog before).Overlooks catalog r := by
  have hcatalog := Catalog.lawful_ofGiven hgiven
  induction requests using List.reverseRecOn with
  | nil =>
      refine ⟨fun _ before r hr => ?_, fun _ before hbefore => ?_⟩
      · exact absurd (List.prefix_nil.mp hr) (by simp)
      · rw [List.prefix_nil.mp hbefore]
        exact distinct_empty
  | append_singleton requests r ih =>
      constructor
      · intro hall before r' hr'
        rcases List.prefix_concat_iff.mp hr' with heq | hr'
        · obtain ⟨rfl, hsame⟩ := List.append_inj' heq rfl
          obtain rfl := List.singleton_inj.mp hsame
          have hlast := hall _ (List.prefix_refl _)
          rw [handleAll_concat] at hlast
          have hbefore := hall _ (List.prefix_append _ _)
          exact (hbefore.handle_iff (consistent_handleAll _) hcatalog _).mp hlast
        · exact ih.mp (fun b hb => hall b (hb.trans (List.prefix_append _ _))) before r' hr'
      · intro hall before hbefore
        have hdistinct := ih.mpr fun b r' hr' => hall b r' (hr'.trans (List.prefix_append _ _))
        rcases List.prefix_concat_iff.mp hbefore with rfl | hbefore
        · rw [handleAll_concat]
          exact (hdistinct _ (List.prefix_refl _)).handle (consistent_handleAll _) hcatalog
            (hall _ _ (List.prefix_refl _))
        · exact hdistinct before hbefore

/-- Requests for both IPv4 addresses, from the first block 4 and from the first block 3; the key
type of the earlier one is interned, and then destroyed. -/
def destroying : List Request :=
  [.intern [.srcIp, .dstIp] (some ⟨4⟩), .intern [.srcIp, .dstIp] (some ⟨3⟩), .destroy ⟨0, 1⟩]

/-- Up to there the key types are distinct. -/
theorem distinct_before_request :
    ((empty 8 6).handleAll .builtIn destroying).Distinct := by
  have hgiven : Catalog.ofGiven none = .ok .builtIn := rfl
  refine (distinct_iff hgiven 8 6 destroying).mpr (fun before r hr hover => ?_) destroying
    (List.prefix_refl _)
  have hmem : r ∈ destroying := hr.subset (by simp)
  simp only [destroying, List.mem_cons, List.not_mem_nil, or_false] at hmem
  rcases hmem with rfl | rfl | rfl <;> exact hover

/-- A request without a first block then makes a second key type of block 3 alone. -/
theorem copy_after_destroy :
    ¬((empty 8 6).handleAll .builtIn (destroying ++ [.intern [.srcIp, .dstIp] none])).Distinct := by
  intro h
  have hvalue : ∀ id ∈ [(⟨0, 2⟩ : Handle .keyType), ⟨1, 1⟩],
      ((empty 8 6).handleAll .builtIn
        (destroying ++ [.intern [.srcIp, .dstIp] none])).types.get? id =
        some (Counted.new ⟨FieldSet.ofList [.srcIp, .dstIp], [⟨3⟩]⟩) := by
    decide +kernel
  have heq := h _ _ _ _ (hvalue ⟨0, 2⟩ (by simp)) (hvalue ⟨1, 1⟩ (by simp)) rfl
  cases heq

end AclPlane.KeyTypes
