import AclPlane.Proofs.KeyTypes.Compiled
import AclPlane.Proofs.Limits
import AclPlane.Proofs.Stale

/-!
What a request for a key type gives, and what it gives when it is made again.

A request without a first block looks into the table of interned handles, where nothing but the
destruction of a key type removes an entry.  A request with a first block searches the live key
types, and after it has registered one, that is the only one to suit it.

* `KeyTypes.exists_of_intern`: what a request gives suits it.
* `KeyTypes.internHinted_again`: a request with a first block, made again at once, finds what it has
  given.
* `Controller.interned_run`: an interned handle stays until its key type is destroyed.
* `Controller.interning_sound`: all of it together, for every run.
-/

namespace AclPlane

/-- Lists with the same members denote the same fields. -/
lemma FieldSet.ofList_congr {list again : List BasicKey} (h : ∀ f, f ∈ again ↔ f ∈ list) :
    ofList again = ofList list := by
  refine ext_contains fun f => ?_
  rw [contains_ofList, contains_ofList, Bool.eq_iff_iff, List.contains_iff_mem,
    List.contains_iff_mem]
  exact h f

/-! ### One request -/

namespace KeyTypes

variable {k k' : KeyTypes} {id : Handle .keyType} {kt : KeyType} {catalog : Catalog}
  {fields : FieldSet} {first : KeyBlockId}

lemma get?_register (hc : k.types.Consistent) (hr : k.register kt = .ok (id, k'))
    (i : Handle .keyType) :
    k'.types.get? i = if i = id then some (Counted.new kt) else k.types.get? i := by
  obtain ⟨types, hins, rfl⟩ := register_eq_ok.mp hr
  exact Arena.get?_insertWith? hc hins i

/-- A key type that is found for a first block suits it. -/
lemma exists_of_findHinted? (hc : k.types.Consistent)
    (hfound : k.findHinted? fields first = some id) :
    ∃ ct, k.types.get? id = some ct ∧ ct.value.suits fields first = true := by
  rcases Option.or_eq_some_iff.mp hfound with hexact | ⟨-, hwider⟩
  · obtain ⟨ct, hct, hsuits⟩ := Arena.exists_of_find? hc hexact
    exact ⟨ct, hct, (Bool.and_eq_true_iff.mp hsuits).1⟩
  · exact Arena.exists_of_find? hc hwider

/-- What is compiled from a first block suits it. -/
lemma suits_of_compile (hcatalog : catalog.Lawful) {maxBlocks : ℕ} {blocks : List KeyBlockId}
    (hcompile : KeyCover.compile catalog maxBlocks fields (some first) = .ok blocks) :
    (⟨fields, blocks⟩ : KeyType).suits fields first = true := by
  obtain ⟨-, -, rest, hblocks, -⟩ := KeyCover.isCover_of_compile hcatalog hcompile
  rw [KeyType.suits, KeyType.firstBlock?, hblocks]
  simp [FieldSet.subset, FieldSet.contains]

/-- What a request with a first block gives suits it. -/
lemma exists_of_internHinted (h : k.Linked) (hc : k.types.Consistent) (hcatalog : catalog.Lawful)
    (hr : k.internHinted catalog fields first = .ok (id, k')) :
    ∃ ct, k'.types.get? id = some ct ∧ ct.value.suits fields first = true := by
  rcases internHinted_eq_ok.mp hr with
    ⟨hfound, rfl⟩ | ⟨-, blocks, hcompile, ⟨hfound, rfl⟩ | ⟨-, hregister⟩⟩
  · exact exists_of_findHinted? hc hfound
  · rw [internedAs?, Option.filter_eq_some_iff] at hfound
    obtain ⟨hinterned, hblocks⟩ := hfound
    obtain ⟨ct, hct, hfields⟩ := h fields id hinterned
    rw [hct] at hblocks
    have hvalue : ct.value = ⟨fields, blocks⟩ := by
      rw [← hfields, ← eq_of_beq hblocks]
    exact ⟨ct, hct, hvalue ▸ suits_of_compile hcatalog hcompile⟩
  · refine ⟨Counted.new ⟨fields, blocks⟩, ?_, suits_of_compile hcatalog hcompile⟩
    rw [get?_register hc hregister, if_pos rfl]

/-- What a request gives has its fields, and begins with its first block if it has one. -/
theorem exists_of_intern (h : k.Linked) (hc : k.types.Consistent) (hcatalog : catalog.Lawful)
    {list : List BasicKey} {hint : Option KeyBlockId}
    (hr : k.intern catalog list hint = .ok (id, k')) :
    ∃ ct, k'.types.get? id = some ct ∧ (∀ f ∈ list, ct.value.fields.contains f = true) ∧
      ∀ b ∈ hint, ct.value.blocks.head? = some b := by
  cases hint with
  | none =>
      obtain ⟨ct, hct, hfields⟩ := exists_of_internAny h hc hr
      refine ⟨ct, hct, fun f hf => ?_, nofun⟩
      rw [hfields, FieldSet.contains_ofList]
      exact List.contains_iff_mem.mpr hf
  | some first =>
      obtain ⟨ct, hct, hsuits⟩ := exists_of_internHinted h hc hcatalog hr
      obtain ⟨hhead, hsubset⟩ := Bool.and_eq_true_iff.mp hsuits
      refine ⟨ct, hct, fun f hf => ?_, fun b hb => Option.some.inj hb ▸ eq_of_beq hhead⟩
      refine List.all_eq_true.mp hsubset f (List.contains_iff_mem.mp ?_)
      exact (FieldSet.contains_ofList list f).trans (List.contains_iff_mem.mpr hf)

/-! ### The same request again -/

/-- The handle that a request without a first block gives is interned. -/
lemma interned_of_internAny (hr : k.internAny catalog fields = .ok (id, k')) :
    k'.interned.get? fields = some id := by
  rcases internAny_eq_ok.mp hr with ⟨hid, rfl⟩ | ⟨hnone, blocks, -, hregister⟩
  · exact hid
  · obtain ⟨types, -, rfl⟩ := register_eq_ok.mp hregister
    have hfresh : k.interned.contains fields = false := by
      rw [OrderedMap.contains, hnone]
      rfl
    simp only [hfresh, Bool.false_eq_true, if_false]
    exact OrderedMap.get?_insert_self _ _ _

/-- Only what has been registered suits a request that nothing suited before. -/
lemma findHinted?_register (hc : k.types.Consistent) {blocks : List KeyBlockId}
    (hnone : k.findHinted? fields first = none)
    (hsuits : (⟨fields, blocks⟩ : KeyType).suits fields first = true)
    (hr : k.register ⟨fields, blocks⟩ = .ok (id, k')) : k'.findHinted? fields first = some id := by
  have hget := get?_register hc hr
  have hc' : k'.types.Consistent := (sameUse_register hc hr).consistent
  have hunsuited := (Arena.find?_eq_none_iff hc).mp (Option.or_eq_none_iff.mp hnone).2
  cases hfound : k'.findHinted? fields first with
  | none =>
      have hall := (Arena.find?_eq_none_iff hc').mp (Option.or_eq_none_iff.mp hfound).2
      have hnew := hall id (Counted.new ⟨fields, blocks⟩) (by rw [hget, if_pos rfl])
      cases hnew.symm.trans hsuits
  | some i =>
      obtain ⟨ct, hct, hi⟩ := exists_of_findHinted? hc' hfound
      rw [hget] at hct
      split at hct
      · next heq => rw [heq]
      · rw [hunsuited i ct hct] at hi
        cases hi

/-- A request with a first block, made again at once, finds what it has given. -/
theorem internHinted_again (hc : k.types.Consistent) (hcatalog : catalog.Lawful)
    (hr : k.internHinted catalog fields first = .ok (id, k')) :
    k'.internHinted catalog fields first = .ok (id, k') := by
  rcases internHinted_eq_ok.mp hr with
    ⟨-, rfl⟩ | ⟨hnone, blocks, hcompile, ⟨-, rfl⟩ | ⟨-, hregister⟩⟩
  · exact hr
  · exact hr
  · refine internHinted_eq_ok.mpr (.inl ⟨?_, rfl⟩)
    exact findHinted?_register hc hnone (suits_of_compile hcatalog hcompile) hregister

/-! ### Interned handles -/

/-- A new key type takes no interned handle away. -/
lemma interned_register (hr : k.register kt = .ok (id, k')) {i : Handle .keyType}
    (hi : k.interned.get? fields = some i) : k'.interned.get? fields = some i := by
  obtain ⟨types, -, rfl⟩ := register_eq_ok.mp hr
  dsimp only
  split
  · exact hi
  · next hnone =>
      rw [OrderedMap.get?_insert, if_neg, hi]
      rintro rfl
      rw [OrderedMap.contains, hi] at hnone
      exact hnone rfl

/-- A key type that goes takes its own interned handle with it, and no other. -/
lemma interned_destroy (hd : k.destroy id = .ok k') {i : Handle .keyType}
    (hi : k.interned.get? fields = some i) (hne : i ≠ id) : k'.interned.get? fields = some i := by
  obtain ⟨ct, types, -, -, -, rfl⟩ := destroy_eq_ok.mp hd
  dsimp only
  split
  · next hself =>
      rw [OrderedMap.get?_erase, if_neg, hi]
      rintro rfl
      exact hne (Option.some.inj (hi.symm.trans hself))
  · exact hi

end KeyTypes

/-- Nothing but the destruction of its key type removes an interned handle. -/
lemma Core.Transition.interned {c : Core} {op : Option Operation} {done : Commit OpResult}
    (ht : Core.Transition c op done) {fields : FieldSet} {id : Handle .keyType}
    (hi : c.keyTypes.interned.get? fields = some id)
    (hkept : op ≠ some (.keyType (.destroy id))) :
    done.core.keyTypes.interned.get? fields = some id := by
  cases ht with
  | createKeyType found =>
      rcases KeyTypes.intern_cases found with rfl | ⟨kt, hregister⟩
      · exact hi
      · exact KeyTypes.interned_register hregister hi
  | destroyKeyType destroyed =>
      refine KeyTypes.interned_destroy destroyed hi ?_
      rintro rfl
      exact hkept rfl
  | createRegion found planned inserted counted =>
      obtain ⟨-, hinterned, -⟩ := KeyTypes.recounted_acquire counted
      exact (congrArg (OrderedMap.get? · fields) hinterned).trans hi
  | destroyRegion unused removed uncounted released =>
      obtain ⟨-, hinterned, -⟩ := KeyTypes.recounted_release uncounted
      exact (congrArg (OrderedMap.get? · fields) hinterned).trans hi
  | _ => exact hi

/-! ### Runs -/

namespace Controller

variable {s : Controller} {id : Handle .keyType} {fields : FieldSet}

lemma interned_step (hi : s.core.keyTypes.interned.get? fields = some id) {st : Step}
    (hkept : s.frees id.ref st = false) :
    (s.step st).controller.core.keyTypes.interned.get? fields = some id := by
  cases s.follows_step st with
  | failed result unchanged =>
      rw [unchanged]
      exact hi
  | done result transition delivered =>
      refine transition.interned hi fun hop => ?_
      have hdestroys : st.operation? = some (Operation.destroy id) := hop
      rw [frees_of_destroy result hdestroys rfl] at hkept
      cases hkept

/-- An interned handle stays until its key type is destroyed. -/
theorem interned_run (hi : s.core.keyTypes.interned.get? fields = some id) {steps : List Step}
    (hkept : s.freeCount id.ref steps = 0) :
    (s.run steps).core.keyTypes.interned.get? fields = some id := by
  induction steps generalizing s with
  | nil => exact hi
  | cons st steps ih =>
      obtain ⟨hfirst, hrest⟩ := Nat.add_eq_zero_iff.mp hkept
      refine ih (interned_step hi ?_) hrest
      by_contra hfrees
      rw [if_pos (Bool.eq_true_of_not_eq_false hfrees)] at hfirst
      cases hfirst

/-- A request for a key type. -/
def request (fields : List BasicKey) (hint : Option KeyBlockId) : Step :=
  .operation (.keyType (.create fields hint))

/-- A request that finds its key type changes nothing. -/
lemma step_request_of_found {list : List BasicKey} {hint : Option KeyBlockId}
    (h : s.core.keyTypes.intern s.core.catalog list hint = .ok (id, s.core.keyTypes)) :
    (s.step (request list hint)).result = .ok (.created id.raw) ∧
      (s.step (request list hint)).controller = s := by
  have hplan : s.core.createKeyType list hint = .ok (.quiet s.core id) := by
    rw [Core.createKeyType, h, ok_bind]
    simp only [Nat.lt_irrefl, if_false, Nat.add_zero]
    rfl
  have hstep : s.step (request list hint) = s.applyCreate (s.core.createKeyType list hint) := rfl
  rw [hstep, hplan]
  exact ⟨rfl, rfl⟩

/-- What a request that succeeds has found or registered. -/
lemma exists_of_request {list : List BasicKey} {hint : Option KeyBlockId} {answer : OpResult}
    (h : (s.step (request list hint)).result = .ok answer) :
    ∃ id : Handle .keyType, answer = .created id.raw ∧
      s.core.keyTypes.intern s.core.catalog list hint =
        .ok (id, (s.step (request list hint)).controller.core.keyTypes) := by
  obtain ⟨id, -, rfl⟩ := map_eq_ok.mp h
  exact ⟨id, rfl, intern_of_create h⟩

variable {config : Config} {given : Option (List KeyBlock)} {sink : Sink}

lemma catalog_run (hs : Controller.start config given sink = .ok s) (steps more : List Step) :
    ((s.run steps).run more).core.catalog = s.core.catalog := by
  have hrun : (s.run steps).run more = s.run (steps ++ more) := List.foldl_append.symm
  rw [hrun, (compiled_run hs _).catalog_eq]

/-- In every run the blocks of a live key type cover its fields within the limit, and what is
interned for a set of fields is a live key type with exactly these.  A request that succeeds gives a
live key type that has the requested fields and begins with the requested block, if there is one.

The request may list the fields in any order and any number of times.  One with a first block, made
again at once, is answered by the same key type and changes nothing.  What one without a first block
gives is interned for its fields; and whatever is interned for them answers every further request
without a first block, after any steps that do not destroy the key type. -/
theorem interning_sound (hs : Controller.start config given sink = .ok s) (steps : List Step) :
    let now := s.run steps
    (∀ id ct, now.core.keyTypes.types.get? id = some ct →
      s.core.catalog.IsCover ct.value.fields ct.value.blocks ∧
      ct.value.blocks.length ≤ config.maxKeyBlocks) ∧
    (∀ fields id, now.core.keyTypes.interned.get? fields = some id →
      ∃ ct, now.core.keyTypes.types.get? id = some ct ∧ ct.value.fields = fields) ∧
    ∀ list hint answer, (now.step (request list hint)).result = .ok answer →
      let after := (now.step (request list hint)).controller
      ∃ (id : Handle .keyType) (ct : Counted KeyType), answer = .created id.raw ∧
        after.core.keyTypes.types.get? id = some ct ∧
        (∀ f ∈ list, ct.value.fields.contains f = true) ∧
        (∀ b ∈ hint, ct.value.blocks.head? = some b) ∧
        (hint = none → after.core.keyTypes.interned.get? (FieldSet.ofList list) = some id) ∧
        ∀ again : List BasicKey, (∀ f, f ∈ again ↔ f ∈ list) →
          (hint.isSome = true → (after.step (request again hint)).result = .ok answer ∧
            (after.step (request again hint)).controller = after) ∧
          (after.core.keyTypes.interned.get? (FieldSet.ofList list) = some id →
            ∀ later, after.freeCount id.ref later = 0 →
              ((after.run later).step (request again none)).result = .ok answer ∧
              ((after.run later).step (request again none)).controller = after.run later) := by
  intro now
  have hcompiled := compiled_run hs steps
  have hcatalog := lawful_start hs
  refine ⟨fun id ct hct => ?_, hcompiled.keyTypes.linked, fun list hint answer hanswer => ?_⟩
  · obtain ⟨hcover, -, hle⟩ := isCover_run hs steps hct
    rw [(configured_run hs steps).maxBlocks_eq] at hle
    rw [hcompiled.catalog_eq] at hcover
    exact ⟨hcover, hle⟩
  intro after
  have hlater : ∀ later, (after.run later).core.catalog = s.core.catalog := fun later =>
    catalog_run hs steps (request list hint :: later)
  obtain ⟨id, rfl, hintern⟩ := exists_of_request hanswer
  rw [hcompiled.catalog_eq] at hintern
  obtain ⟨ct, hct, hfields, hhead⟩ := KeyTypes.exists_of_intern hcompiled.keyTypes.linked
    hcompiled.keyTypes.consistent hcatalog hintern
  refine ⟨id, ct, rfl, hct, hfields, hhead, ?_, fun again hagain => ⟨fun hsome => ?_, ?_⟩⟩
  · rintro rfl
    exact KeyTypes.interned_of_internAny hintern
  · obtain ⟨first, rfl⟩ := Option.isSome_iff_exists.mp hsome
    refine step_request_of_found ?_
    rw [show after.core.catalog = s.core.catalog from hlater [], KeyTypes.intern,
      FieldSet.ofList_congr hagain]
    exact KeyTypes.internHinted_again hcompiled.keyTypes.consistent hcatalog hintern
  · intro hinterned later hkept
    refine step_request_of_found ?_
    rw [hlater, KeyTypes.intern, FieldSet.ofList_congr hagain]
    exact KeyTypes.internAny_eq_ok.mpr (.inl ⟨interned_run hinterned hkept, rfl⟩)

/-- Makes a key type for the same fields from a first block, and another for some of them, and
destroys the former. -/
def interleaving : List Step :=
  [request [.srcIp, .dstIp] (some ⟨4⟩), request [.dstIp] none,
   .operation (.keyType (.destroy ⟨1, 1⟩))]

/-- The two addresses get the same key type before and after, in whatever order they are listed; and
the request with a first block gets the same one twice. -/
theorem interning_sound_of_interleaving :
    let after := ((fresh.run []).step (request [.srcIp, .dstIp] none)).controller
    let hinted := request [.srcIp, .dstIp] (some ⟨4⟩)
    ((fresh.run []).step (request [.srcIp, .dstIp] none)).result =
      .ok (.created (⟨0, 1⟩ : Handle .keyType).raw) ∧
    ((after.run interleaving).step (request [.dstIp, .srcIp, .dstIp] none)).result =
      .ok (.created (⟨0, 1⟩ : Handle .keyType).raw) ∧
    ((fresh.run [request [.srcIp, .dstIp] none]).step hinted).result =
      .ok (.created (⟨1, 1⟩ : Handle .keyType).raw) ∧
    ((fresh.run [request [.srcIp, .dstIp] none, hinted]).step hinted).result =
      .ok (.created (⟨1, 1⟩ : Handle .keyType).raw) := by
  intro after hinted
  have hfirst : ((fresh.run []).step (request [.srcIp, .dstIp] none)).result =
      .ok (.created (⟨0, 1⟩ : Handle .keyType).raw) := by decide +kernel
  have hhinted : ((fresh.run [request [.srcIp, .dstIp] none]).step hinted).result =
      .ok (.created (⟨1, 1⟩ : Handle .keyType).raw) := by decide +kernel
  obtain ⟨-, -, hrequest⟩ := interning_sound start_fresh []
  obtain ⟨id, ct, hid, -, -, -, hinterned, hagain⟩ := hrequest _ none _ hfirst
  obtain rfl : (⟨0, 1⟩ : Handle .keyType) = id := Handle.raw_inj.mp (OpResult.created.inj hid)
  obtain ⟨-, hlater⟩ := hagain [.dstIp, .srcIp, .dstIp] fun f => by cases f <;> decide
  obtain ⟨-, -, hrequest'⟩ := interning_sound start_fresh [request [.srcIp, .dstIp] none]
  obtain ⟨_, _, -, -, -, -, -, hagain'⟩ := hrequest' _ (some ⟨4⟩) _ hhinted
  obtain ⟨hrepeated, -⟩ := hagain' [.srcIp, .dstIp] fun _ => Iff.rfl
  exact ⟨hfirst, (hlater (hinterned rfl) interleaving (by decide +kernel)).1, hhinted,
    (hrepeated rfl).1⟩

end Controller

end AclPlane
