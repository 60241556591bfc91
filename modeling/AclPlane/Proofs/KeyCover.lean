import AclPlane.Proofs.Catalog
import AclPlane.Proofs.KeyCover.Choice

/-!
What compilation gives.

A cover consists of the forced block, if there is one, and of candidates chosen beside it; of any
rival cover with the forced block, the candidates in it are a choice as well (`exists_rival`).

* `isCover_choiceBeside`, `length_choiceBeside_le`, `lt_of_choiceBeside_eq_none`: the laws of
  `choose?` in terms of block numbers and whole covers.
* `compile_eq_ok`, `compile_eq_error`: a compilation is a choice beside the forced block.
* `compile_smallest`: a compiled cover is sound, and of the smallest size as long as there are not
  too many selections.
-/

namespace AclPlane.KeyCover

variable {catalog : Catalog} {fields : FieldSet} {blocks : List KeyBlock}

/-! ### Candidates -/

/-- The fields that a cover with the forced block has still to expose. -/
def remaining (fields : FieldSet) (forced : Option KeyBlock) : FieldSet :=
  match forced with
  | some b => fields.without b.exposes
  | none => fields

/-- The number of blocks that a cover may have beside the forced block. -/
def budgetBeside (maxBlocks : ℕ) (forced : Option KeyBlock) : ℕ :=
  match forced with
  | some _ => maxBlocks - 1
  | none => maxBlocks

variable {forced : Option KeyBlock} {maxBlocks : ℕ} {k : BasicKey} {b : KeyBlock}

lemma contains_remaining : (remaining fields forced).contains k = true ↔
    fields.contains k = true ∧ ∀ f ∈ forced, f.exposes k = false := by
  cases forced with
  | none => simp [remaining]
  | some f => simp [remaining]

lemma mem_candidates (hc : catalog.Lawful) {rest : FieldSet} :
    b ∈ candidates catalog rest forced ↔ catalog.get? b.id = some b ∧
      (∀ f ∈ forced, b.id ≠ f.id ∧ f.excludes b.id = false) ∧
      ∃ k, rest.contains k = true ∧ b.exposes k = true := by
  rw [candidates, List.mem_filter, hc.mem_toList_iff]
  refine and_congr_right fun _ => ?_
  cases forced with
  | none => simp [FieldSet.mem_toList_iff]
  | some f => simp [FieldSet.mem_toList_iff]

lemma nodup_candidates (hc : catalog.Lawful) (rest : FieldSet) (forced : Option KeyBlock) :
    ((candidates catalog rest forced).map KeyBlock.id).Nodup :=
  hc.nodup_ids.sublist ((List.filter_sublist ..).map _)

/-! ### Assembling a cover -/

/-- The forced block and the chosen ones. -/
def assemble (forced : Option KeyBlock) (blocks : List KeyBlock) : List KeyBlockId :=
  (forced.map KeyBlock.id).toList ++ sortIds (blocks.map KeyBlock.id)

lemma perm_sortIds (ids : List KeyBlockId) : (sortIds ids).Perm ids := List.mergeSort_perm ..

/-- Distinct numbers are sorted in ascending order. -/
lemma sorted_sortIds {ids : List KeyBlockId} (h : ids.Nodup) :
    (sortIds ids).Pairwise (fun a b => a.number < b.number) := by
  have hle : ∀ a b : KeyBlockId, (compare a b).isLE = true ↔ a.number ≤ b.number :=
    fun a b => Std.isLE_compare (a := a.number) (b := b.number)
  have hsorted : (sortIds ids).Pairwise (fun a b => (compare a b).isLE = true) := by
    refine List.pairwise_mergeSort (fun a b c hab hbc => ?_) (fun a b => ?_) ids
    · rw [hle] at hab hbc ⊢
      exact UInt16.le_trans hab hbc
    · rw [Bool.or_eq_true, hle, hle]
      exact UInt16.le_total _ _
  have hnodup : (sortIds ids).Pairwise (· ≠ ·) := (perm_sortIds ids).nodup_iff.mpr h
  refine (hsorted.and hnodup).imp fun {a b} hab =>
    UInt16.lt_of_le_of_ne ((hle a b).mp hab.1) fun heq => hab.2 ?_
  cases a
  cases b
  exact congrArg KeyBlockId.mk heq

lemma perm_assemble (forced : Option KeyBlock) (blocks : List KeyBlock) :
    (assemble forced blocks).Perm ((forced.toList ++ blocks).map KeyBlock.id) := by
  rw [assemble, List.map_append]
  refine List.Perm.append ?_ (perm_sortIds _)
  cases forced <;> exact .rfl

lemma length_assemble (forced : Option KeyBlock) (blocks : List KeyBlock) :
    (assemble forced blocks).length = forced.toList.length + blocks.length := by
  rw [(perm_assemble forced blocks).length_eq, List.length_map, List.length_append]

/-- The numbers of blocks that form a cover, in any order. -/
lemma isCover_of_perm (hc : catalog.Lawful) (hmem : ∀ b ∈ blocks, catalog.get? b.id = some b)
    (hnodup : (blocks.map KeyBlock.id).Nodup) (hcover : isCover fields blocks = true)
    {ids : List KeyBlockId} (hperm : ids.Perm (blocks.map KeyBlock.id)) :
    catalog.IsCover fields ids := by
  have hids : ∀ id ∈ ids, ∃ b ∈ blocks, b.id = id := fun id hid =>
    List.mem_map.mp (hperm.mem_iff.mp hid)
  obtain ⟨hcompatible, hexposed⟩ := isCover_iff.mp hcover
  refine ⟨fun id hid => ?_, hperm.nodup_iff.mpr hnodup, fun x hx y hy hne => ?_, fun k hk => ?_⟩
  · obtain ⟨b, hb, rfl⟩ := hids id hid
    exact ⟨b, hmem b hb⟩
  · obtain ⟨a, ha, rfl⟩ := hids x hx
    obtain ⟨b, hb, rfl⟩ := hids y hy
    have hsymm := hc.symm_compatible
    exact ((Catalog.pairwise_excludes_iff hmem).mp hcompatible).forall ha hb
      fun hab => hne (congrArg KeyBlock.id hab)
  · obtain ⟨b, hb, hkb⟩ := hexposed k hk
    exact Catalog.contains_fieldsOf.mpr
      ⟨b.id, hperm.mem_iff.mpr (List.mem_map_of_mem hb), b, hmem b hb, hkb⟩

/-- With the forced block in front, a cover of the remaining fields by candidates is one of all
fields. -/
lemma isCover_forced (hc : catalog.Lawful)
    (hmem : ∀ b ∈ blocks, b ∈ candidates catalog (remaining fields forced) forced)
    (hcover : isCover (remaining fields forced) blocks = true) :
    isCover fields (forced.toList ++ blocks) = true := by
  obtain ⟨hcompatible, hexposed⟩ := isCover_iff.mp hcover
  refine isCover_iff.mpr ⟨List.pairwise_append.mpr ⟨?_, hcompatible, fun f hf b hb => ?_⟩,
    fun k hk => ?_⟩
  · cases forced with
    | none => exact .nil
    | some f => exact List.pairwise_singleton _ _
  · exact (((mem_candidates hc).mp (hmem b hb)).2.1 f (Option.mem_toList.mp hf)).2
  · by_cases hf : ∃ f ∈ forced, f.exposes k = true
    · obtain ⟨f, hf, hkf⟩ := hf
      exact ⟨f, List.mem_append_left _ (Option.mem_toList.mpr hf), hkf⟩
    · have hrest : (remaining fields forced).contains k = true :=
        contains_remaining.mpr
          ⟨hk, fun f hmem => Bool.eq_false_iff.mpr fun hkf => hf ⟨f, hmem, hkf⟩⟩
      obtain ⟨b, hb, hkb⟩ := hexposed k hrest
      exact ⟨b, List.mem_append_right _ hb, hkb⟩

lemma nodup_forced (hc : catalog.Lawful) {rest : FieldSet}
    (hmem : ∀ b ∈ blocks, b ∈ candidates catalog rest forced)
    (hnodup : (blocks.map KeyBlock.id).Nodup) :
    ((forced.toList ++ blocks).map KeyBlock.id).Nodup := by
  rw [List.map_append]
  refine List.nodup_append'.mpr ⟨?_, hnodup, fun id hid hid' => ?_⟩
  · cases forced with
    | none => exact List.nodup_nil
    | some f => exact List.nodup_singleton _
  · obtain ⟨f, hf, rfl⟩ := List.mem_map.mp hid
    obtain ⟨b, hb, heq⟩ := List.mem_map.mp hid'
    exact (((mem_candidates hc).mp (hmem b hb)).2.1 f (Option.mem_toList.mp hf)).1 heq

/-! ### Rivals -/

/-- Of any other cover with the forced block, the candidates in it cover the remaining fields. -/
lemma exists_rival (hc : catalog.Lawful) (hforced : ∀ f ∈ forced, catalog.get? f.id = some f)
    {ids : List KeyBlockId} (hcover : catalog.IsCover fields ids) (hin : ∀ f ∈ forced, f.id ∈ ids) :
    ∃ s, s.Sublist (candidates catalog (remaining fields forced) forced) ∧
      isCover (remaining fields forced) s = true ∧
        forced.toList.length + s.length ≤ ids.length := by
  have hget : ∀ b ∈ candidates catalog (remaining fields forced) forced,
      catalog.get? b.id = some b := fun b hb => ((mem_candidates hc).mp hb).1
  let s := (candidates catalog (remaining fields forced) forced).filter (fun b => b.id ∈ ids)
  have hs : ∀ b ∈ s, b ∈ candidates catalog (remaining fields forced) forced ∧ b.id ∈ ids :=
    fun b hb => (List.mem_filter.mp hb).imp_right of_decide_eq_true
  have hnodup : (s.map KeyBlock.id).Nodup :=
    (nodup_candidates hc _ _).sublist ((List.filter_sublist ..).map _)
  refine ⟨s, List.filter_sublist .., isCover_iff.mpr ⟨?_, fun k hk => ?_⟩, ?_⟩
  · have hne : s.Pairwise fun a b => a.id ≠ b.id := List.pairwise_map.mp hnodup
    refine hne.imp_of_mem fun {a b} ha hb hab => ?_
    rw [← Catalog.exclusive_eq (hget a (hs a ha).1)]
    exact hcover.compatible _ (hs a ha).2 _ (hs b hb).2 hab
  · obtain ⟨hfield, hbeside⟩ := contains_remaining.mp hk
    obtain ⟨id, hid, b, hb, hkb⟩ := Catalog.contains_fieldsOf.mp (hcover.exposed k hfield)
    obtain rfl := hc.id_eq hb
    refine ⟨b, List.mem_filter.mpr ⟨(mem_candidates hc).mpr ⟨hb, fun f hf => ?_, k, hk, hkb⟩,
      decide_eq_true hid⟩, hkb⟩
    -- the forced block does not expose `k`, so it is another block
    have hne : b.id ≠ f.id := by
      intro heq
      rw [heq, hforced f hf, Option.some.injEq] at hb
      rw [← hb, hbeside f hf] at hkb
      cases hkb
    refine ⟨hne, ?_⟩
    rw [← Catalog.exclusive_eq (hforced f hf)]
    exact hcover.compatible _ (hin f hf) _ hid hne.symm
  · have hsub : (forced.toList ++ s).map KeyBlock.id ⊆ ids := by
      intro id hid
      obtain ⟨b, hb, rfl⟩ := List.mem_map.mp hid
      rcases List.mem_append.mp hb with hf | hb
      · exact hin b (Option.mem_toList.mp hf)
      · exact (hs b hb).2
    have hle := List.Nodup.length_le_of_subset
      (nodup_forced hc (fun b hb => (hs b hb).1) hnodup) hsub
    rwa [List.length_map, List.length_append] at hle

/-! ### Choosing beside the forced block -/

/-- The choice of a compilation beside the forced block. -/
def choiceBeside (catalog : Catalog) (maxBlocks : ℕ) (fields : FieldSet)
    (forced : Option KeyBlock) : Option (List KeyBlock) :=
  choose? (remaining fields forced) (candidates catalog (remaining fields forced) forced)
    (budgetBeside maxBlocks forced)

/-- The number of selections among which a compilation chooses. -/
def selectionCount (catalog : Catalog) (maxBlocks : ℕ) (fields : FieldSet)
    (forced : Option KeyBlock) : ℕ :=
  ways (budgetBeside maxBlocks forced)
    (candidates catalog (remaining fields forced) forced).length

variable {ids other : List KeyBlockId}

lemma length_forced_add_le (hroom : forced.isSome = true → 0 < maxBlocks) :
    forced.toList.length + budgetBeside maxBlocks forced = maxBlocks := by
  cases forced with
  | none => exact Nat.zero_add maxBlocks
  | some f =>
      have hpos := hroom rfl
      simp only [Option.toList_some, List.length_singleton, budgetBeside]
      omega

lemma length_forced_add_ge (maxBlocks : ℕ) (forced : Option KeyBlock) :
    maxBlocks ≤ forced.toList.length + budgetBeside maxBlocks forced := by
  cases forced with
  | none => exact (Nat.zero_add maxBlocks).ge
  | some f =>
      simp only [Option.toList_some, List.length_singleton, budgetBeside]
      omega

lemma isCover_choiceBeside (hc : catalog.Lawful)
    (hforced : ∀ f ∈ forced, catalog.get? f.id = some f)
    (hroom : forced.isSome = true → 0 < maxBlocks)
    (h : choiceBeside catalog maxBlocks fields forced = some blocks) :
    catalog.IsCover fields (assemble forced blocks) ∧
      (assemble forced blocks).length ≤ maxBlocks ∧ (blocks.map KeyBlock.id).Nodup := by
  obtain ⟨hmem, hnodup, hcover, hle⟩ := choose?_eq_some (nodup_candidates hc _ _) h
  refine ⟨isCover_of_perm hc (fun b hb => ?_) (nodup_forced hc hmem hnodup)
    (isCover_forced hc hmem hcover) (perm_assemble forced blocks), ?_, hnodup⟩
  · rcases List.mem_append.mp hb with hf | hb
    · exact hforced b (Option.mem_toList.mp hf)
    · exact ((mem_candidates hc).mp (hmem b hb)).1
  · rw [length_assemble, ← length_forced_add_le hroom]
    exact Nat.add_le_add_left hle _

/-- With few enough selections no cover with the forced block has fewer blocks. -/
lemma length_choiceBeside_le (hc : catalog.Lawful)
    (hforced : ∀ f ∈ forced, catalog.get? f.id = some f)
    (hcount : selectionCount catalog maxBlocks fields forced ≤ maxCombinations)
    (h : choiceBeside catalog maxBlocks fields forced = some blocks)
    (hother : catalog.IsCover fields other) (hin : ∀ f ∈ forced, f.id ∈ other) :
    (assemble forced blocks).length ≤ other.length := by
  obtain ⟨s, hsub, hcover, hle⟩ := exists_rival hc hforced hother hin
  rw [length_assemble]
  exact le_trans (Nat.add_le_add_left (choose?_le hcount h hsub hcover) _) hle

/-- With few enough selections a choice fails only if every cover with the forced block has too
many blocks. -/
lemma lt_of_choiceBeside_eq_none (hc : catalog.Lawful)
    (hforced : ∀ f ∈ forced, catalog.get? f.id = some f)
    (hcount : selectionCount catalog maxBlocks fields forced ≤ maxCombinations)
    (h : choiceBeside catalog maxBlocks fields forced = none)
    (hother : catalog.IsCover fields other) (hin : ∀ f ∈ forced, f.id ∈ other) :
    maxBlocks < other.length := by
  obtain ⟨s, hsub, hcover, hle⟩ := exists_rival hc hforced hother hin
  have hlt := choose?_eq_none hcount h hsub hcover
  have hge := length_forced_add_ge maxBlocks forced
  omega

/-! ### Compilation -/

variable {first : Option KeyBlockId}

lemma forcedBlock_eq_ok : forcedBlock catalog maxBlocks first = .ok forced ↔
    first.bind catalog.get? = forced ∧
      ∀ id ∈ first, (∃ b, catalog.get? id = some b) ∧ 0 < maxBlocks := by
  cases first with
  | none => simp [forcedBlock]
  | some id =>
      rw [forcedBlock]
      cases hget : catalog.get? id with
      | none => simp [hget]
      | some b =>
          by_cases hzero : maxBlocks = 0
          · simp [hzero]
          · simp [hzero, hget, Nat.pos_of_ne_zero hzero]

/-- For fields that are all exposed, compilation chooses among the candidates. -/
lemma compile_eq (hne : fields.isEmpty = false)
    (hexposed : ∀ k, fields.contains k = true → catalog.exposes k = true) :
    compile catalog maxBlocks fields first =
      (forcedBlock catalog maxBlocks first).bind fun forced =>
        ((choiceBeside catalog maxBlocks fields forced).map fun blocks =>
          .ok (assemble forced blocks)).getD
            (.error (.exhausted (.noCover fields.size maxBlocks))) := by
  have hfind : fields.toList.find? (fun k => !catalog.exposes k) = none := by
    rw [List.find?_eq_none]
    intro k hk
    rw [hexposed k (FieldSet.mem_toList_iff.mp hk)]
    decide
  rw [compile, if_neg (by simp [hne])]
  simp only [hfind]
  cases forcedBlock catalog maxBlocks first with
  | error e => rfl
  | ok forced =>
      simp only [ok_bind, Except.bind, choiceBeside]
      cases forced with
      | none =>
          simp only [remaining, budgetBeside]
          cases choose? fields (candidates catalog fields none) maxBlocks <;> rfl
      | some f =>
          simp only [remaining, budgetBeside]
          cases choose? (fields.without f.exposes)
            (candidates catalog (fields.without f.exposes) (some f)) (maxBlocks - 1) <;> rfl

/-- Fields that are compiled are not empty, and all of them are exposed. -/
lemma exposed_of_compile (h : compile catalog maxBlocks fields first = .ok ids) :
    fields.isEmpty = false ∧ ∀ k, fields.contains k = true → catalog.exposes k = true := by
  rw [compile, guard_eq_ok] at h
  obtain ⟨hne, h⟩ := h
  refine ⟨Bool.eq_false_iff.mpr hne, fun k hk => ?_⟩
  split at h
  · cases h
  · next hfind =>
      simpa using List.find?_eq_none.mp hfind k (FieldSet.mem_toList_iff.mpr hk)

/-- A compiled cover comes from a choice beside the block with the given number. -/
lemma compile_eq_ok (h : compile catalog maxBlocks fields first = .ok ids) :
    (∀ id ∈ first, (∃ b, catalog.get? id = some b) ∧ 0 < maxBlocks) ∧
      ∃ blocks, choiceBeside catalog maxBlocks fields (first.bind catalog.get?) = some blocks ∧
        assemble (first.bind catalog.get?) blocks = ids := by
  obtain ⟨hne, hexposed⟩ := exposed_of_compile h
  rw [compile_eq hne hexposed] at h
  cases hforced : forcedBlock catalog maxBlocks first with
  | error e =>
      rw [hforced] at h
      cases h
  | ok forced =>
      obtain ⟨rfl, hfirst⟩ := forcedBlock_eq_ok.mp hforced
      rw [hforced] at h
      refine ⟨hfirst, ?_⟩
      cases hchoice : choiceBeside catalog maxBlocks fields (first.bind catalog.get?) with
      | none =>
          simp only [Except.bind, hchoice, Option.map_none, Option.getD_none] at h
          cases h
      | some blocks =>
          simp only [Except.bind, hchoice, Option.map_some, Option.getD_some, Except.ok.injEq] at h
          exact ⟨blocks, rfl, h⟩

/-- Compiling fields that are exposed, from a block that is known, fails only for want of a choice
or of any budget. -/
lemma compile_eq_error {e : AclError} (h : compile catalog maxBlocks fields first = .error e)
    (hne : fields.isEmpty = false)
    (hexposed : ∀ k, fields.contains k = true → catalog.exposes k = true)
    (hfirst : ∀ id ∈ first, ∃ b, catalog.get? id = some b) :
    e.kind = .exhausted ∧ ((first.isSome = true ∧ maxBlocks = 0) ∨
      choiceBeside catalog maxBlocks fields (first.bind catalog.get?) = none) := by
  rw [compile_eq hne hexposed] at h
  by_cases hroom : ∀ id ∈ first, (∃ b, catalog.get? id = some b) ∧ 0 < maxBlocks
  · rw [forcedBlock_eq_ok.mpr ⟨rfl, hroom⟩] at h
    cases hchoice : choiceBeside catalog maxBlocks fields (first.bind catalog.get?) with
    | none =>
        simp only [Except.bind, hchoice, Option.map_none, Option.getD_none, Except.error.injEq] at h
        subst h
        exact ⟨rfl, .inr rfl⟩
    | some blocks =>
        simp only [Except.bind, hchoice, Option.map_some, Option.getD_some] at h
        cases h
  · cases first with
    | none => exact absurd (fun id hid => by cases hid) hroom
    | some id =>
        obtain ⟨b, hb⟩ := hfirst id rfl
        have hzero : maxBlocks = 0 := by
          by_contra hpos
          refine hroom fun id' hid' => ?_
          cases hid'
          exact ⟨⟨b, hb⟩, Nat.pos_of_ne_zero hpos⟩
        simp only [forcedBlock, hb, hzero, if_true, Except.bind, Except.error.injEq] at h
        subst h
        exact ⟨rfl, .inl ⟨rfl, hzero⟩⟩

lemma get?_of_bind (hc : catalog.Lawful) :
    ∀ f ∈ first.bind catalog.get?, catalog.get? f.id = some f ∧ f.id ∈ first := by
  intro f hf
  obtain ⟨id, hid, hget⟩ := Option.bind_eq_some_iff.mp hf
  obtain rfl := hc.id_eq hget
  exact ⟨hget, hid⟩

lemma toList_bind_get? (hc : catalog.Lawful)
    (hfirst : ∀ id ∈ first, ∃ b, catalog.get? id = some b) :
    ((first.bind catalog.get?).map KeyBlock.id).toList = first.toList := by
  cases first with
  | none => rfl
  | some id =>
      obtain ⟨b, hb⟩ := hfirst id rfl
      rw [Option.bind_some, hb, Option.map_some, hc.id_eq hb]

/-- What is compiled is a cover within the budget, in the order that was asked for. -/
lemma isCover_of_compile (hc : catalog.Lawful)
    (h : compile catalog maxBlocks fields first = .ok ids) :
    catalog.IsCover fields ids ∧ ids.length ≤ maxBlocks ∧
      ∃ rest, ids = first.toList ++ rest ∧ rest.Pairwise (fun a b => a.number < b.number) := by
  obtain ⟨hknown, blocks, hchoice, rfl⟩ := compile_eq_ok h
  have hroom : (first.bind catalog.get?).isSome = true → 0 < maxBlocks := by
    intro hsome
    obtain ⟨f, hf⟩ := Option.isSome_iff_exists.mp hsome
    exact (hknown _ (get?_of_bind hc f hf).2).2
  obtain ⟨hcover, hle, hnodup⟩ :=
    isCover_choiceBeside hc (fun f hf => (get?_of_bind hc f hf).1) hroom hchoice
  refine ⟨hcover, hle, _, ?_, sorted_sortIds hnodup⟩
  rw [assemble, toList_bind_get? hc fun id hid => (hknown id hid).1]

/-- The selections of a small catalog may all be examined. -/
lemma selectionCount_le (hsize : catalog.size ≤ 16) :
    selectionCount catalog maxBlocks fields forced ≤ maxCombinations := by
  have hlength : (candidates catalog (remaining fields forced) forced).length ≤ 16 := by
    refine le_trans (List.length_filter_le ..) ?_
    rw [Catalog.toList, OrderedMap.values, List.length_map]
    exact hsize
  calc selectionCount catalog maxBlocks fields forced
      ≤ 2 ^ (candidates catalog (remaining fields forced) forced).length := (ways_lt _ _).le
    _ ≤ 2 ^ 16 := Nat.pow_le_pow_right Nat.two_pos hlength
    _ = maxCombinations := rfl

/-- With few enough selections no cover with the first block is smaller than the compiled one. -/
lemma length_le_of_compile (hc : catalog.Lawful)
    (hcount : selectionCount catalog maxBlocks fields (first.bind catalog.get?) ≤ maxCombinations)
    (h : compile catalog maxBlocks fields first = .ok ids) (hother : catalog.IsCover fields other)
    (hfirst : ∀ id ∈ first, id ∈ other) : ids.length ≤ other.length := by
  obtain ⟨-, blocks, hchoice, rfl⟩ := compile_eq_ok h
  exact length_choiceBeside_le hc (fun f hf => (get?_of_bind hc f hf).1) hcount hchoice hother
    fun f hf => hfirst _ (get?_of_bind hc f hf).2

/-- Of an accepted catalog, compilation gives distinct, compatible blocks that expose every field,
at most `maxBlocks` of them: the first block if one is given, and then the others in ascending
order.  If the selections among the candidates are no more than the search may examine, as they
are for catalogs of at most 16 blocks, no cover with the first block has fewer blocks; and
compiling exposed fields from a known block then fails only with the error that something is
exhausted, and only if every such cover has more than `maxBlocks` blocks. -/
theorem compile_smallest {given : Option (List KeyBlock)}
    (hgiven : Catalog.ofGiven given = .ok catalog) (maxBlocks : ℕ) (fields : FieldSet)
    (first : Option KeyBlockId) :
    (∀ ids, compile catalog maxBlocks fields first = .ok ids →
      catalog.IsCover fields ids ∧ ids.length ≤ maxBlocks ∧
        ∃ rest, ids = first.toList ++ rest ∧ rest.Pairwise (fun a b => a.number < b.number)) ∧
    (catalog.size ≤ 16 →
      selectionCount catalog maxBlocks fields (first.bind catalog.get?) ≤ maxCombinations) ∧
    (selectionCount catalog maxBlocks fields (first.bind catalog.get?) ≤ maxCombinations →
      (∀ ids, compile catalog maxBlocks fields first = .ok ids →
        ∀ other, catalog.IsCover fields other → (∀ id ∈ first, id ∈ other) →
          ids.length ≤ other.length) ∧
      (fields.isEmpty = false → (∀ k, fields.contains k = true → catalog.exposes k = true) →
        (∀ id ∈ first, ∃ b, catalog.get? id = some b) →
        ∀ e, compile catalog maxBlocks fields first = .error e → e.kind = .exhausted ∧
          ∀ other, catalog.IsCover fields other → (∀ id ∈ first, id ∈ other) →
            maxBlocks < other.length)) := by
  have hc := Catalog.lawful_ofGiven hgiven
  refine ⟨fun ids h => isCover_of_compile hc h, selectionCount_le, fun hcount =>
    ⟨fun ids h other => length_le_of_compile hc hcount h, fun hne hexposed hknown e h => ?_⟩⟩
  obtain ⟨hkind, ⟨hsome, hzero⟩ | hnone⟩ := compile_eq_error h hne hexposed hknown
  · refine ⟨hkind, fun other _ hfirst => ?_⟩
    obtain ⟨id, hid⟩ := Option.isSome_iff_exists.mp hsome
    rw [hzero]
    exact List.length_pos_of_mem (hfirst id hid)
  · exact ⟨hkind, fun other hother hfirst =>
      lt_of_choiceBeside_eq_none hc (fun f hf => (get?_of_bind hc f hf).1) hcount hnone hother
        fun f hf => hfirst _ (get?_of_bind hc f hf).2⟩

/-- Of the blocks of the device, 4 and 5 are needed beside 8: 3 exposes both addresses, but it
excludes 8. -/
theorem compile_addresses :
    let fields := FieldSet.ofList [.srcIp, .dstIp, .srcIpv6]
    Catalog.builtIn.IsCover fields [⟨4⟩, ⟨5⟩, ⟨8⟩] ∧
      ¬Catalog.builtIn.IsCover fields [⟨3⟩, ⟨8⟩] := by
  have h : compile Catalog.builtIn 6 (FieldSet.ofList [.srcIp, .dstIp, .srcIpv6]) none =
      .ok [⟨4⟩, ⟨5⟩, ⟨8⟩] := by cbv
  have hgiven : Catalog.ofGiven none = .ok Catalog.builtIn := rfl
  obtain ⟨hsound, hsize, hsmallest⟩ := compile_smallest hgiven 6
    (FieldSet.ofList [.srcIp, .dstIp, .srcIpv6]) none
  refine ⟨(hsound _ h).1, fun hother => ?_⟩
  have hle := (hsmallest (hsize (by decide))).1 _ h _ hother (by simp)
  exact absurd hle (by decide)

end AclPlane.KeyCover
