import AclPlane.Catalog
import AclPlane.Proofs.Fallible
import AclPlane.Proofs.OrderedMap

/-!
Lawful catalogs, and covers in terms of block numbers.

* `Catalog.Lawful`: every block stands under its own number, and exclusions hold both ways.
* `Catalog.ofBlocks_eq_ok`: which lists of blocks are accepted, and what their catalogs are.
* `Catalog.lawful_ofGiven`: every catalog that is accepted is lawful.
* `Catalog.IsCover`: distinct, compatible blocks that expose every field of a set.
-/

namespace AclPlane

namespace Catalog

variable {c : Catalog} {id : KeyBlockId} {b : KeyBlock} {list : List KeyBlock}

/-! ### Lawful catalogs -/

/-- Every block stands under its own number, and exclusions hold both ways. -/
structure Lawful (c : Catalog) : Prop where
  id_eq : ∀ {id b}, c.get? id = some b → b.id = id
  exclusive_symm : ∀ {a b}, c.exclusive a b = true → c.exclusive b a = true

/-- Blocks under their own numbers, whose exclusions name only blocks among them. -/
structure Listed (blocks : OrderedMap KeyBlockId KeyBlock) : Prop where
  id_eq : ∀ {id b}, blocks.get? id = some b → b.id = id
  known : ∀ {id b}, blocks.get? id = some b → ∀ {other}, b.excludes other = true →
    blocks.contains other = true

lemma exclusive_eq (hb : c.get? id = some b) (other : KeyBlockId) :
    c.exclusive id other = b.excludes other := by
  rw [exclusive, hb]

lemma Lawful.exclusive_comm (h : c.Lawful) (x y : KeyBlockId) :
    c.exclusive x y = c.exclusive y x :=
  Bool.eq_iff_iff.mpr ⟨h.exclusive_symm, h.exclusive_symm⟩

/-- That two blocks do not exclude each other is symmetric. -/
lemma Lawful.symm_compatible (h : c.Lawful) :
    Std.Symm fun a b : KeyBlock => c.exclusive a.id b.id = false :=
  ⟨fun a b hab => (h.exclusive_comm b.id a.id).trans hab⟩

/-- Blocks of a catalog can be tested by what they exclude themselves. -/
lemma pairwise_excludes_iff (h : ∀ b ∈ list, c.get? b.id = some b) :
    list.Pairwise (fun a b => a.excludes b.id = false) ↔
      list.Pairwise (fun a b => c.exclusive a.id b.id = false) :=
  List.Pairwise.iff_of_mem fun ha _ => by rw [exclusive_eq (h _ ha)]

/-- After exclusions have been noted on both sides, two blocks exclude each other if either of
them did. -/
lemma exclusive_symmetric {blocks : OrderedMap KeyBlockId KeyBlock} (h : Listed blocks)
    {x y : KeyBlockId} : (⟨symmetric blocks⟩ : Catalog).exclusive x y = true ↔
      ∃ a, blocks.get? x = some a ∧ (a.excludes y = true ∨
        ∃ b, blocks.get? y = some b ∧ b.excludes x = true) := by
  have hget : (⟨symmetric blocks⟩ : Catalog).get? x = (blocks.get? x).map _ :=
    OrderedMap.get?_mapValues _ blocks x
  cases hx : blocks.get? x with
  | none =>
      rw [hx] at hget
      simp [exclusive, hget]
  | some a =>
      rw [hx, Option.map_some] at hget
      rw [exclusive_eq hget, KeyBlock.excludes, OrderedSet.has_addAll]
      simp only [Option.some.injEq, exists_eq_left', List.mem_map, List.mem_filter,
        OrderedMap.mem_values_iff]
      refine or_congr_right ⟨?_, ?_⟩
      · rintro ⟨b, ⟨⟨id, hb⟩, hex⟩, rfl⟩
        exact ⟨b, by rw [h.id_eq hb, hb], hex⟩
      · rintro ⟨b, hb, hex⟩
        exact ⟨b, ⟨⟨y, hb⟩, hex⟩, h.id_eq hb⟩

lemma lawful_symmetric {blocks : OrderedMap KeyBlockId KeyBlock} (h : Listed blocks) :
    (⟨symmetric blocks⟩ : Catalog).Lawful := by
  refine ⟨fun {id b} hb => ?_, fun {x y} hxy => ?_⟩
  · obtain ⟨a, ha, rfl⟩ := Option.map_eq_some_iff.mp
      ((OrderedMap.get?_mapValues _ blocks id).symm.trans hb)
    exact show a.id = id from h.id_eq ha
  · rw [exclusive_symmetric h] at hxy ⊢
    obtain ⟨a, ha, hay | ⟨b, hb, hbx⟩⟩ := hxy
    · obtain ⟨b, hb⟩ := OrderedMap.contains_iff.mp (h.known ha hay)
      exact ⟨b, hb, .inr ⟨a, ha, hay⟩⟩
    · exact ⟨b, hb, .inl hbx⟩

/-! ### Accepted lists -/

lemma exists_exposes_iff : (∃ k, b.exposes k = true) ↔ b.fields.isEmpty = false := by
  simp only [KeyBlock.exposes, FieldSet.contains, FieldSet.isEmpty, List.contains_iff_mem,
    List.isEmpty_eq_false_iff_exists_mem]

lemma addBlock_eq_ok {blocks blocks' : OrderedMap KeyBlockId KeyBlock} :
    addBlock blocks b = .ok blocks' ↔ (∃ k, b.exposes k = true) ∧ b.excludes b.id = false ∧
      blocks.contains b.id = false ∧ blocks.insert b.id b = blocks' := by
  simp only [addBlock, guard_eq_ok, pure_eq_ok, Bool.not_eq_true, exists_exposes_iff]

lemma checkExclusions_eq_ok {blocks : OrderedMap KeyBlockId KeyBlock} :
    checkExclusions blocks b = .ok () ↔
      ∀ other, b.excludes other = true → blocks.contains other = true := by
  have hfind : (OrderedSet.members b.exclusive).find? (fun id => !blocks.contains id) = none ↔
      ∀ other, b.excludes other = true → blocks.contains other = true := by
    simp only [List.find?_eq_none, OrderedSet.mem_members_iff, Bool.not_eq_true',
      Bool.not_eq_false, KeyBlock.excludes]
  rw [← hfind, checkExclusions]
  split
  · next hsome => simp [hsome]
  · next hnone => simp [hnone]

/-- The blocks of a list under their numbers. -/
def table (list : List KeyBlock) : OrderedMap KeyBlockId KeyBlock :=
  list.foldl (fun blocks b => blocks.insert b.id b) OrderedMap.empty

lemma table_concat (list : List KeyBlock) (b : KeyBlock) :
    table (list ++ [b]) = (table list).insert b.id b := by
  rw [table, List.foldl_append]
  rfl

/-- Of several blocks with one number, the last is found. -/
lemma get?_table : (table list).get? id = list.reverse.find? (fun b => b.id = id) := by
  -- from the end of the list, as the block that is put in last is the one that stays
  induction list using List.reverseRecOn with
  | nil => rfl
  | append_singleton list b ih =>
      rw [table_concat, OrderedMap.get?_insert, ih, List.reverse_concat, List.find?_cons]
      by_cases hid : b.id = id
      · simp [hid]
      · simp [hid, Ne.symm hid]

lemma contains_table : (table list).contains id = true ↔ ∃ b ∈ list, b.id = id := by
  rw [OrderedMap.contains, get?_table, List.find?_isSome]
  simp

/-- Where the numbers differ, every block is found. -/
lemma get?_table_eq_some (h : (list.map KeyBlock.id).Nodup) :
    (table list).get? id = some b ↔ b ∈ list ∧ b.id = id := by
  have hfound : ∀ {a}, (table list).get? id = some a → a ∈ list ∧ a.id = id := by
    intro a ha
    rw [get?_table] at ha
    exact ⟨List.mem_reverse.mp (List.mem_of_find?_eq_some ha), by simpa using List.find?_some ha⟩
  refine ⟨hfound, fun ⟨hb, hid⟩ => ?_⟩
  obtain ⟨a, ha⟩ := OrderedMap.contains_iff.mp (contains_table.mpr ⟨b, hb, hid⟩)
  obtain ⟨hmem, haid⟩ := hfound ha
  rw [ha, List.inj_on_of_nodup_map h hmem hb (haid.trans hid.symm)]

/-- What it takes for a list of blocks to make a catalog. -/
structure Coherent (list : List KeyBlock) : Prop where
  nodup_ids : (list.map KeyBlock.id).Nodup
  exposes : ∀ b ∈ list, ∃ k, b.exposes k = true
  not_excludes_self : ∀ b ∈ list, b.excludes b.id = false
  known : ∀ b ∈ list, ∀ id, b.excludes id = true → ∃ other ∈ list, other.id = id

/-- Block by block, a list passes if the numbers differ and each block passes on its own. -/
lemma foldlM_addBlock_eq_ok {blocks : OrderedMap KeyBlockId KeyBlock} :
    list.foldlM addBlock OrderedMap.empty = .ok blocks ↔ (list.map KeyBlock.id).Nodup ∧
      (∀ b ∈ list, (∃ k, b.exposes k = true) ∧ b.excludes b.id = false) ∧
        table list = blocks := by
  induction list using List.reverseRecOn generalizing blocks with
  | nil => simp [table]
  | append_singleton list b ih =>
      have hnew : (table list).contains b.id = false ↔ b.id ∉ list.map KeyBlock.id := by
        rw [Bool.eq_false_iff, ne_eq, contains_table, List.mem_map]
      simp only [List.foldlM_append, List.foldlM_cons, List.foldlM_nil, bind_pure, bind_eq_ok, ih,
        addBlock_eq_ok, table_concat, List.map_append, List.map_singleton, List.nodup_append_comm,
        List.singleton_append, List.nodup_cons, List.forall_mem_append, List.forall_mem_singleton]
      constructor
      · rintro ⟨_, ⟨hnodup, hall, rfl⟩, hk, hself, hfresh, rfl⟩
        exact ⟨⟨hnew.mp hfresh, hnodup⟩, ⟨hall, hk, hself⟩, rfl⟩
      · rintro ⟨⟨hfresh, hnodup⟩, ⟨hall, hk, hself⟩, rfl⟩
        exact ⟨_, ⟨hnodup, hall, rfl⟩, hk, hself, hnew.mpr hfresh, rfl⟩

lemma mem_values_table (h : (list.map KeyBlock.id).Nodup) : b ∈ (table list).values ↔ b ∈ list := by
  simp only [OrderedMap.mem_values_iff, get?_table_eq_some h, exists_and_left, exists_eq', and_true]

/-- A list of blocks is accepted if it is coherent; its catalog is the table of its blocks, with
their exclusions noted on both sides. -/
lemma ofBlocks_eq_ok : ofBlocks list = .ok c ↔ Coherent list ∧ ⟨symmetric (table list)⟩ = c := by
  simp only [ofBlocks, bind_eq_ok, pure_eq_ok, foldlM_addBlock_eq_ok, forM_eq_ok,
    checkExclusions_eq_ok]
  constructor
  · rintro ⟨_, ⟨hnodup, hall, rfl⟩, _, hknown, rfl⟩
    refine ⟨⟨hnodup, fun b hb => (hall b hb).1, fun b hb => (hall b hb).2, fun b hb id hid => ?_⟩,
      rfl⟩
    exact contains_table.mp (hknown b ((mem_values_table hnodup).mpr hb) id hid)
  · rintro ⟨h, rfl⟩
    refine ⟨_, ⟨h.nodup_ids, fun b hb => ⟨h.exposes b hb, h.not_excludes_self b hb⟩, rfl⟩, (),
      fun b hb id hid => ?_, rfl⟩
    exact contains_table.mpr (h.known b ((mem_values_table h.nodup_ids).mp hb) id hid)

lemma Coherent.listed (h : Coherent list) : Listed (table list) where
  id_eq hb := ((get?_table_eq_some h.nodup_ids).mp hb).2
  known hb _ hother :=
    contains_table.mpr (h.known _ ((get?_table_eq_some h.nodup_ids).mp hb).1 _ hother)

/-! ### Accepted catalogs -/

lemma lawful_ofBlocks (h : ofBlocks list = .ok c) : c.Lawful := by
  obtain ⟨hlist, rfl⟩ := ofBlocks_eq_ok.mp h
  exact lawful_symmetric hlist.listed

/-- The catalog of the device passes the checks of any other. -/
lemma ofBlocks_builtInBlocks : ofBlocks builtInBlocks = .ok builtIn := rfl

theorem lawful_ofGiven {given : Option (List KeyBlock)} (h : ofGiven given = .ok c) :
    c.Lawful := by
  cases given with
  | some list => exact lawful_ofBlocks h
  | none =>
      cases h
      exact lawful_ofBlocks ofBlocks_builtInBlocks

/-! ### The list of a catalog -/

lemma Lawful.mem_toList_iff (h : c.Lawful) : b ∈ c.toList ↔ c.get? b.id = some b := by
  rw [toList, OrderedMap.mem_values_iff]
  refine ⟨fun ⟨id, hb⟩ => ?_, fun hb => ⟨b.id, hb⟩⟩
  rw [h.id_eq hb]
  exact hb

/-- Blocks are listed once, whatever number they are told apart by. -/
lemma Lawful.nodup_ids (h : c.Lawful) : (c.toList.map KeyBlock.id).Nodup := by
  have hkeys : c.toList.map KeyBlock.id = c.blocks.toList.map Prod.fst := by
    rw [toList, OrderedMap.values, List.map_map]
    refine List.map_congr_left fun e he => ?_
    exact h.id_eq (OrderedMap.mem_toList_iff.mp he)
  rw [hkeys, List.nodup_iff_pairwise_ne, List.pairwise_map]
  refine c.blocks.sorted.imp fun hlt heq => ?_
  rw [heq, OrderedMap.compare_refl] at hlt
  cases hlt

/-! ### Covers -/

/-- The numbers of distinct blocks, no two of which exclude each other, that expose every one of
the fields. -/
structure IsCover (c : Catalog) (fields : FieldSet) (ids : List KeyBlockId) : Prop where
  known : ∀ id ∈ ids, ∃ b, c.get? id = some b
  nodup : ids.Nodup
  compatible : ∀ a ∈ ids, ∀ b ∈ ids, a ≠ b → c.exclusive a b = false
  exposed : ∀ k, fields.contains k = true → (c.fieldsOf ids).contains k = true

lemma contains_fieldsOf {ids : List KeyBlockId} {k : BasicKey} :
    (c.fieldsOf ids).contains k = true ↔
      ∃ id ∈ ids, ∃ b, c.get? id = some b ∧ b.exposes k = true := by
  simp only [fieldsOf, FieldSet.contains_ofPred, List.any_eq_true, List.mem_filterMap]
  constructor
  · rintro ⟨b, ⟨id, hid, hb⟩, hk⟩
    exact ⟨id, hid, b, hb, hk⟩
  · rintro ⟨id, hid, b, hb, hk⟩
    exact ⟨b, ⟨id, hid, hb⟩, hk⟩

end Catalog

end AclPlane
