import AclPlane.Proofs.Catalog
import AclPlane.Proofs.KeyCover.Greedy

/-!
The exclusions of accepted catalogs.

A list of blocks declares an exclusion on either of its sides, or on both.  The catalog of the
list has it on both, so it does not matter from which side two blocks are tested.

* `Declares`: a block of a list names another as one that it cannot be combined with.
* `noteAll`: the loop that notes exclusions in a table one by one; run over the declared ones with
  their sides exchanged, it gives the table of the catalog (`noteAll_exchanged`).
* `exclusive_iff_declares`: two blocks exclude each other if one of them has declared it.
* `compatible_iff_forall`: testing each block against those behind it tests all pairs.
* `exclusions_closed`: which lists are accepted, and what becomes of their exclusions.
-/

namespace AclPlane.Catalog

variable {c : Catalog} {list : List KeyBlock} {x y : KeyBlockId}

/-- The block `x` of a list names `y` as one that it cannot be combined with. -/
def Declares (list : List KeyBlock) (x y : KeyBlockId) : Prop :=
  ∃ b ∈ list, b.id = x ∧ b.excludes y = true

instance : Decidable (Declares list x y) :=
  inferInstanceAs (Decidable (∃ b ∈ list, b.id = x ∧ b.excludes y = true))

/-! ### Noting exclusions one by one -/

/-- The exclusions in a table, each with its sides exchanged. -/
def exchanged (blocks : OrderedMap KeyBlockId KeyBlock) : List (KeyBlockId × KeyBlockId) :=
  blocks.values.flatMap (fun b => (OrderedSet.members b.exclusive).map (fun other => (other, b.id)))

/-- Notes an exclusion at the first of its blocks, if the table has that. -/
def note (blocks : OrderedMap KeyBlockId KeyBlock) (e : KeyBlockId × KeyBlockId) :
    OrderedMap KeyBlockId KeyBlock :=
  blocks.modify e.1 (fun b => { b with exclusive := b.exclusive.insert e.2 () })

/-- Notes exclusions one after another. -/
def noteAll (blocks : OrderedMap KeyBlockId KeyBlock) (es : List (KeyBlockId × KeyBlockId)) :
    OrderedMap KeyBlockId KeyBlock :=
  es.foldl note blocks

lemma mem_exchanged {blocks : OrderedMap KeyBlockId KeyBlock} :
    (x, y) ∈ exchanged blocks ↔ ∃ b ∈ blocks.values, b.excludes x = true ∧ b.id = y := by
  simp only [exchanged, List.mem_flatMap, List.mem_map, Prod.mk.injEq,
    OrderedSet.mem_members_iff, KeyBlock.excludes]
  refine exists_congr fun b => and_congr_right fun _ => ?_
  constructor
  · rintro ⟨other, hother, rfl, rfl⟩
    exact ⟨hother, rfl⟩
  · rintro ⟨hx, rfl⟩
    exact ⟨x, hx, rfl, rfl⟩

/-- Each block gets what has been noted at it, on top of its own exclusions. -/
lemma get?_noteAll (blocks : OrderedMap KeyBlockId KeyBlock) (es : List (KeyBlockId × KeyBlockId))
    (id : KeyBlockId) :
    (noteAll blocks es).get? id = (blocks.get? id).map fun b =>
      { b with
        exclusive := OrderedSet.addAll b.exclusive ((es.filter (·.1 = id)).map Prod.snd) } := by
  induction es generalizing blocks with
  | nil => exact (Option.map_id' ..).symm
  | cons e es ih =>
      rw [show noteAll blocks (e :: es) = noteAll (note blocks e) es from rfl, ih, note,
        OrderedMap.get?_modify]
      by_cases hid : e.1 = id
      · rw [if_pos hid.symm, hid, List.filter_cons_of_pos (by simpa using hid), Option.map_map]
        rfl
      · rw [if_neg (Ne.symm hid), List.filter_cons_of_neg (by simpa using hid)]

/-- The loop reads the exclusions off the table as it was and notes them in the table as it goes;
it gives what is made in one go. -/
theorem noteAll_exchanged (blocks : OrderedMap KeyBlockId KeyBlock) :
    noteAll blocks (exchanged blocks) = symmetric blocks := by
  refine OrderedMap.ext_get? fun id => ?_
  rw [get?_noteAll, symmetric, OrderedMap.get?_mapValues]
  refine congrArg (Option.map · _) (funext fun b => ?_)
  have hmem : ∀ k, k ∈ ((exchanged blocks).filter (·.1 = id)).map Prod.snd ↔
      k ∈ (blocks.values.filter (·.excludes id)).map KeyBlock.id := by
    simp [mem_exchanged, and_assoc]
  rw [OrderedSet.addAll_congr hmem]

/-! ### The symmetric closure -/

lemma Coherent.not_declares_self (h : Coherent list) (x : KeyBlockId) : ¬Declares list x x := by
  rintro ⟨b, hb, rfl, hself⟩
  rw [h.not_excludes_self b hb] at hself
  cases hself

/-- Two blocks exclude each other if one of them has declared it. -/
theorem exclusive_iff_declares (h : ofBlocks list = .ok c) :
    c.exclusive x y = true ↔ Declares list x y ∨ Declares list y x := by
  obtain ⟨hlist, rfl⟩ := ofBlocks_eq_ok.mp h
  simp only [exclusive_symmetric hlist.listed, get?_table_eq_some hlist.nodup_ids]
  constructor
  · rintro ⟨a, ⟨ha, hax⟩, hay | ⟨b, ⟨hb, hby⟩, hbx⟩⟩
    · exact .inl ⟨a, ha, hax, hay⟩
    · exact .inr ⟨b, hb, hby, hbx⟩
  · rintro (⟨a, ha, hax, hay⟩ | ⟨b, hb, hby, hbx⟩)
    · exact ⟨a, ⟨ha, hax⟩, .inl hay⟩
    -- only the other side is declared, but what it names is a block of the list
    · obtain ⟨a, ha, hax⟩ := hlist.known b hb x hbx
      exact ⟨a, ⟨ha, hax⟩, .inr ⟨b, ⟨hb, hby⟩, hbx⟩⟩

lemma exclusive_self (h : ofBlocks list = .ok c) (x : KeyBlockId) : c.exclusive x x = false := by
  rw [Bool.eq_false_iff, ne_eq, exclusive_iff_declares h, or_self]
  exact (ofBlocks_eq_ok.mp h).1.not_declares_self x

/-! ### Combinations of blocks -/

variable {blocks blocks' : List KeyBlock}

/-- Testing each block against those behind it tests all pairs, in both directions. -/
lemma compatible_iff_forall (h : ofBlocks list = .ok c) (hmem : ∀ b ∈ blocks, b ∈ c.toList) :
    KeyCover.compatible blocks = true ↔
      ∀ a ∈ blocks, ∀ b ∈ blocks, c.exclusive a.id b.id = false := by
  have hc := lawful_ofBlocks h
  have hsymm := hc.symm_compatible
  rw [KeyCover.compatible_iff,
    pairwise_excludes_iff fun b hb => hc.mem_toList_iff.mp (hmem b hb)]
  constructor
  · exact List.Pairwise.forall_of_forall fun a _ => exclusive_self h a.id
  · exact fun hall => List.pairwise_of_forall_mem_list hall

/-- The order of a combination does not matter to the test of its pairs. -/
lemma compatible_perm (h : ofBlocks list = .ok c) (hmem : ∀ b ∈ blocks, b ∈ c.toList)
    (hperm : blocks'.Perm blocks) : KeyCover.compatible blocks' = KeyCover.compatible blocks := by
  have hmem' : ∀ b ∈ blocks', b ∈ c.toList := fun b hb => hmem b (hperm.mem_iff.mp hb)
  rw [Bool.eq_iff_iff, compatible_iff_forall h hmem', compatible_iff_forall h hmem]
  simp only [hperm.mem_iff]

lemma isCover_perm (h : ofBlocks list = .ok c) (hmem : ∀ b ∈ blocks, b ∈ c.toList)
    (hperm : blocks'.Perm blocks) (fields : FieldSet) :
    KeyCover.isCover fields blocks' = KeyCover.isCover fields blocks := by
  have hcovers : KeyCover.covers fields blocks' = KeyCover.covers fields blocks := by
    simp only [KeyCover.covers, hperm.any_eq]
  rw [KeyCover.isCover, KeyCover.isCover, compatible_perm h hmem hperm, hcovers]

/-! ### Exclusions of accepted catalogs -/

/-- **The exclusions of a catalog.**  A list of blocks is accepted exactly if their numbers
differ, each of them exposes a field, none excludes itself and every exclusion names a block of
the list.  The exclusions of its catalog are the declared ones, noted one by one on their other
sides as well: two blocks exclude each other if and only if one of them has declared it, and no
block excludes itself.  So a combination of blocks, each tested against those behind it, passes
exactly if no two of them exclude each other, in whatever order they are taken. -/
theorem exclusions_closed (list : List KeyBlock) :
    ((∃ c, ofBlocks list = .ok c) ↔ Coherent list) ∧
      ∀ c, ofBlocks list = .ok c →
        c.blocks = noteAll (table list) (exchanged (table list)) ∧
        (∀ x y, c.exclusive x y = true ↔ Declares list x y ∨ Declares list y x) ∧
        (∀ x y, c.exclusive x y = c.exclusive y x) ∧
        (∀ x, c.exclusive x x = false) ∧
        ∀ blocks, (∀ b ∈ blocks, b ∈ c.toList) →
          (KeyCover.compatible blocks = true ↔
            ∀ a ∈ blocks, ∀ b ∈ blocks, c.exclusive a.id b.id = false) ∧
          ∀ blocks', blocks'.Perm blocks →
            KeyCover.compatible blocks' = KeyCover.compatible blocks ∧
              ∀ fields, KeyCover.isCover fields blocks' = KeyCover.isCover fields blocks := by
  refine ⟨?_, fun c h => ⟨?_, fun x y => exclusive_iff_declares h,
    (lawful_ofBlocks h).exclusive_comm, exclusive_self h, fun blocks hmem =>
      ⟨compatible_iff_forall h hmem, fun blocks' hperm =>
        ⟨compatible_perm h hmem hperm, isCover_perm h hmem hperm⟩⟩⟩⟩
  · simp only [ofBlocks_eq_ok, exists_and_left, exists_eq', and_true]
  · obtain ⟨-, rfl⟩ := ofBlocks_eq_ok.mp h
    exact (noteAll_exchanged (table list)).symm

/-- Of the blocks of the device, 3 declares that it excludes 8, and 8 declares nothing; they fail
the test in either order. -/
theorem exclusions_of_device :
    let pair := Catalog.builtIn.toList.filter (fun b => b.id = ⟨3⟩ ∨ b.id = ⟨8⟩)
    ¬Declares builtInBlocks ⟨8⟩ ⟨3⟩ ∧ Catalog.builtIn.exclusive ⟨8⟩ ⟨3⟩ = true ∧
      KeyCover.compatible pair = false ∧ KeyCover.compatible pair.reverse = false := by
  intro pair
  obtain ⟨-, hclosed⟩ := exclusions_closed builtInBlocks
  obtain ⟨-, hiff, -, -, hblocks⟩ := hclosed Catalog.builtIn ofBlocks_builtInBlocks
  obtain ⟨-, hperm⟩ := hblocks pair fun b hb => List.mem_of_mem_filter hb
  have hpair : KeyCover.compatible pair = false := by decide
  refine ⟨by decide, (hiff _ _).mpr (.inr (by decide)), hpair, ?_⟩
  rw [(hperm pair.reverse pair.reverse_perm).1, hpair]

end AclPlane.Catalog
