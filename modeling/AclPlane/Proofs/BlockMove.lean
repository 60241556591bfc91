import AclPlane.Proofs.Marks.Determined

/-!
A block move permutes the slots of a region.

* `blockPerm`: where a block move takes the slots, as a permutation, with the move back as its
  inverse; `blockPerm_block`, `map_blockPerm_outside` and `blockPerm_of_not_mem` say what it is.
* `Marks.relocate_blockPerm`: the rules go where it takes their slots, and their bits with them.
* `Controller.move_block_permutes`: so it is in model and device, and the move back undoes it all.
-/

namespace AclPlane

/-! ### The permutation -/

section Permutation

variable {src size dst k : ℕ}

/-- The slot that a block move takes a slot to. -/
def movedTo (src size dst k : ℕ) : ℕ :=
  ((relocations src size dst).find? (·.1 == k)).elim k Prod.snd

lemma movedTo_of_mem {move : ℕ × ℕ} (hmove : move ∈ relocations src size dst) :
    movedTo src size dst move.1 = move.2 := by
  have hfind : (relocations src size dst).find? (·.1 == move.1) = some move :=
    find?_eq_some_of_nodup (nodup_fst_relocations src size dst) hmove
  rw [movedTo, hfind]
  rfl

lemma movedTo_of_not_mem (hk : k ∉ (relocations src size dst).map Prod.fst) :
    movedTo src size dst k = k := by
  have hnone : (relocations src size dst).find? (·.1 == k) = none := by
    refine List.find?_eq_none.mpr fun move hmove hslot => hk ?_
    rw [← beq_iff_eq.mp hslot]
    exact List.mem_map_of_mem hmove
  rw [movedTo, hnone]
  rfl

/-- The move back takes every slot back. -/
lemma relocations_swap (src size dst : ℕ) :
    relocations dst size src = (relocations src size dst).map Prod.swap := by
  rw [relocations_eq, relocations_eq, List.map_append, List.zip_swap, List.zip_swap]

lemma movedTo_movedTo (src size dst k : ℕ) :
    movedTo dst size src (movedTo src size dst k) = k := by
  by_cases hk : k ∈ (relocations src size dst).map Prod.fst
  · obtain ⟨move, hmove, rfl⟩ := List.mem_map.mp hk
    have hback : move.swap ∈ relocations dst size src := by
      rw [relocations_swap]
      exact List.mem_map_of_mem hmove
    rw [movedTo_of_mem hmove]
    exact movedTo_of_mem hback
  · have hback : k ∉ (relocations dst size src).map Prod.fst := by
      rw [relocations_swap, List.map_map]
      exact fun hmem => hk ((perm_relocations src size dst).subset hmem)
    rw [movedTo_of_not_mem hk, movedTo_of_not_mem hback]

/-- Where a block move takes the slots.  The move back is its inverse. -/
def blockPerm (src size dst : ℕ) : Equiv.Perm ℕ where
  toFun := movedTo src size dst
  invFun := movedTo dst size src
  left_inv := movedTo_movedTo src size dst
  right_inv := movedTo_movedTo dst size src

lemma blockPerm_apply (src size dst k : ℕ) : blockPerm src size dst k = movedTo src size dst k :=
  rfl

lemma blockPerm_blockPerm (src size dst k : ℕ) :
    blockPerm dst size src (blockPerm src size dst k) = k := movedTo_movedTo src size dst k

/-- The slots of the block go to its destination. -/
lemma blockPerm_block {i : ℕ} (hi : i < size) : blockPerm src size dst (src + i) = dst + i := by
  have hslot : ∀ start, (blockSlots start size)[i]? = some (start + i) := by
    intro start
    rw [blockSlots, List.getElem?_range' hi, Nat.one_mul]
  have hmove : (src + i, dst + i) ∈ relocations src size dst := by
    rw [relocations_eq, List.mem_append]
    refine Or.inl (List.mem_of_getElem? (i := i) ?_)
    exact List.getElem?_zip_eq_some.mpr ⟨hslot src, hslot dst⟩
  exact movedTo_of_mem hmove

/-- The slots of the destination that lie outside the block go, in order, to the slots of the block
that lie outside the destination. -/
lemma map_blockPerm_outside (src size dst : ℕ) :
    (outside dst size src).map (blockPerm src size dst) = outside src size dst := by
  have hlength : (outside dst size src).length = (outside src size dst).length :=
    length_outside dst size src
  calc (outside dst size src).map (blockPerm src size dst)
      = (((outside dst size src).zip (outside src size dst)).map Prod.fst).map
          (blockPerm src size dst) := by rw [List.map_fst_zip hlength.le]
    _ = ((outside dst size src).zip (outside src size dst)).map Prod.snd := by
        rw [List.map_map]
        refine List.map_congr_left fun move hmove => ?_
        refine movedTo_of_mem ?_
        rw [relocations_eq, List.mem_append]
        exact Or.inr hmove
    _ = outside src size dst := List.map_snd_zip hlength.ge

/-- All other slots stay. -/
lemma blockPerm_of_not_mem (hsrc : k ∉ blockSlots src size) (hdst : k ∉ blockSlots dst size) :
    blockPerm src size dst k = k := by
  refine movedTo_of_not_mem ?_
  rw [map_fst_relocations, List.mem_append, mem_outside]
  rintro (hk | ⟨hk, -⟩)
  · exact hsrc hk
  · exact hdst hk

/-- Slots of a table go to slots of the table. -/
lemma blockPerm_lt {n : ℕ} (hsrc : src + size ≤ n) (hdst : dst + size ≤ n) (hk : k < n) :
    blockPerm src size dst k < n := by
  rw [blockPerm_apply]
  by_cases hmem : k ∈ (relocations src size dst).map Prod.fst
  · obtain ⟨move, hmove, rfl⟩ := List.mem_map.mp hmem
    rw [movedTo_of_mem hmove]
    refine lt_of_mem_relocations hsrc hdst ?_
    exact (perm_relocations src size dst).subset (List.mem_map_of_mem hmove)
  · rw [movedTo_of_not_mem hmem]
    exact hk

end Permutation

/-! ### Rules and their bits -/

namespace Marks

variable {src size dst : ℕ}

/-- The rules go where their slots are taken, and their bits with them. -/
lemma relocate_blockPerm (m : Marks) (src size dst k : ℕ) :
    m.relocate src size dst (blockPerm src size dst k) = m k := by
  rw [blockPerm_apply]
  by_cases hk : k ∈ (relocations src size dst).map Prod.fst
  · obtain ⟨move, hmove, rfl⟩ := List.mem_map.mp hk
    rw [movedTo_of_mem hmove, relocate_target hmove]
  · rw [movedTo_of_not_mem hk, relocate_of_not_mem hk]

/-- The move back brings every rule back. -/
lemma relocate_relocate (m : Marks) (src size dst : ℕ) :
    (m.relocate src size dst).relocate dst size src = m := by
  funext k
  calc (m.relocate src size dst).relocate dst size src k
      = (m.relocate src size dst).relocate dst size src
          (blockPerm dst size src (blockPerm src size dst k)) := by rw [blockPerm_blockPerm]
    _ = m.relocate src size dst (blockPerm src size dst k) := relocate_blockPerm _ _ _ _ _
    _ = m k := relocate_blockPerm m src size dst k

end Marks

/-- Tables have the same rules up to a permutation of their slots. -/
lemma RuleTable.perm_occupied {t t' : RuleTable} {σ : Equiv.Perm ℕ}
    (h : ∀ k, t'.rule? (σ k) = t.rule? k) :
    t'.occupied.Perm (t.occupied.map fun e => (σ e.1, e.2)) := by
  have hnodup : ∀ t : RuleTable, t.occupied.Nodup := fun t =>
    t.pairwise_occupied.imp fun hlt heq => Nat.ne_of_lt hlt (congrArg Prod.fst heq)
  have hinj : Function.Injective fun e : ℕ × Rule => (σ e.1, e.2) := by
    intro e e' heq
    obtain ⟨hslot, hrule⟩ := Prod.mk.inj heq
    exact Prod.ext (σ.injective hslot) hrule
  refine (List.perm_ext_iff_of_nodup (hnodup t') ((hnodup t).map hinj)).mpr fun e => ?_
  obtain ⟨k, rule⟩ := e
  rw [mem_occupied_iff, List.mem_map]
  constructor
  · intro hk
    refine ⟨(σ.symm k, rule), mem_occupied_iff.mpr ?_, Prod.ext (σ.apply_symm_apply k) rfl⟩
    rw [← h, σ.apply_symm_apply]
    exact hk
  · rintro ⟨e, he, heq⟩
    obtain ⟨rfl, rfl⟩ := Prod.mk.inj heq
    rw [h]
    exact mem_occupied_iff.mp he

/-! ### Model and device -/

namespace Controller

variable {s s' : Controller} {region : Handle .region} {r : Region} {src size dst : ℕ}

/-- A block move within the bounds is planned, with a call of the device. -/
lemma exists_plan_move (hr : s.core.regions.regions.get? region = some r) (hsize : 0 < size)
    (hsrc : src + size ≤ r.table.capacity) (hdst : dst + size ≤ r.table.capacity) :
    ∃ change, s.core.ruleChange (.move region ⟨src, size, dst⟩) = .ok change ∧
      change.call ≠ none := by
  have hget : s.core.regions.get region = .ok r := Regions.get_eq_ok.mpr hr
  have hblock : r.table.checkBlock src size dst = .ok () :=
    RuleTable.checkBlock_eq_ok.mpr ⟨Nat.pos_iff_ne_zero.mp hsize, hsrc, hdst⟩
  rw [Core.ruleChange, Core.moveBlock, hget, ok_bind, hblock, ok_bind]
  exact ⟨_, rfl, Option.some_ne_none _⟩

/-- Such a move is made unless a fault is armed for it. -/
lemma result_move_iff (h : s.core.InStep s.device.tables)
    (hr : s.core.regions.regions.get? region = some r) (hsize : 0 < size)
    (hsrc : src + size ≤ r.table.capacity) (hdst : dst + size ≤ r.table.capacity) :
    (s.execute (.rule (.move region ⟨src, size, dst⟩))).result = .ok .done ↔
      s.Unarmed (.rule (.move region ⟨src, size, dst⟩)) := by
  obtain ⟨change, hplan, hcall⟩ := exists_plan_move hr hsize hsrc hdst
  rw [result_rule_iff h hplan, or_iff_right hcall]

/-- The rules and the bits of a region after a block move, in model and device. -/
lemma Ruled.move (h : Reachable s) (h' : Reachable s')
    (hruled : s.Ruled (.move region ⟨src, size, dst⟩) s')
    (hr : s.core.regions.regions.get? region = some r) :
    ∃ r', s'.core.regions.regions.get? region = some r' ∧ r'.outline = r.outline ∧
      (∀ k, r'.table.rule? (blockPerm src size dst k) = r.table.rule? k) ∧
      (∀ k, s'.device.image? region (blockPerm src size dst k) =
        (s.device.image? region k).map fun image =>
          { image with offset := blockPerm src size dst k }) ∧
      ∀ k, s'.device.bit region (blockPerm src size dst k) = s.device.bit region k := by
  obtain ⟨marks, hmarks⟩ := h.exists_carries
  obtain ⟨r', hr', houtline⟩ := hruled.exists_region hr
  have hmark : (Operation.rule (.move region ⟨src, size, dst⟩)).mark region (marks region) =
      (marks region).relocate src size dst := Operation.mark_rule rfl (marks region)
  have hmoved : ∀ k, (Operation.rule (.move region ⟨src, size, dst⟩)).mark region (marks region)
      (blockPerm src size dst k) = marks region k := by
    intro k
    rw [hmark]
    exact (marks region).relocate_blockPerm src size dst k
  have hmarks' := hruled.carries marks hmarks
  have hrule : ∀ k, r'.table.rule? (blockPerm src size dst k) = r.table.rule? k := by
    intro k
    rw [rule?_eq h'.inStep hmarks' hr', Marks.rule?, hmoved, rule?_eq h.inStep hmarks hr]
    rfl
  refine ⟨r', hr', houtline, hrule, fun k => ?_, fun k => ?_⟩
  · rw [image?_eq h'.inStep hr', hrule, image?_eq h.inStep hr, Option.map_map]
    rfl
  · rw [bit_eq h'.inStep hmarks', Marks.bit, hmoved, bit_eq h.inStep hmarks]
    rfl

/-- A move and the move back leave model and tables as they were. -/
lemma Ruled.move_back {s'' : Controller} (h : Reachable s) (h'' : Reachable s'')
    (hruled : s.Ruled (.move region ⟨src, size, dst⟩) s')
    (hback : s'.Ruled (.move region ⟨dst, size, src⟩) s'') :
    s''.core = s.core ∧ s''.device.tables = s.device.tables := by
  have hstats : s''.core.stats = s.core.stats := by
    obtain ⟨_, -, hstats⟩ := hruled.stats_eq
    obtain ⟨_, -, hstats'⟩ := hback.stats_eq
    exact hstats'.trans hstats
  exact hruled.eq_of_undone h h'' hback rfl
    (fun marks _ => (marks region).relocate_relocate src size dst) hstats

/-- Take any reachable controller, a region, and a block of slots and a destination within it, which
may overlap in any way.  The move succeeds unless a fault is armed for it, and then it permutes the
slots: those of the block go to the destination, those of the destination that lie outside the block
fill, in ascending order, the slots of the block that lie outside the destination, and all others
stay.  Rules go with their slots, so that none is lost or doubled and the number on record stays,
and so do the images and the activity bits of the device.  The move back then succeeds, and it
restores the model and the tables of the device exactly. -/
theorem move_block_permutes (h : Reachable s)
    (hr : s.core.regions.regions.get? region = some r) (hsize : 0 < size)
    (hsrc : src + size ≤ r.table.capacity) (hdst : dst + size ≤ r.table.capacity) :
    let moving : Operation := .rule (.move region ⟨src, size, dst⟩)
    let moved := (s.execute moving).controller
    let back := moved.execute (.rule (.move region ⟨dst, size, src⟩))
    let σ := blockPerm src size dst
    ((∀ i < size, σ (src + i) = dst + i) ∧
      (outside dst size src).map σ = outside src size dst ∧
      (∀ k, k ∉ blockSlots src size → k ∉ blockSlots dst size → σ k = k) ∧
      ∀ k < r.table.capacity, σ k < r.table.capacity) ∧
    ((s.execute moving).result = .ok .done ↔ s.Unarmed moving) ∧
    ((s.execute moving).result = .ok .done →
      (∃ r', moved.core.regions.regions.get? region = some r' ∧
        (∀ k, r'.table.rule? (σ k) = r.table.rule? k) ∧
        r'.table.occupied.Perm (r.table.occupied.map fun e => (σ e.1, e.2)) ∧
        r'.table.used = r.table.used) ∧
      (∀ k, moved.device.image? region (σ k) =
        (s.device.image? region k).map fun image => { image with offset := σ k }) ∧
      (∀ k, moved.device.bit region (σ k) = s.device.bit region k) ∧
      back.result = .ok .done ∧ back.controller.core = s.core ∧
        back.controller.device.tables = s.device.tables) := by
  intro moving moved back σ
  refine ⟨⟨fun i hi => blockPerm_block hi, map_blockPerm_outside src size dst,
    fun k => blockPerm_of_not_mem, fun k => blockPerm_lt hsrc hdst⟩,
    result_move_iff h.inStep hr hsize hsrc hdst, fun hok => ?_⟩
  have hmoved : Reachable moved := h.rule trivial
  have hruled : s.Ruled (.move region ⟨src, size, dst⟩) moved := ruled_of_ok h.inStep hok
  obtain ⟨r', hr', houtline, hrule, himage, hbit⟩ := hruled.move h hmoved hr
  have hperm := RuleTable.perm_occupied hrule
  have hused : r'.table.used = r.table.used :=
    calc r'.table.used = r'.table.total fun _ => 1 := hmoved.exact region r' hr'
      _ = r.table.total fun _ => 1 := by
        rw [RuleTable.total, (hperm.map _).sum_eq, List.map_map]
        rfl
      _ = r.table.used := (h.exact region r hr).symm
  have hcapacity : r'.table.capacity = r.table.capacity := Region.capacity_of_outline houtline
  have hunarmed : s.Unarmed moving :=
    (result_move_iff h.inStep hr hsize hsrc hdst).mp hok
  have hbackok : back.result = .ok .done := by
    refine (result_move_iff hmoved.inStep hr' hsize (hcapacity ▸ hdst) (hcapacity ▸ hsrc)).mpr ?_
    exact hruled.unarmed hunarmed
  have hback : Reachable back.controller := hmoved.rule trivial
  obtain ⟨hcore, htables⟩ := hruled.move_back h hback (ruled_of_ok hmoved.inStep hbackok)
  exact ⟨⟨r', hr', hrule, hperm, hused⟩, himage, hbit, hbackok, hcore, htables⟩

/-- After the session the first of the two rules is hit, and both are moved up by one slot, so that
their destination overlaps the block.  The empty slot behind them takes the place of the first. -/
theorem move_block_permutes_of_overlap :
    let s := fresh.run (session ++ [.recordHit ⟨0, 1⟩ 1])
    let moved := (s.execute (.rule (.move ⟨0, 1⟩ ⟨1, 2, 2⟩))).controller
    let back := moved.execute (.rule (.move ⟨0, 1⟩ ⟨2, 2, 1⟩))
    (List.range 4).map (blockPerm 1 2 2) = [0, 2, 3, 1] ∧
    (s.execute (.rule (.move ⟨0, 1⟩ ⟨1, 2, 2⟩))).result = .ok .done ∧
    (List.range 4).map (moved.device.bit ⟨0, 1⟩) = [false, false, true, false] ∧
    (List.range 4).map (fun k => (moved.device.image? ⟨0, 1⟩ k).map RuleImage.priority) =
      [none, none, some 5, some 6] ∧
    back.result = .ok .done ∧ back.controller.core = s.core ∧
      back.controller.device.tables = s.device.tables := by
  intro s moved back
  have hs : Reachable s := (Reachable.start start_fresh).run (by decide +kernel)
  have hlive : (s.core.regions.regions.get? ⟨0, 1⟩).map (fun r => r.table.capacity) = some 4 := by
    decide +kernel
  obtain ⟨r, hr, hcapacity⟩ := Option.map_eq_some_iff.mp hlive
  have hsrc : 1 + 2 ≤ r.table.capacity := by rw [hcapacity]; decide
  have hdst : 2 + 2 ≤ r.table.capacity := by rw [hcapacity]
  obtain ⟨-, hiff, hdone⟩ := move_block_permutes hs hr (show 0 < 2 by decide) hsrc hdst
  have hok : (s.execute (.rule (.move ⟨0, 1⟩ ⟨1, 2, 2⟩))).result = .ok .done :=
    hiff.mpr (by decide +kernel)
  obtain ⟨-, -, -, hback⟩ := hdone hok
  exact ⟨by decide, hok, by decide +kernel, by decide +kernel, hback⟩

end Controller

end AclPlane
