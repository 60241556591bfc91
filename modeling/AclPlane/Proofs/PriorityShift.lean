import AclPlane.Proofs.Marks.Determined

/-!
Shifts of priorities.

A shift is planned from the whole table: each rule of the band gets another priority, which must
stay within the bounds and must not be that of a rule outside the band.  It is the priorities
themselves that must not meet, so a rule outside the band may lie in a gap of the destination.

* `PriorityShift.Covers`, `PriorityShift.apply`: the rules of the band, and what becomes of a rule.
* `RuleTable.Leaves`, `RuleTable.Meets`: the reasons to refuse a shift, and `exists_planShift_iff`.
* `RuleTable.Shifted`: what a shift leaves behind, and `shifted_of_planShift`.
* `RuleTable.Vacant`: no rule outside the band lies in its destination.  Then the shift back is
  planned (`exists_planShift_back`) and gives all rules their priorities back
  (`apply_apply_of_vacant`).
* `Controller.shift_priority_keeps`: when a shift is refused, and what it keeps in model and device.
* `Controller.shift_back_iff`: which rules lie in the destination afterwards, and when shifting back
  restores everything.
-/

namespace AclPlane

/-! ### The band of a shift -/

namespace PriorityShift

variable {shift : PriorityShift} {rule : Rule}

/-- The rule lies in the band. -/
def Covers (shift : PriorityShift) (rule : Rule) : Prop :=
  shift.low ≤ rule.priority ∧ rule.priority ≤ shift.high

instance (shift : PriorityShift) (rule : Rule) : Decidable (shift.Covers rule) :=
  inferInstanceAs (Decidable (_ ∧ _))

lemma covers_iff : shift.Covers rule ↔
    RuleTable.inBand shift.low shift.high rule.priority = true := by
  rw [Covers, RuleTable.inBand, Bool.and_eq_true, decide_eq_true_eq, decide_eq_true_eq]

/-- What becomes of a rule: in the band it gets another priority. -/
def apply (shift : PriorityShift) (rule : Rule) : Rule :=
  if shift.Covers rule then { rule with priority := (rule.priority + shift.delta).toNat } else rule

lemma apply_of_covers (h : shift.Covers rule) :
    shift.apply rule = { rule with priority := (rule.priority + shift.delta).toNat } := if_pos h

lemma apply_of_not_covers (h : ¬shift.Covers rule) : shift.apply rule = rule := if_neg h

lemma shift_eq_apply (shift : PriorityShift) :
    Rule.shift shift.low shift.high shift.delta = shift.apply := by
  funext rule
  by_cases h : shift.Covers rule
  · rw [Rule.shift, if_pos (covers_iff.mp h), apply_of_covers h]
  · rw [Rule.shift, if_neg fun hband => h (covers_iff.mpr hband), apply_of_not_covers h]

/-- The shift that takes the band back from its destination. -/
structure Undoes (back shift : PriorityShift) : Prop where
  low_eq : (back.low : ℤ) = shift.low + shift.delta
  high_eq : (back.high : ℤ) = shift.high + shift.delta
  delta_eq : back.delta = -shift.delta

end PriorityShift

/-! ### When a shift is planned -/

namespace RuleTable

variable {t t' : RuleTable} {shift back : PriorityShift} {rule : Rule} {k : ℕ}
  {bounds : PriorityRange} {updates : List (ℕ × ℕ)}

/-- Some rule of the band would leave the bounds. -/
def Leaves (t : RuleTable) (shift : PriorityShift) (bounds : PriorityRange) : Prop :=
  ∃ k rule, t.rule? k = some rule ∧ shift.Covers rule ∧
    (rule.priority + shift.delta < 0 ∨
      bounds.contains (rule.priority + shift.delta).toNat = false)

/-- Some rule of the band would meet a rule outside the band. -/
def Meets (t : RuleTable) (shift : PriorityShift) : Prop :=
  ∃ i j a b, t.rule? i = some a ∧ t.rule? j = some b ∧ shift.Covers a ∧ ¬shift.Covers b ∧
    (b.priority : ℤ) = a.priority + shift.delta

lemma exists_shifted_iff {fixed : List ℕ} {delta : ℤ} {priority : ℕ} :
    (∃ p, shifted fixed delta bounds priority = .ok p) ↔
      ¬(priority + delta < 0 ∨ bounds.contains (priority + delta).toNat = false) ∧
        (priority + delta).toNat ∉ fixed := by
  rw [shifted]
  simp only [Bool.not_eq_true']
  by_cases hleaves : priority + delta < 0 ∨ bounds.contains (priority + delta).toNat = false
  · simp [hleaves]
  · by_cases hmeets : (priority + delta).toNat ∈ fixed
    · simp [hleaves, hmeets]
    · simp [hleaves, hmeets]

/-- The rules that get another priority are those of the band. -/
lemma mem_band_iff : (k, rule) ∈ t.occupied.filter
    (fun e => inBand shift.low shift.high e.2.priority) ↔
      t.rule? k = some rule ∧ shift.Covers rule := by
  rw [List.mem_filter, mem_occupied_iff, PriorityShift.covers_iff]

/-- The priorities that they must not get are those of the rules outside the band. -/
lemma mem_fixed_iff {priority : ℕ} : priority ∈ (t.occupied.map fun e => e.2.priority).filter
    (fun p => !inBand shift.low shift.high p) ↔
      ∃ j b, t.rule? j = some b ∧ ¬shift.Covers b ∧ b.priority = priority := by
  simp only [List.mem_filter, List.mem_map, Prod.exists, mem_occupied_iff,
    PriorityShift.covers_iff, Bool.not_eq_true', Bool.not_eq_true]
  constructor
  · rintro ⟨⟨j, b, hb, rfl⟩, hout⟩
    exact ⟨j, b, hb, hout, rfl⟩
  · rintro ⟨j, b, hb, hout, rfl⟩
    exact ⟨⟨j, b, hb, rfl⟩, hout⟩

/-- A shift is planned unless the band is empty, or some rule of it would leave the bounds or meet a
rule outside the band. -/
theorem exists_planShift_iff :
    (∃ updates, t.planShift shift.low shift.high shift.delta bounds = .ok updates) ↔
      ¬shift.high < shift.low ∧ ¬t.Leaves shift bounds ∧ ¬t.Meets shift := by
  simp only [planShift, guard_eq_ok, exists_and_left, exists_mapM_iff, Prod.forall, mem_band_iff,
    exists_bind_pure_iff, exists_shifted_iff, mem_fixed_iff]
  refine and_congr_right fun _ => ?_
  constructor
  · intro hall
    refine ⟨?_, ?_⟩
    · rintro ⟨k, rule, hrule, hcovers, hleaves⟩
      exact (hall k rule ⟨hrule, hcovers⟩).1 hleaves
    · rintro ⟨i, j, a, b, ha, hb, hcovers, hout, hmeet⟩
      refine (hall i a ⟨ha, hcovers⟩).2 ⟨j, b, hb, hout, ?_⟩
      omega
  · rintro ⟨hstay, hfree⟩ k rule ⟨hrule, hcovers⟩
    have hwithin : ¬(rule.priority + shift.delta < 0 ∨
        bounds.contains (rule.priority + shift.delta).toNat = false) := fun hleaves =>
      hstay ⟨k, rule, hrule, hcovers, hleaves⟩
    refine ⟨hwithin, ?_⟩
    rintro ⟨j, b, hb, hout, hmeet⟩
    refine hfree ⟨k, j, rule, b, hrule, hb, hcovers, hout, ?_⟩
    have hpos : 0 ≤ rule.priority + shift.delta := not_lt.mp (not_or.mp hwithin).1
    omega

/-! ### What a shift leaves behind -/

/-- A table after a shift of priorities. -/
structure Shifted (t : RuleTable) (shift : PriorityShift) (bounds : PriorityRange)
    (t' : RuleTable) : Prop where
  capacity_eq : t'.capacity = t.capacity
  used_eq : t'.used = t.used
  /-- Rules stay in their slots, and nothing but the priorities in the band changes. -/
  rule?_eq : ∀ k, t'.rule? k = (t.rule? k).map shift.apply
  /-- The priorities in the band change by the delta of the shift. -/
  priority_eq : ∀ k rule, t.rule? k = some rule → shift.Covers rule →
    ((shift.apply rule).priority : ℤ) = rule.priority + shift.delta
  within : t'.All fun rule => bounds.contains rule.priority = true
  /-- Rules of the band compare as before. -/
  compare_eq : ∀ i j a b, t.rule? i = some a → t.rule? j = some b → shift.Covers a →
    shift.Covers b → compare (shift.apply a).priority (shift.apply b).priority =
      compare a.priority b.priority
  /-- Rules of the band meet no others. -/
  ne : ∀ i j a b, t.rule? i = some a → t.rule? j = some b → shift.Covers a → ¬shift.Covers b →
    (shift.apply a).priority ≠ (shift.apply b).priority

/-- What is planned is a shift, provided that the priorities are within the bounds before. -/
theorem shifted_of_planShift
    (h : t.planShift shift.low shift.high shift.delta bounds = .ok updates)
    (hbounded : t.All fun rule => bounds.contains rule.priority = true) :
    t.Shifted shift bounds (t.setPriorities updates) := by
  obtain ⟨-, hstay, hfree⟩ := exists_planShift_iff.mp ⟨updates, h⟩
  have hrule : ∀ k, (t.setPriorities updates).rule? k = (t.rule? k).map shift.apply := by
    intro k
    rw [Marks.rule?_of_planShift h k, shift.shift_eq_apply]
  have hwithin : ∀ k rule, t.rule? k = some rule → shift.Covers rule →
      0 ≤ rule.priority + shift.delta ∧
        bounds.contains (rule.priority + shift.delta).toNat = true := by
    intro k rule hk hcovers
    constructor
    · exact not_lt.mp fun hneg => hstay ⟨k, rule, hk, hcovers, Or.inl hneg⟩
    · exact Bool.eq_true_of_not_eq_false fun hout => hstay ⟨k, rule, hk, hcovers, Or.inr hout⟩
  have hpriority : ∀ k rule, t.rule? k = some rule → shift.Covers rule →
      ((shift.apply rule).priority : ℤ) = rule.priority + shift.delta := by
    intro k rule hk hcovers
    rw [PriorityShift.apply_of_covers hcovers]
    exact Int.toNat_of_nonneg (hwithin k rule hk hcovers).1
  refine ⟨capacity_setPriorities updates, rfl, hrule, hpriority, ?_, ?_, ?_⟩
  · intro k rule' hk
    rw [hrule, Option.map_eq_some_iff] at hk
    obtain ⟨rule, hk, rfl⟩ := hk
    by_cases hcovers : shift.Covers rule
    · rw [PriorityShift.apply_of_covers hcovers]
      exact (hwithin k rule hk hcovers).2
    · rw [PriorityShift.apply_of_not_covers hcovers]
      exact hbounded k rule hk
  · intro i j a b ha hb hcoversa hcoversb
    have hpa := hpriority i a ha hcoversa
    have hpb := hpriority j b hb hcoversb
    have hlt : (shift.apply a).priority < (shift.apply b).priority ↔ a.priority < b.priority := by
      omega
    have heq : (shift.apply a).priority = (shift.apply b).priority ↔ a.priority = b.priority := by
      omega
    simp only [compare, compareOfLessAndEq, hlt, heq]
  · intro i j a b ha hb hcovers hout hmeet
    have hpa := hpriority i a ha hcovers
    rw [PriorityShift.apply_of_not_covers hout] at hmeet
    exact hfree ⟨i, j, a, b, ha, hb, hcovers, hout, by omega⟩

/-! ### The way back -/

/-- No rule outside the band lies in its destination. -/
def Vacant (t : RuleTable) (shift back : PriorityShift) : Prop :=
  ∀ k rule, t.rule? k = some rule → back.Covers rule → shift.Covers rule

namespace Shifted

/-- The rules in the destination are those of the band and those that were there before. -/
lemma covers_iff (h : t.Shifted shift bounds t') (hback : back.Undoes shift)
    (hk : t.rule? k = some rule) :
    back.Covers (shift.apply rule) ↔ shift.Covers rule ∨ back.Covers rule := by
  obtain ⟨hlow, hhigh, -⟩ := hback
  by_cases hcovers : shift.Covers rule
  · have hpriority := h.priority_eq k rule hk hcovers
    refine iff_of_true ?_ (Or.inl hcovers)
    rw [PriorityShift.Covers] at hcovers ⊢
    omega
  · rw [PriorityShift.apply_of_not_covers hcovers, or_iff_right hcovers]

/-- Rules of the band get their priorities back. -/
lemma apply_apply (h : t.Shifted shift bounds t') (hback : back.Undoes shift)
    (hk : t.rule? k = some rule) (hcovers : shift.Covers rule) :
    back.apply (shift.apply rule) = rule := by
  have hpriority := h.priority_eq k rule hk hcovers
  have hsame : ((shift.apply rule).priority + back.delta).toNat = rule.priority := by
    rw [hback.delta_eq]
    omega
  rw [PriorityShift.apply_of_covers ((h.covers_iff hback hk).mpr (Or.inl hcovers)), hsame,
    PriorityShift.apply_of_covers hcovers]

/-- If the destination was vacant, all rules become what they were. -/
lemma apply_apply_of_vacant (h : t.Shifted shift bounds t') (hback : back.Undoes shift)
    (hvacant : t.Vacant shift back) (hk : t.rule? k = some rule) :
    back.apply (shift.apply rule) = rule := by
  by_cases hcovers : shift.Covers rule
  · exact h.apply_apply hback hk hcovers
  · rw [PriorityShift.apply_of_not_covers hcovers]
    exact PriorityShift.apply_of_not_covers fun hin => hcovers (hvacant k rule hk hin)

/-- If the destination was vacant, the way back is planned: the priorities of the band were within
the bounds, and nothing outside the destination has one of them. -/
lemma exists_planShift_back (h : t.Shifted shift bounds t') (hback : back.Undoes shift)
    (hplan : ∃ updates, t.planShift shift.low shift.high shift.delta bounds = .ok updates)
    (hvacant : t.Vacant shift back)
    (hbounded : t.All fun rule => bounds.contains rule.priority = true) :
    ∃ updates, t'.planShift back.low back.high back.delta bounds = .ok updates := by
  have hbefore : ∀ k rule', t'.rule? k = some rule' → back.Covers rule' →
      ∃ rule, t.rule? k = some rule ∧ shift.Covers rule ∧
        (rule'.priority + back.delta : ℤ) = rule.priority := by
    intro k rule' hk hin
    rw [h.rule?_eq, Option.map_eq_some_iff] at hk
    obtain ⟨rule, hk, rfl⟩ := hk
    have hcovers : shift.Covers rule := by
      rcases (h.covers_iff hback hk).mp hin with hcovers | hin
      · exact hcovers
      · exact hvacant k rule hk hin
    refine ⟨rule, hk, hcovers, ?_⟩
    rw [h.priority_eq k rule hk hcovers, hback.delta_eq]
    omega
  refine exists_planShift_iff.mpr ⟨?_, ?_, ?_⟩
  · obtain ⟨hband, -⟩ := exists_planShift_iff.mp hplan
    obtain ⟨hlow, hhigh, -⟩ := hback
    omega
  · rintro ⟨k, rule', hk, hin, hleaves⟩
    obtain ⟨rule, hrule, -, hpriority⟩ := hbefore k rule' hk hin
    rw [hpriority, Int.toNat_natCast, hbounded k rule hrule] at hleaves
    rcases hleaves with hneg | hout
    · exact absurd hneg (Int.natCast_nonneg _).not_gt
    · cases hout
  · rintro ⟨i, j, a', b', ha, hb, hin, hout, hmeet⟩
    obtain ⟨a, -, hcovers, hpriority⟩ := hbefore i a' ha hin
    rw [h.rule?_eq, Option.map_eq_some_iff] at hb
    obtain ⟨b, hb, rfl⟩ := hb
    -- a rule outside the destination is none of the band, so its priority is its old one
    have hother : ¬shift.Covers b := fun hcov =>
      hout ((h.covers_iff hback hb).mpr (Or.inl hcov))
    rw [PriorityShift.apply_of_not_covers hother] at hmeet
    rw [PriorityShift.Covers] at hother hcovers
    omega

/-- If rules of the table are back where they were, then the destination was vacant. -/
lemma vacant_of_back (h : t.Shifted shift bounds t') (hback : back.Undoes shift)
    (hundone : t'.Shifted back bounds t) : t.Vacant shift back := by
  intro k rule hk hin
  by_contra hother
  have hk' : t'.rule? k = some rule := by
    rw [h.rule?_eq, hk, Option.map_some, PriorityShift.apply_of_not_covers hother]
  have hsame : back.apply rule = rule := by
    have hagain := hundone.rule?_eq k
    rw [hk, hk', Option.map_some] at hagain
    exact (Option.some.inj hagain).symm
  have hpriority := hundone.priority_eq k rule hk' hin
  -- a rule that is shifted and keeps its priority is shifted by nothing, so the bands are the same
  rw [hsame] at hpriority
  obtain ⟨hlow, hhigh, hdelta⟩ := hback
  rw [PriorityShift.Covers] at hin hother
  omega

end Shifted

end RuleTable

/-- Shifting back what the shift has left of a table gives the same rules and bits. -/
lemma Marks.shift_shift {m : Marks} {shift back : PriorityShift}
    (h : ∀ k rule, m.rule? k = some rule → back.apply (shift.apply rule) = rule) :
    (m.shift shift.low shift.high shift.delta).shift back.low back.high back.delta = m := by
  funext k
  rw [Marks.shift, Marks.shift, Option.map_map, shift.shift_eq_apply, back.shift_eq_apply]
  cases hk : m k with
  | none => rfl
  | some e =>
      obtain ⟨rule, bit⟩ := e
      have hrule : m.rule? k = some rule := by
        rw [Marks.rule?, hk]
        rfl
      exact congrArg (fun rule => some (rule, bit)) (h k rule hrule)

/-! ### Model and device -/

/-- To give a region the rules that it has changes nothing. -/
lemma Core.withTable_self {c : Core} {region : Handle .region} {r : Region}
    (hr : c.regions.regions.get? region = some r) : c.withTable region r.table = c := by
  have hregions : c.regions.setTable region r.table = c.regions := by
    rw [setTable_eq hr, Arena.set_self hr]
  rw [Core.withTable, hregions]

/-- A shift changes one table of the model, as planned. -/
lemma Core.Transition.eq_of_shift {c : Core} {region : Handle .region} {shift : PriorityShift}
    {done : Commit OpResult} (ht : Transition c (some (.rule (.shiftPriority region shift))) done)
    {r : Region} (hr : c.regions.regions.get? region = some r) :
    ∃ updates, r.table.planShift shift.low shift.high shift.delta c.config.rulePriority =
      .ok updates ∧ done.core = c.withTable region (r.table.setPriorities updates) := by
  cases ht with
  | observe reading => cases reading _ rfl
  | shiftPriority found planned =>
      obtain rfl := Option.some.inj (hr.symm.trans found)
      exact ⟨_, planned, rfl⟩
  | shiftNothing found planned =>
      obtain rfl := Option.some.inj (hr.symm.trans found)
      exact ⟨[], planned, (Core.withTable_self hr).symm⟩
  | deleteRules found asked =>
      rcases asked with heq | ⟨heq, -⟩
      · cases heq
      · cases heq
  | deleteNoRules found asked =>
      rcases asked with heq | ⟨heq, -⟩
      · cases heq
      · cases heq

namespace Controller

variable {s s' : Controller} {region : Handle .region} {r : Region} {shift back : PriorityShift}

/-- The priorities of all rules of a reachable model lie within the bounds. -/
lemma Reachable.bounded (h : Reachable s) :
    s.core.regions.regions.All (Region.Bounded s.core.config.rulePriority) := by
  obtain ⟨config, given, sink, fresh, steps, hfresh, -, rfl⟩ := h.exists_run
  rw [(configured_run hfresh steps).config_eq]
  exact bounded_run hfresh steps

/-- A shift is planned if its updates are; it calls the device if there are any. -/
lemma exists_plan_shift (hr : s.core.regions.regions.get? region = some r)
    {updates : List (ℕ × ℕ)} (hplan : r.table.planShift shift.low shift.high shift.delta
      s.core.config.rulePriority = .ok updates) :
    ∃ change, s.core.ruleChange (.shiftPriority region shift) = .ok change ∧
      (change.call = none ↔ updates = []) := by
  have hget : s.core.regions.get region = .ok r := Regions.get_eq_ok.mpr hr
  rw [Core.ruleChange, Core.shiftPriority, hget, ok_bind, hplan, ok_bind]
  cases updates with
  | nil => exact ⟨_, rfl, iff_of_true rfl rfl⟩
  | cons u updates => exact ⟨_, rfl, iff_of_false (Option.some_ne_none _) (List.cons_ne_nil _ _)⟩

/-- There is nothing to update if the band has no rules. -/
lemma updates_eq_nil_iff {t : RuleTable} {bounds : PriorityRange} {updates : List (ℕ × ℕ)}
    (hplan : t.planShift shift.low shift.high shift.delta bounds = .ok updates) :
    updates = [] ↔ ∀ k rule, t.rule? k = some rule → ¬shift.Covers rule := by
  rw [Marks.eq_of_planShift hplan, List.map_eq_nil_iff, List.filter_eq_nil_iff]
  simp only [Prod.forall, RuleTable.mem_occupied_iff, PriorityShift.covers_iff]

/-- When a shift succeeds. -/
theorem result_shift_iff (h : s.core.InStep s.device.tables)
    (hr : s.core.regions.regions.get? region = some r) :
    (s.execute (.rule (.shiftPriority region shift))).result = .ok .done ↔
      (∃ updates, r.table.planShift shift.low shift.high shift.delta
        s.core.config.rulePriority = .ok updates) ∧
        ((∀ k rule, r.table.rule? k = some rule → ¬shift.Covers rule) ∨
          s.Unarmed (.rule (.shiftPriority region shift))) := by
  cases hplan : r.table.planShift shift.low shift.high shift.delta s.core.config.rulePriority with
  | error e =>
      have hget : s.core.regions.get region = .ok r := Regions.get_eq_ok.mpr hr
      have hfails : s.core.ruleChange (.shiftPriority region shift) = .error e := by
        rw [Core.ruleChange, Core.shiftPriority, hget, ok_bind, hplan]
        rfl
      rw [execute_rule, hfails]
      constructor
      · intro hok
        cases hok
      · rintro ⟨⟨_, hok⟩, -⟩
        cases hok
  | ok updates =>
      obtain ⟨change, hchange, hcall⟩ := exists_plan_shift hr hplan
      rw [result_rule_iff h hchange, hcall, updates_eq_nil_iff hplan]
      exact (and_iff_right ⟨updates, rfl⟩).symm

/-- What a shift leaves behind in model and device. -/
lemma Ruled.shifted (h : Reachable s) (h' : Reachable s')
    (hruled : s.Ruled (.shiftPriority region shift) s')
    (hr : s.core.regions.regions.get? region = some r) :
    ∃ table, r.table.Shifted shift s.core.config.rulePriority table ∧
      s'.core = s.core.withTable region table ∧
      s'.core.regions.regions.get? region = some { r with table := table } ∧
      ∀ id k, s'.device.bit id k = s.device.bit id k := by
  obtain ⟨done, ht, hcore⟩ := hruled.transition
  obtain ⟨updates, hplan, hdone⟩ := ht.eq_of_shift hr
  have hafter := hcore.symm.trans hdone
  refine ⟨_, RuleTable.shifted_of_planShift hplan (h.bounded region r hr), hafter, ?_,
    fun id k => ?_⟩
  · rw [hafter]
    exact (Core.get?_setTable hr _ region).trans (if_pos rfl)
  · obtain ⟨marks, hmarks⟩ := h.exists_carries
    rw [bit_eq h'.inStep (hruled.carries marks hmarks), bit_eq h.inStep hmarks]
    by_cases hid : (RuleOp.shiftPriority region shift).region = id
    · rw [Operation.mark_rule hid, RuleOp.mark, Marks.bit, Marks.shift, Option.any_map]
      rfl
    · rw [Operation.mark_rule_of_ne hid]

/-- If the destination was vacant, the way back is made: if there are rules to shift, then no fault
is armed for the call that shifts them. -/
lemma Ruled.result_back (h : Reachable s) (h' : Reachable s')
    (hruled : s.Ruled (.shiftPriority region shift) s')
    (hr : s.core.regions.regions.get? region = some r) (hback : back.Undoes shift)
    (hvacant : r.table.Vacant shift back)
    (hok : (s.execute (.rule (.shiftPriority region shift))).result = .ok .done) :
    (s'.execute (.rule (.shiftPriority region back))).result = .ok .done := by
  obtain ⟨table, htable, hcore, hr', -⟩ := hruled.shifted h h' hr
  obtain ⟨hplan, hcalled⟩ := (result_shift_iff h.inStep hr).mp hok
  refine (result_shift_iff h'.inStep hr').mpr ⟨?_, ?_⟩
  · rw [hcore]
    exact htable.exists_planShift_back hback hplan hvacant (h.bounded region r hr)
  · rcases hcalled with hnone | hunarmed
    · refine Or.inl fun k rule' hk hin => ?_
      rw [htable.rule?_eq, Option.map_eq_some_iff] at hk
      obtain ⟨rule, hk, rfl⟩ := hk
      rcases (htable.covers_iff hback hk).mp hin with hcovers | hin
      · exact hnone k rule hk hcovers
      · exact hnone k rule hk (hvacant k rule hk hin)
    · exact Or.inr (hruled.unarmed hunarmed)

/-- A shift and the way back to a vacant destination leave model and tables as they were. -/
lemma Ruled.shift_back {s'' : Controller} (h : Reachable s) (h' : Reachable s')
    (h'' : Reachable s'') (hruled : s.Ruled (.shiftPriority region shift) s')
    (hreturned : s'.Ruled (.shiftPriority region back) s'')
    (hr : s.core.regions.regions.get? region = some r) (hback : back.Undoes shift)
    (hvacant : r.table.Vacant shift back) :
    s''.core = s.core ∧ s''.device.tables = s.device.tables := by
  have hstats : s''.core.stats = s.core.stats := by
    obtain ⟨_, -, hstats⟩ := hruled.stats_eq
    obtain ⟨_, -, hstats'⟩ := hreturned.stats_eq
    exact hstats'.trans hstats
  obtain ⟨table, htable, -⟩ := hruled.shifted h h' hr
  refine hruled.eq_of_undone h h'' hreturned rfl (fun marks hmarks => ?_) hstats
  refine Marks.shift_shift fun k rule hk => ?_
  have hstored : r.table.rule? k = some rule := (rule?_eq h.inStep hmarks hr k).trans hk
  exact htable.apply_apply_of_vacant hback hvacant hstored

/-- The two rules of the session. -/
def sessionRules : RuleTable :=
  ⟨#[none, some ⟨5, [], [.pbs ⟨0, 1⟩]⟩, some ⟨6, [], [.pbs ⟨0, 1⟩]⟩, none], 2⟩

lemma get?_session : (fresh.run session).core.regions.regions.get? ⟨0, 1⟩ =
    some ⟨⟨0, 1⟩, 1, 4, 4, sessionRules⟩ := by decide +kernel

/-- Take any reachable controller, a region, and any band and delta.  The shift is refused exactly
if the band is empty, some rule of it would leave the bounds or meet a rule outside the band, or
there are rules to shift and a fault is armed for it.  Otherwise rules stay in their slots with
everything but their priorities; those of the band have their priorities shifted by delta, so that
they compare among each other as before, meet no others and stay within the bounds, and no other
priority changes.  The table of the region is all that changes in the model, the images of the
device follow it, and no activity bit changes. -/
theorem shift_priority_keeps (h : Reachable s)
    (hr : s.core.regions.regions.get? region = some r) (shift : PriorityShift) :
    let shifting : Operation := .rule (.shiftPriority region shift)
    let shifted := (s.execute shifting).controller
    let bounds := s.core.config.rulePriority
    ((∃ e, (s.execute shifting).result = .error e) ↔
      shift.high < shift.low ∨ r.table.Leaves shift bounds ∨ r.table.Meets shift ∨
        ((∃ k rule, r.table.rule? k = some rule ∧ shift.Covers rule) ∧ ¬s.Unarmed shifting)) ∧
    ∀ answer, (s.execute shifting).result = .ok answer →
      ∃ table, r.table.Shifted shift bounds table ∧
        shifted.core = s.core.withTable region table ∧
        (∀ k, shifted.device.image? region k =
          (table.rule? k).map fun rule => rule.image k) ∧
        ∀ id k, shifted.device.bit id k = s.device.bit id k := by
  intro shifting shifted bounds
  constructor
  · rw [exists_error_iff, Ne, result_shift_iff h.inStep hr, RuleTable.exists_planShift_iff]
    have hcovers : (∃ k rule, r.table.rule? k = some rule ∧ shift.Covers rule) ↔
        ¬∀ k rule, r.table.rule? k = some rule → ¬shift.Covers rule := by
      push Not
      rfl
    rw [hcovers]
    tauto
  · intro answer hok
    have hshifted : Reachable shifted := h.rule trivial
    obtain ⟨table, htable, hcore, hr', hbits⟩ :=
      (ruled_of_ok h.inStep hok).shifted h hshifted hr
    exact ⟨table, htable, hcore, image?_eq hshifted.inStep hr', hbits⟩

/-- After the session the rule of priority 5 cannot be given the priority of its neighbour, but it
can be taken past it. -/
theorem shift_priority_past_neighbour :
    let s := fresh.run session
    let passing : Operation := .rule (.shiftPriority ⟨0, 1⟩ ⟨5, 5, 4⟩)
    let passed := (s.execute passing).controller
    (∃ e, (s.execute (.rule (.shiftPriority ⟨0, 1⟩ ⟨5, 5, 1⟩))).result = .error e) ∧
    (s.execute passing).result = .ok .done ∧
    (List.range 4).map (fun k => (passed.device.image? ⟨0, 1⟩ k).map RuleImage.priority) =
      [none, some 9, some 6, none] ∧
    (∃ table, passed.core = s.core.withTable ⟨0, 1⟩ table) ∧
      ∀ id k, passed.device.bit id k = s.device.bit id k := by
  intro s passing passed
  have hmeets : sessionRules.Meets ⟨5, 5, 1⟩ :=
    ⟨1, 2, _, _, rfl, rfl, by decide, by decide, by decide⟩
  have hok : (s.execute passing).result = .ok .done := by decide +kernel
  obtain ⟨hrefused, -⟩ := shift_priority_keeps reachable_session get?_session ⟨5, 5, 1⟩
  obtain ⟨-, hdone⟩ := shift_priority_keeps reachable_session get?_session ⟨5, 5, 4⟩
  obtain ⟨table, -, hcore, -, hbits⟩ := hdone .done hok
  exact ⟨hrefused.mpr (Or.inr (Or.inr (Or.inl hmeets))), hok, by decide +kernel,
    ⟨table, hcore⟩, hbits⟩

/-- Take any reachable controller, a region, and a shift that succeeds.  The rules in the
destination of the band are then those of the band and those that were there before, with no
priority in common.  Shifting back succeeds and restores the model and the tables of the device
exactly if no rule outside the band was there before. -/
theorem shift_back_iff (h : Reachable s) (hr : s.core.regions.regions.get? region = some r)
    (hback : back.Undoes shift)
    (hok : (s.execute (.rule (.shiftPriority region shift))).result = .ok .done) :
    let shifted := (s.execute (.rule (.shiftPriority region shift))).controller
    let returned := shifted.execute (.rule (.shiftPriority region back))
    (∃ table, shifted.core = s.core.withTable region table ∧
      ∀ k, table.rule? k = (r.table.rule? k).map shift.apply) ∧
    (∀ k rule, r.table.rule? k = some rule →
      (back.Covers (shift.apply rule) ↔ shift.Covers rule ∨ back.Covers rule)) ∧
    (∀ i j a b, r.table.rule? i = some a → r.table.rule? j = some b → shift.Covers a →
      ¬shift.Covers b → (shift.apply a).priority ≠ b.priority) ∧
    (r.table.Vacant shift back ↔
      returned.result = .ok .done ∧ returned.controller.core = s.core ∧
        returned.controller.device.tables = s.device.tables) := by
  intro shifted returned
  have hshifted : Reachable shifted := h.rule trivial
  have hreturned : Reachable returned.controller := hshifted.rule trivial
  have hruled : s.Ruled (.shiftPriority region shift) shifted := ruled_of_ok h.inStep hok
  obtain ⟨table, htable, hcore, hr', -⟩ := hruled.shifted h hshifted hr
  refine ⟨⟨table, hcore, htable.rule?_eq⟩, fun k rule => htable.covers_iff hback,
    fun i j a b ha hb hcovers hother => ?_, fun hvacant => ?_, fun hdone => ?_⟩
  · have hne := htable.ne i j a b ha hb hcovers hother
    rwa [PriorityShift.apply_of_not_covers hother] at hne
  · have hreturn : returned.result = .ok .done :=
      hruled.result_back h hshifted hr hback hvacant hok
    exact ⟨hreturn, hruled.shift_back h hshifted hreturned
      (ruled_of_ok hshifted.inStep hreturn) hr hback hvacant⟩
  · obtain ⟨hreturn, hsame, -⟩ := hdone
    have hagain : shifted.Ruled (.shiftPriority region back) returned.controller :=
      ruled_of_ok hshifted.inStep hreturn
    obtain ⟨table', htable', -, hr'', -⟩ := hagain.shifted hshifted hreturned hr'
    rw [hsame, hr] at hr''
    have hsametable : r.table = table' := congrArg Region.table (Option.some.inj hr'')
    rw [hcore, ← hsametable] at htable'
    exact htable.vacant_of_back hback htable'

/-- After the session both rules are shifted by one, so that the destination overlaps the band, and
back. -/
theorem shift_back_of_overlap :
    let s := fresh.run session
    let shifting : Operation := .rule (.shiftPriority ⟨0, 1⟩ ⟨5, 6, 1⟩)
    let shifted := (s.execute shifting).controller
    let returned := shifted.execute (.rule (.shiftPriority ⟨0, 1⟩ ⟨6, 7, -1⟩))
    (s.execute shifting).result = .ok .done ∧
    (List.range 4).map (fun k => (shifted.device.image? ⟨0, 1⟩ k).map RuleImage.priority) =
      [none, some 6, some 7, none] ∧
    returned.result = .ok .done ∧ returned.controller.core = s.core ∧
      returned.controller.device.tables = s.device.tables := by
  intro s shifting shifted returned
  have hback : PriorityShift.Undoes ⟨6, 7, -1⟩ ⟨5, 6, 1⟩ := ⟨by decide, by decide, by decide⟩
  have hband : ∀ e ∈ sessionRules.occupied, PriorityShift.Covers ⟨5, 6, 1⟩ e.2 := by decide
  have hvacant : sessionRules.Vacant ⟨5, 6, 1⟩ ⟨6, 7, -1⟩ := fun k rule hk _ =>
    hband (k, rule) (RuleTable.mem_occupied_iff.mpr hk)
  have hok : (s.execute shifting).result = .ok .done := by decide +kernel
  obtain ⟨-, -, -, hiff⟩ := shift_back_iff reachable_session get?_session hback hok
  exact ⟨hok, by decide +kernel, hiff.mp hvacant⟩

/-- Three rules, with a gap between the priorities of the first two. -/
def sparse : List Step :=
  [.operation (.keyType (.create [.dstIp] none)),
   .operation (.region (.create ⟨0, 1⟩ 4)),
   .operation (.rule (.set ⟨0, 1⟩ [0, 1, 2] [⟨1, [], []⟩, ⟨3, [], []⟩, ⟨12, [], []⟩]))]

/-- The first two rules are shifted around the third, which lies in the gap of their destination; on
the way back it is shifted with them. -/
theorem shift_priority_around_rule :
    let s := fresh.run sparse
    let shifting : Operation := .rule (.shiftPriority ⟨0, 1⟩ ⟨1, 3, 10⟩)
    let shifted := (s.execute shifting).controller
    let returned := shifted.execute (.rule (.shiftPriority ⟨0, 1⟩ ⟨11, 13, -10⟩))
    let priorities := fun now : Controller =>
      (List.range 4).map fun k => (now.device.image? ⟨0, 1⟩ k).map RuleImage.priority
    Reachable s ∧ s.Unarmed shifting ∧ (s.execute shifting).result = .ok .done ∧
    priorities s = [some 1, some 3, some 12, none] ∧
    priorities shifted = [some 11, some 13, some 12, none] ∧
    returned.result = .ok .done ∧
    priorities returned.controller = [some 1, some 3, some 2, none] ∧
    returned.controller.core ≠ s.core ∧
      returned.controller.device.tables ≠ s.device.tables := by
  intro s shifting shifted returned priorities
  have hs : Reachable s := (Reachable.start start_fresh).run (by decide +kernel)
  exact ⟨hs, by decide +kernel, by decide +kernel, by decide +kernel, by decide +kernel,
    by decide +kernel, by decide +kernel, by decide +kernel, by decide +kernel⟩

end Controller

end AclPlane
