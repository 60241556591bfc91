import AclPlane.Proofs.Marks

/-!
Marked rules under the plans of the model.

* `Operation.mark`: what an operation makes of the rules of a region and of their bits.
* `Core.Carries`: the marks of all regions have the rules of the model and the bits of the device.
* `Carries.setRules` and so on: a change of the model that is carried out in the device is one of
  the marks, as the operation says.
-/

namespace AclPlane

/-! ### What steps do to the rules and their bits -/

namespace RuleOp

/-- The region that an operation on rules is about. -/
def region : RuleOp → Handle .region
  | set region _ _ => region
  | delete region _ => region
  | deleteAll region => region
  | move region _ => region
  | shiftPriority region _ => region

/-- What becomes of the rules of the region. -/
def mark : RuleOp → Marks → Marks
  | set _ offsets rules, m => m.store (offsets.zip rules)
  | delete _ offsets, m => m.drop offsets
  | deleteAll _, _ => .none
  | move _ block, m => m.relocate block.src block.size block.dst
  | shiftPriority _ shift, m => m.shift shift.low shift.high shift.delta

end RuleOp

/-- What a successful operation makes of the rules of a region and of their bits. -/
def Operation.mark (id : Handle .region) : Operation → Marks → Marks
  | rule op, m => if op.region = id then op.mark m else m
  | region (.destroy target), m => if target = id then .none else m
  | activity (.readClear target offsets), m =>
    if target = id then m.afterReading true offsets else m
  | _, m => m

namespace Core

variable {c c' : Core} {t t' : DeviceTables} {marks marks' : Handle .region → Marks}
  {region : Handle .region} {r r' : Region} {d d' : DeviceRegion}

/-- What a map has at a handle may be put there once more. -/
lemma eq_ite_of_eq {α : Type} {f : Handle .region → α} {x : α} (h : f region = x)
    (id : Handle .region) : f id = if id = region then x else f id := by
  split
  · next hid => rw [hid, h]
  · rfl

/-! ### Model, device and marks -/

/-- The marks have the rules of the model and the bits of the device. -/
structure Carries (c : Core) (t : DeviceTables) (marks : Handle .region → Marks) : Prop where
  live : ∀ id r d, c.regions.regions.get? id = some r → t.regions.get? id = some d →
    (marks id).Fit r.table d
  gone : ∀ id, c.regions.regions.get? id = none → marks id = .none

lemma Carries.congr (h : c.Carries t marks)
    (hc : ∀ id, c'.regions.regions.get? id = c.regions.regions.get? id)
    (ht : ∀ id, t'.regions.get? id = t.regions.get? id) : c'.Carries t' marks := by
  constructor
  · intro id r d hr hd
    rw [hc] at hr
    rw [ht] at hd
    exact h.live id r d hr hd
  · intro id hnone
    rw [hc] at hnone
    exact h.gone id hnone

/-- One region changes, with its image and its marks. -/
lemma Carries.change (h : c.Carries t marks)
    (hc : ∀ id, c'.regions.regions.get? id =
      if id = region then some r' else c.regions.regions.get? id)
    (ht : ∀ id, t'.regions.get? id = if id = region then some d' else t.regions.get? id)
    (hm : ∀ id, id ≠ region → marks' id = marks id) (hfit : (marks' region).Fit r'.table d') :
    c'.Carries t' marks' := by
  constructor
  · intro id r d hr hd
    rw [hc] at hr
    rw [ht] at hd
    by_cases hid : id = region
    · subst hid
      rw [if_pos rfl] at hr hd
      cases hr
      cases hd
      exact hfit
    · rw [if_neg hid] at hr hd
      rw [hm id hid]
      exact h.live id r d hr hd
  · intro id hnone
    rw [hc] at hnone
    by_cases hid : id = region
    · rw [if_pos hid] at hnone
      cases hnone
    · rw [if_neg hid] at hnone
      rw [hm id hid]
      exact h.gone id hnone

/-- One region goes, and its marks with it. -/
lemma Carries.remove (h : c.Carries t marks)
    (hc : ∀ id, c'.regions.regions.get? id =
      if id = region then none else c.regions.regions.get? id)
    (ht : ∀ id, id ≠ region → t'.regions.get? id = t.regions.get? id)
    (hm : ∀ id, id ≠ region → marks' id = marks id) (hnone : marks' region = .none) :
    c'.Carries t' marks' := by
  constructor
  · intro id r d hr hd
    rw [hc] at hr
    by_cases hid : id = region
    · rw [if_pos hid] at hr
      cases hr
    · rw [if_neg hid] at hr
      rw [ht id hid] at hd
      rw [hm id hid]
      exact h.live id r d hr hd
  · intro id hgone
    rw [hc] at hgone
    by_cases hid : id = region
    · rw [hid, hnone]
    · rw [if_neg hid] at hgone
      rw [hm id hid]
      exact h.gone id hgone

/-! ### Operations on rules -/

lemma get?_setTable (hr : c.regions.regions.get? region = some r) (table : RuleTable)
    (id : Handle .region) : (c.regions.setTable region table).regions.get? id =
      if id = region then some { r with table := table } else c.regions.regions.get? id := by
  rw [setTable_eq hr]
  exact Arena.get?_set hr

/-- The rules of a region change in the model by a table and in the device by a call. -/
lemma Carries.setTable (h : c.Carries t marks) (hr : c.regions.regions.get? region = some r)
    (hd : t.regions.get? region = some d) {table : RuleTable} {call : DeviceCall} {bit : Bool}
    {op : RuleOp} (hop : op.region = region)
    (hc : c'.regions = c.regions.setTable region table) (happly : t.apply call = .ok (t', bit))
    (htarget : call.target? = some region) (heffect : call.effect (some d) = some d')
    (hfit : (op.mark (marks region)).Fit table d') :
    c'.Carries t' fun id => (Operation.rule op).mark id (marks id) := by
  have hmodel : ∀ id, c'.regions.regions.get? id =
      if id = region then some { r with table := table } else c.regions.regions.get? id := by
    intro id
    rw [hc]
    exact get?_setTable hr table id
  have himage : call.effect (t.regions.get? region) = some d' := by rw [hd, heffect]
  refine h.change hmodel (DeviceTables.get?_of_apply_some happly htarget himage) ?_ ?_
  · intro id hid
    exact if_neg fun heq : op.region = id => hid (heq.symm.trans hop)
  · rw [Operation.mark, if_pos hop]
    exact hfit

/-- Where nothing is done, the rules must fit as they are. -/
lemma Carries.quiet (h : c.Carries t marks) (hr : c.regions.regions.get? region = some r)
    (hd : t.regions.get? region = some d) {op : RuleOp} (hop : op.region = region)
    (hfit : (op.mark (marks region)).Fit r.table d) :
    c.Carries t fun id => (Operation.rule op).mark id (marks id) := by
  refine h.change (eq_ite_of_eq hr) (eq_ite_of_eq hd) ?_ ?_
  · intro id hid
    exact if_neg fun heq : op.region = id => hid (heq.symm.trans hop)
  · rw [Operation.mark, if_pos hop]
    exact hfit

variable {change : Change Unit} {done : Commit Unit}

lemma Carries.setRules (h : c.Carries t marks) (hstep : c.InStep t) {offsets : List ℕ}
    {rules : List Rule} (hp : c.setRules region offsets rules = .ok change)
    (hdone : change.commit = .ok done) (ht : change.tables t = .ok t') :
    done.core.Carries t' fun id =>
      (Operation.rule (.set region offsets rules)).mark id (marks id) := by
  simp only [Core.setRules, bind_eq_ok, guard_eq_ok, Regions.get_eq_ok] at hp
  obtain ⟨r, hr, -, -, kt, -, _, -, _, -, hp⟩ := hp
  obtain ⟨d, hd, -⟩ := hstep.mirrors.exists_region hr
  have hfit := h.live region r d hr hd
  split at hp
  · next hempty =>
      cases hp
      cases hdone
      cases ht
      refine h.quiet hr hd rfl ?_
      rw [RuleOp.mark, List.isEmpty_iff.mp hempty, List.zip_nil_right]
      exact hfit
  · cases hp
    simp only [bind_eq_ok, pure_eq_ok, Regions.get_eq_ok] at hdone
    obtain ⟨_, -, r', hr', ⟨replaced, table⟩, hset, pools, -, rfl⟩ := hdone
    obtain rfl := Option.some.inj (hr.symm.trans hr')
    obtain ⟨⟨t', bit⟩, happly, rfl⟩ := map_eq_ok.mp ht
    exact h.setTable hr hd rfl rfl happly rfl rfl (hfit.store hset)

lemma Carries.deleteRules (h : c.Carries t marks) (hstep : c.InStep t) {offsets : List ℕ}
    {op : RuleOp} (hop : op.region = region)
    (hmark : ∀ r d, c.regions.regions.get? region = some r → t.regions.get? region = some d →
      op.mark (marks region) = (marks region).drop offsets)
    (hp : c.deleteRules region offsets = .ok change)
    (hdone : change.commit = .ok done) (ht : change.tables t = .ok t') :
    done.core.Carries t' fun id => (Operation.rule op).mark id (marks id) := by
  simp only [Core.deleteRules, bind_eq_ok, Regions.get_eq_ok] at hp
  obtain ⟨r, hr, occupied, hoccupied, hp⟩ := hp
  obtain ⟨d, hd, -⟩ := hstep.mirrors.exists_region hr
  have hfit := h.live region r d hr hd
  split at hp
  · next hempty =>
      cases hp
      cases hdone
      cases ht
      refine h.quiet hr hd hop ?_
      rw [hmark r d hr hd, ← hfit.drop_occupied hoccupied, List.isEmpty_iff.mp hempty]
      exact hfit
  · cases hp
    simp only [bind_eq_ok, pure_eq_ok, Regions.get_eq_ok] at hdone
    obtain ⟨r', hr', ⟨cleared, table⟩, hclear, pools, -, rfl⟩ := hdone
    obtain rfl := Option.some.inj (hr.symm.trans hr')
    obtain ⟨⟨t', bit⟩, happly, rfl⟩ := map_eq_ok.mp ht
    refine h.setTable hr hd hop rfl happly rfl rfl ?_
    rw [hmark r d hr hd, ← hfit.drop_occupied hoccupied]
    exact hfit.drop hclear

lemma Carries.deleteAllRules (h : c.Carries t marks) (hstep : c.InStep t)
    (hp : c.deleteAllRules region = .ok change) (hdone : change.commit = .ok done)
    (ht : change.tables t = .ok t') :
    done.core.Carries t' fun id => (Operation.rule (.deleteAll region)).mark id (marks id) := by
  simp only [Core.deleteAllRules, bind_eq_ok, Regions.get_eq_ok] at hp
  obtain ⟨r, hr, hp⟩ := hp
  refine h.deleteRules hstep rfl (fun r' d hr' hd => ?_) hp hdone ht
  obtain rfl := Option.some.inj (hr.symm.trans hr')
  exact (h.live region r d hr hd).drop_all.symm

lemma Carries.moveBlock (h : c.Carries t marks) (hstep : c.InStep t) {block : BlockMove}
    (hp : c.moveBlock region block.src block.size block.dst = .ok change)
    (hdone : change.commit = .ok done) (ht : change.tables t = .ok t') :
    done.core.Carries t' fun id => (Operation.rule (.move region block)).mark id (marks id) := by
  simp only [Core.moveBlock, bind_eq_ok, Regions.get_eq_ok, pure_eq_ok] at hp
  obtain ⟨r, hr, _, -, rfl⟩ := hp
  obtain ⟨d, hd, hm⟩ := hstep.mirrors.exists_region hr
  simp only [bind_eq_ok, pure_eq_ok, Regions.get_eq_ok] at hdone
  obtain ⟨r', hr', table, hmove, rfl⟩ := hdone
  obtain rfl := Option.some.inj (hr.symm.trans hr')
  obtain ⟨⟨t', bit⟩, happly, rfl⟩ := map_eq_ok.mp ht
  exact h.setTable hr hd rfl rfl happly rfl rfl ((h.live region r d hr hd).relocate hm.rules hmove)

lemma Carries.shiftPriority (h : c.Carries t marks) (hstep : c.InStep t) {shift : PriorityShift}
    (hp : c.shiftPriority region shift.low shift.high shift.delta = .ok change)
    (hdone : change.commit = .ok done) (ht : change.tables t = .ok t') :
    done.core.Carries t' fun id =>
      (Operation.rule (.shiftPriority region shift)).mark id (marks id) := by
  simp only [Core.shiftPriority, bind_eq_ok, Regions.get_eq_ok] at hp
  obtain ⟨r, hr, updates, hplan, hp⟩ := hp
  obtain ⟨d, hd, -⟩ := hstep.mirrors.exists_region hr
  have hfit := (h.live region r d hr hd).shift hplan
  split at hp
  · next hempty =>
      cases hp
      cases hdone
      cases ht
      rw [List.isEmpty_iff.mp hempty] at hfit
      exact h.quiet hr hd rfl hfit
  · cases hp
    simp only [bind_eq_ok, pure_eq_ok, Regions.get_eq_ok] at hdone
    obtain ⟨r', hr', rfl⟩ := hdone
    obtain rfl := Option.some.inj (hr.symm.trans hr')
    obtain ⟨⟨t', bit⟩, happly, rfl⟩ := map_eq_ok.mp ht
    exact h.setTable hr hd rfl rfl happly rfl rfl hfit

/-! ### Operations on regions -/

/-- A new region has no rules. -/
lemma Carries.createRegion (h : c.Carries t marks) (hs : c.Sound) {keyType : Handle .keyType}
    {capacity : ℕ} {change : Change (Handle .region)} {done : Commit (Handle .region)}
    (hp : c.createRegion keyType capacity = .ok change) (hdone : change.commit = .ok done)
    (ht : change.tables t = .ok t') : done.core.Carries t' marks := by
  obtain ⟨ct, new, hwSize, regions, keyTypes, -, -, hins, -, rfl⟩ := createRegion_eq_ok hp
  cases hdone
  obtain ⟨⟨t', bit⟩, happly, rfl⟩ := map_eq_ok.mp ht
  have hfresh := Arena.get?_of_nextHandle? hs.regions (Arena.nextHandle?_of_insertWith? hins)
  refine h.change (Arena.get?_insertWith? hs.regions hins)
    (DeviceTables.get?_of_apply_some happly rfl rfl) (fun _ _ => rfl) ?_
  rw [h.gone new hfresh]
  exact Marks.fit_none capacity _ _

/-- Every rule keeps its offset in a resize. -/
lemma Carries.resizeRegion (h : c.Carries t marks) (hstep : c.InStep t) {capacity : ℕ}
    {change : Change ℕ} {done : Commit ℕ} (hp : c.resizeRegion region capacity = .ok change)
    (hdone : change.commit = .ok done) (ht : change.tables t = .ok t') :
    done.core.Carries t' marks := by
  simp only [Core.resizeRegion, bind_eq_ok, pure_eq_ok] at hp
  obtain ⟨hwSize, -, rfl⟩ := hp
  simp only [bind_eq_ok, pure_eq_ok] at hdone
  obtain ⟨regions, hresize, rfl⟩ := hdone
  obtain ⟨r, table, hr, htable, rfl⟩ := Regions.resize_eq_ok.mp hresize
  obtain ⟨d, hd, -⟩ := hstep.mirrors.exists_region hr
  obtain ⟨⟨t', bit⟩, happly, rfl⟩ := map_eq_ok.mp ht
  have heffect : (DeviceCall.resizeRegion region hwSize).effect (t.regions.get? region) =
      some { d with hwSize := hwSize } := by
    rw [hd]
    rfl
  exact h.change (fun id => Arena.get?_set hr) (DeviceTables.get?_of_apply_some happly rfl heffect)
    (fun _ _ => rfl) ((h.live region r d hr hd).resize htable)

/-- The rules of a region go with it. -/
lemma Carries.destroyRegion (h : c.Carries t marks) (hp : c.destroyRegion region = .ok change)
    (hdone : change.commit = .ok done) (ht : change.tables t = .ok t') :
    done.core.Carries t' fun id =>
      (Operation.region (.destroy region)).mark id (marks id) := by
  simp only [Core.destroyRegion, bind_eq_ok] at hp
  obtain ⟨_, -, hp⟩ := hp
  split at hp
  · cases hp
  cases hp
  simp only [bind_eq_ok, pure_eq_ok] at hdone
  obtain ⟨⟨r, regions⟩, hdestroy, _, -, _, -, rfl⟩ := hdone
  obtain ⟨⟨t', bit⟩, happly, rfl⟩ := map_eq_ok.mp ht
  rw [Regions.destroy] at hdestroy
  split at hdestroy
  · next hrem =>
      cases hdestroy
      have himage : ∀ id, id ≠ region → t'.regions.get? id = t.regions.get? id := fun id hid =>
        DeviceTables.get?_of_apply_of_ne happly fun heq => hid (Option.some.inj heq).symm
      exact h.remove (Arena.get?_remove? hrem) himage (fun id hid => if_neg fun heq => hid heq.symm)
        (if_pos rfl)
  · cases hdestroy

/-! ### Operations on anything else -/

/-- Only operations on regions and on rules change the regions of the model. -/
lemma Transition.regions_eq {op : Option Operation} {done : Commit OpResult}
    (ht : Transition c op done) (hregion : ∀ o, op ≠ some (.region o))
    (hrule : ∀ o, op ≠ some (.rule o)) : done.core.regions = c.regions := by
  cases ht with
  | createRegion => exact absurd rfl (hregion _)
  | resizeRegion => exact absurd rfl (hregion _)
  | destroyRegion => exact absurd rfl (hregion _)
  | setRules => exact absurd rfl (hrule _)
  | deleteRules => exact absurd rfl (hrule _)
  | moveBlock => exact absurd rfl (hrule _)
  | shiftPriority => exact absurd rfl (hrule _)
  | _ => rfl

/-- The device finds room for the rules of a model that it mirrors. -/
lemma InStep.spans (h : c.InStep t) : c.Spans t := by
  intro id r d hr hd
  obtain ⟨d', hd', hm⟩ := h.mirrors.exists_region hr
  obtain rfl := Option.some.inj (hd.symm.trans hd')
  rw [hm.hwSize]
  exact h.sound.capacity_le id r hr

end Core

end AclPlane
