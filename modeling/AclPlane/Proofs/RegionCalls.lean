import AclPlane.Proofs.Landing.Rules

/-!
What an accepted call makes of the tables of the device.

* `DeviceCall.target?`: the region that a call is about, and `DeviceCall.effect`: what it does
  there.
* `DeviceTables.Effected`: the call has this effect on its region and none elsewhere;
  `DeviceTables.effected_of_apply`: this is all that an accepted call does.
* `DeviceTables.get?_of_apply`, `DeviceTables.eq_of_isOnRegion`: what follows for the regions and
  for the other tables.
* `DeviceCall.effect_keeps`: what neither the rules nor the bits of a region tell stays, unless the
  call creates or resizes the region.
-/

namespace AclPlane

namespace DeviceCall

/-- The region that a call is about. -/
def target? : DeviceCall → Option (Handle .region)
  | createRegion region _ _ => some region
  | resizeRegion region _ => some region
  | destroyRegion region => some region
  | writeRules region _ => some region
  | clearRules region _ => some region
  | moveRules region _ _ _ => some region
  | setRulePriorities region _ => some region
  | readActivity region _ _ => some region
  | _ => none

/-- Whether a call is on a region or its rules. -/
def isOnRegion (call : DeviceCall) : Bool := call.target?.isSome

/-- What a call makes of the region that it is about. -/
def effect : DeviceCall → Option DeviceRegion → Option DeviceRegion
  | createRegion _ keyBlocks hwSize, _ => some ⟨keyBlocks, hwSize, .empty, .empty⟩
  | destroyRegion _, _ => none
  | resizeRegion _ hwSize, some d => some { d with hwSize := hwSize }
  | writeRules _ images, some d => some (images.foldl DeviceRegion.write d)
  | clearRules _ offsets, some d => some (offsets.foldl DeviceRegion.clear d)
  | moveRules _ src size dst, some d => some (d.moveBlock src size dst)
  | setRulePriorities _ updates, some d => some (updates.foldl DeviceRegion.setPriority d)
  | readActivity _ offset true, some d => some (d.clearHit offset)
  | _, old => old

end DeviceCall

namespace DeviceTables

variable {t t' : DeviceTables} {call : DeviceCall} {bit : Bool} {id region : Handle .region}
  {d d' : DeviceRegion}

lemma region_eq_ok : t.region id = .ok d ↔ t.regions.get? id = some d := by
  rw [DeviceTables.region]
  cases t.regions.get? id with
  | none => simp
  | some d' => simp

lemma get?_setRegion (t : DeviceTables) (region id : Handle .region) (d : DeviceRegion) :
    (t.setRegion region d).regions.get? id = if id = region then some d else t.regions.get? id := by
  rw [setRegion, OrderedMap.get?_insert]

/-- What an accepted call makes of the tables. -/
structure Effected (call : DeviceCall) (t t' : DeviceTables) : Prop where
  /-- The call has its effect on the region that it is about, and none on the others. -/
  regions (id : Handle .region) : t'.regions.get? id =
    if call.target? = some id then call.effect (t.regions.get? id) else t.regions.get? id
  /-- Only a creation is about a region that is not there. -/
  found (id : Handle .region) (htarget : call.target? = some id) :
    t.regions.get? id = none ↔ call.op = .createRegion
  /-- A call on a region leaves the other tables alone. -/
  others (hcall : call.isOnRegion = true) : ∃ regions, t' = { t with regions := regions }

lemma effected_of_target {regions : OrderedMap (Handle .region) DeviceRegion}
    (htarget : call.target? = some region)
    (hfound : t.regions.get? region = none ↔ call.op = .createRegion)
    (hregions : ∀ id, regions.get? id =
      if id = region then call.effect (t.regions.get? region) else t.regions.get? id) :
    Effected call t { t with regions := regions } := by
  refine ⟨fun id => ?_, fun id hid => ?_, fun _ => ⟨regions, rfl⟩⟩
  · rw [hregions, htarget]
    by_cases hid : id = region
    · rw [if_pos hid, if_pos (congrArg some hid.symm), hid]
    · rw [if_neg hid, if_neg fun heq => hid (Option.some.inj heq).symm]
  · obtain rfl := Option.some.inj (htarget.symm.trans hid)
    exact hfound

/-- The calls on a region that is there replace it. -/
lemma effected_setRegion (htarget : call.target? = some region)
    (hd : t.regions.get? region = some d) (hop : call.op ≠ .createRegion)
    (heffect : call.effect (some d) = some d') : Effected call t (t.setRegion region d') := by
  refine effected_of_target htarget (iff_of_false ?_ hop) fun id => ?_
  · rw [hd]
    exact Option.some_ne_none d
  · rw [OrderedMap.get?_insert, hd, heffect]

/-- The calls that are on no region leave all of them alone. -/
lemma effected_of_regions_eq (htarget : call.target? = none) (h : t'.regions = t.regions) :
    Effected call t t' := by
  have hnot : ∀ id, call.target? ≠ some id := fun id => htarget ▸ (Option.some_ne_none id).symm
  refine ⟨fun id => ?_, fun id hid => absurd hid (hnot id), fun hcall => ?_⟩
  · rw [h, if_neg (hnot id)]
  · rw [DeviceCall.isOnRegion, htarget] at hcall
    cases hcall

/-- The device keeps the contents of a region that it resizes. -/
lemma exists_of_apply_resizeRegion {hwSize : ℕ}
    (h : t.apply (.resizeRegion region hwSize) = .ok (t', bit)) :
    ∃ d, t.regions.get? region = some d ∧ t' = t.setRegion region { d with hwSize := hwSize } := by
  simp only [apply, bind_eq_ok, region_eq_ok] at h
  obtain ⟨d, hd, h⟩ := h
  refine ⟨d, hd, ?_⟩
  split at h
  · split at h
    · cases h
    · cases h
      rfl
  · cases h
    rfl

/-- This is all that an accepted call does. -/
theorem effected_of_apply (h : t.apply call = .ok (t', bit)) : Effected call t t' := by
  cases call with
  | createRegion region keyBlocks hwSize =>
      simp only [apply] at h
      split at h
      · cases h
      · next hnew =>
          cases h
          refine effected_of_target rfl (iff_of_true ?_ rfl) fun id => OrderedMap.get?_insert ..
          simpa [OrderedMap.contains] using hnew
  | resizeRegion region hwSize =>
      obtain ⟨d, hd, rfl⟩ := exists_of_apply_resizeRegion h
      exact effected_setRegion rfl hd (by simp [DeviceCall.op]) rfl
  | destroyRegion region =>
      simp only [apply, bind_eq_ok, region_eq_ok, pure_eq_ok, Prod.mk.injEq] at h
      obtain ⟨d, hd, rfl, -⟩ := h
      refine effected_of_target rfl (iff_of_false ?_ (by simp [DeviceCall.op])) fun id =>
        OrderedMap.get?_erase _ _ _
      rw [hd]
      exact Option.some_ne_none d
  | writeRules region images =>
      simp only [apply, bind_eq_ok, region_eq_ok, pure_eq_ok, Prod.mk.injEq] at h
      obtain ⟨d, hd, _, -, rfl, -⟩ := h
      exact effected_setRegion rfl hd (by simp [DeviceCall.op]) rfl
  | clearRules region offsets =>
      simp only [apply, bind_eq_ok, region_eq_ok, pure_eq_ok, Prod.mk.injEq] at h
      obtain ⟨d, hd, rfl, -⟩ := h
      exact effected_setRegion rfl hd (by simp [DeviceCall.op]) rfl
  | moveRules region src size dst =>
      simp only [apply, moveRules, bind_eq_ok, region_eq_ok, guard_eq_ok, pure_eq_ok,
        Prod.mk.injEq] at h
      obtain ⟨_, ⟨d, hd, -, rfl⟩, rfl, -⟩ := h
      exact effected_setRegion rfl hd (by simp [DeviceCall.op]) rfl
  | setRulePriorities region updates =>
      simp only [apply, setRulePriorities, bind_eq_ok, region_eq_ok, guard_eq_ok, pure_eq_ok,
        Prod.mk.injEq] at h
      obtain ⟨_, ⟨d, hd, -, rfl⟩, rfl, -⟩ := h
      exact effected_setRegion rfl hd (by simp [DeviceCall.op]) rfl
  | readActivity region offset clear =>
      simp only [apply, readActivity, bind_eq_ok, region_eq_ok, pure_eq_ok, Prod.mk.injEq] at h
      obtain ⟨d, hd, _, -, rfl, -⟩ := h
      cases clear with
      | true => exact effected_setRegion rfl hd (by simp [DeviceCall.op]) rfl
      | false =>
          refine effected_of_target rfl (iff_of_false ?_ (by simp [DeviceCall.op])) fun id => ?_
          · rw [hd]
            exact Option.some_ne_none d
          · split
            · next heq => exact congrArg t.regions.get? heq
            · rfl
  | programAcl acl regions =>
      simp only [apply] at h
      split at h
      · cases h
      · cases h
        exact effected_of_regions_eq rfl rfl
  | removeAcl acl =>
      simp only [apply] at h
      split at h
      · cases h
        exact effected_of_regions_eq rfl rfl
      · cases h
  | programGroup group acls next =>
      cases h
      exact effected_of_regions_eq rfl rfl
  | removeGroup group =>
      simp only [apply] at h
      split at h
      · cases h
        exact effected_of_regions_eq rfl rfl
      · cases h
  | programBinding key targets =>
      cases h
      exact effected_of_regions_eq rfl rfl

/-- An accepted call has its effect on its region and none elsewhere. -/
lemma get?_of_apply (h : t.apply call = .ok (t', bit)) (id : Handle .region) :
    t'.regions.get? id =
      if call.target? = some id then call.effect (t.regions.get? id) else t.regions.get? id :=
  (effected_of_apply h).regions id

lemma get?_of_apply_target (h : t.apply call = .ok (t', bit))
    (htarget : call.target? = some id) : t'.regions.get? id = call.effect (t.regions.get? id) := by
  rw [get?_of_apply h, if_pos htarget]

lemma get?_of_apply_some (h : t.apply call = .ok (t', bit))
    (htarget : call.target? = some region)
    (heffect : call.effect (t.regions.get? region) = some d') (id : Handle .region) :
    t'.regions.get? id = if id = region then some d' else t.regions.get? id := by
  rw [get?_of_apply h, htarget]
  by_cases hid : id = region
  · rw [if_pos hid, if_pos (congrArg some hid.symm), hid, heffect]
  · rw [if_neg hid, if_neg fun heq => hid (Option.some.inj heq).symm]

lemma get?_of_apply_of_ne (h : t.apply call = .ok (t', bit))
    (htarget : call.target? ≠ some id) : t'.regions.get? id = t.regions.get? id := by
  rw [get?_of_apply h, if_neg htarget]

/-- A call on a region leaves the other tables alone. -/
lemma eq_of_isOnRegion (hcall : call.isOnRegion = true) (h : t.apply call = .ok (t', bit)) :
    ∃ regions, t' = { t with regions := regions } :=
  (effected_of_apply h).others hcall

end DeviceTables

/-! ### What effects keep -/

namespace DeviceCall

variable {call : DeviceCall} {d d' : DeviceRegion}

/-- Only a creation makes a region of nothing. -/
lemma effect_none (hcreate : call.op ≠ .createRegion) : call.effect none = none := by
  cases call with
  | createRegion => exact absurd rfl hcreate
  | readActivity region offset clear => cases clear <;> rfl
  | _ => rfl

/-- The effect on a region changes its rules and bits, and the hardware size if it is resized. -/
lemma effect_keeps {γ : Type} {g : DeviceRegion → γ}
    (hg : ∀ (d : DeviceRegion) rules hits, g { d with rules := rules, hits := hits } = g d)
    (hresize : call.op = .resizeRegion →
      ∀ (d : DeviceRegion) hwSize, g { d with hwSize := hwSize } = g d)
    (hcreate : call.op ≠ .createRegion) (h : call.effect (some d) = some d') : g d' = g d := by
  cases call with
  | createRegion => exact absurd rfl hcreate
  | resizeRegion region hwSize =>
      cases h
      exact hresize rfl d hwSize
  | destroyRegion => cases h
  | writeRules =>
      cases h
      exact Core.foldl_keeps DeviceRegion.write g (fun d _ => hg d _ _) _ _
  | clearRules =>
      cases h
      exact Core.foldl_keeps DeviceRegion.clear g (fun d _ => hg d _ _) _ _
  | moveRules =>
      cases h
      exact Core.moveBlock_keeps g (fun d _ => hg d _ _) (fun d _ => hg d _ _) _ _ _ _
  | setRulePriorities =>
      cases h
      exact Core.foldl_keeps DeviceRegion.setPriority g (fun d _ => hg d _ _) _ _
  | readActivity region offset clear =>
      cases clear <;> cases h
      · rfl
      · exact hg d _ _
  | _ =>
      cases h
      rfl

/-- No call but the creation and the resize of a region changes a hardware size. -/
lemma hwSize_effect (hcreate : call.op ≠ .createRegion) (hresize : call.op ≠ .resizeRegion)
    (h : call.effect (some d) = some d') : d'.hwSize = d.hwSize :=
  effect_keeps (fun _ _ _ => rfl) (fun hop => absurd hop hresize) hcreate h

/-- No call but the creation of a region gives it blocks. -/
lemma keyBlocks_effect (hcreate : call.op ≠ .createRegion)
    (h : call.effect (some d) = some d') : d'.keyBlocks = d.keyBlocks :=
  effect_keeps (fun _ _ _ => rfl) (fun _ _ _ => rfl) hcreate h

end DeviceCall

end AclPlane
