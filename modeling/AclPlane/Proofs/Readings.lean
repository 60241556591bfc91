import AclPlane.Proofs.FirstOccurrences
import AclPlane.Proofs.Spans

/-!
Readings of several activity bits.

The device reads one bit at a time, and an offset that is asked for twice has been cleared by the
first time.

* `DeviceRegion.readings`: the bits that are read one after another.
* `DeviceRegion.turned`: the offsets whose bits a clearing read turns, in the order of the request.
* `Controller.readBits_eq`: where all offsets lie in the region, they are read and reported so.
* `Controller.readBits_spec`, `Controller.readActivity_spec`: a reading reads all of its bits or
  fails before it has read any.
-/

namespace AclPlane

namespace DeviceRegion

variable {d : DeviceRegion} {offset k : ℕ} {offsets : List ℕ} {clear : Bool}

/-! ### Bits of a region -/

lemma isHit_clearHit (d : DeviceRegion) (offset k : ℕ) :
    (d.clearHit offset).isHit k = (d.isHit k && k != offset) := by
  by_cases hk : k = offset
  · subst hk
    rw [isHit, clearHit, OrderedSet.has, OrderedMap.contains, OrderedMap.get?_erase_self]
    simp
  · have hne : (k != offset) = true := bne_iff_ne.mpr hk
    rw [hne, Bool.and_true]
    exact has_erase_of_ne hk

/-- The region after a reading of several bits. -/
def afterReading (clear : Bool) (offsets : List ℕ) (d : DeviceRegion) : DeviceRegion :=
  if clear then offsets.foldl clearHit d else d

/-- The bits that are read one after another. -/
def readings (clear : Bool) : DeviceRegion → List ℕ → List Bool
  | _, [] => []
  | d, offset :: offsets =>
    d.isHit offset :: (d.afterReading clear [offset]).readings clear offsets

/-- The offsets whose bits a clearing read turns, as they first occur in the request. -/
def turned (d : DeviceRegion) (offsets : List ℕ) : List ℕ := offsets.eraseDups.filter d.isHit

lemma afterReading_cons (d : DeviceRegion) (clear : Bool) (offset : ℕ) (offsets : List ℕ) :
    d.afterReading clear (offset :: offsets) =
      (d.afterReading clear [offset]).afterReading clear offsets := by
  cases clear <;> rfl

lemma isHit_foldl_clearHit (d : DeviceRegion) (offsets : List ℕ) (k : ℕ) :
    (offsets.foldl clearHit d).isHit k = (d.isHit k && !offsets.contains k) := by
  induction offsets generalizing d with
  | nil => simp
  | cons offset offsets ih =>
      rw [List.foldl_cons, ih, isHit_clearHit, List.contains_cons, Bool.not_or, Bool.and_assoc]
      rfl

lemma hwSize_afterReading (d : DeviceRegion) (clear : Bool) (offsets : List ℕ) :
    (d.afterReading clear offsets).hwSize = d.hwSize := by
  cases clear with
  | true => exact Core.foldl_keeps clearHit hwSize (fun _ _ => rfl) offsets d
  | false => rfl

lemma turned_cons (d : DeviceRegion) (offset : ℕ) (offsets : List ℕ) :
    d.turned (offset :: offsets) =
      (if d.isHit offset then [offset] else []) ++ (d.clearHit offset).turned offsets := by
  have htail : (offsets.filter fun b => !b == offset).eraseDups.filter d.isHit =
      (d.clearHit offset).turned offsets := by
    rw [List.eraseDups_filter, List.filter_filter, turned]
    exact List.filter_congr fun k _ => (d.isHit_clearHit offset k).symm
  rw [turned, List.eraseDups_cons, List.filter_cons, htail]
  split <;> rfl

lemma nodup_turned (d : DeviceRegion) (offsets : List ℕ) : (d.turned offsets).Nodup :=
  (List.nodup_eraseDups offsets).filter _

/-- The bits that a clearing read turns are those that were set and are not any more. -/
lemma mem_turned_iff : k ∈ d.turned offsets ↔
    d.isHit k = true ∧ (offsets.foldl clearHit d).isHit k = false := by
  rw [turned, List.mem_filter, List.mem_eraseDups, isHit_foldl_clearHit]
  cases d.isHit k <;> simp

end DeviceRegion

/-- Whether the device has set the activity bit of an offset in a region. -/
def Device.bit (d : Device) (region : Handle .region) (offset : ℕ) : Bool :=
  (d.tables.regions.get? region).any (·.isHit offset)

lemma Device.bit_eq {device : Device} {region : Handle .region} {d : DeviceRegion}
    (hd : device.tables.regions.get? region = some d) (offset : ℕ) :
    device.bit region offset = d.isHit offset := by
  rw [bit, hd, Option.any_some]

namespace Controller

variable {s : Controller} {region id : Handle .region} {d : DeviceRegion} {offset : ℕ}
  {offsets : List ℕ} {clear : Bool}

/-! ### Readings that succeed -/

/-- What a reading of several bits reports. -/
def reported (region : Handle .region) (clear : Bool) (d : DeviceRegion) (offsets : List ℕ) :
    List Event :=
  if clear then (d.turned offsets).map (.activityCleared region) else []

lemma reported_cons (region : Handle .region) (clear : Bool) (d : DeviceRegion) (offset : ℕ)
    (offsets : List ℕ) : reported region clear d (offset :: offsets) =
      (if clear && d.isHit offset then [.activityCleared region offset] else []) ++
        reported region clear (d.afterReading clear [offset]) offsets := by
  cases clear with
  | false => rfl
  | true =>
      rw [reported, if_pos rfl, d.turned_cons, List.map_append, Bool.true_and]
      cases d.isHit offset <;> rfl

/-- The device reads the bit of an offset in the region. -/
lemma exists_call_readActivity_of_lt (hd : s.device.tables.regions.get? region = some d)
    (hlt : offset < d.hwSize) (hfault : s.device.faults.lookup .readActivity = none)
    (clear : Bool) :
    ∃ device, s.device.call (.readActivity region offset clear) = (.ok (d.isHit offset), device) ∧
      device.faults = s.device.faults ∧
      ∀ id, device.tables.regions.get? id =
        if id = region then some (d.afterReading clear [offset])
        else s.device.tables.regions.get? id := by
  refine ⟨_, Device.call_readActivity hd hlt hfault clear, rfl, fun id => ?_⟩
  cases clear with
  | true => exact DeviceTables.get?_setRegion ..
  | false =>
      by_cases hid : id = region
      · rw [if_pos hid, hid]
        exact hd
      · rw [if_neg hid]
        rfl

/-- Where all offsets lie in the region and no fault is armed, their bits are read one after
another, what they turn is reported, and the bits of other regions stay. -/
theorem readBits_eq (hd : s.device.tables.regions.get? region = some d)
    (hlt : ∀ offset ∈ offsets, offset < d.hwSize)
    (hfault : s.device.faults.lookup .readActivity = none) (clear : Bool) :
    ∃ device, s.readBits region clear offsets =
        ⟨.ok (d.readings clear offsets), s.hub.deliver (reported region clear d offsets),
          { s with device := device }⟩ ∧
      ∀ id, device.tables.regions.get? id =
        if id = region then some (d.afterReading clear offsets)
        else s.device.tables.regions.get? id := by
  induction offsets generalizing s d with
  | nil =>
      have hreported : reported region clear d [] = [] := by cases clear <;> rfl
      have hafter : d.afterReading clear [] = d := by cases clear <;> rfl
      refine ⟨s.device, ?_, fun id => ?_⟩
      · rw [hreported, deliver_nil]
        rfl
      · rw [hafter]
        split
        · next heq => rw [heq, hd]
        · rfl
  | cons offset offsets ih =>
      obtain ⟨hhead, htail⟩ := List.forall_mem_cons.mp hlt
      obtain ⟨device, hcall, hfaults, htables⟩ :=
        exists_call_readActivity_of_lt hd hhead hfault clear
      have hd' : device.tables.regions.get? region = some (d.afterReading clear [offset]) := by
        rw [htables, if_pos rfl]
      have htail' : ∀ k ∈ offsets, k < (d.afterReading clear [offset]).hwSize := by
        rw [DeviceRegion.hwSize_afterReading]
        exact htail
      have hfault' : device.faults.lookup .readActivity = none := by rw [hfaults, hfault]
      obtain ⟨last, hrest, hlast⟩ := ih (s := { s with device := device }) hd' htail' hfault'
      refine ⟨last, ?_, fun id => ?_⟩
      · simp only [readBits, readBit, hcall, hrest]
        rw [reported_cons, EventHub.deliver_append]
        rfl
      · rw [hlast id, d.afterReading_cons clear offset offsets, htables id]
        split <;> rfl

/-- A reading of offsets that lie in the region, if it is there, either reads them all or fails
without having done anything. -/
theorem readBits_spec (hlt : ∀ d, s.device.tables.regions.get? region = some d →
      ∀ offset ∈ offsets, offset < d.hwSize) (clear : Bool) :
    (∃ e, (s.readBits region clear offsets).result = .error e ∧
      (s.readBits region clear offsets).events = [] ∧
      (s.readBits region clear offsets).controller.device.tables = s.device.tables) ∨
    offsets = [] ∨
    ∃ d device, s.device.tables.regions.get? region = some d ∧
      s.readBits region clear offsets =
        ⟨.ok (d.readings clear offsets), s.hub.deliver (reported region clear d offsets),
          { s with device := device }⟩ ∧
      ∀ id, device.tables.regions.get? id =
        if id = region then some (d.afterReading clear offsets)
        else s.device.tables.regions.get? id := by
  cases offsets with
  | nil => exact .inr (.inl rfl)
  | cons offset offsets =>
      -- the first call meets the fault, if one is armed, and misses the region, if it is not there
      have herror : ∀ e device,
          s.device.call (.readActivity region offset clear) = (.error e, device) →
          device.tables = s.device.tables →
          ∃ e, (s.readBits region clear (offset :: offsets)).result = .error e ∧
            (s.readBits region clear (offset :: offsets)).events = [] ∧
            (s.readBits region clear (offset :: offsets)).controller.device.tables =
              s.device.tables := by
        intro e device hcall htables
        have hread : s.readBits region clear (offset :: offsets) = ⟨.error (.device e), [],
            { s with core := s.core.countFailure, device := device }⟩ := by
          simp only [readBits, readBit, hcall]
        rw [hread]
        exact ⟨_, rfl, rfl, htables⟩
      cases hfault : s.device.faults.lookup .readActivity with
      | some status =>
          exact .inl (herror _ _ (Device.call_of_armed (c := .readActivity region offset clear)
            hfault) rfl)
      | none =>
          cases hd : s.device.tables.regions.get? region with
          | none =>
              rcases hcall : s.device.call (.readActivity region offset clear) with ⟨answer, device⟩
              rcases Device.call_cases hcall with ⟨bit, -, happly⟩ | ⟨e, rfl, htables⟩
              · simp only [DeviceTables.apply, DeviceTables.readActivity, bind_eq_ok,
                  DeviceTables.region_eq_ok, hd] at happly
                obtain ⟨_, hnone, -⟩ := happly
                cases hnone
              · exact .inl (herror e device hcall htables)
          | some d =>
              obtain ⟨device, hread, htables⟩ := readBits_eq hd (hlt d hd) hfault clear
              exact .inr (.inr ⟨d, device, rfl, hread, htables⟩)

/-- Offsets that pass the check lie in the region of the device, so they are read all or none. -/
theorem readActivity_spec (hspans : s.core.Spans s.device.tables) (region : Handle .region)
    (offsets : List ℕ) (clear : Bool) :
    (∃ e, (s.readActivity region offsets clear).result = .error e ∧
      (s.readActivity region offsets clear).events = [] ∧
      (s.readActivity region offsets clear).controller.device.tables = s.device.tables) ∨
    (offsets = [] ∧ s.readActivity region offsets clear = ⟨.ok [], [], s⟩) ∨
    ∃ d device, s.device.tables.regions.get? region = some d ∧
      s.readActivity region offsets clear =
        ⟨.ok (d.readings clear offsets), s.hub.deliver (reported region clear d offsets),
          { s with device := device }⟩ ∧
      ∀ id, device.tables.regions.get? id =
        if id = region then some (d.afterReading clear offsets)
        else s.device.tables.regions.get? id := by
  cases hcheck : s.core.checkActivity region offsets with
  | error e =>
      have hrefused : s.readActivity region offsets clear = ⟨.error e, [], s⟩ := by
        rw [readActivity, hcheck]
      rw [hrefused]
      exact .inl ⟨e, rfl, rfl, rfl⟩
  | ok u =>
      have hread : s.readActivity region offsets clear = s.readBits region clear offsets := by
        rw [readActivity, hcheck]
      rw [hread]
      obtain ⟨r, hr, hcapacity⟩ := of_checkActivity hcheck
      have hlt : ∀ d, s.device.tables.regions.get? region = some d →
          ∀ offset ∈ offsets, offset < d.hwSize := fun d hd offset hmem =>
        (hcapacity offset hmem).trans_le (hspans region r d hr hd)
      rcases readBits_spec hlt clear with herror | rfl | hdone
      · exact .inl herror
      · exact .inr (.inl ⟨rfl, rfl⟩)
      · exact .inr (.inr hdone)

/-- A reading that does not clear reports nothing. -/
lemma events_readOnly (hspans : s.core.Spans s.device.tables) (region : Handle .region)
    (offsets : List ℕ) : (s.readActivity region offsets false).events = [] := by
  rcases readActivity_spec hspans region offsets false with
    ⟨e, -, hevents, -⟩ | ⟨-, hread⟩ | ⟨d, device, -, hread, -⟩
  · exact hevents
  · rw [hread]
  · rw [hread]
    exact deliver_nil s.hub

/-- A reading that fails reports nothing, whether it was to clear or not. -/
lemma events_readActivity_of_error (hspans : s.core.Spans s.device.tables) {e : AclError}
    (h : (s.readActivity region offsets clear).result = .error e) :
    (s.readActivity region offsets clear).events = [] := by
  rcases readActivity_spec hspans region offsets clear with
    ⟨_, -, hevents, -⟩ | ⟨-, hread⟩ | ⟨d, device, -, hread, -⟩
  · exact hevents
  · rw [hread]
  · rw [hread] at h
    cases h

end Controller

end AclPlane
