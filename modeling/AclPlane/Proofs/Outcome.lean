import AclPlane.Proofs.Frame
import AclPlane.Proofs.Regions
import AclPlane.Proofs.Refusal.Plans

/-!
What can come of one operation.

`Outcome.Lawful` lists the three ways in which an operation ends while model and device are in
step: it is carried out, it is refused before the device is called, or its first device call
meets an armed fault.  There is no fourth way, in which the device has accepted a call and the
rest fails.

* `Controller.lawful_apply`: changes that land end lawfully.
* `Controller.lawful_readActivity`, `Controller.lawful_peekActivity`: so do readings of activity.
  An armed fault is spent on the first of their calls, so none fails once one has succeeded.
-/

namespace AclPlane

/-! ### Device calls -/

namespace Device

/-- The device after a call that met the fault of its operation. -/
def afterFault (d : Device) (op : DeviceOp) : Device := { d with calls := d.calls + 1 }.disarm op

variable {d : Device} {c : DeviceCall}

lemma call_of_armed {status : DeviceStatus} (h : d.faults.lookup c.op = some status) :
    d.call c = (.error (.status (some c.op) status), d.afterFault c.op) := by
  rw [Device.call, h]
  rfl

lemma call_of_unarmed (h : d.faults.lookup c.op = none) {t : DeviceTables} {bit : Bool}
    (ht : d.tables.apply c = .ok (t, bit)) :
    d.call c = (.ok bit, { d with tables := t, calls := d.calls + 1 }) := by
  rw [Device.call, h, ht]

/-- The device reads the bit of an offset in the region. -/
lemma call_readActivity {region : Handle .region} {r : DeviceRegion} {offset : ℕ}
    (hr : d.tables.regions.get? region = some r) (hlt : offset < r.hwSize)
    (hfault : d.faults.lookup .readActivity = none) (clear : Bool) :
    d.call (.readActivity region offset clear) = (.ok (r.isHit offset),
      { d with
        tables := if clear then d.tables.setRegion region (r.clearHit offset) else d.tables
        calls := d.calls + 1 }) := by
  have hcheck : r.checkOffset offset = .ok () := if_neg (Nat.not_le.mpr hlt)
  have happly : d.tables.apply (.readActivity region offset clear) =
      .ok (if clear then d.tables.setRegion region (r.clearHit offset) else d.tables,
        r.isHit offset) := by
    simp only [DeviceTables.apply, DeviceTables.readActivity, DeviceTables.region, hr, ok_bind,
      hcheck]
    rfl
  exact call_of_unarmed (c := .readActivity region offset clear) hfault happly

end Device

/-! ### Lawful outcomes -/

variable {α β : Type} {s : Controller} {op : Option DeviceOp} {limit : ℕ} {room : Prop}

/-- The outcomes of an operation that calls the device at most `limit` times, and only for `op`;
model and device stay in step if the counts have room for the operation. -/
inductive Outcome.Lawful (s : Controller) (op : Option DeviceOp) (limit : ℕ) (room : Prop) :
    Outcome α → Prop where
  /-- The operation is carried out. -/
  | done {a : α} {events : List Event} {s' : Controller}
      (calls : s'.device.calls ≤ s.device.calls + limit)
      (inStep : room → s'.core.InStep s'.device.tables) : Lawful s op limit room ⟨.ok a, events, s'⟩
  /-- A check of the model refuses the operation. -/
  | refused {e : AclError} (refusal : e.isRefusal = true) :
      Lawful s op limit room ⟨.error e, [], s⟩
  /-- The first device call meets a fault, which is put on record at most. -/
  | faulted {met : DeviceOp} {status : DeviceStatus} {failures : ℕ}
      (issued : op = some met) (armed : s.device.faults.lookup met = some status)
      (called : 0 < limit) :
      Lawful s op limit room
        ⟨.error (.device (.status (some met) status)), [],
          { s with
            core := { s.core with stats := { s.core.stats with hwFailures := failures } }
            device := s.device.afterFault met }⟩

lemma Outcome.Lawful.map {o : Outcome α} (h : o.Lawful s op limit room) (f : α → β) :
    (o.map f).Lawful s op limit room := by
  cases h with
  | done calls inStep => exact .done calls inStep
  | refused refusal => exact .refused refusal
  | faulted issued armed called => exact .faulted issued armed called

lemma Outcome.Lawful.mono {o : Outcome α} (h : o.Lawful s op limit room) {room' : Prop}
    (hroom : room' → room) : o.Lawful s op limit room' := by
  cases h with
  | done calls inStep => exact .done calls fun hr => inStep (hroom hr)
  | refused refusal => exact .refused refusal
  | faulted issued armed called => exact .faulted issued armed called

namespace Controller

/-- A plan that only refuses, and whose changes all land, ends lawfully. -/
theorem lawful_apply {plan : Except AclError (Change α)} (hplan : Refuses plan)
    (hlands : ∀ change, plan = .ok change → change.Lands op s.device.tables room) :
    (s.apply plan).Lawful s op 1 room := by
  cases plan with
  | error e => exact .refused (hplan e rfl)
  | ok change =>
      obtain ⟨hop, done, t, hcommit, ht, hstep⟩ := hlands change rfl
      obtain ⟨call?, commit⟩ := change
      cases hcommit
      cases call? with
      | none =>
          cases ht
          exact .done (Nat.le_succ _) hstep
      | some call =>
          cases hfault : s.device.faults.lookup call.op with
          | some status =>
              simp only [apply, Device.call_of_armed hfault]
              exact .faulted (hop call rfl) hfault Nat.one_pos
          | none =>
              obtain ⟨⟨t', bit⟩, happly, rfl⟩ := map_eq_ok.mp ht
              simp only [apply, Device.call_of_unarmed hfault happly]
              exact .done le_rfl hstep

/-! ### Reading activity -/

variable {region : Handle .region} {r : Region} {offset : ℕ} {offsets : List ℕ} {clear : Bool}

/-- Without an armed fault the device reads the bit of any slot of the model. -/
lemma exists_call_readActivity (h : s.core.InStep s.device.tables)
    (hr : s.core.regions.regions.get? region = some r) (hlt : offset < r.table.capacity)
    (hfault : s.device.faults.lookup .readActivity = none) (clear : Bool) :
    ∃ bit device, s.device.call (.readActivity region offset clear) = (.ok bit, device) ∧
      device.calls = s.device.calls + 1 ∧ device.faults.lookup .readActivity = none ∧
      s.core.InStep device.tables := by
  obtain ⟨d, hd, hm⟩ := h.mirrors.exists_region hr
  have hsize : offset < d.hwSize := by
    rw [hm.hwSize]
    exact lt_of_lt_of_le hlt (h.sound.capacity_le region r hr)
  refine ⟨_, _, Device.call_readActivity hd hsize hfault clear, rfl, hfault, ?_⟩
  dsimp only
  split
  · exact h.of_hits hd _
  · exact h

/-- Activity is defined for offsets of a bound region. -/
lemma checkActivity_eq_ok {c : Core} {u : Unit} :
    c.checkActivity region offsets = .ok u ↔ (∃ r, c.regions.regions.get? region = some r ∧
      ∀ offset ∈ offsets, offset < r.table.capacity) ∧ c.isRegionBound region = true := by
  simp only [Core.checkActivity, bind_eq_ok, Regions.get_eq_ok, last_guard_eq_ok,
    Bool.not_eq_true', Bool.not_eq_false, forM_eq_ok, RuleTable.checkOffset_eq_ok, pure_eq_ok,
    exists_const, and_true]
  constructor
  · rintro ⟨r, hr, hlt, hbound⟩
    exact ⟨⟨r, hr, hlt⟩, hbound⟩
  · rintro ⟨⟨r, hr, hlt⟩, hbound⟩
    exact ⟨r, hr, hlt, hbound⟩

/-- What checking activity has found. -/
lemma of_checkActivity {c : Core} (h : c.checkActivity region offsets = .ok ()) :
    ∃ r, c.regions.regions.get? region = some r ∧ ∀ offset ∈ offsets, offset < r.table.capacity :=
  (checkActivity_eq_ok.mp h).1

/-- Without an armed fault every bit is read. -/
lemma exists_readBits (h : s.core.InStep s.device.tables)
    (hr : s.core.regions.regions.get? region = some r)
    (hlt : ∀ offset ∈ offsets, offset < r.table.capacity)
    (hfault : s.device.faults.lookup .readActivity = none) (clear : Bool) :
    ∃ bits events device, s.readBits region clear offsets =
        ⟨.ok bits, events, { s with device := device }⟩ ∧
      device.calls = s.device.calls + offsets.length ∧ s.core.InStep device.tables := by
  induction offsets generalizing s with
  | nil => exact ⟨[], [], s.device, rfl, rfl, h⟩
  | cons offset offsets ih =>
      obtain ⟨hhead, htail⟩ := List.forall_mem_cons.mp hlt
      obtain ⟨bit, next, hcall, hnext, hfault', hstep⟩ :=
        exists_call_readActivity h hr hhead hfault clear
      obtain ⟨bits, events, device, hrest, hcalls, hdevice⟩ :=
        ih (s := { s with device := next }) hstep hr htail hfault'
      simp only [readBits, readBit, hcall, hrest]
      refine ⟨_, _, device, rfl, ?_, hdevice⟩
      calc device.calls = next.calls + offsets.length := hcalls
        _ = s.device.calls + (offset :: offsets).length := by
          rw [hnext, List.length_cons]
          omega

/-- An armed fault meets the first of the calls. -/
lemma lawful_readBits (h : s.core.InStep s.device.tables)
    (hr : s.core.regions.regions.get? region = some r)
    (hlt : ∀ offset ∈ offsets, offset < r.table.capacity) :
    (s.readBits region clear offsets).Lawful s (some .readActivity) offsets.length room := by
  cases hfault : s.device.faults.lookup .readActivity with
  | none =>
      obtain ⟨bits, events, device, hread, hcalls, hdevice⟩ := exists_readBits h hr hlt hfault _
      rw [hread]
      exact .done hcalls.le fun _ => hdevice
  | some status =>
      cases offsets with
      | nil => exact .done le_rfl fun _ => h
      | cons offset offsets =>
          have hcall := Device.call_of_armed (c := .readActivity region offset clear) hfault
          simp only [readBits, readBit, hcall]
          exact .faulted rfl hfault (Nat.succ_pos _)

lemma deliver_nil (hub : EventHub) : hub.deliver [] = [] := by
  rw [EventHub.deliver]
  split <;> rfl

/-- Peeking is reading without clearing, except that the model has no part in it. -/
theorem peekBits_eq (s : Controller) (region : Handle .region) (offsets : List ℕ) :
    s.peekBits region offsets =
      ⟨(s.readBits region false offsets).result, (s.readBits region false offsets).events,
        { (s.readBits region false offsets).controller with core := s.core }⟩ := by
  induction offsets generalizing s with
  | nil => rfl
  | cons offset offsets ih =>
      rcases hcall : s.device.call (.readActivity region offset false) with ⟨answer, device⟩
      cases answer with
      | error e => simp only [peekBits, readBits, readBit, hcall]
      | ok bit =>
          simp only [peekBits, readBits, readBit, hcall, ih, Bool.false_and, Bool.false_eq_true,
            if_false, deliver_nil, List.nil_append]

lemma lawful_peekBits (h : s.core.InStep s.device.tables)
    (hr : s.core.regions.regions.get? region = some r)
    (hlt : ∀ offset ∈ offsets, offset < r.table.capacity) :
    (s.peekBits region offsets).Lawful s (some .readActivity) offsets.length room := by
  rw [peekBits_eq]
  cases hfault : s.device.faults.lookup .readActivity with
  | none =>
      obtain ⟨bits, events, device, hread, hcalls, hdevice⟩ := exists_readBits h hr hlt hfault _
      rw [hread]
      exact .done hcalls.le fun _ => hdevice
  | some status =>
      cases offsets with
      | nil => exact .done le_rfl fun _ => h
      | cons offset offsets =>
          have hcall := Device.call_of_armed (c := .readActivity region offset false) hfault
          simp only [readBits, readBit, hcall]
          exact .faulted rfl hfault (Nat.succ_pos _)

theorem lawful_readActivity (h : s.core.InStep s.device.tables) (region : Handle .region)
    (offsets : List ℕ) (clear : Bool) :
    (s.readActivity region offsets clear).Lawful s (some .readActivity) offsets.length room := by
  cases hcheck : s.core.checkActivity region offsets with
  | error e =>
      simp only [readActivity, hcheck]
      exact .refused (s.core.refuses_checkActivity region offsets e hcheck)
  | ok u =>
      obtain ⟨r, hr, hlt⟩ := of_checkActivity hcheck
      simp only [readActivity, hcheck]
      exact lawful_readBits h hr hlt

theorem lawful_peekActivity (h : s.core.InStep s.device.tables) (region : Handle .region)
    (offsets : List ℕ) :
    (s.peekActivity region offsets).Lawful s (some .readActivity) offsets.length room := by
  cases hcheck : s.core.checkActivity region offsets with
  | error e =>
      simp only [peekActivity, hcheck]
      exact .refused (s.core.refuses_checkActivity region offsets e hcheck)
  | ok u =>
      obtain ⟨r, hr, hlt⟩ := of_checkActivity hcheck
      simp only [peekActivity, hcheck]
      exact lawful_peekBits h hr hlt

end Controller

end AclPlane
