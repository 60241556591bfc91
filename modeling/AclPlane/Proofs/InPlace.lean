import AclPlane.Proofs.Calls
import AclPlane.Proofs.OrderedMap
import AclPlane.Proofs.RegionCalls

/-!
Device calls carried out in place.

`Device.call` works out new tables and takes them over only if nothing has failed.  Here the calls
are programs that change the one device they run on, slot by slot, so a program that fails leaves
behind what it has changed by then.

* `DeviceM`: programs on a device; `DeviceCall.perform` is the program of a call.
* `Turns id m f`: the program `m` cannot fail where there is a region, and only makes of it what `f`
  says.  `Turns.bind`, `Turns.forM` and `turns_takeMoved` carry this along loops over slots.
* `Settles m d x`: run on the device `d`, the program `m` ends as `x` says, with either everything
  done or nothing.  A program settles if all its checks come before its changes.
* `DeviceCall.settles_body`: the calls do, so in place they do what `Device.call` says
  (`DeviceCall.run_perform`).
* `Device.all_or_nothing`: so a call that fails in place has changed the count of calls and its own
  fault alone.
-/

namespace AclPlane

/-! ### Programs on a device -/

/-- A program on a device.  What it has changed when it fails stays changed. -/
abbrev DeviceM := EStateM DeviceError Device

namespace DeviceM

variable {α : Type}

/-- Fails as a check does. -/
def check (x : Except DeviceError α) : DeviceM α :=
  match x with
  | .ok a => return a
  | .error e => throw e

/-- Changes the tables. -/
def modifyTables (f : DeviceTables → DeviceTables) : DeviceM Unit :=
  modify fun d => { d with tables := f d.tables }

/-- The region, or the error that there is none. -/
def region (id : Handle .region) : DeviceM DeviceRegion := do
  check ((← get).tables.region id)

/-- Changes a region, if there is one. -/
def modifyRegion (id : Handle .region) (f : DeviceRegion → DeviceRegion) : DeviceM Unit :=
  modifyTables fun t => { t with regions := t.regions.modify id f }

/-- Fails if nothing has been removed. -/
def demand (removed : Option α) (raw : RawHandle) : DeviceM Unit :=
  if removed.isNone then throw (.unknownObject raw) else return ()

/-- Counts a call of an operation and spends the fault that is armed for it. -/
def enter (op : DeviceOp) : DeviceM Unit := do
  modify fun d => { d with calls := d.calls + 1 }
  let fault := (← get).faults.lookup op
  modify fun d => d.disarm op
  match fault with
  | some status => throw (.status (some op) status)
  | none => return ()

/-! ### Slots -/

/-- Empties a slot, then clears its activity bit. -/
def clearSlot (id : Handle .region) (offset : ℕ) : DeviceM Unit := do
  modifyRegion id fun r => { r with rules := r.rules.erase offset }
  modifyRegion id fun r => r.clearHit offset

/-- Clears the activity bit of a slot, then writes an image over what is in it. -/
def writeSlot (id : Handle .region) (image : RuleImage) : DeviceM Unit := do
  modifyRegion id fun r => r.clearHit image.offset
  modifyRegion id fun r => { r with rules := r.rules.insert image.offset image }

/-- Takes the image out of a slot, if there is one, with its activity bit and the offset that it
goes to. -/
def takeSlot (id : Handle .region) (move : ℕ × ℕ) : DeviceM (Option (RuleImage × Bool)) := do
  let r ← region id
  match r.rules.get? move.1 with
  | some image =>
    clearSlot id move.1
    return some ({ image with offset := move.2 }, r.isHit move.1)
  | none => return none

/-- Sets the activity bit of an image that has been hit, then puts the image in its slot. -/
def putSlot (id : Handle .region) (moved : RuleImage × Bool) : DeviceM Unit := do
  if moved.2 then modifyRegion id fun r => r.hit moved.1.offset
  modifyRegion id fun r => { r with rules := r.rules.insert moved.1.offset moved.1 }

end DeviceM

/-! ### Calls -/

namespace DeviceCall

open DeviceM

/-- What a call does once it has been entered. -/
def body : DeviceCall → DeviceM Bool
  | createRegion id keyBlocks hwSize => do
    if (← get).tables.regions.contains id then
      throw (.status (some .createRegion) .itemAlreadyExists)
    modifyTables fun t => t.setRegion id ⟨keyBlocks, hwSize, .empty, .empty⟩
    return false
  | resizeRegion id hwSize => do
    let r ← region id
    if let some highest := r.rules.lastKey? then
      if hwSize ≤ highest then throw (.outOfBounds highest hwSize)
    modifyRegion id fun r => { r with hwSize := hwSize }
    return false
  | destroyRegion id => do
    let removed := (← get).tables.regions.get? id
    modifyTables fun t => { t with regions := t.regions.erase id }
    demand removed id.raw
    return false
  | writeRules id images => do
    let r ← region id
    images.forM fun image => check (r.checkOffset image.offset)
    images.forM (writeSlot id)
    return false
  | clearRules id offsets => do
    let _ ← region id
    offsets.forM (clearSlot id)
    return false
  | moveRules id src size dst => do
    let r ← region id
    if r.hwSize < src + size ∨ r.hwSize < dst + size then
      throw (.outOfBounds (min (max src dst + size) (UInt32.size - 1)) r.hwSize)
    let moved ← (relocations src size dst).filterMapM (takeSlot id)
    moved.forM (putSlot id)
    return false
  | setRulePriorities id updates => do
    let r ← region id
    updates.forM fun u => do
      if !r.rules.contains u.1 then throw (.status (some .setRulePriorities) .itemNotFound)
    updates.forM fun u => modifyRegion id fun r => r.setPriority u
    return false
  | readActivity id offset clear => do
    let r ← region id
    check (r.checkOffset offset)
    if clear then modifyRegion id fun r => r.clearHit offset
    return r.isHit offset
  | programAcl id regions => do
    let t := (← get).tables
    if let some missing := regions.find? fun r => !t.regions.contains r then
      throw (.unknownObject missing.raw)
    modifyTables fun t => { t with acls := t.acls.insert id regions }
    return false
  | removeAcl id => do
    let removed := (← get).tables.acls.get? id
    modifyTables fun t => { t with acls := t.acls.erase id }
    demand removed id.raw
    return false
  | programGroup id acls next => do
    modifyTables fun t => { t with groups := t.groups.insert id (acls, next) }
    return false
  | removeGroup id => do
    let removed := (← get).tables.groups.get? id
    modifyTables fun t => { t with groups := t.groups.erase id }
    demand removed id.raw
    return false
  | programBinding key targets => do
    if targets.isEmpty then
      modifyTables fun t => { t with bindings := t.bindings.erase key }
    else
      modifyTables fun t => { t with bindings := t.bindings.insert key targets }
    return false

/-- Carries a call out in place. -/
def perform (call : DeviceCall) : DeviceM Bool := do
  enter call.op
  call.body

end DeviceCall

/-! ### Loops over slots -/

namespace DeviceTables

variable {t : DeviceTables} {id : Handle .region} {r r' : DeviceRegion}

lemma setRegion_self (h : t.region id = .ok r) : t.setRegion id r = t := by
  have hregions : t.regions.insert id r = t.regions := by
    refine OrderedMap.ext_get? fun k => ?_
    rw [OrderedMap.get?_insert]
    split
    · next hk => rw [hk, region_eq_ok.mp h]
    · rfl
  rw [setRegion, hregions]

lemma setRegion_setRegion : (t.setRegion id r).setRegion id r' = t.setRegion id r' := by
  have hregions : (t.regions.insert id r).insert id r' = t.regions.insert id r' := by
    refine OrderedMap.ext_get? fun k => ?_
    simp only [OrderedMap.get?_insert]
    split <;> rfl
  rw [setRegion, setRegion, hregions]
  rfl

@[simp] lemma region_setRegion : (t.setRegion id r).region id = .ok r := by
  rw [region_eq_ok, get?_setRegion, if_pos rfl]

end DeviceTables

/-- The device with a region in place of the one of this handle. -/
def Device.withRegion (d : Device) (id : Handle .region) (r : DeviceRegion) : Device :=
  { d with tables := d.tables.setRegion id r }

/-- Where there is a region, the program cannot fail; its answer and what it makes of the region
are as `f` says, and it changes nothing else. -/
def Turns {α : Type} (id : Handle .region) (m : DeviceM α) (f : DeviceRegion → α × DeviceRegion) :
    Prop :=
  ∀ d r, d.tables.region id = .ok r → m.run d = .ok (f r).1 (d.withRegion id (f r).2)

section Turns

variable {α β : Type} {id : Handle .region}

lemma turns_pure (a : α) : Turns id (pure a) fun r => (a, r) := by
  intro d r hr
  rw [EStateM.run_pure, Device.withRegion, DeviceTables.setRegion_self hr]

lemma Turns.bind {m : DeviceM α} {f : DeviceRegion → α × DeviceRegion} {k : α → DeviceM β}
    {g : α → DeviceRegion → β × DeviceRegion} (hm : Turns id m f) (hk : ∀ a, Turns id (k a) (g a)) :
    Turns id (m >>= k) fun r => g (f r).1 (f r).2 := by
  intro d r hr
  rw [EStateM.run_bind, hm d r hr]
  dsimp only
  rw [hk _ _ _ DeviceTables.region_setRegion]
  simp only [Device.withRegion, DeviceTables.setRegion_setRegion]

lemma Turns.congr {m : DeviceM α} {f g : DeviceRegion → α × DeviceRegion} (hm : Turns id m f)
    (h : ∀ r, f r = g r) : Turns id m g :=
  funext h ▸ hm

lemma turns_modifyRegion (f : DeviceRegion → DeviceRegion) :
    Turns id (DeviceM.modifyRegion id f) fun r => ((), f r) := by
  intro d r hr
  have hregions : d.tables.regions.modify id f = d.tables.regions.insert id (f r) := by
    rw [OrderedMap.modify, DeviceTables.region_eq_ok.mp hr]
  rw [DeviceM.modifyRegion, DeviceM.modifyTables, EStateM.run_modify, hregions]
  rfl

/-- A loop turns the region by one step for each element. -/
lemma Turns.forM {body : α → DeviceM Unit} {step : DeviceRegion → α → DeviceRegion}
    (h : ∀ a, Turns id (body a) fun r => ((), step r a)) (l : List α) :
    Turns id (l.forM body) fun r => ((), l.foldl step r) := by
  induction l with
  | nil => exact turns_pure ()
  | cons a l ih => exact (h a).bind fun _ => ih

lemma turns_region : Turns id (DeviceM.region id) fun r => (r, r) := by
  intro d r hr
  rw [Device.withRegion, DeviceTables.setRegion_self hr]
  simp only [DeviceM.region, EStateM.run_bind, EStateM.run_get, hr]
  rfl

lemma turns_clearSlot (offset : ℕ) :
    Turns id (DeviceM.clearSlot id offset) fun r => ((), r.clear offset) :=
  (turns_modifyRegion _).bind fun _ => turns_modifyRegion _

lemma turns_writeSlot (image : RuleImage) :
    Turns id (DeviceM.writeSlot id image) fun r => ((), r.write image) :=
  (turns_modifyRegion _).bind fun _ => turns_modifyRegion _

lemma turns_putSlot (moved : RuleImage × Bool) :
    Turns id (DeviceM.putSlot id moved) fun r => ((), r.putMoved moved) := by
  obtain ⟨image, hit⟩ := moved
  cases hit with
  | true => exact (turns_modifyRegion _).bind fun _ => turns_modifyRegion _
  | false => exact turns_modifyRegion _

lemma turns_takeSlot (move : ℕ × ℕ) : Turns id (DeviceM.takeSlot id move) fun r =>
    match r.rules.get? move.1 with
    | some image => (some ({ image with offset := move.2 }, r.isHit move.1), r.clear move.1)
    | none => (none, r) := by
  refine (turns_region.bind (g := fun a r => match a.rules.get? move.1 with
    | some image => (some ({ image with offset := move.2 }, a.isHit move.1), r.clear move.1)
    | none => (none, r)) fun a => ?_)
  cases a.rules.get? move.1 with
  | some image => exact (turns_clearSlot move.1).bind fun _ => turns_pure _
  | none => exact turns_pure none

/-- Taking the images out slot by slot empties the slots that are relocated. -/
lemma turns_takeMoved (moves : List (ℕ × ℕ)) :
    Turns id (moves.filterMapM (DeviceM.takeSlot id)) fun r => r.takeMoved moves := by
  induction moves with
  | nil => exact turns_pure []
  | cons move moves ih =>
      -- what is left to take out is read from the region without the slot taken out here
      rw [List.filterMapM_cons]
      refine ((turns_takeSlot move).bind (g := fun taken r => match taken with
        | some image => (image :: (r.takeMoved moves).1, (r.takeMoved moves).2)
        | none => r.takeMoved moves) fun taken => ?_).congr fun r => ?_
      · cases taken with
        | some image => exact ih.bind fun rest => turns_pure (image :: rest)
        | none => exact ih
      · cases himage : r.rules.get? move.1 with
        | some image => exact (DeviceRegion.takeMoved_cons_of_some himage moves).symm
        | none => exact (DeviceRegion.takeMoved_cons_of_none himage moves).symm

end Turns

/-! ### Everything or nothing -/

/-- Run on the device, the program ends with an answer and other tables, or it fails and the device
is as before. -/
def Settles (m : DeviceM Bool) (d : Device) (x : Except DeviceError (DeviceTables × Bool)) : Prop :=
  m.run d =
    match x with
    | .ok (t, bit) => .ok bit { d with tables := t }
    | .error e => .error e d

section Settles

variable {m : DeviceM Bool} {d : Device} {id : Handle .region}

lemma settles_throw (e : DeviceError) : Settles (throw e) d (.error e) := rfl

lemma settles_modifyTables (f : DeviceTables → DeviceTables) (bit : Bool) :
    Settles (do DeviceM.modifyTables f; return bit) d (.ok (f d.tables, bit)) := rfl

lemma settles_get {k : Device → DeviceM Bool} {x : Except DeviceError (DeviceTables × Bool)}
    (h : Settles (k d) d x) : Settles (get >>= k) d x := h

/-- A check that comes before everything that changes the device settles with it. -/
lemma settles_check {α : Type} {x : Except DeviceError α} {k : α → DeviceM Bool}
    {f : α → Except DeviceError (DeviceTables × Bool)}
    (h : ∀ a, x = .ok a → Settles (k a) d (f a)) : Settles (DeviceM.check x >>= k) d (x >>= f) := by
  cases x with
  | error e => exact settles_throw e
  | ok a => exact h a rfl

lemma settles_region {k : DeviceRegion → DeviceM Bool}
    {f : DeviceRegion → Except DeviceError (DeviceTables × Bool)}
    (h : ∀ r, d.tables.region id = .ok r → Settles (k r) d (f r)) :
    Settles (DeviceM.region id >>= k) d (d.tables.region id >>= f) :=
  settles_check h

/-- What turns the region that is there settles. -/
lemma Turns.settles {f : DeviceRegion → Bool × DeviceRegion} {r : DeviceRegion}
    (hm : Turns id m f) (hr : d.tables.region id = .ok r) :
    Settles m d (.ok (d.tables.setRegion id (f r).2, (f r).1)) :=
  hm d r hr

/-- A loop of checks is one check. -/
lemma forM_check {α : Type} (f : α → Except DeviceError Unit) (l : List α) :
    (l.forM fun a => DeviceM.check (f a)) = DeviceM.check (l.forM f) := by
  induction l with
  | nil => rfl
  | cons a l ih =>
      rw [List.forM_eq_forM] at ih ⊢
      rw [List.forM_cons, ih, List.forM_eq_forM, List.forM_cons]
      cases f a with
      | error e => rfl
      | ok u => rfl

/-- A loop of guards with one error is one guard. -/
lemma forM_guard {α : Type} (p : α → Bool) (e : DeviceError) (l : List α) :
    (l.forM fun a => if p a then throw e else pure () : DeviceM Unit) =
      if l.any p then throw e else pure () := by
  induction l with
  | nil => rfl
  | cons a l ih =>
      rw [List.forM_eq_forM] at ih ⊢
      rw [List.forM_cons, ih, List.any_cons]
      cases p a with
      | true => rfl
      | false => rfl

/-- A removal that fails has removed nothing. -/
lemma settles_removal {α : Type} {removed : Option α} {f : DeviceTables → DeviceTables}
    (h : removed = none → f d.tables = d.tables) (raw : RawHandle) :
    Settles (do DeviceM.modifyTables f; DeviceM.demand removed raw; return false) d
      (if removed.isSome then .ok (f d.tables, false) else .error (.unknownObject raw)) := by
  cases removed with
  | some a => rfl
  | none =>
      have hsame : ({ d with tables := f d.tables } : Device) = d := by rw [h rfl]
      exact congrArg (EStateM.Result.error _) hsame

end Settles

/-! ### Faults -/

namespace Device

variable {d d' : Device} {op : DeviceOp}

lemma disarm_of_lookup_eq_none (h : d.faults.lookup op = none) : d.disarm op = d := by
  have hfaults : d.faults.filter (fun f => f.1 != op) = d.faults := by
    refine List.filter_eq_self.mpr fun f hf => ?_
    rw [bne_comm]
    exact List.lookup_eq_none_iff.mp h f hf
  rw [disarm, hfaults]

lemma lookup_disarm (d : Device) (op op' : DeviceOp) :
    (d.disarm op).faults.lookup op' = if op' = op then none else d.faults.lookup op' := by
  rw [disarm]
  dsimp only
  induction d.faults with
  | nil => exact (ite_self _).symm
  | cons f faults ih =>
      obtain ⟨armed, status⟩ := f
      rw [List.filter_cons, List.lookup_cons]
      by_cases harmed : armed = op
      · rw [if_neg (by simp [harmed]), ih, harmed]
        split
        · rfl
        · next hop => rw [beq_false_of_ne hop]
      · rw [if_pos (by simp [harmed]), List.lookup_cons, ih]
        cases hop : op' == armed with
        | true =>
            have hne : op' ≠ op := fun heq => harmed ((beq_iff_eq.mp hop).symm.trans heq)
            exact (if_neg hne).symm
        | false => rfl

/-- A call spends the fault of its operation and no other, whatever comes of it. -/
lemma lookup_of_call {call : DeviceCall} {answer : Except DeviceError Bool}
    (h : d.call call = (answer, d')) (op : DeviceOp) :
    d'.faults.lookup op = if op = call.op then none else d.faults.lookup op := by
  -- a call whose operation has no fault leaves the faults as they are
  have hunarmed (hnone : d.faults.lookup call.op = none) :
      d.faults.lookup op = if op = call.op then none else d.faults.lookup op := by
    split
    · next hop => rw [hop, hnone]
    · rfl
  cases hfault : d.faults.lookup call.op with
  | some status =>
      rw [call_of_armed hfault] at h
      cases h
      exact lookup_disarm _ call.op op
  | none =>
      rw [Device.call, hfault] at h
      dsimp only at h
      split at h
      · cases h
        exact hunarmed hfault
      · cases h
        exact hunarmed hfault

end Device

/-! ### The calls in place -/

namespace DeviceCall

/-- In the program of every call all checks come before the first change, or the change that comes
before a check is none when the check fails. -/
lemma settles_body (call : DeviceCall) (d : Device) :
    Settles call.body d (d.tables.apply call) := by
  cases call with
  | createRegion id keyBlocks hwSize =>
      refine settles_get ?_
      simp only [DeviceTables.apply]
      cases d.tables.regions.contains id with
      | true => exact settles_throw _
      | false => exact settles_modifyTables _ _
  | resizeRegion id hwSize =>
      refine settles_region fun r hr => ?_
      have hturns : Turns id (do
          DeviceM.modifyRegion id fun r => { r with hwSize := hwSize }
          return false) fun r => (false, { r with hwSize := hwSize }) :=
        (turns_modifyRegion _).bind fun _ => turns_pure false
      cases r.rules.lastKey? with
      | none => exact hturns.settles hr
      | some highest =>
          dsimp only
          split
          · exact settles_throw _
          · exact hturns.settles hr
  | destroyRegion id =>
      -- the program looks at what it has taken out, and only then fails
      have happly : d.tables.apply (.destroyRegion id) =
          if (d.tables.regions.get? id).isSome then
            .ok ({ d.tables with regions := d.tables.regions.erase id }, false)
          else .error (.unknownObject id.raw) := by
        rw [DeviceTables.apply, DeviceTables.region]
        cases d.tables.regions.get? id with
        | some r => rfl
        | none => rfl
      rw [happly]
      refine settles_get (settles_removal (fun hnone => ?_) _)
      simp only [OrderedMap.erase_of_get?_eq_none hnone]
  | writeRules id images =>
      refine settles_region fun r hr => ?_
      rw [forM_check]
      refine settles_check fun _ _ => ?_
      exact ((Turns.forM turns_writeSlot images).bind fun _ => turns_pure false).settles hr
  | clearRules id offsets =>
      refine settles_region fun r hr => ?_
      exact ((Turns.forM turns_clearSlot offsets).bind fun _ => turns_pure false).settles hr
  | moveRules id src size dst =>
      have hturns : Turns id (do
          let moved ← (relocations src size dst).filterMapM (DeviceM.takeSlot id)
          moved.forM (DeviceM.putSlot id)
          return false) fun r => (false, r.moveBlock src size dst) :=
        (turns_takeMoved _).bind fun moved =>
          (Turns.forM turns_putSlot moved).bind fun _ => turns_pure false
      simp only [DeviceTables.apply, DeviceTables.moveRules, bind_assoc]
      refine settles_region fun r hr => ?_
      split
      · exact settles_throw _
      · exact hturns.settles hr
  | setRulePriorities id updates =>
      simp only [DeviceTables.apply, DeviceTables.setRulePriorities, bind_assoc]
      refine settles_region fun r hr => ?_
      rw [forM_guard]
      cases updates.any fun u => !r.rules.contains u.1 with
      | true => exact settles_throw _
      | false =>
          exact ((Turns.forM (fun u => turns_modifyRegion fun r => r.setPriority u) updates).bind
            fun _ => turns_pure false).settles hr
  | readActivity id offset clear =>
      refine settles_region fun r hr => settles_check fun _ _ => ?_
      cases clear with
      | true => exact ((turns_modifyRegion _).bind fun _ => turns_pure (r.isHit offset)).settles hr
      | false => exact rfl
  | programAcl id regions =>
      refine settles_get ?_
      simp only [DeviceTables.apply]
      cases regions.find? fun r => !d.tables.regions.contains r with
      | some missing => exact settles_throw _
      | none => exact settles_modifyTables _ _
  | removeAcl id =>
      refine settles_get (settles_removal (fun hnone => ?_) _)
      simp only [OrderedMap.erase_of_get?_eq_none hnone]
  | programGroup id acls next => exact settles_modifyTables _ _
  | removeGroup id =>
      refine settles_get (settles_removal (fun hnone => ?_) _)
      simp only [OrderedMap.erase_of_get?_eq_none hnone]
  | programBinding key targets =>
      cases targets with
      | nil => exact settles_modifyTables _ _
      | cons target targets => exact settles_modifyTables _ _

/-- Carried out in place, a call does to the device what `Device.call` says. -/
theorem run_perform (call : DeviceCall) (d : Device) : call.perform.run d =
    match d.call call with
    | (.ok bit, d') => .ok bit d'
    | (.error e, d') => .error e d' := by
  rw [perform, Device.call, EStateM.run_bind]
  cases hfault : d.faults.lookup call.op with
  | some status =>
      have henter : (DeviceM.enter call.op).run d =
          .error (.status (some call.op) status) (d.afterFault call.op) := by
        simp only [DeviceM.enter, EStateM.run_bind, EStateM.run_modify, EStateM.run_get, hfault]
        rfl
      rw [henter]
      rfl
  | none =>
      have henter : (DeviceM.enter call.op).run d = .ok () { d with calls := d.calls + 1 } := by
        have hsame : ({ d with calls := d.calls + 1 } : Device).disarm call.op =
            { d with calls := d.calls + 1 } := Device.disarm_of_lookup_eq_none hfault
        simp only [DeviceM.enter, EStateM.run_bind, EStateM.run_modify, EStateM.run_get, hfault,
          hsame]
        rfl
      rw [henter]
      dsimp only
      rw [settles_body]
      cases d.tables.apply call with
      | ok result => rfl
      | error e => rfl

/-- A call fails in place exactly if it fails worked out as a whole, and leaves the same device. -/
lemma run_perform_eq_error {call : DeviceCall} {d d' : Device} {e : DeviceError} :
    call.perform.run d = .error e d' ↔ d.call call = (.error e, d') := by
  rw [run_perform]
  obtain ⟨answer, after⟩ := d.call call
  cases answer with
  | ok bit => exact iff_of_false nofun nofun
  | error e' => simp only [EStateM.Result.error.injEq, Prod.mk.injEq, Except.error.injEq]

end DeviceCall

namespace Device

/-- A call that fails in place, on any device and with any arguments, has changed nothing but the
count of calls, which includes it, and the fault of its operation, which is spent.  The tables are
as before, and this is the device that `Device.call` leaves. -/
theorem all_or_nothing {call : DeviceCall} {d d' : Device} {e : DeviceError}
    (h : call.perform.run d = .error e d') :
    d.call call = (.error e, d') ∧ d'.tables = d.tables ∧ d'.calls = d.calls + 1 ∧
      ∀ op, d'.faults.lookup op = if op = call.op then none else d.faults.lookup op := by
  have hcall : d.call call = (.error e, d') := DeviceCall.run_perform_eq_error.mp h
  have htables : d'.tables = d.tables := by
    rcases call_cases hcall with ⟨bit, hbit, -⟩ | ⟨-, -, htables⟩
    · cases hbit
    · exact htables
  exact ⟨hcall, htables, Controller.calls_of_call hcall, lookup_of_call hcall⟩

/-- A device with a region of two slots whose first slot holds a rule that has been hit, and with a
fault armed for block moves. -/
def hitDevice : Device :=
  let created := (new.call (.createRegion ⟨0, 1⟩ [⟨1⟩] 2)).2
  let written := (created.call (.writeRules ⟨0, 1⟩ [⟨0, 5, [], []⟩])).2
  (written.recordHit ⟨0, 1⟩ 0).2.failNext .moveRules .timeout

/-- An offset outside of the region, between two inside, keeps the whole batch from being written:
the first slot keeps its rule and its bit, and the fault is still armed. -/
theorem bad_batch_all_or_nothing : ∃ d',
    (DeviceCall.writeRules ⟨0, 1⟩ [⟨0, 9, [], []⟩, ⟨2, 9, [], []⟩, ⟨1, 9, [], []⟩]).perform.run
      hitDevice = .error (.outOfBounds 2 2) d' ∧
    d'.tables = hitDevice.tables ∧ d'.image? ⟨0, 1⟩ 0 = some ⟨0, 5, [], []⟩ ∧ d'.calls = 3 ∧
      d'.faults.lookup .moveRules = some .timeout := by
  have hrun : (DeviceCall.writeRules ⟨0, 1⟩
      [⟨0, 9, [], []⟩, ⟨2, 9, [], []⟩, ⟨1, 9, [], []⟩]).perform.run hitDevice =
      .error (.outOfBounds 2 2) { hitDevice with calls := 3 } := rfl
  obtain ⟨-, htables, hcalls, hfaults⟩ := all_or_nothing hrun
  exact ⟨_, hrun, htables, rfl, hcalls, hfaults .moveRules⟩

end Device

end AclPlane
