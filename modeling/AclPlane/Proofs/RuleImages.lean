import AclPlane.Proofs.Calls
import AclPlane.Proofs.RegionCalls
import AclPlane.Proofs.StoredRules

/-!
Rule images have fields of their region only.

The device takes the blocks that a region is created with and any rule image.  A count that has
stopped at its greatest value lets a commit fail after the device has accepted the call, so the
rules of the device need not be those of the model; still their fields are exposed by the blocks.

* `DeviceRegion.All`: a property of the keys of every rule image.
* `DeviceTables.region_of_apply`: a region after a call is one from before with the same blocks, or
  the call has created it.
* `Core.Backs`: every region of the device is one of the model, with the blocks of its key type and
  rule images on fields of that key type.
* `Controller.backs_run`: so it is in every run.
* `Controller.stored_rules_valid`: stored rules are valid, and blocks expose the fields of images.
-/

namespace AclPlane

/-! ### Rule images of a region -/

namespace DeviceRegion

variable {d d' : DeviceRegion} {p : List KeyWord → Prop}

/-- The keys of every rule image satisfy `p`. -/
def All (p : List KeyWord → Prop) (d : DeviceRegion) : Prop :=
  ∀ offset image, d.rules.get? offset = some image → p image.keys

lemma All.write (h : d.All p) {image : RuleImage} (himage : p image.keys) :
    (d.write image).All p := by
  intro offset image' himage'
  rw [DeviceRegion.write, OrderedMap.get?_insert] at himage'
  split at himage'
  · cases himage'
    exact himage
  · exact h offset image' himage'

lemma All.clear (h : d.All p) (k : ℕ) : (d.clear k).All p := by
  intro offset image himage
  rw [DeviceRegion.clear, OrderedMap.get?_erase] at himage
  split at himage
  · cases himage
  · exact h offset image himage

lemma All.setPriority (h : d.All p) (u : ℕ × ℕ) : (d.setPriority u).All p := by
  intro offset image himage
  rw [DeviceRegion.setPriority, OrderedMap.modify] at himage
  split at himage
  · next image₀ himage₀ =>
      rw [OrderedMap.get?_insert] at himage
      split at himage
      · cases himage
        exact h u.1 image₀ himage₀
      · exact h offset image himage
  · exact h offset image himage

/-- After a block move every slot has the keys of some slot before. -/
lemma All.moveBlock (h : d.All p) (src size dst : ℕ) : (d.moveBlock src size dst).All p := by
  intro k image himage
  by_cases hk : k ∈ (relocations src size dst).map Prod.fst
  · obtain ⟨m, hm, rfl⟩ := List.mem_map.mp ((perm_relocations src size dst).symm.subset hk)
    rw [get?_moveBlock_target hm, Option.map_eq_some_iff] at himage
    obtain ⟨image₀, himage₀, rfl⟩ := himage
    exact h m.1 image₀ himage₀
  · rw [get?_moveBlock_of_not_mem hk] at himage
    exact h k image himage

lemma All.foldl {β : Type} {f : DeviceRegion → β → DeviceRegion} {l : List β} (h : d.All p)
    (hf : ∀ b ∈ l, ∀ d : DeviceRegion, d.All p → (f d b).All p) : (l.foldl f d).All p := by
  induction l generalizing d with
  | nil => exact h
  | cons b l ih =>
      obtain ⟨hb, hl⟩ := List.forall_mem_cons.mp hf
      exact ih (hb d h) hl

/-- What a call makes of a region that it does not create: the blocks stay, and the keys of an image
that the call does not write are those of an image before. -/
structure Follows (call : DeviceCall) (id : Handle .region) (d d' : DeviceRegion) : Prop where
  keyBlocks : d'.keyBlocks = d.keyBlocks
  all {p : List KeyWord → Prop} (h : d.All p) (hwritten : ∀ images,
    call = .writeRules id images → ∀ image ∈ images, p image.keys) : d'.All p

lemma Follows.refl {call : DeviceCall} {id : Handle .region} : d.Follows call id d :=
  ⟨rfl, fun h _ => h⟩

end DeviceRegion

/-! ### Calls of the device -/

/-- The effect of a call that does not create the region. -/
lemma DeviceCall.follows_effect {call : DeviceCall} {id : Handle .region} {d d' : DeviceRegion}
    (htarget : call.target? = some id) (hcreate : call.op ≠ .createRegion)
    (h : call.effect (some d) = some d') : d.Follows call id d' := by
  refine ⟨keyBlocks_effect hcreate h, fun hall hwritten => ?_⟩
  cases call with
  | createRegion => exact absurd rfl hcreate
  | resizeRegion =>
      cases h
      exact hall
  | destroyRegion => cases h
  | writeRules region images =>
      cases htarget
      cases h
      exact hall.foldl fun image himage _ h => h.write (hwritten images rfl image himage)
  | clearRules region offsets =>
      cases h
      exact hall.foldl fun offset _ _ h => h.clear offset
  | moveRules region src size dst =>
      cases h
      exact hall.moveBlock src size dst
  | setRulePriorities region updates =>
      cases h
      exact hall.foldl fun u _ _ h => h.setPriority u
  | readActivity region offset clear =>
      cases clear <;> cases h <;> exact hall
  | _ => cases htarget

namespace DeviceTables

variable {t t' : DeviceTables} {id : Handle .region} {d d' : DeviceRegion} {call : DeviceCall}

/-- A region after a call is one from before, with its blocks, or the call has created it. -/
theorem region_of_apply {bit : Bool} (h : t.apply call = .ok (t', bit))
    (hd' : t'.regions.get? id = some d') :
    (∃ keyBlocks hwSize, call = .createRegion id keyBlocks hwSize ∧
      t.regions.get? id = none ∧ d' = ⟨keyBlocks, hwSize, .empty, .empty⟩) ∨
    ∃ d, t.regions.get? id = some d ∧ d.Follows call id d' := by
  by_cases htarget : call.target? = some id
  · rw [get?_of_apply_target h htarget] at hd'
    have hfound := (effected_of_apply h).found id htarget
    cases hd : t.regions.get? id with
    | none =>
        have hcreate := hfound.mp hd
        cases call with
        | createRegion region keyBlocks hwSize =>
            cases htarget
            cases hd'
            exact .inl ⟨keyBlocks, hwSize, rfl, rfl, rfl⟩
        | _ => cases hcreate
    | some d =>
        rw [hd] at hd' hfound
        have hcreate : call.op ≠ .createRegion := fun hop => Option.some_ne_none d (hfound.mpr hop)
        exact .inr ⟨d, rfl, call.follows_effect htarget hcreate hd'⟩
  · rw [get?_of_apply_of_ne h htarget] at hd'
    exact .inr ⟨d', hd', .refl⟩

end DeviceTables

/-! ### Regions of the device and key types -/

/-- A key word on a field of a key type. -/
def KeyType.HasWord (kt : KeyType) (w : KeyWord) : Prop :=
  ∃ k, kt.fields.contains k = true ∧ k.code = w.field

/-- A region of the device with the blocks of a key type and rule images on fields of it. -/
structure DeviceRegion.Typed (kt : KeyType) (d : DeviceRegion) : Prop where
  keyBlocks : d.keyBlocks = kt.blocks
  words : d.All fun keys => ∀ w ∈ keys, kt.HasWord w

lemma DeviceRegion.Typed.follows {kt : KeyType} {d d' : DeviceRegion} {call : DeviceCall}
    {id : Handle .region} (h : d.Typed kt) (hd' : d.Follows call id d')
    (hwritten : ∀ images, call = .writeRules id images → ∀ image ∈ images, ∀ w ∈ image.keys,
      kt.HasWord w) : d'.Typed kt :=
  ⟨hd'.keyBlocks.trans h.keyBlocks, hd'.all h.words hwritten⟩

namespace Core

variable {c : Core} {t t' : DeviceTables} {op : Option Operation} {done : Commit OpResult}
  {id : Handle .region}

/-- Every region of the device is one of the model, and typed by the key type that it has there. -/
def Backs (c : Core) (t : DeviceTables) : Prop :=
  ∀ id d, t.regions.get? id = some d → ∃ r, c.regions.regions.get? id = some r ∧
    ∃ ct, c.keyTypes.types.get? r.keyType = some ct ∧ d.Typed ct.value

/-- Whether a call creates no region and writes rule images on fields of the key type only. -/
def Admits (c : Core) : DeviceCall → Prop
  | .createRegion .. => False
  | .writeRules region images => ∀ r, c.regions.regions.get? region = some r →
      ∀ ct, c.keyTypes.types.get? r.keyType = some ct →
        ∀ image ∈ images, ∀ w ∈ image.keys, ct.value.HasWord w
  | _ => True

/-- Such calls keep every region backed, whatever becomes of the commit. -/
lemma keptBy_admits : DeviceTables.KeptBy c.Admits c.Backs := by
  intro call t t' bit hcall happly h id d' hd'
  rcases DeviceTables.region_of_apply happly hd' with ⟨_, _, rfl, -⟩ | ⟨d, hd, hfollows⟩
  · cases hcall
  · obtain ⟨r, hr, ct, hct, htyped⟩ := h id d hd
    refine ⟨r, hr, ct, hct, htyped.follows hfollows fun images hwritten => ?_⟩
    subst hwritten
    exact hcall r hr ct hct

/-- Activity bits do not matter. -/
lemma Backs.hits (h : c.Backs t) {region : Handle .region} {d₀ : DeviceRegion}
    (hd₀ : t.regions.get? region = some d₀) (hits : OrderedSet ℕ) :
    c.Backs (t.setRegion region { d₀ with hits := hits }) := by
  intro id d' hd'
  rw [DeviceTables.setRegion, OrderedMap.get?_insert] at hd'
  split at hd'
  · next heq =>
      cases hd'
      subst heq
      obtain ⟨r, hr, ct, hct, htyped⟩ := h id d₀ hd₀
      exact ⟨r, hr, ct, hct, htyped.keyBlocks, htyped.words⟩
  · exact h id d' hd'

/-- A transition keeps every region backed, but one that it destroys. -/
theorem Backs.transition (h : c.Backs t) (hs : c.Steady) (hcounted : c.UsersCounted)
    (ht : Transition c op done)
    (hgone : ∀ id, op = some (.region (.destroy id)) → t.regions.get? id = none) :
    done.core.Backs t := by
  intro id d hd
  obtain ⟨r, hr, ct, hct, htyped⟩ := h id d hd
  have hop : op ≠ some (.region (.destroy id)) := fun hop => by
    rw [hgone id hop] at hd
    cases hd
  obtain ⟨r', hr', hsame⟩ := ht.region_kept hs.regions hop hr
  have hvalue := ht.keyType_value hs hcounted (users_pos hr)
  rw [hct, Option.map_some, Option.map_eq_some_iff] at hvalue
  obtain ⟨ct', hct', heq⟩ := hvalue
  exact ⟨r', hr', ct', hsame ▸ hct', heq ▸ htyped⟩

/-- A batch of rules is written as images on fields of the key type. -/
lemma admits_setRules {region : Handle .region} {offsets : List ℕ} {rules : List Rule} :
    Calls c.Admits (c.setRules region offsets rules) := by
  intro change hp call hcall
  simp only [setRules, bind_eq_ok, guard_eq_ok, Regions.get_eq_ok, not_not, ne_eq] at hp
  obtain ⟨r, hr, -, -, kt, hkt, _, hbatch, _, -, hp⟩ := hp
  split at hp
  · cases hp
    cases hcall
  · cases hp
    cases hcall
    intro r' hr' ct hct image himage w hw
    obtain rfl := Option.some.inj (hr.symm.trans hr')
    obtain ⟨ct', hct', rfl⟩ := KeyTypes.get_eq_ok.mp hkt
    obtain rfl := Option.some.inj (hct.symm.trans hct')
    obtain ⟨e, he, rfl⟩ := List.mem_map.mp himage
    obtain ⟨k, hk, rfl⟩ := List.mem_map.mp hw
    exact ⟨k.key, ((valid_of_checkBatch hbatch e he).keys k hk).1, rfl⟩

/-- No other call creates a region or writes rules. -/
lemma admits_of_op {call : DeviceCall} {o : Option DeviceOp} (h : some call.op = o)
    (hcreate : o ≠ some .createRegion) (hwrite : o ≠ some .writeRules) : c.Admits call := by
  subst h
  cases call with
  | createRegion => exact absurd rfl hcreate
  | writeRules => exact absurd rfl hwrite
  | _ => trivial

/-- A region is backed from the start if the device accepts it. -/
lemma Backs.createRegion (h : c.Backs t) (hs : c.Steady) (hcounted : c.UsersCounted)
    {keyType : Handle .keyType} {capacity : ℕ} {change : Change (Handle .region)}
    (hp : c.createRegion keyType capacity = .ok change) :
    ∃ done, change.commit = .ok done ∧ ∀ t', change.tables t = .ok t' → done.core.Backs t' := by
  obtain ⟨ct, new, hwSize, regions, keyTypes, hct, hplan, hins, hcount, rfl⟩ :=
    createRegion_eq_ok hp
  refine ⟨_, rfl, fun t' ht' id d' hd' => ?_⟩
  obtain ⟨⟨t', bit⟩, happly, rfl⟩ := map_eq_ok.mp ht'
  have hkept := h.transition hs hcounted (.createRegion hct hplan hins hcount)
    fun id hop => by cases hop
  rcases DeviceTables.region_of_apply happly hd' with ⟨_, _, hcall, -, rfl⟩ | ⟨d, hd, hfollows⟩
  · cases hcall
    refine ⟨_, (Arena.get?_insertWith? hs.regions hins new).trans (if_pos rfl), ?_⟩
    have hvalue := (KeyTypes.recounted_acquire hcount).1.value keyType
    rw [hct, Option.map_some, Option.map_eq_some_iff] at hvalue
    obtain ⟨ct', hct', heq⟩ := hvalue
    exact ⟨ct', hct', congrArg KeyType.blocks heq.symm, fun offset image himage => by cases himage⟩
  · obtain ⟨r, hr, ct', hct', htyped⟩ := hkept id d hd
    exact ⟨r, hr, ct', hct', htyped.follows hfollows fun images hwritten => by cases hwritten⟩

end Core

/-! ### Steps -/

namespace Operation

lemma eq_create_of_deviceOp? {op : Operation} (h : op.deviceOp? = some .createRegion) :
    ∃ keyType capacity, op = .region (.create keyType capacity) := by
  unfold deviceOp? at h
  split at h <;> first | exact ⟨_, _, rfl⟩ | cases h

lemma eq_set_of_deviceOp? {op : Operation} (h : op.deviceOp? = some .writeRules) :
    ∃ region offsets rules, op = .rule (.set region offsets rules) := by
  unfold deviceOp? at h
  split at h <;> first | exact ⟨_, _, _, rfl⟩ | cases h

end Operation

/-- A step that does more to the device than to read it asks for an operation. -/
lemma Step.exists_operation {st : Step} {o : DeviceOp} (h : st.deviceOp? = some o)
    (hread : o ≠ .readActivity) : ∃ op, st.operation? = some op ∧ op.deviceOp? = some o := by
  cases st with
  | operation op => exact ⟨op, rfl, h⟩
  | command cmd params => exact Option.bind_eq_some_iff.mp h
  | peekActivity region offsets =>
      cases h
      exact absurd rfl hread
  | _ => cases h

namespace Controller

variable {s : Controller}

/-- Nothing is left of a region in the device once it has been destroyed. -/
lemma region_eq_none_of_destroy {id : Handle .region} {r : OpResult}
    (h : (s.execute (.region (.destroy id))).result = .ok r) :
    (s.execute (.region (.destroy id))).controller.device.tables.regions.get? id = none := by
  obtain ⟨u, hu, -⟩ := map_eq_ok.mp h
  change (s.apply (s.core.destroyRegion id)).controller.device.tables.regions.get? id = none
  cases hp : s.core.destroyRegion id with
  | error e =>
      rw [hp] at hu
      cases hu
  | ok change =>
      have hcall : change.call = some (.destroyRegion id) := by
        simp only [Core.destroyRegion, bind_eq_ok] at hp
        obtain ⟨_, -, hp⟩ := hp
        split at hp
        · cases hp
        · cases hp
          rfl
      obtain ⟨call?, commit⟩ := change
      obtain rfl : call? = some (.destroyRegion id) := hcall
      rw [hp] at hu
      obtain ⟨bit, happly⟩ := accepted_of_ok hu
      exact DeviceTables.get?_of_apply_target happly rfl

lemma backs_recordHit (h : s.core.Backs s.device.tables) (region : Handle .region) (offset : ℕ) :
    s.core.Backs (s.recordHit region offset).2.device.tables :=
  keeps_recordHit h fun _ hd => h.hits hd _

/-- Where the calls have kept every region backed, the rest of a step does. -/
lemma backs_of_tables (hs : s.core.Steady) (hcounted : s.core.UsersCounted) (st : Step)
    (h : s.core.Backs (s.step st).controller.device.tables) :
    (s.step st).controller.core.Backs (s.step st).controller.device.tables := by
  cases s.follows_step st with
  | done result transition delivered =>
      refine h.transition hs hcounted transition fun id hop => ?_
      rw [step_of_operation? hop] at result ⊢
      exact region_eq_none_of_destroy result
  | failed result unchanged =>
      rw [unchanged]
      exact h

/-- Every step keeps every region of the device backed. -/
theorem backs_step (hs : s.core.Steady) (hcounted : s.core.UsersCounted)
    (h : s.core.Backs s.device.tables) (st : Step) :
    (s.step st).controller.core.Backs (s.step st).controller.device.tables := by
  by_cases hcreate : st.deviceOp? = some .createRegion
  · obtain ⟨op, hop, hdevice⟩ := Step.exists_operation hcreate (by decide)
    obtain ⟨keyType, capacity, rfl⟩ := Operation.eq_create_of_deviceOp? hdevice
    rw [step_of_operation? hop]
    exact related_apply (fun _ => h) fun _ hp => h.createRegion hs hcounted hp
  · refine backs_of_tables hs hcounted st ?_
    by_cases hwrite : st.deviceOp? = some .writeRules
    · obtain ⟨op, hop, hdevice⟩ := Step.exists_operation hwrite (by decide)
      obtain ⟨region, offsets, rules, rfl⟩ := Operation.eq_set_of_deviceOp? hdevice
      rw [step_of_operation? hop]
      exact keeps_apply Core.keptBy_admits Core.admits_setRules h
    · exact keeps_step
        (Core.keptBy_admits.mono fun _ hcall => Core.admits_of_op hcall hcreate hwrite)
        (backs_recordHit h) h

/-! ### Runs -/

variable {config : Config} {given : Option (List KeyBlock)} {sink : Sink}

/-- As long as the counts of key types are wide enough, every region of the device is one of the
model, with the blocks of its key type and rule images on fields of it. -/
theorem backs_run (hs : Controller.start config given sink = .ok s) {steps : List Step}
    (hfit : s.UsersFit steps) : (s.run steps).core.Backs (s.run steps).device.tables := by
  induction steps using List.reverseRecOn with
  | nil =>
      simp only [Controller.start, bind_eq_ok, pure_eq_ok] at hs
      obtain ⟨catalog, -, core, hcore, rfl⟩ := hs
      exact fun id d hd => by cases hd
  | append_singleton steps st ih =>
      rw [run_concat]
      exact backs_step (steady_run hs steps) (usersCounted_run hs hfit.of_concat)
        (ih hfit.of_concat) st

/-- As long as no key type has more regions than its count can tell (by `usersFit_of_maxRegions`
this takes 2³² regions), a stored rule passes its check under the key type of its region and the
configured bounds of priorities; so its priority is within the bounds, its conditions fit distinct
keys of the key type, and its actions are of distinct classes.  For every rule image that the device
holds, each field is exposed by a block of its region; and no call of the device changes the blocks
that a region has been created with. -/
theorem stored_rules_valid (hs : Controller.start config given sink = .ok s) {steps : List Step}
    (hfit : s.UsersFit steps) :
    let c := (s.run steps).core
    let t := (s.run steps).device.tables
    (∀ id r, c.regions.regions.get? id = some r →
      ∃ ct, c.keyTypes.types.get? r.keyType = some ct ∧
        ∀ offset rule, r.table.rule? offset = some rule →
          rule.check ct.value.fields config.rulePriority = .ok () ∧
          config.rulePriority.contains rule.priority = true ∧
          (∀ k ∈ rule.keys, ct.value.fields.contains k.key = true ∧ k.matcher.fits k.key = true) ∧
          (rule.keys.map KeyMatch.key).Nodup ∧ (rule.actions.map Action.actionClass).Nodup) ∧
    (∀ id d, t.regions.get? id = some d →
      ∀ offset image, d.rules.get? offset = some image → ∀ w ∈ image.keys,
        ∃ b ∈ d.keyBlocks, ∃ block k,
          c.catalog.get? b = some block ∧ block.exposes k = true ∧ k.code = w.field) ∧
    (∀ call t' bit, t.apply call = .ok (t', bit) → ∀ id d, t'.regions.get? id = some d →
      (∃ hwSize, call = .createRegion id d.keyBlocks hwSize ∧ t.regions.get? id = none) ∨
        ∃ d₀, t.regions.get? id = some d₀ ∧ d.keyBlocks = d₀.keyBlocks) := by
  refine ⟨fun id r hr => ?_, fun id d hd offset image himage w hw => ?_,
    fun call t' bit happly id d hd => ?_⟩
  · obtain ⟨ct, hct, hvalid⟩ := valid_run hs hfit id r hr
    refine ⟨ct, hct, fun offset rule hrule => ?_⟩
    have hr := hvalid offset rule hrule
    exact ⟨Rule.check_eq_ok.mpr hr, hr.priority, hr.keys, hr.keys_nodup, hr.classes_nodup⟩
  · obtain ⟨r, -, ct, hct, htyped⟩ := backs_run hs hfit id d hd
    obtain ⟨k, hk, hcode⟩ := htyped.words offset image himage w hw
    obtain ⟨hcover, -⟩ := isCover_run hs steps hct
    obtain ⟨b, hb, block, hblock, hexposes⟩ :=
      Catalog.contains_fieldsOf.mp (hcover.exposed k hk)
    exact ⟨b, htyped.keyBlocks ▸ hb, block, k, hblock, hexposes, hcode⟩
  · rcases DeviceTables.region_of_apply happly hd with
      ⟨keyBlocks, hwSize, hcall, hnone, rfl⟩ | ⟨d₀, hd₀, hfollows⟩
    · exact .inl ⟨hwSize, hcall, hnone⟩
    · exact .inr ⟨d₀, hd₀, hfollows.keyBlocks⟩

/-- Asks for a destination address from the first block of a key type that has the source address as
well, stores a rule on both, shifts its priority and moves it. -/
def rearranging : List Step :=
  [.operation (.keyType (.create [.srcIp, .dstIp] (some ⟨3⟩))),
   .operation (.keyType (.create [.dstIp] (some ⟨3⟩))),
   .operation (.region (.create ⟨0, 1⟩ 4)),
   .operation (.rule (.set ⟨0, 1⟩ [0]
     [⟨5, [⟨.srcIp, .ipv4 0x0a000000#32 8⟩, ⟨.dstIp, .ipv4 0x0a000001#32 32⟩], [.discard]⟩])),
   .operation (.rule (.shiftPriority ⟨0, 1⟩ ⟨5, 5, 10⟩)),
   .operation (.rule (.move ⟨0, 1⟩ ⟨0, 1, 3⟩))]

/-- The rule arrives at offset 3 with priority 15, and block 3 exposes the fields of its image. -/
theorem fields_of_rearranging :
    ∃ d image, (fresh.run rearranging).device.tables.regions.get? ⟨0, 1⟩ = some d ∧
      d.keyBlocks = [⟨3⟩] ∧ d.rules.get? 3 = some image ∧ image.priority = 15 ∧
      image.keys.length = 2 ∧
      ∀ w ∈ image.keys, ∃ b ∈ d.keyBlocks, ∃ block k,
        (fresh.run rearranging).core.catalog.get? b = some block ∧ block.exposes k = true ∧
          k.code = w.field := by
  have hfit := usersFit_of_maxRegions start_fresh (by decide) rearranging
  have hsome : (((fresh.run rearranging).device.tables.regions.get? ⟨0, 1⟩).bind fun d =>
      (d.rules.get? 3).map fun image => (d.keyBlocks, image.priority, image.keys.length)) =
        some ([⟨3⟩], 15, 2) := by decide +kernel
  obtain ⟨d, hd, hmap⟩ := Option.bind_eq_some_iff.mp hsome
  obtain ⟨image, himage, heq⟩ := Option.map_eq_some_iff.mp hmap
  simp only [Prod.mk.injEq] at heq
  obtain ⟨hblocks, hpriority, hlength⟩ := heq
  exact ⟨d, image, hd, hblocks, himage, hpriority, hlength,
    (stored_rules_valid start_fresh hfit).2.1 _ d hd 3 image himage⟩

end Controller

end AclPlane
