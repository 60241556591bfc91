import AclPlane.Proofs.Marks.Determined
import AclPlane.Proofs.Room

/-!
Batches and their parts.

A batch takes the references of all its rules before it gives any back; its parts, stored one
after another, take and give back by turns.  But what a rule needs to be stored is a matter of the
outline, which stays, and what is left behind is a matter of marks and statistics, which add up.

* `Marks.store_append`, `Marks.store_perm`: rules are stored part by part, and in any order.
* `Core.Storable`: what a rule needs to be stored; `Core.exists_setRules`,
  `Core.Transition.storable`: a batch is planned where each of its rules can be stored, and only
  there.
* `Controller.Stored`: what a batch leaves behind, in one step or in several.
* `Controller.Admits`: what a controller needs to take a batch; `Admits.stored`, `Admits.run`: it
  takes the batch, and all parts of it as well.
* `Controller.batch_independent`: so a batch and its parts succeed alike and leave the same behind.
-/

namespace AclPlane

/-! ### Batches -/

/-- Stores the rules of a batch at their offsets. -/
def RuleOp.storing (region : Handle .region) (batch : List (ℕ × Rule)) : RuleOp :=
  .set region (batch.map Prod.fst) (batch.map Prod.snd)

/-- The number of references that the rules of a batch hold to an entry. -/
def batchReferences (batch : List (ℕ × Rule)) (e : PoolEntry) : ℕ :=
  (batch.map fun p => p.2.refs.count e).sum

section

variable {batch batch' : List (ℕ × Rule)} {region : Handle .region} {m : Marks} {k : ℕ}
  {e : ℕ × Rule}

lemma zip_map_fst_snd (batch : List (ℕ × Rule)) :
    (batch.map Prod.fst).zip (batch.map Prod.snd) = batch := by
  rw [← List.unzip_fst, ← List.unzip_snd, List.zip_unzip]

lemma batchReferences_append (batch batch' : List (ℕ × Rule)) (e : PoolEntry) :
    batchReferences (batch ++ batch') e = batchReferences batch e + batchReferences batch' e := by
  rw [batchReferences, List.map_append, List.sum_append]
  rfl

lemma batchReferences_perm (h : batch'.Perm batch) (e : PoolEntry) :
    batchReferences batch' e = batchReferences batch e :=
  (h.map _).sum_eq

lemma count_concat_snd (batch : List (ℕ × Rule)) (e : PoolEntry) :
    (PoolRefs.concat ((batch.map Prod.snd).map Rule.refs)).count e = batchReferences batch e := by
  rw [Core.count_concat_refs, List.map_map]
  rfl

namespace Marks

lemma store_append (m : Marks) (batch batch' : List (ℕ × Rule)) :
    m.store (batch ++ batch') = (m.store batch).store batch' := List.foldl_append ..

/-- Slots outside a batch stay as they are. -/
lemma store_of_not_mem (h : k ∉ batch.map Prod.fst) : m.store batch k = m k := by
  induction batch generalizing m with
  | nil => rfl
  | cons e batch ih =>
      rw [List.map_cons, List.mem_cons, not_or] at h
      exact (ih h.2).trans (if_neg h.1)

/-- Rules at distinct offsets are all there in the end. -/
lemma store_of_mem (hdistinct : (batch.map Prod.fst).Nodup) (h : e ∈ batch) :
    m.store batch e.1 = some (e.2, false) := by
  induction batch generalizing m with
  | nil => exact absurd h List.not_mem_nil
  | cons first batch ih =>
      rw [List.map_cons, List.nodup_cons] at hdistinct
      rcases List.mem_cons.mp h with rfl | h
      · exact (store_of_not_mem hdistinct.1).trans (if_pos rfl)
      · exact ih hdistinct.2 h

/-- Rules at distinct offsets may be stored in any order. -/
theorem store_perm (h : batch'.Perm batch) (hdistinct : (batch.map Prod.fst).Nodup) :
    m.store batch' = m.store batch := by
  have hdistinct' : (batch'.map Prod.fst).Nodup := (h.map Prod.fst).nodup_iff.mpr hdistinct
  funext k
  by_cases hk : k ∈ batch.map Prod.fst
  · obtain ⟨e, he, rfl⟩ := List.mem_map.mp hk
    rw [store_of_mem hdistinct he, store_of_mem hdistinct' (h.mem_iff.mpr he)]
  · rw [store_of_not_mem hk, store_of_not_mem fun hk' => hk ((h.map Prod.fst).mem_iff.mp hk')]

end Marks

namespace Operation

lemma mark_storing (id : Handle .region) (m : Marks) :
    (rule (.storing region batch)).mark id m = if region = id then m.store batch else m := by
  simp only [mark, RuleOp.mark, RuleOp.storing, RuleOp.region, zip_map_fst_snd]

lemma mark_storing_append (id : Handle .region) (m : Marks) :
    (rule (.storing region (batch ++ batch'))).mark id m =
      (rule (.storing region batch')).mark id ((rule (.storing region batch)).mark id m) := by
  by_cases hid : region = id
  · simp only [mark_storing, if_pos hid, Marks.store_append]
  · simp only [mark_storing, if_neg hid]

lemma mark_storing_perm (h : batch'.Perm batch) (hdistinct : (batch.map Prod.fst).Nodup)
    (id : Handle .region) (m : Marks) :
    (rule (.storing region batch')).mark id m = (rule (.storing region batch)).mark id m := by
  rw [mark_storing, mark_storing, Marks.store_perm h hdistinct]

end Operation

end

/-! ### What a rule needs -/

namespace Pools

variable {p : Pools} {refs refs' : PoolRefs}

lemma checkRefs_append : p.checkRefs (refs ++ refs') = .ok () ↔
    p.checkRefs refs = .ok () ∧ p.checkRefs refs' = .ok () := by
  have happend : refs ++ refs' = ⟨refs.pbs ++ refs'.pbs, refs.ranges ++ refs'.ranges,
      refs.customBytes ++ refs'.customBytes, refs.portLists ++ refs'.portLists⟩ := rfl
  simp only [checkRefs, bind_eq_ok, checkAll_eq_ok, happend, List.forall_mem_append, exists_const]
  tauto

/-- References are there together if each of them is there. -/
lemma checkRefs_concat {l : List PoolRefs} :
    p.checkRefs (PoolRefs.concat l) = .ok () ↔ ∀ refs ∈ l, p.checkRefs refs = .ok () := by
  induction l with
  | nil => exact iff_of_true rfl nofun
  | cons refs l ih =>
      rw [List.forall_mem_cons, ← ih]
      exact checkRefs_append

end Pools

namespace Core

variable {c c' : Core} {region : Handle .region} {r : Region} {ct : Counted KeyType}
  {batch : List (ℕ × Rule)} {e : ℕ × Rule} {done : Commit OpResult}

/-- The pairs of a batch pass if each of them does and their offsets are distinct. -/
lemma checkBatch_of_valid {t : RuleTable} {fields : FieldSet} {bounds : PriorityRange}
    {seen : List ℕ} (hdistinct : (batch.map Prod.fst).Nodup)
    (h : ∀ e ∈ batch, e.1 < t.capacity ∧ e.1 ∉ seen ∧ e.2.Valid fields bounds) :
    checkBatch t fields bounds seen batch = .ok () := by
  induction batch generalizing seen with
  | nil => rfl
  | cons e batch ih =>
      obtain ⟨⟨hlt, hseen, hvalid⟩, hrest⟩ := List.forall_mem_cons.mp h
      rw [List.map_cons, List.nodup_cons] at hdistinct
      simp only [checkBatch, bind_eq_ok, guard_eq_ok, RuleTable.checkOffset_eq_ok]
      refine ⟨(), hlt, by simpa using hseen, (), Rule.check_eq_ok.mpr hvalid,
        ih hdistinct.2 fun e' he' => ?_⟩
      obtain ⟨hlt', hseen', hvalid'⟩ := hrest e' he'
      refine ⟨hlt', fun hmem => ?_, hvalid'⟩
      rcases List.mem_cons.mp hmem with heq | hmem
      · exact hdistinct.1 (heq ▸ List.mem_map_of_mem he')
      · exact hseen' hmem

/-- A rule can be stored at an offset of a region: the region is live and has the slot, the rule is
valid for its key type, and the entries are live that the rule refers to. -/
def Storable (c : Core) (region : Handle .region) (e : ℕ × Rule) : Prop :=
  ∃ r ct, c.regions.regions.get? region = some r ∧ c.keyTypes.types.get? r.keyType = some ct ∧
    e.1 < r.table.capacity ∧ e.2.Valid ct.value.fields c.config.rulePriority ∧
    c.pools.checkRefs e.2.refs = .ok ()

/-- What a rule needs is a matter of the outline. -/
lemma Storable.of_outline (h : c.Storable region e) (houtline : c'.outline = c.outline) :
    c'.Storable region e := by
  obtain ⟨r, ct, hr, hct, hlt, hvalid, hrefs⟩ := h
  obtain ⟨r', hr', hsame⟩ := exists_of_outline houtline hr
  obtain ⟨hconfig, -, hkeyTypes, -, -, -, -, hpools, -⟩ := Core.mk.inj houtline
  refine ⟨r', ct, hr', ?_, ?_, ?_, ?_⟩
  · rw [hkeyTypes, Region.keyType_of_outline hsame]
    exact hct
  · rw [Region.capacity_of_outline hsame]
    exact hlt
  · rw [hconfig]
    exact hvalid
  · rw [Pools.checkRefs_of_outline hpools]
    exact hrefs

/-- A batch is planned if each of its rules can be stored. -/
theorem exists_setRules (hr : c.regions.regions.get? region = some r)
    (hct : c.keyTypes.types.get? r.keyType = some ct) (hdistinct : (batch.map Prod.fst).Nodup)
    (hlength : batch.length ≤ c.config.maxRuleBatch) (h : ∀ e ∈ batch, c.Storable region e) :
    ∃ change, c.ruleChange (.storing region batch) = .ok change := by
  have hbatch : checkBatch r.table ct.value.fields c.config.rulePriority [] batch = .ok () := by
    refine checkBatch_of_valid hdistinct fun e he => ?_
    obtain ⟨r', ct', hr', hct', hlt, hvalid, -⟩ := h e he
    obtain rfl := Option.some.inj (hr.symm.trans hr')
    obtain rfl := Option.some.inj (hct.symm.trans hct')
    exact ⟨hlt, List.not_mem_nil, hvalid⟩
  have hrefs : c.pools.checkRefs (PoolRefs.concat ((batch.map Prod.snd).map Rule.refs)) =
      .ok () := by
    refine Pools.checkRefs_concat.mpr ?_
    simp only [List.mem_map]
    rintro _ ⟨_, ⟨e, he, rfl⟩, rfl⟩
    obtain ⟨-, -, -, -, -, -, hrefs⟩ := h e he
    exact hrefs
  simp only [ruleChange, RuleOp.storing, setRules, Regions.get_eq_ok.mpr hr,
    KeyTypes.get_eq_ok.mpr ⟨ct, hct, rfl⟩, zip_map_fst_snd, hbatch, hrefs, ok_bind,
    List.length_map, ne_eq, not_true_eq_false, if_false, Nat.not_lt.mpr hlength]
  split
  · exact ⟨_, rfl⟩
  · exact ⟨_, rfl⟩

/-- What has been stored could be stored. -/
lemma Transition.storable {offsets : List ℕ} {rules : List Rule}
    (ht : Transition c (some (.rule (.set region offsets rules))) done)
    (he : e ∈ offsets.zip rules) : c.Storable region e := by
  obtain ⟨rfl, -⟩ | ⟨r, ct, _, _, _, _, hr, -, hct, hchecked, hlive, -⟩ := ht.of_set
  · rw [List.zip_nil_right] at he
    exact absurd he List.not_mem_nil
  · refine ⟨r, ct, hr, hct, ((of_checkBatch hchecked).1 e he).1,
      valid_of_checkBatch hchecked e he, ?_⟩
    exact Pools.checkRefs_concat.mp hlive _ (List.mem_map_of_mem (List.of_mem_zip he).2)

/-- A batch adds the references of its rules, at most. -/
lemma Transition.references_le {offsets : List ℕ} {rules : List Rule}
    (ht : Transition c (some (.rule (.set region offsets rules))) done) (e : PoolEntry) :
    done.core.references e ≤
      c.references e + (PoolRefs.concat (rules.map Rule.refs)).count e := by
  obtain ⟨-, hcore⟩ | ⟨r, _, _, _, _, table, hr, hlengths, -, -, -, -, hstored, -, hcore⟩ :=
    ht.of_set
  · rw [hcore]
    exact Nat.le_add_right _ _
  · have htotal := total_setTable hr table fun r => r.table.refs.count e
    have hexchange := count_refs_setAll hlengths hstored e
    simp only [hcore, references, ruleReferences, withTable] at htotal ⊢
    omega

end Core

/-! ### What a batch leaves behind -/

namespace Controller

variable {s s' s'' : Controller} {region : Handle .region} {r : Region}
  {batch batch' : List (ℕ × Rule)} {parts : List (List (ℕ × Rule))}

/-- What a batch leaves behind, in one step or in several. -/
structure Stored (s : Controller) (region : Handle .region) (batch : List (ℕ × Rule))
    (s' : Controller) : Prop where
  reachable : Reachable s'
  outline_eq : s'.core.outline = s.core.outline
  faults_eq : s'.device.faults = s.device.faults
  carries : ∀ marks, s.core.Carries s.device.tables marks →
    s'.core.Carries s'.device.tables fun id =>
      (Operation.rule (.storing region batch)).mark id (marks id)
  stats_eq : s'.core.stats =
    { s.core.stats with rulesSet := s.core.stats.rulesSet + batch.length }
  refCount_le : ∀ e, s'.core.pools.refCount e ≤ s.core.pools.refCount e + batchReferences batch e

namespace Stored

/-- No rules leave everything as it is. -/
lemma nil (h : Reachable s) : s.Stored region [] s where
  reachable := h
  outline_eq := rfl
  faults_eq := rfl
  carries := fun marks hm => by
    simp only [Operation.mark_storing, Marks.store, List.foldl_nil, ite_self]
    exact hm
  stats_eq := rfl
  refCount_le := fun _ => Nat.le_add_right _ _

/-- One batch after another leaves behind what both of them do together. -/
lemma trans (h : s.Stored region batch s') (h' : s'.Stored region batch' s'') :
    s.Stored region (batch ++ batch') s'' where
  reachable := h'.reachable
  outline_eq := h'.outline_eq.trans h.outline_eq
  faults_eq := h'.faults_eq.trans h.faults_eq
  carries := fun marks hm => by
    simp only [Operation.mark_storing_append]
    exact h'.carries _ (h.carries marks hm)
  stats_eq := by
    rw [h'.stats_eq, h.stats_eq, List.length_append, Nat.add_assoc]
  refCount_le := fun e => by
    have hle := h.refCount_le e
    have hle' := h'.refCount_le e
    rw [batchReferences_append]
    omega

/-- The order of a batch makes no difference to model and device. -/
theorem eq_of_perm (hs : Reachable s) (hdistinct : (batch.map Prod.fst).Nodup)
    (hperm : batch'.Perm batch) (h : s.Stored region batch s') (h' : s.Stored region batch' s'') :
    s''.core = s'.core ∧ s''.device.tables = s'.device.tables := by
  obtain ⟨marks, hmarks⟩ := hs.exists_carries
  have hm' := h'.carries marks hmarks
  simp only [Operation.mark_storing_perm hperm hdistinct] at hm'
  refine h'.reachable.eq_of_carries h.reachable (h'.outline_eq.trans h.outline_eq.symm) hm'
    (h.carries marks hmarks) ?_
  rw [h'.stats_eq, h.stats_eq, hperm.length_eq]

end Stored

/-! ### Taking batches -/

/-- What a batch needs of the controller that is to take it. -/
structure Admits (s : Controller) (region : Handle .region) (batch : List (ℕ × Rule)) :
    Prop where
  reachable : Reachable s
  live : ∃ r, s.core.regions.regions.get? region = some r
  unarmed : s.device.faults.lookup .writeRules = none
  distinct : (batch.map Prod.fst).Nodup
  length_le : batch.length ≤ s.core.config.maxRuleBatch
  storable : ∀ e ∈ batch, s.core.Storable region e
  room : ∀ e, s.core.pools.refCount e + batchReferences batch e ≤ maxCount

/-- What is stored in a step that succeeds has been storable, and the outline stays. -/
lemma storable_of_ok (hok : (s.execute (.rule (.storing region batch))).result.isOk = true) :
    (∀ e ∈ batch, s.core.Storable region e) ∧
      (s.execute (.rule (.storing region batch))).controller.core.outline = s.core.outline := by
  cases s.follows_execute (.rule (.storing region batch)) with
  | failed result unchanged =>
      rw [result] at hok
      cases hok
  | done result transition delivered =>
      refine ⟨fun e he => transition.storable ?_, transition.outline_eq⟩
      rw [zip_map_fst_snd]
      exact he

/-- A batch of rules that can be stored is stored, while no fault is armed for it. -/
lemma isOk_storing (h : Reachable s) (hr : s.core.regions.regions.get? region = some r)
    (hunarmed : s.device.faults.lookup .writeRules = none)
    (hdistinct : (batch.map Prod.fst).Nodup) (hlength : batch.length ≤ s.core.config.maxRuleBatch)
    (hstorable : ∀ e ∈ batch, s.core.Storable region e) :
    (s.execute (.rule (.storing region batch))).result.isOk = true := by
  obtain ⟨d, -, hmirrored⟩ := h.inStep.mirrors.exists_region hr
  obtain ⟨ct, hct, -⟩ := hmirrored.keyBlocks
  obtain ⟨change, hplan⟩ := Core.exists_setRules hr hct hdistinct hlength hstorable
  have hfree : s.Unarmed (.rule (.storing region batch)) := by
    intro o ho
    cases ho
    exact hunarmed
  rw [result_rule h.inStep hfree, hplan]
  rfl

/-- What a batch leaves behind in one step. -/
lemma stored_of_ok (h : Reachable s)
    (hroom : ∀ e, s.core.pools.refCount e + batchReferences batch e ≤ maxCount)
    (hok : (s.execute (.rule (.storing region batch))).result.isOk = true) :
    s.Stored region batch (s.execute (.rule (.storing region batch))).controller := by
  have hreachable : Reachable (s.execute (.rule (.storing region batch))).controller := by
    refine h.rule fun e _ => ?_
    rw [count_concat_snd]
    exact hroom e
  obtain ⟨result, hresult⟩ := isOk_iff.mp hok
  have hruled := ruled_of_ok h.inStep hresult
  obtain ⟨done, ht, hcore⟩ := hruled.transition
  obtain ⟨r, -, hstats⟩ := hruled.stats_eq
  refine ⟨hreachable, hruled.outline_eq, hruled.faults_eq, hruled.carries, ?_, fun e => ?_⟩
  · rw [hstats, RuleOp.storing, RuleOp.account, List.length_map]
  · have hle := ht.references_le e
    rw [count_concat_snd, hcore] at hle
    rw [hreachable.inStep.sound.references_eq, h.inStep.sound.references_eq]
    exact hle

namespace Admits

lemma isOk (h : s.Admits region batch) :
    (s.execute (.rule (.storing region batch))).result.isOk = true := by
  obtain ⟨r, hr⟩ := h.live
  exact isOk_storing h.reachable hr h.unarmed h.distinct h.length_le h.storable

/-- A batch that is admitted is stored. -/
lemma stored (h : s.Admits region batch) :
    s.Stored region batch (s.execute (.rule (.storing region batch))).controller :=
  stored_of_ok h.reachable h.room h.isOk

lemma left (h : s.Admits region (batch ++ batch')) : s.Admits region batch where
  reachable := h.reachable
  live := h.live
  unarmed := h.unarmed
  distinct := by
    have hdistinct := h.distinct
    rw [List.map_append] at hdistinct
    exact hdistinct.of_append_left
  length_le := (List.sublist_append_left batch batch').length_le.trans h.length_le
  storable := fun e he => h.storable e (List.mem_append_left _ he)
  room := fun e => by
    have hroom := h.room e
    rw [batchReferences_append] at hroom
    omega

/-- Once a part is stored, the rest is admitted. -/
lemma after (h : s.Admits region (batch ++ batch')) (hs : s.Stored region batch s') :
    s'.Admits region batch' where
  reachable := hs.reachable
  live := by
    obtain ⟨r, hr⟩ := h.live
    obtain ⟨r', hr', -⟩ := Core.exists_of_outline hs.outline_eq hr
    exact ⟨r', hr'⟩
  unarmed := by
    rw [hs.faults_eq]
    exact h.unarmed
  distinct := by
    have hdistinct := h.distinct
    rw [List.map_append] at hdistinct
    exact hdistinct.of_append_right
  length_le := by
    obtain ⟨hconfig, -⟩ := Core.mk.inj hs.outline_eq
    rw [hconfig]
    exact (List.sublist_append_right batch batch').length_le.trans h.length_le
  storable := fun e he => (h.storable e (List.mem_append_right _ he)).of_outline hs.outline_eq
  room := fun e => by
    have hroom := h.room e
    have hle := hs.refCount_le e
    rw [batchReferences_append] at hroom
    omega

lemma perm (h : s.Admits region batch) (hperm : batch'.Perm batch) : s.Admits region batch' where
  reachable := h.reachable
  live := h.live
  unarmed := h.unarmed
  distinct := (hperm.map Prod.fst).nodup_iff.mpr h.distinct
  length_le := hperm.length_eq.trans_le h.length_le
  storable := fun e he => h.storable e (hperm.mem_iff.mp he)
  room := fun e => by
    rw [batchReferences_perm hperm]
    exact h.room e

end Admits

/-! ### Runs -/

/-- Every step of a run succeeds. -/
def Succeeds : Controller → List Step → Prop
  | _, [] => True
  | s, st :: steps => (s.step st).result.isOk = true ∧ (s.step st).controller.Succeeds steps

/-- Stores batches one after another. -/
def storingAll (region : Handle .region) (parts : List (List (ℕ × Rule))) : List Step :=
  parts.map fun part => .operation (.rule (.storing region part))

/-- The parts of a batch that is admitted are stored one after another. -/
theorem Admits.run (h : s.Admits region parts.flatten) :
    s.Succeeds (storingAll region parts) ∧
      s.Stored region parts.flatten (s.run (storingAll region parts)) := by
  induction parts generalizing s with
  | nil => exact ⟨trivial, .nil h.reachable⟩
  | cons part parts ih =>
      rw [List.flatten_cons] at h ⊢
      obtain ⟨hrest, hstored⟩ := ih (h.after h.left.stored)
      exact ⟨⟨h.left.isOk, hrest⟩, h.left.stored.trans hstored⟩

/-- Rules that are stored one after another could all be stored in the beginning. -/
lemma storable_of_succeeds (h : s.Succeeds (storingAll region parts)) {e : ℕ × Rule}
    (he : e ∈ parts.flatten) : s.core.Storable region e := by
  induction parts generalizing s with
  | nil => exact absurd he List.not_mem_nil
  | cons part parts ih =>
      obtain ⟨hok, hrest⟩ := h
      obtain ⟨hstorable, houtline⟩ := storable_of_ok hok
      rcases List.mem_append.mp he with he | he
      · exact hstorable e he
      · exact (ih hrest he).of_outline houtline.symm

/-! ### Slots -/

/-- What a slot holds: the rule in the model, its image in the device, and its bit. -/
def slot (s : Controller) (region : Handle .region) (k : ℕ) :
    Option Rule × Option RuleImage × Bool :=
  ((s.core.regions.regions.get? region).bind fun r => r.table.rule? k, s.device.image? region k,
    s.device.bit region k)

/-- The marks tell what the slots hold. -/
lemma slot_eq (h : s.core.InStep s.device.tables) {marks : Handle .region → Marks}
    (hm : s.core.Carries s.device.tables marks) (region : Handle .region) (k : ℕ) :
    s.slot region k = ((marks region).rule? k,
      ((marks region).rule? k).map fun rule => rule.image k, (marks region).bit k) := by
  rw [slot, bit_eq h hm]
  cases hr : s.core.regions.regions.get? region with
  | none =>
      rw [hm.gone region hr, Device.image?, h.mirrors.region_eq_none hr]
      rfl
  | some r => rw [Option.bind_some, image?_eq h hr, rule?_eq h hm hr]

/-- A batch fills its slots, with no bits set, and leaves all others alone. -/
lemma Stored.slot_eq (hs : Reachable s) (hdistinct : (batch.map Prod.fst).Nodup)
    (h : s.Stored region batch s') :
    (∀ e ∈ batch, s'.slot region e.1 = (some e.2, some (e.2.image e.1), false)) ∧
      ∀ id k, (id = region → k ∉ batch.map Prod.fst) → s'.slot id k = s.slot id k := by
  obtain ⟨marks, hm⟩ := hs.exists_carries
  have hslot := Controller.slot_eq h.reachable.inStep (h.carries marks hm)
  refine ⟨fun e he => ?_, fun id k hk => ?_⟩
  · rw [hslot, Operation.mark_storing, if_pos rfl, Marks.rule?, Marks.bit,
      Marks.store_of_mem hdistinct he]
    rfl
  · have hkept : (Operation.rule (.storing region batch)).mark id (marks id) k = marks id k := by
      rw [Operation.mark_storing]
      split
      · next hid => exact Marks.store_of_not_mem (hk hid.symm)
      · rfl
    rw [hslot, Controller.slot_eq hs.inStep hm, Marks.rule?, Marks.rule?, Marks.bit, Marks.bit,
      hkept]

/-! ### Batches and their parts -/

/-- Take a batch of rules at distinct offsets, no longer than allowed, for a live region of any
reachable controller, and divide it into parts in any way: the batch in another order, consecutive
pieces of it, or single rules in any order.  As long as no fault is armed for it and no reference
count passes its greatest value in it, the batch is stored exactly if its parts are all stored one
after another.  Then the parts leave the same model behind as the batch, with its tables, their
counts, the reference counts of the pools and the statistics, and the same tables of the device:
every slot of the batch has its rule in model and device, with its bit clear, and all other slots
have what they had. -/
theorem batch_independent (h : Reachable s) (hr : s.core.regions.regions.get? region = some r)
    (hunarmed : s.device.faults.lookup .writeRules = none)
    (hdistinct : (batch.map Prod.fst).Nodup)
    (hlength : batch.length ≤ s.core.config.maxRuleBatch)
    (hroom : s.RunHasRoom [.operation (.rule (.storing region batch))])
    (hparts : parts.flatten.Perm batch) :
    let stored := s.execute (.rule (.storing region batch))
    let after := s.run (storingAll region parts)
    (stored.result.isOk = true ↔ s.Succeeds (storingAll region parts)) ∧
    (stored.result.isOk = true →
      after.core = stored.controller.core ∧
      after.device.tables = stored.controller.device.tables ∧
      (∀ e ∈ batch, after.slot region e.1 = (some e.2, some (e.2.image e.1), false)) ∧
      ∀ id k, (id = region → k ∉ batch.map Prod.fst) → after.slot id k = s.slot id k) := by
  intro stored after
  have hadmits : stored.result.isOk = true → s.Admits region batch := by
    intro hok
    refine ⟨h, ⟨r, hr⟩, hunarmed, hdistinct, hlength, (storable_of_ok hok).1, fun e => ?_⟩
    rw [← count_concat_snd]
    exact room_of_hasRoom h.inStep.sound (hroom.1 hok _ rfl) e
  refine ⟨⟨fun hok => ((hadmits hok).perm hparts).run.1, fun hrun => ?_⟩, fun hok => ?_⟩
  · exact isOk_storing h hr hunarmed hdistinct hlength fun e he =>
      storable_of_succeeds hrun (hparts.mem_iff.mpr he)
  · obtain ⟨-, hafter⟩ := ((hadmits hok).perm hparts).run
    obtain ⟨hcore, htables⟩ := Stored.eq_of_perm h hdistinct hparts (hadmits hok).stored hafter
    obtain ⟨hfilled, hothers⟩ := hafter.slot_eq h ((hparts.map Prod.fst).nodup_iff.mpr hdistinct)
    refine ⟨hcore, htables, fun e he => hfilled e (hparts.mem_iff.mpr he), fun id k hk => ?_⟩
    exact hothers id k fun hid hmem => hk hid ((hparts.map Prod.fst).mem_iff.mp hmem)

/-- Replaces the two rules of the session by rules without references, and stores a third one that
refers to their entry. -/
def replacing : List (ℕ × Rule) :=
  [(3, ⟨8, [], [.pbs ⟨0, 1⟩]⟩), (1, ⟨7, [], []⟩), (2, ⟨9, [], []⟩)]

/-- The third rule comes last. -/
def replacingParts : List (List (ℕ × Rule)) :=
  [[(2, ⟨9, [], []⟩), (1, ⟨7, [], []⟩)], [(3, ⟨8, [], [.pbs ⟨0, 1⟩]⟩)]]

/-- The count of the entry falls to zero between the parts, but never in the batch.  A packet has
hit the first rule; the one that replaces it begins with its bit clear. -/
theorem batch_independent_of_replacing :
    let s := fresh.run (session ++ [.recordHit ⟨0, 1⟩ 1])
    let stored := s.execute (.rule (.storing ⟨0, 1⟩ replacing))
    let between := s.run (storingAll ⟨0, 1⟩ (replacingParts.take 1))
    let after := s.run (storingAll ⟨0, 1⟩ replacingParts)
    stored.result.isOk = true ∧ s.Succeeds (storingAll ⟨0, 1⟩ replacingParts) ∧
    after.core = stored.controller.core ∧
    after.device.tables = stored.controller.device.tables ∧
    s.core.pools.refCount (.pbs ⟨0, 1⟩) = 2 ∧ between.core.pools.refCount (.pbs ⟨0, 1⟩) = 0 ∧
    after.core.pools.refCount (.pbs ⟨0, 1⟩) = 1 ∧
    (s.slot ⟨0, 1⟩ 1).2.2 = true ∧
    after.slot ⟨0, 1⟩ 1 = (some ⟨7, [], []⟩, some ⟨1, 7, [], []⟩, false) := by
  intro s stored between after
  have hs : Reachable s := (Reachable.start start_fresh).run (by decide +kernel)
  have hlive : (s.core.regions.regions.get? ⟨0, 1⟩).isSome = true := by decide +kernel
  obtain ⟨r, hr⟩ := Option.isSome_iff_exists.mp hlive
  have hok : stored.result.isOk = true := by decide +kernel
  have hparts : replacingParts.flatten.Perm replacing := by decide
  obtain ⟨hiff, hdone⟩ := batch_independent hs hr (by decide +kernel) (by decide)
    (by decide +kernel) (by decide +kernel) hparts
  obtain ⟨hcore, htables, hfilled, -⟩ := hdone hok
  exact ⟨hok, hiff.mp hok, hcore, htables, by decide +kernel, by decide +kernel,
    by decide +kernel, by decide +kernel, hfilled (1, ⟨7, [], []⟩) (by decide)⟩

end Controller

end AclPlane
