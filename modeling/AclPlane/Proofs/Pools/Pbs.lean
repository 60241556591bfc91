import AclPlane.Proofs.Pools
import AclPlane.Proofs.Pools.Values

/-!
When two PBS entries have the same destination.

An entry is created for a destination that no other has, and edited to one that no other has.
Adding ports to a port group and taking ports out of one look at that group alone, so either can
end with the ports of another group.

* `PbsPool.Merges`: a request gives a port group the ports of another.
* `PbsPool.DistinctOn.handle`: only such a request makes two destinations equal.
* `PbsPool.destinations_distinct_iff`: so destinations stay distinct in exactly the runs without
  such a request, and those that are not port groups stay distinct in any case.
* `PbsPool.equal_after_deleting`: two groups are equal after a port has been taken out of one.
-/

namespace AclPlane.PbsPool

variable {p q : PbsPool} {id other : Handle .pbs} {d : PbsDestination} {ports : List PortId}

/-! ### Requests -/

/-- A request to the pool of PBS entries. -/
inductive Request where
  | create (destination : PbsDestination)
  | edit (id : Handle .pbs) (destination : PbsDestination)
  | addPorts (id : Handle .pbs) (ports : List PortId)
  | deletePorts (id : Handle .pbs) (ports : List PortId)
  | destroy (id : Handle .pbs)
  | acquire (id : Handle .pbs)
  | release (id : Handle .pbs)

/-- What comes of a request, without the handle that it may give. -/
def answer (p : PbsPool) : Request → Except AclError PbsPool
  | .create destination => (create p destination).map Prod.snd
  | .edit id destination => edit p id destination
  | .addPorts id ports => addPorts p id ports
  | .deletePorts id ports => deletePorts p id ports
  | .destroy id => (Pool.remove p id).map Prod.snd
  | .acquire id => Pool.acquire p id
  | .release id => Pool.release p id

/-- The pool after a request; one that fails leaves it as it is. -/
def handle (p : PbsPool) (r : Request) : PbsPool :=
  match answer p r with
  | .ok q => q
  | .error _ => p

/-- The pool after several requests. -/
def handleAll (p : PbsPool) (requests : List Request) : PbsPool := requests.foldl handle p

lemma handleAll_concat (p : PbsPool) (requests : List Request) (r : Request) :
    handleAll p (requests ++ [r]) = handle (handleAll p requests) r := by
  rw [handleAll, List.foldl_append]
  rfl

/-- Two live entries never have the same destination, if it is one that `P` speaks of. -/
def DistinctOn (P : PbsDestination → Prop) (p : PbsPool) : Prop :=
  ∀ id other d, P d → p.value? id = some d → p.value? other = some d → id = other

/-- Two live entries never have the same destination. -/
def Distinct : PbsPool → Prop := DistinctOn fun _ => True

/-- A request gives the port group of an entry other ports. -/
inductive Regroups (p : PbsPool) : Request → Handle .pbs → List PortId → Prop where
  | add {id : Handle .pbs} {current ports : List PortId}
      (found : p.value? id = some (.portGroup current)) :
      Regroups p (.addPorts id ports) id (appendPorts current ports)
  | delete {id : Handle .pbs} {current ports : List PortId}
      (found : p.value? id = some (.portGroup current)) (listed : ∀ port ∈ ports, port ∈ current)
      (left : current.filter (fun port => !ports.contains port) ≠ []) :
      Regroups p (.deletePorts id ports) id (current.filter fun port => !ports.contains port)

/-- A request gives a port group the ports of another entry. -/
def Merges (p : PbsPool) (r : Request) : Prop :=
  ∃ id ports other, Regroups p r id ports ∧ other ≠ id ∧ p.value? other = some (.portGroup ports)

/-! ### What each request has checked -/

lemma portGroup_eq_ok : portGroup p id = .ok ports ↔ p.value? id = some (.portGroup ports) := by
  rw [portGroup, bind_eq_ok]
  constructor
  · rintro ⟨d, hd, h⟩
    cases d <;> cases h
    exact Pool.get_eq_ok.mp hd
  · exact fun h => ⟨_, Pool.get_eq_ok.mpr h, rfl⟩

lemma create_eq_ok (hc : p.entries.Consistent) : create p d = .ok (id, q) ↔
    d.check = .ok () ∧ (∀ k, p.value? k ≠ some d) ∧ p.insert d = .ok (id, q) := by
  simp only [create, bind_eq_ok]
  cases hfind : p.toList.find? (fun e => e.2 == d) with
  | some e =>
      have hmem := List.mem_of_find?_eq_some hfind
      have heq : e.2 = d := by simpa using List.find?_some hfind
      constructor
      · rintro ⟨_, -, h⟩
        cases h
      · rintro ⟨-, hnone, -⟩
        exact absurd (heq ▸ (Pool.mem_toList_iff hc).mp hmem) (hnone e.1)
  | none =>
      have hnone : ∀ k, p.value? k ≠ some d := by
        intro k hk
        have hmem := (Pool.mem_toList_iff hc).mpr hk
        simpa using List.find?_eq_none.mp hfind _ hmem
      constructor
      · rintro ⟨_, hcheck, h⟩
        exact ⟨hcheck, hnone, h⟩
      · rintro ⟨hcheck, -, h⟩
        exact ⟨(), hcheck, h⟩

lemma edit_eq_ok (hc : p.entries.Consistent) : edit p id d = .ok q ↔
    d.check = .ok () ∧ (∀ k, k ≠ id → p.value? k ≠ some d) ∧ p.set id d = .ok q := by
  have hany : p.toList.any (fun e => e.1 != id && e.2 == d) = true ↔
      ∃ k, k ≠ id ∧ p.value? k = some d := by
    simp only [List.any_eq_true, Prod.exists, Pool.mem_toList_iff hc, Bool.and_eq_true, bne_iff_ne,
      beq_iff_eq]
    constructor
    · rintro ⟨k, d', hk, hne, rfl⟩
      exact ⟨k, hne, hk⟩
    · rintro ⟨k, hne, hk⟩
      exact ⟨k, d, hk, hne, rfl⟩
  simp only [edit, bind_eq_ok, guard_eq_ok, hany, not_exists, not_and]
  constructor
  · rintro ⟨_, hcheck, hnone, h⟩
    exact ⟨hcheck, hnone, h⟩
  · rintro ⟨hcheck, hnone, h⟩
    exact ⟨(), hcheck, hnone, h⟩

/-- Adding ports and taking ports out only look at the entry itself. -/
lemma exists_regroups {r : Request} (h : answer p r = .ok q)
    (hr : r = .addPorts id ports ∨ r = .deletePorts id ports) :
    ∃ new, Regroups p r id new ∧ p.set id (.portGroup new) = .ok q := by
  rcases hr with rfl | rfl
  · simp only [answer, addPorts, bind_eq_ok, portGroup_eq_ok] at h
    obtain ⟨current, hcurrent, h⟩ := h
    exact ⟨_, .add hcurrent, h⟩
  · simp only [answer, deletePorts, bind_eq_ok, portGroup_eq_ok] at h
    obtain ⟨current, hcurrent, h⟩ := h
    split at h
    · cases h
    · next hfind =>
        simp only [List.find?_eq_none, Bool.not_eq_true', List.contains_iff_mem,
          Bool.not_eq_false] at hfind
        rw [guard_eq_ok, List.isEmpty_iff] at h
        exact ⟨_, .delete hcurrent hfind h.1, h.2⟩

/-- Whatever a request would make of a port group, it makes. -/
lemma Regroups.exists_set {r : Request} (hr : Regroups p r id ports) :
    ∃ q, answer p r = .ok q ∧ p.set id (.portGroup ports) = .ok q := by
  cases hr with
  | add found =>
      obtain ⟨q, hq⟩ := Pool.exists_set found _
      refine ⟨q, ?_, hq⟩
      rw [answer, addPorts, portGroup_eq_ok.mpr found]
      exact hq
  | @delete _ current ports found listed left =>
      obtain ⟨q, hq⟩ := Pool.exists_set found _
      refine ⟨q, ?_, hq⟩
      have hfind : ports.find? (fun port => !current.contains port) = none := by
        simpa using listed
      rw [answer, deletePorts, portGroup_eq_ok.mpr found, ok_bind, hfind]
      exact guard_eq_ok.mpr ⟨by rwa [List.isEmpty_iff], hq⟩

/-! ### One change -/

variable {P : PbsDestination → Prop}

/-- One entry with a destination of its own keeps destinations distinct. -/
lemma DistinctOn.update_iff (h : DistinctOn P p)
    (hq : ∀ k, q.value? k = if k = id then some d else p.value? k) :
    DistinctOn P q ↔ (P d → ∀ k, k ≠ id → p.value? k ≠ some d) := by
  have hid : q.value? id = some d := (hq id).trans (if_pos rfl)
  have hold : ∀ {k}, k ≠ id → q.value? k = p.value? k := fun hk => (hq _).trans (if_neg hk)
  constructor
  · intro hdistinct hd k hk hvalue
    exact hk (hdistinct k id d hd ((hold hk).trans hvalue) hid)
  · intro hnone i j d' hd' hi hj
    by_cases hi' : i = id <;> by_cases hj' : j = id
    · rw [hi', hj']
    · -- the other entry would have had the destination before
      rw [hi', hid, Option.some.injEq] at hi
      subst hi
      exact absurd ((hold hj').symm.trans hj) (hnone hd' j hj')
    · rw [hj', hid, Option.some.injEq] at hj
      subst hj
      exact absurd ((hold hi').symm.trans hi) (hnone hd' i hi')
    · exact h i j d' hd' ((hold hi').symm.trans hi) ((hold hj').symm.trans hj)

/-- Entries may go. -/
lemma DistinctOn.mono (h : DistinctOn P p) (hq : ∀ k d, q.value? k = some d → p.value? k = some d) :
    DistinctOn P q :=
  fun i j d hd hi hj => h i j d hd (hq i d hi) (hq j d hj)

lemma distinctOn_empty (limit : ℕ) : DistinctOn P (empty limit) := by
  intro id other d _ hid
  rw [show (empty limit).value? id = none from Pool.value?_empty _ _ _] at hid
  cases hid

/-! ### One request -/

lemma consistent_handle (hc : p.entries.Consistent) (r : Request) :
    (handle p r).entries.Consistent := by
  cases hanswer : answer p r with
  | error e => rwa [handle, hanswer]
  | ok q =>
      rw [handle, hanswer]
      cases r with
      | create destination =>
          obtain ⟨⟨id, q⟩, hcreate, rfl⟩ := map_eq_ok.mp hanswer
          exact (Pools.sameCounts_pbs_create hcreate).consistent hc
      | edit id destination => exact (Pools.sameCounts_pbs_edit hanswer).consistent hc
      | addPorts id ports => exact (Pools.sameCounts_addPorts hanswer).consistent hc
      | deletePorts id ports => exact (Pools.sameCounts_deletePorts hanswer).consistent hc
      | destroy id =>
          obtain ⟨⟨d, q⟩, hremove, rfl⟩ := map_eq_ok.mp hanswer
          exact (Pool.sameCounts_remove hremove).consistent hc
      | acquire id => exact (Pool.recounted_of_acquire hanswer).consistent hc
      | release id => exact (Pool.recounted_of_release hanswer).consistent hc

/-- Distinct destinations stay distinct in exactly the requests that give no port group the ports of
another. -/
theorem DistinctOn.handle_iff (h : DistinctOn P p) (hc : p.entries.Consistent) (r : Request) :
    DistinctOn P (handle p r) ↔ ∀ id ports, Regroups p r id ports → P (.portGroup ports) →
      ∀ other, other ≠ id → p.value? other ≠ some (.portGroup ports) := by
  have hregroup : ∀ {id ports}, Regroups p r id ports →
      (DistinctOn P (handle p r) ↔ (P (.portGroup ports) →
        ∀ other, other ≠ id → p.value? other ≠ some (.portGroup ports))) := by
    intro id ports hr
    obtain ⟨q, hanswer, hset⟩ := hr.exists_set
    rw [handle, hanswer]
    exact h.update_iff (Pool.value?_set hset).2
  refine ⟨fun hdistinct id ports hr => (hregroup hr).mp hdistinct, fun hnone => ?_⟩
  cases hanswer : answer p r with
  | error e => rwa [handle, hanswer]
  | ok q =>
      have hq : handle p r = q := by rw [handle, hanswer]
      cases r with
      | create destination =>
          obtain ⟨⟨id, q⟩, hcreate, rfl⟩ := map_eq_ok.mp hanswer
          obtain ⟨-, hnew, hinsert⟩ := (create_eq_ok hc).mp hcreate
          rw [hq]
          exact (h.update_iff (Pool.value?_insert hc hinsert).2).mpr fun _ k _ => hnew k
      | edit id destination =>
          obtain ⟨-, hnew, hset⟩ := (edit_eq_ok hc).mp hanswer
          rw [hq]
          exact (h.update_iff (Pool.value?_set hset).2).mpr fun _ => hnew
      | addPorts id ports =>
          obtain ⟨new, hr, -⟩ := exists_regroups hanswer (.inl rfl)
          exact (hregroup hr).mpr (hnone id new hr)
      | deletePorts id ports =>
          obtain ⟨new, hr, -⟩ := exists_regroups hanswer (.inr rfl)
          exact (hregroup hr).mpr (hnone id new hr)
      | destroy id =>
          obtain ⟨⟨d, q⟩, hremove, rfl⟩ := map_eq_ok.mp hanswer
          rw [hq]
          refine h.mono fun k d hk => ?_
          rw [Pool.value?_remove hremove] at hk
          split at hk
          · cases hk
          · exact hk
      | acquire id =>
          rw [hq]
          exact h.mono fun k d hk => (Pool.value?_acquire hanswer k).symm.trans hk
      | release id =>
          rw [hq]
          exact h.mono fun k d hk => (Pool.value?_release hanswer k).symm.trans hk

lemma distinct_handle_iff (h : Distinct p) (hc : p.entries.Consistent) (r : Request) :
    Distinct (handle p r) ↔ ¬Merges p r := by
  rw [Distinct, DistinctOn.handle_iff h hc]
  constructor
  · rintro hnone ⟨id, ports, other, hr, hne, hother⟩
    exact hnone id ports hr trivial other hne hother
  · exact fun hno id ports hr _ other hne hother => hno ⟨id, ports, other, hr, hne, hother⟩

/-! ### Many requests -/

variable {limit : ℕ}

lemma consistent_handleAll (requests : List Request) :
    (handleAll (empty limit) requests).entries.Consistent := by
  induction requests using List.reverseRecOn with
  | nil => exact Arena.consistent_empty _
  | append_singleton requests r ih =>
      rw [handleAll_concat]
      exact consistent_handle ih r

/-- Only port groups are ever shared by two entries. -/
lemma distinctOn_others (requests : List Request) :
    DistinctOn (fun d => ∀ ports, d ≠ .portGroup ports) (handleAll (empty limit) requests) := by
  induction requests using List.reverseRecOn with
  | nil => exact distinctOn_empty limit
  | append_singleton requests r ih =>
      rw [handleAll_concat, ih.handle_iff (consistent_handleAll requests)]
      exact fun id ports _ hports => absurd rfl (hports ports)

/-- In every run, two entries with the same destination are port groups.  Destinations are distinct
throughout a run exactly if no request of the run adds ports to a port group, or takes ports out of
one, so that it has the ports of another in the same order: creating and editing entries,
destroying them and counting references never make two destinations equal. -/
theorem destinations_distinct_iff (limit : ℕ) (requests : List Request) :
    (∀ id other d, (handleAll (empty limit) requests).value? id = some d →
      (handleAll (empty limit) requests).value? other = some d → id ≠ other →
        ∃ ports, d = .portGroup ports) ∧
    ((∀ before, before <+: requests → Distinct (handleAll (empty limit) before)) ↔
      ∀ before r, before ++ [r] <+: requests → ¬Merges (handleAll (empty limit) before) r) := by
  refine ⟨fun id other d hid hother hne => ?_, ?_⟩
  · by_contra hno
    exact hne (distinctOn_others requests id other d (fun ports hd => hno ⟨ports, hd⟩) hid hother)
  induction requests using List.reverseRecOn with
  | nil =>
      refine ⟨fun _ before r hr => ?_, fun _ before hbefore => ?_⟩
      · exact absurd (List.prefix_nil.mp hr) (by simp)
      · rw [List.prefix_nil.mp hbefore]
        exact distinctOn_empty limit
  | append_singleton requests r ih =>
      constructor
      · intro hall before r' hr'
        rcases List.prefix_concat_iff.mp hr' with heq | hr'
        · obtain ⟨rfl, hsame⟩ := List.append_inj' heq rfl
          obtain rfl := List.singleton_inj.mp hsame
          have hlast := hall _ (List.prefix_refl _)
          rw [handleAll_concat] at hlast
          have hbefore := hall _ (List.prefix_append _ _)
          exact (distinct_handle_iff hbefore (consistent_handleAll _) _).mp hlast
        · exact ih.mp (fun b hb => hall b (hb.trans (List.prefix_append _ _))) before r' hr'
      · intro hall before hbefore
        have hdistinct := ih.mpr fun b r' hr' => hall b r' (hr'.trans (List.prefix_append _ _))
        rcases List.prefix_concat_iff.mp hbefore with rfl | hbefore
        · rw [handleAll_concat]
          exact (distinct_handle_iff (hdistinct _ (List.prefix_refl _)) (consistent_handleAll _)
            _).mpr (hall _ _ (List.prefix_refl _))
        · exact hdistinct before hbefore

/-- Two port groups, of which the second loses the port that the first does not have. -/
def deleting : List Request :=
  [.create (.portGroup [⟨1⟩]), .create (.portGroup [⟨1⟩, ⟨2⟩]), .deletePorts ⟨1, 1⟩ [⟨2⟩]]

/-- Both groups are left with the same port. -/
theorem equal_after_deleting : ¬Distinct (handleAll (empty 8) deleting) := by
  intro h
  have hvalue : ∀ id ∈ [(⟨0, 1⟩ : Handle .pbs), ⟨1, 1⟩],
      (handleAll (empty 8) deleting).value? id = some (.portGroup [⟨1⟩]) := by
    decide +kernel
  have heq := h _ _ _ trivial (hvalue ⟨0, 1⟩ (by simp)) (hvalue ⟨1, 1⟩ (by simp))
  cases heq

end AclPlane.PbsPool
