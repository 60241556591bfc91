import AclPlane.Proofs.HardwareRows
import AclPlane.Proofs.StoredRules

/-!
Counts have room for all that the hardware has rows for.

A rule refers to an entry twice at most, since its keys are distinct and its actions are of distinct
classes, and it takes a row; a region takes a row as well.  So the budget of rows bounds all counts.

* `Rule.Valid.count_refs_le`: a valid rule refers to an entry twice at most.
* `Core.count_batch_le`: a batch has no more references than the table has slots for.
* `Controller.users_le`, `Controller.ruleReferences_le`: what the regions and the rules of a run
  count up to.
* `Controller.runHasRoom_of_budget`: so no count passes its greatest value in any run, if the budget
  is less than 2³⁰ rows.
-/

namespace AclPlane

/-! ### References of one rule -/

/-- Of a list with distinct keys, no more is found than there are keys to be found under. -/
lemma length_filterMap_le {α β γ : Type} {l : List α} {f : α → Option β} {key : α → γ}
    {keys : List γ} (hnodup : (l.map key).Nodup) (h : ∀ a ∈ l, ∀ b, f a = some b → key a ∈ keys) :
    (l.filterMap f).length ≤ keys.length := by
  have hsub : (l.filter fun a => (f a).isSome).map key ⊆ keys := by
    intro k hk
    obtain ⟨a, ha, rfl⟩ := List.mem_map.mp hk
    obtain ⟨hmem, hsome⟩ := List.mem_filter.mp ha
    obtain ⟨b, hb⟩ := Option.isSome_iff_exists.mp hsome
    exact h a hmem b hb
  have hdistinct : ((l.filter fun a => (f a).isSome).map key).Nodup :=
    hnodup.sublist (List.filter_sublist.map key)
  calc (l.filterMap f).length = ((l.filter fun a => (f a).isSome).map key).length := by
        rw [List.length_map, List.length_filterMap_eq_countP, List.countP_eq_length_filter]
    _ ≤ keys.length := (hdistinct.subperm hsub).length_le

namespace Rule

variable {r : Rule} {fields : FieldSet} {bounds : PriorityRange}

/-- What conditions on keys refer to, they refer to as often as there are keys for it at most. -/
lemma Valid.count_keys_le (h : r.Valid fields bounds) {α : Type} [DecidableEq α]
    {f : KeyMatch → Option α} (keys : List BasicKey)
    (hf : ∀ k b, f k = some b → k.matcher.fits k.key = true → k.key ∈ keys) (a : α) :
    (r.keys.filterMap f).count a ≤ keys.length :=
  List.count_le_length.trans <| length_filterMap_le h.keys_nodup fun k hk b hb =>
    hf k b hb (h.keys k hk).2

/-- A valid rule refers to an entry twice at most: a list of ports may be matched by both of the
keys for lists, and custom bytes by both of theirs. -/
lemma Valid.count_refs_le (h : r.Valid fields bounds) (e : PoolEntry) : r.refs.count e ≤ 2 := by
  cases e with
  | vlanGroup id => exact Nat.zero_le _
  | pbs id =>
      have hforward : r.refs.pbs.length ≤ [ActionClass.forward].length := by
        refine length_filterMap_le h.classes_nodup fun a _ b hb => ?_
        split at hb
        · exact List.mem_singleton_self _
        · cases hb
      exact (List.count_le_length.trans hforward).trans (Nat.le_succ 1)
  | range id =>
      refine (h.count_keys_le [.l4PortRange] (fun k b hb hfits => ?_) id).trans (Nat.le_succ 1)
      split at hb
      · next hmatch =>
          rw [hmatch] at hfits
          simpa [Match.fits] using hfits
      · cases hb
  | portList id =>
      refine h.count_keys_le [.rxList, .txList] (fun k b hb hfits => ?_) id
      split at hb
      · next hmatch =>
          rw [hmatch] at hfits
          simpa [Match.fits] using hfits
      · cases hb
  | customBytes id =>
      refine h.count_keys_le [.customBytes0, .customBytes1] (fun k b hb hfits => ?_) id
      split at hb
      · next hmatch =>
          rw [hmatch] at hfits
          simpa [Match.fits] using hfits
      · cases hb

end Rule

/-! ### Sums -/

/-- A bound on the rules of a table, added up. -/
lemma RuleTable.total_le {t : RuleTable} {f : Rule → ℕ} {n : ℕ} (h : t.All fun r => f r ≤ n) :
    t.total f ≤ n * t.capacity := by
  rw [total_eq_sum f le_rfl]
  calc ∑ i ∈ Finset.range t.capacity, (t.rule? i).elim 0 f
      ≤ ∑ _i ∈ Finset.range t.capacity, n := by
        refine Finset.sum_le_sum fun i _ => ?_
        cases hr : t.rule? i with
        | none => exact Nat.zero_le n
        | some r => exact h i r hr
    _ = n * t.capacity := by rw [Finset.sum_const, Finset.card_range, smul_eq_mul, Nat.mul_comm]

/-- A bound on the objects of an arena, added up. -/
lemma Arena.total_le_mul {kind : ObjectKind} {α : Type} {a : Arena kind α} {f g : α → ℕ} {n : ℕ}
    (hc : a.Consistent) (h : a.All fun v => f v ≤ n * g v) : a.total f ≤ n * a.total g := by
  rw [total, total, ← List.sum_map_mul_left]
  exact List.sum_le_sum fun e he => h e.1 e.2 (mem_toList_iff hc |>.mp he)

/-! ### References of a batch -/

/-- A batch has no more rules than the table has slots, and the rules are valid. -/
lemma Core.count_batch_le {t : RuleTable} {fields : FieldSet} {bounds : PriorityRange}
    {offsets : List ℕ} {rules : List Rule} (hlengths : offsets.length = rules.length)
    (hchecked : checkBatch t fields bounds [] (offsets.zip rules) = .ok ()) (e : PoolEntry) :
    (PoolRefs.concat (rules.map Rule.refs)).count e ≤ 2 * t.capacity := by
  obtain ⟨hlt, hnodup⟩ := of_checkBatch hchecked
  have hfst : (offsets.zip rules).map Prod.fst = offsets := List.map_fst_zip hlengths.le
  have hsnd : (offsets.zip rules).map Prod.snd = rules := List.map_snd_zip hlengths.ge
  have hsub : offsets ⊆ List.range t.capacity := by
    intro offset hoffset
    rw [← hfst] at hoffset
    obtain ⟨pair, hpair, rfl⟩ := List.mem_map.mp hoffset
    exact List.mem_range.mpr (hlt pair hpair).1
  have hvalid : ∀ n ∈ rules.map fun r => r.refs.count e, n ≤ 2 := by
    rw [← hsnd]
    simp only [List.mem_map]
    rintro _ ⟨_, ⟨pair, hpair, rfl⟩, rfl⟩
    exact (valid_of_checkBatch hchecked pair hpair).count_refs_le e
  rw [count_concat_refs]
  calc (rules.map fun r => r.refs.count e).sum
      ≤ (rules.map fun r => r.refs.count e).length * 2 := List.sum_le_card_nsmul _ 2 hvalid
    _ = 2 * offsets.length := by rw [List.length_map, hlengths, Nat.mul_comm]
    _ ≤ 2 * (List.range t.capacity).length := by
        rw [hfst] at hnodup
        exact Nat.mul_le_mul_left 2 (hnodup.subperm hsub).length_le
    _ = 2 * t.capacity := by rw [List.length_range]

/-! ### Runs -/

namespace Controller

variable {s : Controller} {config : Config} {given : Option (List KeyBlock)} {sink : Sink}
  {steps : List Step}

/-- A region takes as many rows as it has slots. -/
lemma capacity_le_cost (hs : Controller.start config given sink = .ok s) (steps : List Step) :
    (s.run steps).core.regions.regions.All fun r => 0 < r.cost ∧ r.table.capacity ≤ r.cost := by
  intro id r hr
  have hfits := fits_run hs steps id r hr
  have hwidth := (width_run hs steps id r hr).1
  have hcapacity : r.table.capacity ≤ r.cost :=
    calc r.table.capacity = r.capacity := hfits.slots
      _ ≤ r.hwSize := hfits.hwSize_eq ▸ Regions.le_roundUp r.capacity
      _ ≤ r.cost := Nat.le_mul_of_pos_right _ hwidth
  refine ⟨lt_of_lt_of_le ?_ hcapacity, hcapacity⟩
  rw [hfits.slots]
  exact hfits.capacity_pos

/-- The rows of all regions are within the budget. -/
lemma total_cost_le (hs : Controller.start config given sink = .ok s) (steps : List Step) :
    (s.run steps).core.regions.regions.total Region.cost ≤ config.hwRuleBudget := by
  have hrows := rowsExact_run hs steps
  rw [← hrows.hwUsed_eq, ← (configured_run hs steps).budget_eq]
  exact hrows.hwUsed_le

/-- A key type has no more regions than there are rows. -/
lemma users_le (hs : Controller.start config given sink = .ok s) (steps : List Step)
    (id : Handle .keyType) : (s.run steps).core.users id ≤ config.hwRuleBudget := by
  refine le_trans ?_ (total_cost_le hs steps)
  rw [← Nat.one_mul (Arena.total _ _)]
  refine Arena.total_le_mul (steady_run hs steps).regions fun region r hr => ?_
  calc [r.keyType].count id ≤ 1 := List.count_le_length
    _ ≤ 1 * r.cost := by
      rw [Nat.one_mul]
      exact (capacity_le_cost hs steps region r hr).1

lemma usersFit_of_budget (hs : Controller.start config given sink = .ok s)
    (hbudget : config.hwRuleBudget ≤ maxCount) (steps : List Step) : s.UsersFit steps :=
  fun before _ id => (users_le hs before id).trans hbudget

/-- The rules refer to an entry twice for each row at most. -/
lemma ruleReferences_le (hs : Controller.start config given sink = .ok s)
    (hfit : s.UsersFit steps) (e : PoolEntry) :
    (s.run steps).core.ruleReferences e ≤ 2 * config.hwRuleBudget := by
  refine le_trans ?_ (Nat.mul_le_mul_left 2 (total_cost_le hs steps))
  refine Arena.total_le_mul (steady_run hs steps).regions fun region r hr => ?_
  obtain ⟨ct, -, hvalid⟩ := valid_run hs hfit region r hr
  rw [RuleTable.refs_count]
  calc r.table.total (fun rule => rule.refs.count e) ≤ 2 * r.table.capacity :=
        RuleTable.total_le fun offset rule hrule => (hvalid offset rule hrule).count_refs_le e
    _ ≤ 2 * r.cost := Nat.mul_le_mul_left 2 (capacity_le_cost hs steps region r hr).2

/-- The rules of a batch that is stored refer to an entry twice for each row at most. -/
lemma count_stored_le (hs : Controller.start config given sink = .ok s) {st : Step}
    {region : Handle .region} {offsets : List ℕ} {rules : List Rule}
    (hop : st.operation? = some (.rule (.set region offsets rules)))
    (hok : ((s.run steps).step st).result.isOk = true) (e : PoolEntry) :
    (PoolRefs.concat (rules.map Rule.refs)).count e ≤ 2 * config.hwRuleBudget := by
  have hfollows := (s.run steps).follows_step st
  rw [hop] at hfollows
  cases hfollows with
  | failed result unchanged =>
      rw [result] at hok
      cases hok
  | done result transition delivered =>
      obtain ⟨rfl, -⟩ | ⟨r, _, _, _, _, _, hfound, hlengths, -, hchecked, -⟩ := transition.of_set
      · rw [List.map_nil]
        exact (PoolRefs.count_none e).le.trans (Nat.zero_le _)
      · calc (PoolRefs.concat (rules.map Rule.refs)).count e
            ≤ 2 * r.table.capacity := Core.count_batch_le hlengths hchecked e
          _ ≤ 2 * r.cost := Nat.mul_le_mul_left 2 (capacity_le_cost hs steps _ _ hfound).2
          _ ≤ 2 * config.hwRuleBudget := Nat.mul_le_mul_left 2
            ((Arena.le_total Region.cost hfound).trans (total_cost_le hs steps))

/-- A step that succeeds has room for its references, if the budget is less than 2³⁰ rows. -/
lemma hasRoom_of_budget (hs : Controller.start config given sink = .ok s)
    (hbudget : 4 * config.hwRuleBudget ≤ maxCount) (h : Reachable (s.run steps)) (st : Step)
    (hok : ((s.run steps).step st).result.isOk = true) : st.HasRoom (s.run steps).core := by
  have hsound := h.inStep.sound
  have hmax : maxCount = 4294967295 := rfl
  intro op hop
  cases op with
  | region op =>
      cases op with
      | create keyType capacity =>
          have husers := users_le hs steps keyType
          rw [Operation.HasRoom, hsound.users_eq]
          omega
      | _ => trivial
  | rule op =>
      cases op with
      | set region offsets rules =>
          intro e _
          have hbatch := count_stored_le hs hop hok e
          have hrules := ruleReferences_le hs (usersFit_of_budget hs (by omega) steps) e
          have hcount := hsound.references_eq e
          rw [Core.references] at hcount
          cases e with
          | vlanGroup id => exact hsound.refCount_le (.vlanGroup id)
          | _ =>
              simp only [Bindings.references] at hcount
              omega
      | _ => trivial
  | _ => trivial

/-- A budget of less than 2³⁰ rows leaves room for all references, in any run. -/
theorem runHasRoom_of_budget (hs : Controller.start config given sink = .ok s)
    (hbudget : 4 * config.hwRuleBudget ≤ maxCount) (steps : List Step) : s.RunHasRoom steps := by
  have hlater : ∀ later before, Reachable (s.run before) → (s.run before).RunHasRoom later := by
    intro later
    induction later with
    | nil => exact fun _ _ => trivial
    | cons st later ih =>
        intro before h
        have hroom := hasRoom_of_budget hs hbudget h st
        have hnext := h.step st hroom
        rw [← run_concat] at hnext
        refine ⟨hroom, ?_⟩
        rw [← run_concat]
        exact ih _ hnext
  exact hlater steps [] (.start hs)

/-- The usual limits leave room for all references. -/
example (steps : List Step) : fresh.RunHasRoom steps :=
  runHasRoom_of_budget start_fresh (by decide) steps

end Controller

end AclPlane
