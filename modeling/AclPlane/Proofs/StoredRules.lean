import AclPlane.Proofs.RegionLayout

/-!
Stored rules are valid for their region.

Rules are checked when they are stored, against the fields of a key type that may have more of them
than were asked for; later their priorities are shifted and their slots are moved without another
check.

* `Rule.Valid`: what the check of a rule means (`Rule.check_eq_ok`).
* `RuleTable.All`: a property of every stored rule, with what each operation has to show to keep it.
* `Region.Changed.all`: what valid rules have and planned priorities leave alone, every change of a
  region keeps.
* `Controller.valid_run`: in every run all stored rules are valid; `Controller.bounded_run`: so
  their priorities are within the bounds.
-/

namespace AclPlane

/-! ### The check of a rule -/

/-- A rule that fits the fields of a key type and the bounds of priorities. -/
structure Rule.Valid (r : Rule) (fields : FieldSet) (bounds : PriorityRange) : Prop where
  priority : bounds.contains r.priority = true
  keys : ∀ k ∈ r.keys, fields.contains k.key = true ∧ k.matcher.fits k.key = true
  keys_nodup : (r.keys.map KeyMatch.key).Nodup
  actions : ∀ a ∈ r.actions, a.check = .ok ()
  classes_nodup : (r.actions.map Action.actionClass).Nodup

namespace Rule

variable {r : Rule} {fields : FieldSet} {bounds : PriorityRange} {u : Unit}

lemma checkKeys_eq_ok {seen : List BasicKey} {keys : List KeyMatch} :
    checkKeys fields seen keys = .ok u ↔
      (∀ k ∈ keys, fields.contains k.key = true ∧ k.matcher.fits k.key = true) ∧
        (keys.map KeyMatch.key).Nodup ∧ ∀ k ∈ keys.map KeyMatch.key, k ∉ seen := by
  induction keys generalizing seen with
  | nil => simp [checkKeys]
  | cons k rest ih =>
      simp only [checkKeys, guard_eq_ok, ih, Bool.not_eq_true', Bool.not_eq_false,
        List.contains_iff_mem, List.map_cons, List.nodup_cons, List.mem_cons, forall_eq_or_imp,
        not_or]
      constructor
      · rintro ⟨hfield, hseen, hfits, hrest, hnodup, hlater⟩
        exact ⟨⟨⟨hfield, hfits⟩, hrest⟩, ⟨fun hmem => (hlater _ hmem).1 rfl, hnodup⟩, hseen,
          fun k' hk' => (hlater k' hk').2⟩
      · rintro ⟨⟨⟨hfield, hfits⟩, hrest⟩, ⟨hnot, hnodup⟩, hseen, hlater⟩
        refine ⟨hfield, hseen, hfits, hrest, hnodup, fun k' hk' => ⟨?_, hlater k' hk'⟩⟩
        rintro rfl
        exact hnot hk'

lemma checkActions_eq_ok {seen : List ActionClass} {actions : List Action} :
    checkActions seen actions = .ok u ↔
      (∀ a ∈ actions, a.check = .ok ()) ∧
        (actions.map Action.actionClass).Nodup ∧
          ∀ cls ∈ actions.map Action.actionClass, cls ∉ seen := by
  induction actions generalizing seen with
  | nil => simp [checkActions]
  | cons a rest ih =>
      simp only [checkActions, bind_eq_ok, guard_eq_ok, ih, List.contains_iff_mem, List.map_cons,
        List.nodup_cons, List.mem_cons, forall_eq_or_imp, not_or]
      constructor
      · rintro ⟨_, hcheck, hseen, hrest, hnodup, hlater⟩
        exact ⟨⟨hcheck, hrest⟩, ⟨fun hmem => (hlater _ hmem).1 rfl, hnodup⟩, hseen,
          fun cls hcls => (hlater cls hcls).2⟩
      · rintro ⟨⟨hcheck, hrest⟩, ⟨hnot, hnodup⟩, hseen, hlater⟩
        refine ⟨(), hcheck, hseen, hrest, hnodup, fun cls hcls => ⟨?_, hlater cls hcls⟩⟩
        rintro rfl
        exact hnot hcls

/-- A rule passes its check exactly if it is valid. -/
lemma check_eq_ok : r.check fields bounds = .ok u ↔ r.Valid fields bounds := by
  simp only [check, guard_eq_ok, bind_eq_ok, checkKeys_eq_ok, checkActions_eq_ok,
    Bool.not_eq_true', Bool.not_eq_false]
  constructor
  · rintro ⟨hpriority, _, ⟨hkeys, hdistinct, -⟩, hactions, hclasses, -⟩
    exact ⟨hpriority, hkeys, hdistinct, hactions, hclasses⟩
  · rintro ⟨hpriority, hkeys, hdistinct, hactions, hclasses⟩
    exact ⟨hpriority, (), ⟨hkeys, hdistinct, fun _ _ => List.not_mem_nil⟩, hactions, hclasses,
      fun _ _ => List.not_mem_nil⟩

/-- Priorities within the bounds may be exchanged. -/
lemma Valid.withPriority (h : r.Valid fields bounds) {priority : ℕ}
    (hp : bounds.contains priority = true) :
    { r with priority := priority }.Valid fields bounds := { h with priority := hp }

end Rule

lemma Core.valid_of_checkBatch {t : RuleTable} {fields : FieldSet} {bounds : PriorityRange}
    {seen : List ℕ} {batch : List (ℕ × Rule)} {u : Unit}
    (h : checkBatch t fields bounds seen batch = .ok u) :
    ∀ e ∈ batch, e.2.Valid fields bounds := by
  induction batch generalizing seen with
  | nil => exact fun e he => absurd he List.not_mem_nil
  | cons e batch ih =>
      simp only [checkBatch, bind_eq_ok, guard_eq_ok, Rule.check_eq_ok] at h
      obtain ⟨_, -, -, _, hvalid, hrest⟩ := h
      exact List.forall_mem_cons.mpr ⟨hvalid, ih hrest⟩

/-! ### Properties of all rules of a table -/

namespace RuleTable

variable {t t' : RuleTable} {p : Rule → Prop}

/-- Every rule of the table satisfies `p`. -/
def All (p : Rule → Prop) (t : RuleTable) : Prop := ∀ offset r, t.rule? offset = some r → p r

lemma all_empty (capacity : ℕ) : (empty capacity).All p := by
  intro offset r hr
  rw [rule?_empty] at hr
  cases hr

lemma All.congr (h : t.All p) (ht : ∀ i, t'.rule? i = t.rule? i) : t'.All p :=
  fun offset r hr => h offset r ((ht offset).symm.trans hr)

lemma All.put (h : t.All p) {offset : ℕ} (hlt : offset < t.capacity) {x : Option Rule}
    (hx : ∀ r ∈ x, p r) : (t.put offset x).All p := by
  intro k r hr
  rw [rule?_put hlt] at hr
  split at hr
  · exact hx r hr
  · exact h k r hr

lemma All.setAll (h : t.All p) {batch : List (ℕ × Rule)} (hbatch : ∀ e ∈ batch, p e.2)
    {replaced : List Rule} (hset : t.setAll batch = .ok (replaced, t')) : t'.All p := by
  induction batch generalizing t replaced with
  | nil =>
      cases hset
      exact h
  | cons e batch ih =>
      have hlt := lt_of_setAll hset
      obtain ⟨rest, hrest, -⟩ := (setAll_cons hlt).mp hset
      obtain ⟨he, hbatch⟩ := List.forall_mem_cons.mp hbatch
      refine ih (h.put hlt fun r hr => ?_) hbatch hrest
      exact Option.some.inj hr ▸ he

lemma All.clearAll (h : t.All p) {offsets : List ℕ} {cleared : List Rule}
    (hclear : t.clearAll offsets = .ok (cleared, t')) : t'.All p := by
  induction offsets generalizing t cleared with
  | nil =>
      cases hclear
      exact h
  | cons offset offsets ih =>
      have hlt := lt_of_clearAll hclear
      obtain ⟨rest, hrest, -⟩ := (clearAll_cons hlt).mp hclear
      exact ih (h.put hlt fun r hr => by cases hr) hrest

lemma All.resize (h : t.All p) {capacity : ℕ} (hresize : t.resize capacity = .ok t') : t'.All p :=
  h.congr (rule?_resize hresize)

/-- After a block move every slot has the content of some slot before. -/
lemma All.moveBlock (h : t.All p) {src size dst : ℕ} (hmove : t.moveBlock src size dst = .ok t') :
    t'.All p := by
  intro k r hr
  by_cases hk : k ∈ (relocations src size dst).map Prod.fst
  · obtain ⟨m, hm, rfl⟩ := List.mem_map.mp ((perm_relocations src size dst).symm.subset hk)
    rw [rule?_moveBlock_target hmove hm] at hr
    exact h _ r hr
  · rw [rule?_moveBlock_of_not_mem hmove hk] at hr
    exact h k r hr

lemma All.setPriorities (h : t.All p) {updates : List (ℕ × ℕ)}
    (hp : ∀ u ∈ updates, ∀ r, p r → p { r with priority := u.2 }) :
    (t.setPriorities updates).All p := by
  induction updates generalizing t with
  | nil => exact h
  | cons u updates ih =>
      obtain ⟨hu, hrest⟩ := List.forall_mem_cons.mp hp
      rw [setPriorities_cons]
      refine ih (fun k r hr => ?_) hrest
      rw [rule?_setPriorities_singleton] at hr
      split at hr
      · obtain ⟨r₀, hr₀, rfl⟩ := Option.map_eq_some_iff.mp hr
        exact hu r₀ (h k r₀ hr₀)
      · exact h k r hr

/-- A shift gives priorities within the bounds. -/
lemma contains_of_planShift {low high : ℕ} {delta : ℤ} {bounds : PriorityRange}
    {updates : List (ℕ × ℕ)} (h : t.planShift low high delta bounds = .ok updates) {u : ℕ × ℕ}
    (hu : u ∈ updates) : bounds.contains u.2 = true := by
  simp only [planShift, guard_eq_ok] at h
  obtain ⟨e, -, hf⟩ := exists_of_mem_mapM h.2 hu
  simp only [bind_eq_ok, pure_eq_ok] at hf
  obtain ⟨priority, hshifted, rfl⟩ := hf
  rw [shifted] at hshifted
  split at hshifted
  · cases hshifted
  · next hin =>
      split at hshifted
      · cases hshifted
      · cases hshifted
        simpa using (not_or.mp hin).2

end RuleTable

/-- What is done to a region keeps a property of its rules that valid rules have and that other
priorities within the bounds leave alone. -/
lemma Region.Changed.all {c : Core} {r r' : Region} {p : Rule → Prop} (h : r.Changed c r')
    (hvalid : ∀ ct rule, c.keyTypes.types.get? r.keyType = some ct →
      rule.Valid ct.value.fields c.config.rulePriority → p rule)
    (hpriority : ∀ rule priority, p rule → c.config.rulePriority.contains priority = true →
      p { rule with priority := priority })
    (hall : r.table.All p) : r'.table.All p := by
  cases h with
  | resized sized resized => exact hall.resize resized
  | stored typed checked stored =>
      exact hall.setAll
        (fun e he => hvalid _ _ typed (Core.valid_of_checkBatch checked e he)) stored
  | emptied emptied => exact hall.clearAll emptied
  | moved moved => exact hall.moveBlock moved
  | shifted planned =>
      exact hall.setPriorities fun u hu rule hrule =>
        hpriority rule u.2 hrule (RuleTable.contains_of_planShift planned hu)

/-- What is done to a region keeps its rules valid. -/
lemma Region.Changed.valid {c : Core} {ct : Counted KeyType} {r r' : Region} (h : r.Changed c r')
    (hct : c.keyTypes.types.get? r.keyType = some ct)
    (hvalid : r.table.All fun rule => rule.Valid ct.value.fields c.config.rulePriority) :
    r'.table.All fun rule => rule.Valid ct.value.fields c.config.rulePriority := by
  refine h.all (fun ct' rule hct' hrule => ?_) (fun _ _ hrule => hrule.withPriority) hvalid
  obtain rfl := Option.some.inj (hct'.symm.trans hct)
  exact hrule

/-! ### Runs -/

/-- In every run all stored rules are valid for the key type of their region. -/
theorem Controller.valid_run {s : Controller} {config : Config} {given : Option (List KeyBlock)}
    {sink : Sink} (hs : Controller.start config given sink = .ok s) {steps : List Step}
    (hfit : s.UsersFit steps) : (s.run steps).core.EachRegion fun kt r =>
      r.table.All fun rule => rule.Valid kt.fields config.rulePriority := by
  refine eachRegion_run hs hfit (fun _ _ capacity _ => RuleTable.all_empty capacity) ?_
  rintro c ct r r' rfl hct hvalid hchanged
  exact hchanged.valid hct hvalid

/-- The priorities of all rules of a region lie within the bounds. -/
def Region.Bounded (bounds : PriorityRange) (r : Region) : Prop :=
  r.table.All fun rule => bounds.contains rule.priority = true

lemma Region.Changed.bounded {c : Core} {r r' : Region} (h : r.Changed c r')
    (hr : r.Bounded c.config.rulePriority) : r'.Bounded c.config.rulePriority :=
  h.all (fun _ _ _ hrule => hrule.priority) (fun _ _ _ hp => hp) hr

lemma Region.Evolves.bounded {c c' : Core} {old : Option Region} {r : Region}
    (h : Evolves c c' old r) (hold : ∀ r ∈ old, r.Bounded c.config.rulePriority) :
    r.Bounded c.config.rulePriority := by
  cases h with
  | kept => exact hold r rfl
  | @changed r₀ _ change => exact change.bounded (hold r₀ rfl)
  | created found kept sized => exact RuleTable.all_empty _

/-- In every run the priorities of all stored rules lie within the bounds. -/
theorem Controller.bounded_run {s : Controller} {config : Config} {given : Option (List KeyBlock)}
    {sink : Sink} (hs : Controller.start config given sink = .ok s) (steps : List Step) :
    (s.run steps).core.regions.regions.All (Region.Bounded config.rulePriority) := by
  refine run_induction
    (p := fun _ c => c.regions.regions.All (Region.Bounded config.rulePriority)) hs
    (fun hnew => ?_) (fun {steps _ _} ih _ ht => ?_) (fun _ ih _ => ih) steps
  · rw [Core.new] at hnew
    split at hnew
    · cases hnew
    · cases hnew
      exact Arena.all_empty _
  · intro id r hr
    have hconfig := (configured_run hs steps).config_eq
    have hevolves := ht.region_evolves (steady_run hs steps).regions hr
    rw [← hconfig] at ih ⊢
    exact hevolves.bounded fun r hr => ih id r hr

end AclPlane
