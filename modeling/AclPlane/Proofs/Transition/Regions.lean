import AclPlane.Proofs.KeyTypes
import AclPlane.Proofs.Steady

/-!
Regions over a transition.

* `Region.Changed`: what an operation may do to the region that it names.
* `Core.Transition.region_evolves`: a region after a transition is one from before, changed or not,
  or it is new; `region_kept`: one from before stays, with its key type, unless it is destroyed.
* `Core.UsersCounted`: every key type counts its regions; `UsersCounted.transition` needs room below
  the greatest count.
* `Core.EachRegion`: every region is as a property of key types and regions says, where the key type
  is that of the region.  A property that new regions have and that changes keep stays with every
  region (`EachRegion.transition`), for a key type does not change while its regions are counted.
-/

namespace AclPlane

/-! ### What becomes of a region -/

/-- What an operation may do to a region. -/
inductive Region.Changed (c : Core) (r : Region) : Region → Prop where
  /-- The region gets another capacity. -/
  | resized {capacity hwSize : ℕ} {table : RuleTable}
      (sized : c.regions.hwSizeFor capacity = .ok hwSize)
      (resized : r.table.resize capacity = .ok table) :
      Changed c r { r with capacity := capacity, hwSize := hwSize, table := table }
  /-- A batch of rules is stored. -/
  | stored {ct : Counted KeyType} {batch : List (ℕ × Rule)} {replaced : List Rule}
      {table : RuleTable} (typed : c.keyTypes.types.get? r.keyType = some ct)
      (checked : Core.checkBatch r.table ct.value.fields c.config.rulePriority [] batch = .ok ())
      (stored : r.table.setAll batch = .ok (replaced, table)) :
      Changed c r { r with table := table }
  /-- Slots are emptied. -/
  | emptied {offsets : List ℕ} {cleared : List Rule} {table : RuleTable}
      (emptied : r.table.clearAll offsets = .ok (cleared, table)) :
      Changed c r { r with table := table }
  /-- A block of slots is moved. -/
  | moved {src size dst : ℕ} {table : RuleTable}
      (moved : r.table.moveBlock src size dst = .ok table) :
      Changed c r { r with table := table }
  /-- The priorities of a band are shifted. -/
  | shifted {low high : ℕ} {delta : ℤ} {updates : List (ℕ × ℕ)}
      (planned : r.table.planShift low high delta c.config.rulePriority = .ok updates) :
      Changed c r { r with table := r.table.setPriorities updates }

namespace Region.Changed

variable {c : Core} {r r' : Region}

lemma keyType_eq (h : r.Changed c r') : r'.keyType = r.keyType := by
  cases h <;> rfl

lemma width_eq (h : r.Changed c r') : r'.width = r.width := by
  cases h <;> rfl

end Region.Changed

/-- What a handle names after a transition from `c` to `c'`, given what it has named before. -/
inductive Region.Evolves (c c' : Core) : Option Region → Region → Prop where
  | kept (r : Region) : Evolves c c' (some r) r
  | changed {r r' : Region} (change : r.Changed c r') : Evolves c c' (some r) r'
  | created {keyType : Handle .keyType} {ct : Counted KeyType} {capacity hwSize : ℕ}
      (found : c.keyTypes.types.get? keyType = some ct)
      (kept : (c'.keyTypes.types.get? keyType).map Counted.value = some ct.value)
      (sized : c.regions.hwSizeFor capacity = .ok hwSize) :
      Evolves c c' none ⟨keyType, ct.value.width, capacity, hwSize, .empty capacity⟩

namespace Core

variable {c c' : Core} {op : Option Operation} {done : Commit OpResult}
  {p : KeyType → Region → Prop}

lemma evolves_set {id i : Handle .region} {r r' r₁ : Region}
    (hr : c.regions.regions.get? id = some r) (hchanged : r.Changed c r')
    (hr₁ : (c.regions.regions.set id r').get? i = some r₁) :
    Region.Evolves c c' (c.regions.regions.get? i) r₁ := by
  rw [Arena.get?_set hr] at hr₁
  split at hr₁
  · next heq =>
      cases hr₁
      rw [heq, hr]
      exact .changed hchanged
  · rw [hr₁]
    exact .kept r₁

lemma evolves_setTable {id i : Handle .region} {r r₁ : Region} {table : RuleTable}
    (hr : c.regions.regions.get? id = some r) (hchanged : r.Changed c { r with table := table })
    (hr₁ : (c.withTable id table).regions.regions.get? i = some r₁) :
    Region.Evolves c c' (c.regions.regions.get? i) r₁ := by
  rw [withTable, setTable_eq hr] at hr₁
  exact evolves_set hr hchanged hr₁

/-- A region after a transition is one from before, changed or not, or it is new. -/
theorem Transition.region_evolves (ht : Transition c op done) (hc : c.regions.regions.Consistent)
    {id : Handle .region} {r : Region} (hr : done.core.regions.regions.get? id = some r) :
    Region.Evolves c done.core (c.regions.regions.get? id) r := by
  cases ht with
  | createRegion found planned inserted counted =>
      obtain ⟨hsized, -⟩ := Regions.planCreate_eq_ok.mp planned
      rw [Arena.get?_insertWith? hc inserted] at hr
      split at hr
      · next heq =>
          cases hr
          rw [heq, Arena.get?_of_nextHandle? hc (Arena.nextHandle?_of_insertWith? inserted)]
          refine .created found ?_ hsized
          rw [(KeyTypes.recounted_acquire counted).1.value, found]
          rfl
      · rw [hr]
        exact .kept r
  | resizeRegion found planned resized =>
      obtain ⟨_, -, hsized, -⟩ := Regions.planResize_eq_ok.mp planned
      exact evolves_set found (.resized hsized resized) hr
  | destroyRegion unused removed uncounted released =>
      rw [Arena.get?_remove? removed] at hr
      split at hr
      · cases hr
      · rw [hr]
        exact .kept r
  | setRules found lengths typed checked live taken stored released =>
      exact evolves_setTable found (.stored typed checked stored) hr
  | deleteRules found asked listed emptied released =>
      exact evolves_setTable found (.emptied emptied) hr
  | moveBlock found moved => exact evolves_setTable found (.moved moved) hr
  | shiftPriority found planned => exact evolves_setTable found (.shifted planned) hr
  | _ =>
      rw [show c.regions.regions.get? id = some r from hr]
      exact .kept r

lemma keyType_set {id i : Handle .region} {r r' r₁ : Region}
    (hr : c.regions.regions.get? id = some r) (hsame : r'.keyType = r.keyType)
    (hr₁ : c.regions.regions.get? i = some r₁) :
    ∃ r₂, (c.regions.regions.set id r').get? i = some r₂ ∧ r₂.keyType = r₁.keyType := by
  rw [Arena.get?_set hr]
  split
  · next heq =>
      subst heq
      obtain rfl := Option.some.inj (hr.symm.trans hr₁)
      exact ⟨r', rfl, hsame⟩
  · exact ⟨r₁, hr₁, rfl⟩

lemma keyType_setTable {id i : Handle .region} {r r₁ : Region}
    (hr : c.regions.regions.get? id = some r) (table : RuleTable)
    (hr₁ : c.regions.regions.get? i = some r₁) :
    ∃ r₂, (c.withTable id table).regions.regions.get? i = some r₂ ∧ r₂.keyType = r₁.keyType := by
  rw [withTable, setTable_eq hr]
  exact keyType_set hr rfl hr₁

/-- A region stays, with its key type, unless it is destroyed. -/
theorem Transition.region_kept (ht : Transition c op done) (hc : c.regions.regions.Consistent)
    {id : Handle .region} (hop : op ≠ some (.region (.destroy id))) {r : Region}
    (hr : c.regions.regions.get? id = some r) :
    ∃ r', done.core.regions.regions.get? id = some r' ∧ r'.keyType = r.keyType := by
  cases ht with
  | createRegion found planned inserted counted =>
      exact ⟨r, Arena.get?_insertWith?_of_some hc inserted hr, rfl⟩
  | resizeRegion found planned resized => exact keyType_set found rfl hr
  | destroyRegion unused removed uncounted released =>
      refine ⟨r, ?_, rfl⟩
      rw [Arena.get?_remove? removed, if_neg]
      · exact hr
      · rintro rfl
        exact hop rfl
  | setRules found => exact keyType_setTable found _ hr
  | deleteRules found => exact keyType_setTable found _ hr
  | moveBlock found => exact keyType_setTable found _ hr
  | shiftPriority found => exact keyType_setTable found _ hr
  | _ => exact ⟨r, hr, rfl⟩

/-! ### Counting the regions of a key type -/

/-- Every key type counts its regions. -/
def UsersCounted (c : Core) : Prop := ∀ id, c.keyTypes.types.refCount id = c.users id

/-- A region that is replaced by another of its key type makes no difference. -/
lemma users_of_set {id : Handle .region} {r : Region} (hr : c.regions.regions.get? id = some r)
    (r' : Region) (hregions : c'.regions.regions = c.regions.regions.set id r')
    (hsame : r'.keyType = r.keyType) (k : Handle .keyType) : c'.users k = c.users k := by
  have htotal := Arena.total_set (w := r') (fun r : Region => [r.keyType].count k) hr
  simp only [hsame] at htotal
  rw [users, hregions]
  exact Nat.add_right_cancel htotal

lemma users_withTable {id : Handle .region} {r : Region} (hr : c.regions.regions.get? id = some r)
    (table : RuleTable) (k : Handle .keyType) : (c.withTable id table).users k = c.users k := by
  refine users_of_set hr { r with table := table } ?_ rfl k
  rw [withTable, setTable_eq hr]

/-- As long as the counts have room, key types count their regions. -/
theorem UsersCounted.transition (h : c.UsersCounted) (hs : c.Steady) (ht : Transition c op done)
    (hroom : ∀ id, done.core.users id ≤ maxCount) : done.core.UsersCounted := by
  cases ht with
  | createKeyType found =>
      exact fun id => ((KeyTypes.sameUse_intern hs.keyTypes found).refCount id).trans (h id)
  | destroyKeyType destroyed =>
      exact fun id => ((KeyTypes.sameUse_destroy hs.keyTypes destroyed).refCount id).trans (h id)
  | @createRegion keyType _ _ ct _ regions keyTypes found planned inserted counted =>
      obtain ⟨keyTypes', hacquire, -, hcount⟩ :=
        KeyTypes.exists_acquire (Arena.contains_iff.mpr ⟨ct, found⟩)
      obtain rfl := Except.ok.inj (hacquire.symm.trans counted)
      have htotal : ∀ k, regions.total (fun r => [r.keyType].count k) =
          c.users k + [keyType].count k := fun k =>
        Arena.total_insertWith? (fun r : Region => [r.keyType].count k) hs.regions inserted
      have hfits : c.keyTypes.types.refCount keyType + 1 ≤ maxCount := by
        have hkeyType := hroom keyType
        rw [users, htotal, List.count_singleton_self] at hkeyType
        rw [h]
        exact hkeyType
      intro k
      calc keyTypes'.types.refCount k
          = c.keyTypes.types.refCount k + [keyType].count k := hcount hfits k
        _ = c.users k + [keyType].count k := by rw [h]
        _ = regions.total (fun r => [r.keyType].count k) := (htotal k).symm
  | @resizeRegion _ r capacity hwSize table found planned resized =>
      let r' : Region := { r with capacity := capacity, hwSize := hwSize, table := table }
      exact fun k => (h k).trans (users_of_set found r' rfl rfl k).symm
  | @destroyRegion _ r regions keyTypes _ unused removed uncounted released =>
      have hused : 0 < c.keyTypes.types.refCount r.keyType := by
        rw [h]
        exact users_pos (Arena.remove?_eq_some_iff.mp removed).1
      obtain ⟨keyTypes', hrelease, -, hcount⟩ := KeyTypes.exists_release hused
      obtain rfl := Except.ok.inj (hrelease.symm.trans uncounted)
      intro k
      have htotal : regions.total (fun r => [r.keyType].count k) + [r.keyType].count k =
          c.users k := Arena.total_remove? (fun r : Region => [r.keyType].count k) removed
      have hold := h k
      have hnew := hcount k
      change keyTypes'.types.refCount k = regions.total (fun r => [r.keyType].count k)
      omega
  | setRules found => exact fun k => (h k).trans (users_withTable found _ k).symm
  | deleteRules found => exact fun k => (h k).trans (users_withTable found _ k).symm
  | moveBlock found => exact fun k => (h k).trans (users_withTable found _ k).symm
  | shiftPriority found => exact fun k => (h k).trans (users_withTable found _ k).symm
  | _ => exact h

/-- A key type keeps its value while regions of it are counted. -/
theorem Transition.keyType_value (ht : Transition c op done) (hs : c.Steady) (h : c.UsersCounted)
    {id : Handle .keyType} (hused : 0 < c.users id) :
    (done.core.keyTypes.types.get? id).map Counted.value =
      (c.keyTypes.types.get? id).map Counted.value := by
  rw [← h] at hused
  cases ht with
  | createKeyType found => exact (KeyTypes.sameUse_intern hs.keyTypes found).value id hused
  | destroyKeyType destroyed =>
      exact (KeyTypes.sameUse_destroy hs.keyTypes destroyed).value id hused
  | createRegion found planned inserted counted =>
      exact (KeyTypes.recounted_acquire counted).1.value id
  | destroyRegion unused removed uncounted released =>
      exact (KeyTypes.recounted_release uncounted).1.value id
  | _ => rfl

/-! ### Properties of all regions -/

/-- Every region is as `p` says, given its key type. -/
def EachRegion (p : KeyType → Region → Prop) (c : Core) : Prop :=
  ∀ id r, c.regions.regions.get? id = some r →
    ∃ ct, c.keyTypes.types.get? r.keyType = some ct ∧ p ct.value r

lemma eachRegion_new {config : Config} {catalog : Catalog} (h : Core.new config catalog = .ok c) :
    c.EachRegion p := by
  intro id r hr
  rw [Core.new] at h
  split at h
  · cases h
  · cases h
    rw [show (Regions.empty config).regions.get? id = none from Arena.get?_empty _] at hr
    cases hr

/-- Every transition keeps a property of all regions that new regions have and changes keep. -/
theorem EachRegion.transition (h : c.EachRegion p) (hs : c.Steady) (hcounted : c.UsersCounted)
    (ht : Transition c op done)
    (hnew : ∀ (ct : Counted KeyType) keyType capacity hwSize,
      c.keyTypes.types.get? keyType = some ct → c.regions.hwSizeFor capacity = .ok hwSize →
        p ct.value ⟨keyType, ct.value.width, capacity, hwSize, .empty capacity⟩)
    (hchanged : ∀ (ct : Counted KeyType) r r', c.keyTypes.types.get? r.keyType = some ct →
      p ct.value r → r.Changed c r' → p ct.value r') :
    done.core.EachRegion p := by
  intro id r' hr'
  -- the key type of a region from before is still there
  have hkept : ∀ {r ct}, c.regions.regions.get? id = some r →
      c.keyTypes.types.get? r.keyType = some ct →
        ∃ ct', done.core.keyTypes.types.get? r.keyType = some ct' ∧ ct'.value = ct.value := by
    intro r ct hr hct
    have hvalue := ht.keyType_value hs hcounted (users_pos hr)
    rw [hct, Option.map_some, Option.map_eq_some_iff] at hvalue
    exact hvalue
  have hevolves := ht.region_evolves hs.regions hr'
  generalize hold : c.regions.regions.get? id = old at hevolves
  cases hevolves with
  | kept =>
      obtain ⟨ct, hct, hp⟩ := h id r' hold
      obtain ⟨ct', hct', heq⟩ := hkept hold hct
      exact ⟨ct', hct', heq ▸ hp⟩
  | @changed r _ change =>
      obtain ⟨ct, hct, hp⟩ := h id r hold
      obtain ⟨ct', hct', heq⟩ := hkept hold hct
      exact ⟨ct', change.keyType_eq ▸ hct', heq ▸ hchanged ct r r' hct hp change⟩
  | @created keyType ct capacity hwSize found kept sized =>
      obtain ⟨ct', hct', heq⟩ := Option.map_eq_some_iff.mp kept
      exact ⟨ct', hct', heq ▸ hnew ct keyType capacity hwSize found sized⟩

end Core

end AclPlane
