import AclPlane.Proofs.Frame

/-!
Operations on bindings go through.

A VLAN group is counted once for each direction in which it carries entries
(`Core.CountsDirections`).  `references_commit` says how the number of those directions changes with
the entries of one key, and `exists_countBinding` that the counts follow.  There are five
directions, so a count that is exact has always room for one more.

What each operation plans is a change to other entries of its key: `bindTarget_eq_ok`,
`unbind_eq_ok`, `bindAdd_eq_ok` and `bindDelete_eq_ok`.
-/

namespace AclPlane

/-! ### Directions counted -/

/-- Changing a predicate at one element of a list without repetitions. -/
lemma countP_update {α : Type} {l : List α} (hnodup : l.Nodup) {a : α} (ha : a ∈ l) {p q : α → Bool}
    (hpq : ∀ b, b ≠ a → q b = p b) :
    l.countP q + (if p a then 1 else 0) = l.countP p + if q a then 1 else 0 := by
  induction l with
  | nil => cases ha
  | cons b l ih =>
      rw [List.nodup_cons] at hnodup
      rw [List.countP_cons, List.countP_cons]
      rcases List.mem_cons.mp ha with rfl | ha
      · have hrest : l.countP q = l.countP p := by
          refine List.countP_congr fun b hb => ?_
          rw [hpq b fun heq => hnodup.1 (heq ▸ hb)]
        omega
      · have hb : b ≠ a := by
          rintro rfl
          exact hnodup.1 ha
        have hrest := ih hnodup.2 ha
        rw [hpq b hb]
        omega

namespace Bindings

variable {b : Bindings} {key : BindingKey} {list : List BoundEntry}

lemma get?_commit (b : Bindings) (key : BindingKey) (list : List BoundEntry) (k : BindingKey) :
    (b.commit key list).entries.get? k =
      if k = key then (if list.isEmpty then none else some list) else b.entries.get? k := by
  rw [commit]
  split
  · exact OrderedMap.get?_erase _ _ _
  · exact OrderedMap.get?_insert _ _ _ _

/-- A key without entries is not kept. -/
lemma get?_commit_ne_nil (hne : ∀ k, b.entries.get? k ≠ some []) (k : BindingKey) :
    (b.commit key list).entries.get? k ≠ some [] := by
  rw [get?_commit]
  by_cases hk : k = key
  · rw [if_pos hk]
    cases list with
    | nil => simp
    | cons entry list => simp
  · rw [if_neg hk]
    exact hne k

lemma isBoundAt_commit (b : Bindings) (key : BindingKey) (list : List BoundEntry) (k : BindingKey) :
    (b.commit key list).isBoundAt k = if k = key then !list.isEmpty else b.isBoundAt k := by
  rw [isBoundAt, OrderedMap.contains, get?_commit]
  by_cases hk : k = key
  · rw [if_pos hk, if_pos hk]
    cases list.isEmpty <;> rfl
  · rw [if_neg hk, if_neg hk]
    rfl

/-- What one direction of a key adds to the count of an entry. -/
def weight (key : BindingKey) (e : PoolEntry) : ℕ :=
  match key.point with
  | .vlanGroup id => if e = .vlanGroup id then 1 else 0
  | _ => 0

lemma weight_eq (key : BindingKey) (id : Handle .vlanGroup) :
    weight key (.vlanGroup id) = if key.point = .vlanGroup id then 1 else 0 := by
  obtain ⟨point, d⟩ := key
  cases point with
  | vlanGroup id' =>
      simp only [weight, PoolEntry.vlanGroup.injEq, AttachPoint.vlanGroup.injEq, eq_comm]
  | _ => rfl

/-- Other entries on one key change the count of directions by that of the key. -/
lemma references_commit (b : Bindings) (key : BindingKey) (list : List BoundEntry) (e : PoolEntry) :
    (b.commit key list).references e + (if b.isBoundAt key then weight key e else 0) =
      b.references e + if list.isEmpty then 0 else weight key e := by
  cases e with
  | vlanGroup id =>
      rw [weight_eq]
      simp only [references, isBoundAt_commit]
      by_cases hpoint : key.point = .vlanGroup id
      · have hkey : key = ⟨.vlanGroup id, key.direction⟩ := by rw [← hpoint]
        have hmem : key.direction ∈ Direction.all := by
          cases key.direction <;> decide
        have hupdate := countP_update (by decide : Direction.all.Nodup) hmem
          (p := fun d => b.isBoundAt ⟨.vlanGroup id, d⟩)
          (q := fun d => if ⟨.vlanGroup id, d⟩ = key then !list.isEmpty
            else b.isBoundAt ⟨.vlanGroup id, d⟩) fun d hd => by
              rw [if_neg]
              intro heq
              exact hd (congrArg BindingKey.direction heq)
        rw [← hkey, if_pos rfl] at hupdate
        rw [if_pos hpoint]
        cases hempty : list.isEmpty with
        | true => simpa [hempty] using hupdate
        | false => simpa [hempty] using hupdate
      · have hne : ∀ d, (⟨.vlanGroup id, d⟩ : BindingKey) ≠ key := by
          rintro d rfl
          exact hpoint rfl
        simp only [hne, if_false, if_neg hpoint, ite_self]
  | _ =>
      have hweight : ∀ e : PoolEntry, (∀ id, e ≠ .vlanGroup id) → weight key e = 0 := by
        intro e he
        rw [weight]
        split
        · exact if_neg (he _)
        · rfl
      rw [hweight _ (fun id => by simp), ite_self, ite_self]
      rfl

/-- An exact count of directions has room for one more. -/
lemma references_lt (b : Bindings) (e : PoolEntry) : b.references e + 1 ≤ maxCount := by
  have hmax : Direction.all.length + 1 ≤ maxCount := by decide
  cases e with
  | vlanGroup id =>
      have hle := List.countP_le_length (p := fun d => b.isBoundAt ⟨.vlanGroup id, d⟩)
        (l := Direction.all)
      exact le_trans (Nat.succ_le_succ hle) hmax
  | _ => exact le_trans (Nat.succ_le_succ (Nat.zero_le _)) hmax

lemma isEmpty_rawTargets (list : List BoundEntry) : (rawTargets list).isEmpty = list.isEmpty := by
  rw [rawTargets, List.isEmpty_map]

end Bindings

namespace Core

variable {c : Core} {t : DeviceTables} {room : Prop} {key : BindingKey} {list : List BoundEntry}

/-- Rules do not refer to VLAN groups. -/
lemma ruleReferences_vlanGroup (c : Core) (id : Handle .vlanGroup) :
    c.ruleReferences (.vlanGroup id) = 0 := by
  rw [ruleReferences, Arena.total, List.sum_eq_zero]
  intro n hn
  obtain ⟨e, -, rfl⟩ := List.mem_map.mp hn
  rfl

/-- Every VLAN group counts the directions in which it carries a binding. -/
def CountsDirections (c : Core) : Prop :=
  ∀ id, c.pools.refCount (.vlanGroup id) = c.bindings.references (.vlanGroup id)

lemma Sound.countsDirections (h : c.Sound) : c.CountsDirections := fun id => by
  rw [h.references_eq, references, ruleReferences_vlanGroup, Nat.zero_add]

/-- The direction of a key is counted by the VLAN group that it belongs to. -/
lemma CountsDirections.pos (h : c.CountsDirections) {id : Handle .vlanGroup} {d : Direction}
    (hb : c.bindings.isBoundAt ⟨.vlanGroup id, d⟩ = true) :
    0 < c.pools.refCount (.vlanGroup id) := by
  rw [h]
  refine List.countP_pos_iff.mpr ⟨d, ?_, hb⟩
  cases d <;> decide

/-- Replacing the pool of VLAN groups by one with other counts. -/
lemma recounted_vlanGroups {p : Pools} {pool : VlanGroupPool}
    (h : p.vlanGroups.entries.Recounted pool.entries) : p.Recounted { p with vlanGroups := pool } :=
  { Pools.Recounted.refl p with vlanGroups := h }

lemma count_singleton_eq_weight (id i : Handle .vlanGroup) (d : Direction) :
    [id].count i = Bindings.weight ⟨.vlanGroup id, d⟩ (.vlanGroup i) := by
  rw [Bindings.weight_eq, List.count_singleton]
  simp only [AttachPoint.vlanGroup.injEq, beq_iff_eq]

lemma weight_of_ne (id : Handle .vlanGroup) (d : Direction) {e : PoolEntry}
    (he : e ≠ .vlanGroup id) : Bindings.weight ⟨.vlanGroup id, d⟩ e = 0 := if_neg he

/-- A new key of a VLAN group is counted. -/
lemma exists_countBinding_first (h : c.CountsDirections) {id : Handle .vlanGroup} {d : Direction}
    (hlive : c.pools.vlanGroups.contains id = true)
    (hb : c.bindings.isBoundAt ⟨.vlanGroup id, d⟩ = false) (hl : list.isEmpty = false) :
    ∃ pools, c.countBinding ⟨.vlanGroup id, d⟩ list = .ok pools ∧ c.pools.Recounted pools ∧
      ∀ e, pools.refCount e = c.pools.refCount e + Bindings.weight ⟨.vlanGroup id, d⟩ e := by
  obtain ⟨pool, hacq, hrec, hcount⟩ := Pool.exists_acquire hlive
  have hroom : c.pools.refCount (.vlanGroup id) + 1 ≤ maxCount := by
    rw [h]
    exact c.bindings.references_lt (.vlanGroup id)
  refine ⟨{ c.pools with vlanGroups := pool }, ?_, recounted_vlanGroups hrec, fun e => ?_⟩
  · simp only [countBinding, hb, hl, hacq]
    rfl
  · cases e with
    | vlanGroup i =>
        rw [← count_singleton_eq_weight]
        exact Arena.refCount_retain (hcount i) hroom
    | _ =>
        rw [weight_of_ne _ _ (by simp)]
        rfl

/-- A key of a VLAN group that loses its entries is no longer counted. -/
lemma exists_countBinding_last (h : c.CountsDirections) {id : Handle .vlanGroup} {d : Direction}
    (hb : c.bindings.isBoundAt ⟨.vlanGroup id, d⟩ = true) (hl : list.isEmpty = true) :
    ∃ pools, c.countBinding ⟨.vlanGroup id, d⟩ list = .ok pools ∧ c.pools.Recounted pools ∧
      ∀ e, pools.refCount e + Bindings.weight ⟨.vlanGroup id, d⟩ e = c.pools.refCount e := by
  obtain ⟨pool, hrel, hrec, hcount⟩ := Pool.exists_release (h.pos hb)
  refine ⟨{ c.pools with vlanGroups := pool }, ?_, recounted_vlanGroups hrec, fun e => ?_⟩
  · simp only [countBinding, hb, hl, hrel]
    rfl
  · cases e with
    | vlanGroup i =>
        rw [← count_singleton_eq_weight]
        exact hcount i
    | _ =>
        rw [weight_of_ne _ _ (by simp)]
        rfl

/-- The counts follow the entries of a key, provided that its VLAN group is live. -/
lemma exists_countBinding (h : c.CountsDirections) (list : List BoundEntry)
    (hlive : ∀ id, key.point = .vlanGroup id → c.pools.vlanGroups.contains id = true) :
    ∃ pools, c.countBinding key list = .ok pools ∧ c.pools.Recounted pools ∧
      ∀ e, pools.refCount e + (if c.bindings.isBoundAt key then Bindings.weight key e else 0) =
        c.pools.refCount e + if list.isEmpty then 0 else Bindings.weight key e := by
  obtain ⟨point, d⟩ := key
  cases point with
  | vlanGroup id =>
      cases hb : c.bindings.isBoundAt ⟨.vlanGroup id, d⟩ with
      | false =>
          cases hl : list.isEmpty with
          | true =>
              refine ⟨c.pools, ?_, .refl _, fun e => rfl⟩
              simp only [countBinding, hb, hl]
              rfl
          | false =>
              obtain ⟨pools, hcount, hrec, hexact⟩ :=
                exists_countBinding_first h (hlive id rfl) hb hl
              exact ⟨pools, hcount, hrec, hexact⟩
      | true =>
          cases hl : list.isEmpty with
          | true =>
              obtain ⟨pools, hcount, hrec, hexact⟩ := exists_countBinding_last h hb hl
              exact ⟨pools, hcount, hrec, hexact⟩
          | false =>
              refine ⟨c.pools, ?_, .refl _, fun e => rfl⟩
              simp only [countBinding, hb, hl]
              rfl
  | port id => exact ⟨c.pools, rfl, .refl _, fun e => by simp [Bindings.weight]⟩
  | lag id => exact ⟨c.pools, rfl, .refl _, fun e => by simp [Bindings.weight]⟩
  | rif id => exact ⟨c.pools, rfl, .refl _, fun e => by simp [Bindings.weight]⟩

/-! ### Plans -/

lemma bindTarget_eq_ok {target : BindTarget} {change : Change Unit}
    (hp : c.bindTarget key target = .ok change) : ∃ priority, c.checkBindingKey key = .ok () ∧
      c.targetPriority key.direction target = .ok priority ∧
      change = c.rebind key [⟨target, priority⟩] c.oneBind := by
  simp only [bindTarget, bind_eq_ok, pure_eq_ok] at hp
  obtain ⟨_, hkey, priority, hpriority, rfl⟩ := hp
  exact ⟨priority, hkey, hpriority, rfl⟩

lemma unbind_eq_ok {change : Change Unit} (hp : c.unbind key = .ok change) :
    c.checkBindingKey key = .ok () ∧ c.bindings.isBoundAt key = true ∧
      change = c.rebind key [] c.oneUnbind := by
  simp only [unbind, bind_eq_ok, guard_eq_ok, pure_eq_ok, Bool.not_eq_true',
    Bool.not_eq_false] at hp
  obtain ⟨_, hkey, hbound, rfl⟩ := hp
  exact ⟨hkey, hbound, rfl⟩

/-- Adding a group changes the entries of its key, unless it is bound there already. -/
lemma bindAdd_eq_ok {group : Handle .group} {change : Change Unit}
    (hp : c.bindAdd key group = .ok change) : ∃ priority, c.checkBindingKey key = .ok () ∧
      c.targetPriority key.direction (.group group) = .ok priority ∧
      ((∃ list, c.bindings.planAdd key ⟨.group group, priority⟩ = .ok (some list) ∧
          change = c.rebind key list c.oneBind) ∨
        (c.bindings.planAdd key ⟨.group group, priority⟩ = .ok none ∧ change = .quiet c ())) := by
  simp only [bindAdd, bind_eq_ok] at hp
  obtain ⟨_, hkey, priority, hpriority, planned, hplan, hp⟩ := hp
  refine ⟨priority, hkey, hpriority, ?_⟩
  split at hp
  · cases hp
    exact .inl ⟨_, hplan, rfl⟩
  · cases hp
    exact .inr ⟨hplan, rfl⟩

lemma bindDelete_eq_ok {group : Handle .group} {change : Change Unit}
    (hp : c.bindDelete key group = .ok change) : ∃ list, c.checkBindingKey key = .ok () ∧
      c.bindings.planDelete key group = .ok list ∧ change = c.rebind key list c.oneUnbind := by
  simp only [bindDelete, bind_eq_ok, pure_eq_ok] at hp
  obtain ⟨_, hkey, list, hplan, rfl⟩ := hp
  exact ⟨list, hkey, hplan, rfl⟩

/-! ### Operations -/

/-- A key that passes the check has a live VLAN group, if it has one. -/
lemma contains_of_checkBindingKey {u : Unit} (hk : c.checkBindingKey key = .ok u) :
    ∀ id, key.point = .vlanGroup id → c.pools.vlanGroups.contains id = true := by
  intro id hpoint
  simp only [checkBindingKey, bind_eq_ok, hpoint, last_guard_eq_ok, Bool.not_eq_true',
    Bool.not_eq_false] at hk
  obtain ⟨_, -, hid, -⟩ := hk
  exact hid

/-- The device keeps the raw targets of the entries of each key. -/
lemma Shown.commit (h : c.Shown t) (key : BindingKey) (list : List BoundEntry) :
    { c with bindings := c.bindings.commit key list }.Shown
      { t with bindings := if (Bindings.rawTargets list).isEmpty then t.bindings.erase key
        else t.bindings.insert key (Bindings.rawTargets list) } := by
  refine { h with bindings := fun k => ?_ }
  simp only [Bindings.get?_commit, Bindings.isEmpty_rawTargets]
  cases list.isEmpty with
  | true =>
      simp only [if_true, OrderedMap.get?_erase, h.bindings k]
      split <;> rfl
  | false =>
      simp only [Bool.false_eq_true, if_false, OrderedMap.get?_insert, h.bindings k]
      split <;> rfl

/-- Other entries on one key in model and device. -/
lemma lands_rebind (h : c.InStep t)
    (hlive : ∀ id, key.point = .vlanGroup id → c.pools.vlanGroups.contains id = true)
    (list : List BoundEntry) (stats : Stats) :
    (c.rebind key list stats).Lands (some .programBinding) t room := by
  obtain ⟨pools, hcount, hrec, hexact⟩ := exists_countBinding h.sound.countsDirections list hlive
  have hreferences : ∀ e, pools.refCount e =
      c.ruleReferences e + (c.bindings.commit key list).references e := by
    intro e
    have hpools := hexact e
    have hbindings := c.bindings.references_commit key list e
    have hold := h.sound.references_eq e
    rw [references] at hold
    omega
  simp only [rebind, hcount, ok_bind]
  refine Change.lands_call _ rfl fun _ => ⟨{ h.sound with
    pools := hrec.consistent h.sound.pools
    entries_ne := Bindings.get?_commit_ne_nil h.sound.entries_ne
    references_eq := hreferences
    refCount_le := fun e => ?_ },
    { (h.mirrors.commit key list), h.mirrors with }⟩
  rw [hreferences]
  cases e with
  | vlanGroup id =>
      rw [ruleReferences_vlanGroup, Nat.zero_add]
      exact Nat.le_of_succ_le (Bindings.references_lt _ (.vlanGroup id))
  | _ =>
      have hmax := h.sound.refCount_le
      simp only [h.sound.references_eq, references] at hmax
      exact hmax _

theorem lands_bindTarget (h : c.InStep t) {target : BindTarget} {change : Change Unit}
    (hp : c.bindTarget key target = .ok change) : change.Lands (some .programBinding) t room := by
  obtain ⟨priority, hkey, -, rfl⟩ := bindTarget_eq_ok hp
  exact lands_rebind h (contains_of_checkBindingKey hkey) _ _

theorem lands_unbind (h : c.InStep t) {change : Change Unit} (hp : c.unbind key = .ok change) :
    change.Lands (some .programBinding) t room := by
  obtain ⟨hkey, -, rfl⟩ := unbind_eq_ok hp
  exact lands_rebind h (contains_of_checkBindingKey hkey) _ _

theorem lands_bindAdd (h : c.InStep t) {group : Handle .group} {change : Change Unit}
    (hp : c.bindAdd key group = .ok change) : change.Lands (some .programBinding) t room := by
  obtain ⟨priority, hkey, -, ⟨list, -, rfl⟩ | ⟨-, rfl⟩⟩ := bindAdd_eq_ok hp
  · exact lands_rebind h (contains_of_checkBindingKey hkey) _ _
  · exact Change.lands_quiet h

theorem lands_bindDelete (h : c.InStep t) {group : Handle .group} {change : Change Unit}
    (hp : c.bindDelete key group = .ok change) : change.Lands (some .programBinding) t room := by
  obtain ⟨list, hkey, -, rfl⟩ := bindDelete_eq_ok hp
  exact lands_rebind h (contains_of_checkBindingKey hkey) _ _

end Core

end AclPlane
