import AclPlane.Proofs.Acls
import AclPlane.Proofs.Bindings
import AclPlane.Proofs.Guarantees

/-!
References between the objects of a model.

* `Core.Refers`: something that the model stores refers to an object.
* `Core.isLive`: whether a handle of any kind names an object.
* Some references are searched for: `Core.userOf?_eq_none_iff_not_refers` for regions,
  `Core.free_acl_iff_not_refers` for ACLs, `Core.free_group_iff_not_refers` for groups.
* The others are counted: `Core.Sound.users_pos_iff_refers` for key types, and
  `Core.Sound.refCount_pos_iff_refers` for the entries of the pools.
-/

namespace AclPlane

/-! ### Kinds of references -/

namespace Core

/-- Something that the model stores refers to an object. -/
inductive Refers (c : Core) : {kind : ObjectKind} → Handle kind → Prop where
  /-- A region has a key type. -/
  | keyType {i : Handle .region} {r : Region} (found : c.regions.regions.get? i = some r) :
      Refers c r.keyType
  /-- An ACL lists a region. -/
  | region {i : Handle .acl} {a : Acl} {id : Handle .region} (found : c.acls.acls.get? i = some a)
      (listed : id ∈ a.regions) : Refers c id
  /-- A group lists an ACL. -/
  | member {i : Handle .group} {g : Group} {id : Handle .acl}
      (found : c.groups.groups.get? i = some g) (listed : id ∈ g.acls) : Refers c id
  /-- A group is followed by another. -/
  | next {i : Handle .group} {g : Group} {id : Handle .group}
      (found : c.groups.groups.get? i = some g) (followed : g.next = some id) : Refers c id
  /-- An ACL is bound. -/
  | boundAcl {key : BindingKey} {e : BoundEntry} {id : Handle .acl}
      (bound : e ∈ c.bindings.entriesAt key) (target : e.target = .acl id) : Refers c id
  /-- A group is bound. -/
  | boundGroup {key : BindingKey} {e : BoundEntry} {id : Handle .group}
      (bound : e ∈ c.bindings.entriesAt key) (target : e.target = .group id) : Refers c id
  /-- A VLAN group carries a binding. -/
  | point {id : Handle .vlanGroup} {d : Direction} {e : BoundEntry}
      (bound : e ∈ c.bindings.entriesAt ⟨.vlanGroup id, d⟩) : Refers c id
  /-- A stored rule switches through a PBS entry. -/
  | pbs {r : Rule} {id : Handle .pbs} (stored : r ∈ c.rules) (action : .pbs id ∈ r.actions) :
      Refers c id
  /-- A stored rule compares a key with a range. -/
  | range {r : Rule} {k : KeyMatch} {id : Handle .range} (stored : r ∈ c.rules)
      (condition : k ∈ r.keys) (matcher : k.matcher = .range id) : Refers c id
  /-- A stored rule compares bytes of a custom-byte set. -/
  | customBytes {r : Rule} {k : KeyMatch} {id : Handle .customBytes} {value mask : BitVec 32}
      (stored : r ∈ c.rules) (condition : k ∈ r.keys)
      (matcher : k.matcher = .customBytes id value mask) : Refers c id
  /-- A stored rule compares a key with a port list. -/
  | portList {r : Rule} {k : KeyMatch} {id : Handle .portList} (stored : r ∈ c.rules)
      (condition : k ∈ r.keys) (matcher : k.matcher = .portList id) : Refers c id

/-- Whether a handle names an object. -/
def isLive (c : Core) : {kind : ObjectKind} → Handle kind → Bool
  | .keyType, id => c.keyTypes.types.contains id
  | .region, id => c.regions.contains id
  | .acl, id => c.acls.acls.contains id
  | .group, id => c.groups.groups.contains id
  | .pbs, id => c.pools.pbs.contains id
  | .range, id => c.pools.ranges.pool.contains id
  | .customBytes, id => c.pools.customBytes.contains id
  | .portList, id => c.pools.portLists.contains id
  | .vlanGroup, id => c.pools.vlanGroups.contains id

variable {c : Core}

/-! ### References that are searched for -/

lemma userOf?_eq_none_iff_not_refers (hc : c.acls.acls.Consistent) {id : Handle .region} :
    c.acls.userOf? id = none ↔ ¬c.Refers id := by
  rw [Acls.userOf?_eq_none_iff hc]
  constructor
  · intro hall href
    cases href with
    | region found listed => exact hall _ _ found listed
  · exact fun hno i a found listed => hno (.region found listed)

lemma holderOf?_eq_none (hc : c.groups.groups.Consistent) {id : Handle .acl}
    (hno : ¬c.Refers id) : c.groups.holderOf? id = none :=
  (Groups.holderOf?_eq_none_iff hc).mpr fun _ _ found listed => hno (.member found listed)

lemma isBound_acl_eq_false {id : Handle .acl} (hno : ¬c.Refers id) :
    c.bindings.isBound (.acl id) = false := by
  rw [Bool.eq_false_iff]
  intro hbound
  obtain ⟨key, e, he, ht⟩ := Bindings.isBound_iff.mp hbound
  exact hno (.boundAcl he ht)

/-- Nothing refers to an ACL exactly if no group lists it and no binding targets it. -/
lemma free_acl_iff_not_refers (hc : c.groups.groups.Consistent) {id : Handle .acl} :
    c.groups.holderOf? id = none ∧ c.bindings.isBound (.acl id) = false ↔ ¬c.Refers id := by
  constructor
  · rintro ⟨hunlisted, hunbound⟩ href
    cases href with
    | member found listed =>
        exact (Groups.holderOf?_eq_none_iff hc).mp hunlisted _ _ found listed
    | boundAcl bound target =>
        rw [Bindings.isBound_iff.mpr ⟨_, _, bound, target⟩] at hunbound
        cases hunbound
  · exact fun hno => ⟨holderOf?_eq_none hc hno, isBound_acl_eq_false hno⟩

lemma isGroupBound_iff {id : Handle .group} : c.isGroupBound id = true ↔
    ∃ key e head, e ∈ c.bindings.entriesAt key ∧ e.target = .group head ∧
      id ∈ c.groups.chainFrom head := by
  simp only [isGroupBound, List.any_eq_true, Bindings.mem_allEntries_iff]
  constructor
  · rintro ⟨e, ⟨key, he⟩, hchain⟩
    split at hchain
    · next head ht => exact ⟨key, e, head, he, ht, by simpa using hchain⟩
    · cases hchain
  · rintro ⟨key, e, head, he, ht, hchain⟩
    refine ⟨e, ⟨key, he⟩, ?_⟩
    rw [ht]
    simpa using hchain

/-- Nothing refers to a live group exactly if it is in no bound chain and follows no other group:
within a bound chain, what is not the bound head follows another group. -/
lemma free_group_iff_not_refers (hc : c.groups.groups.Consistent) {id : Handle .group} {g : Group}
    (hg : c.groups.groups.get? id = some g) :
    c.isGroupBound id = false ∧ c.groups.parentOf? id = none ↔ ¬c.Refers id := by
  constructor
  · rintro ⟨hunbound, hfirst⟩ href
    cases href with
    | next found followed =>
        exact (Groups.parentOf?_eq_none_iff hc).mp hfirst _ _ found followed
    | boundGroup bound target =>
        rw [isGroupBound_iff.mpr ⟨_, _, _, bound, target, Groups.mem_chainFrom_self hg⟩] at hunbound
        cases hunbound
  · intro hno
    refine ⟨Bool.eq_false_iff.mpr fun hbound => ?_, (Groups.parentOf?_eq_none_iff hc).mpr
      fun _ _ found followed => hno (.next found followed)⟩
    obtain ⟨key, e, head, he, ht, hchain⟩ := isGroupBound_iff.mp hbound
    rcases Groups.eq_or_follows_of_mem_chainFrom hchain with rfl | ⟨i, p, hp, hnext⟩
    · exact hno (.boundGroup he ht)
    · exact hno (.next hp hnext)

/-! ### References that are counted -/

lemma Sound.users_pos_iff_refers (h : c.Sound) {id : Handle .keyType} :
    0 < c.users id ↔ c.Refers id := by
  rw [users_eq_countP, List.countP_pos_iff]
  constructor
  · rintro ⟨⟨i, r⟩, hmem, hid⟩
    obtain rfl : r.keyType = id := of_decide_eq_true hid
    exact .keyType ((Arena.mem_toList_iff h.regions).mp hmem)
  · intro href
    cases href with
    | keyType found => exact ⟨_, (Arena.mem_toList_iff h.regions).mpr found, decide_eq_true rfl⟩

end Core

namespace Rule

variable {r : Rule}

lemma mem_refs_pbs {id : Handle .pbs} : id ∈ r.refs.pbs ↔ .pbs id ∈ r.actions := by
  simp only [refs, List.mem_filterMap]
  constructor
  · rintro ⟨a, ha, hid⟩
    split at hid
    · cases hid
      exact ha
    · cases hid
  · exact fun ha => ⟨_, ha, rfl⟩

lemma mem_refs_ranges {id : Handle .range} :
    id ∈ r.refs.ranges ↔ ∃ k ∈ r.keys, k.matcher = .range id := by
  simp only [refs, List.mem_filterMap]
  refine exists_congr fun k => and_congr_right fun _ => ?_
  cases k.matcher <;> simp

lemma mem_refs_customBytes {id : Handle .customBytes} : id ∈ r.refs.customBytes ↔
    ∃ k ∈ r.keys, ∃ value mask, k.matcher = .customBytes id value mask := by
  simp only [refs, List.mem_filterMap]
  refine exists_congr fun k => and_congr_right fun _ => ?_
  cases k.matcher <;> simp

lemma mem_refs_portLists {id : Handle .portList} :
    id ∈ r.refs.portLists ↔ ∃ k ∈ r.keys, k.matcher = .portList id := by
  simp only [refs, List.mem_filterMap]
  refine exists_congr fun k => and_congr_right fun _ => ?_
  cases k.matcher <;> simp

end Rule

namespace Core

variable {c : Core}

/-- An entry that no binding refers to is counted exactly if a stored rule refers to it. -/
lemma Sound.refCount_pos_iff_of_rules (h : c.Sound) {e : PoolEntry}
    (he : c.bindings.references e = 0) :
    0 < c.pools.refCount e ↔ ∃ r ∈ c.rules, 0 < r.refs.count e := by
  rw [h.refCount_of_rules he]
  simp only [Nat.pos_iff_ne_zero, ne_eq, List.sum_eq_zero_iff, List.mem_map, not_forall]
  constructor
  · rintro ⟨_, ⟨r, hr, rfl⟩, hne⟩
    exact ⟨r, hr, hne⟩
  · rintro ⟨r, hr, hne⟩
    exact ⟨_, ⟨r, hr, rfl⟩, hne⟩

/-- An entry of a pool is counted exactly if something refers to it. -/
lemma Sound.refCount_pos_iff_refers (h : c.Sound) (e : PoolEntry) :
    0 < c.pools.refCount e ↔ c.Refers e.ref.handle := by
  cases e with
  | pbs id =>
      rw [h.refCount_pos_iff_of_rules rfl]
      constructor
      · rintro ⟨r, hr, hpos⟩
        exact .pbs hr (Rule.mem_refs_pbs.mp (List.count_pos_iff.mp hpos))
      · intro href
        cases href with
        | pbs stored action =>
            exact ⟨_, stored, List.count_pos_iff.mpr (Rule.mem_refs_pbs.mpr action)⟩
  | range id =>
      rw [h.refCount_pos_iff_of_rules rfl]
      constructor
      · rintro ⟨r, hr, hpos⟩
        obtain ⟨k, hk, hm⟩ := Rule.mem_refs_ranges.mp (List.count_pos_iff.mp hpos)
        exact .range hr hk hm
      · intro href
        cases href with
        | range stored condition matcher =>
            exact ⟨_, stored, List.count_pos_iff.mpr
              (Rule.mem_refs_ranges.mpr ⟨_, condition, matcher⟩)⟩
  | customBytes id =>
      rw [h.refCount_pos_iff_of_rules rfl]
      constructor
      · rintro ⟨r, hr, hpos⟩
        obtain ⟨k, hk, _, _, hm⟩ := Rule.mem_refs_customBytes.mp (List.count_pos_iff.mp hpos)
        exact .customBytes hr hk hm
      · intro href
        cases href with
        | customBytes stored condition matcher =>
            exact ⟨_, stored, List.count_pos_iff.mpr
              (Rule.mem_refs_customBytes.mpr ⟨_, condition, _, _, matcher⟩)⟩
  | portList id =>
      rw [h.refCount_pos_iff_of_rules rfl]
      constructor
      · rintro ⟨r, hr, hpos⟩
        obtain ⟨k, hk, hm⟩ := Rule.mem_refs_portLists.mp (List.count_pos_iff.mp hpos)
        exact .portList hr hk hm
      · intro href
        cases href with
        | portList stored condition matcher =>
            exact ⟨_, stored, List.count_pos_iff.mpr
              (Rule.mem_refs_portLists.mpr ⟨_, condition, matcher⟩)⟩
  | vlanGroup id =>
      rw [h.refCount_vlanGroup, List.countP_pos_iff]
      constructor
      · rintro ⟨d, -, hne⟩
        obtain ⟨e, he⟩ := List.exists_mem_of_ne_nil _ (of_decide_eq_true hne)
        exact .point he
      · intro href
        cases href with
        | @point _ d e bound =>
            refine ⟨d, ?_, decide_eq_true (List.ne_nil_of_mem bound)⟩
            cases d <;> decide

end Core

end AclPlane
