import AclPlane.Proofs.KeyTypes
import AclPlane.Proofs.References
import AclPlane.Proofs.Steady

/-!
No reference dangles.

Counted references lead to live objects because only live objects have counts.  The others are
stored as plain handles, and it is for the operations to see that these stay live:

* `Core.Linked`: the objects that ACLs, groups, bindings and interned key types name are live.
* `Core.Linked.transition`: every transition keeps this, since what is destroyed has been searched
  for in every table that could name it.
* `Controller.references_live`: after every run, everything referred to is live.
-/

namespace AclPlane

/-! ### Links of one object -/

/-- The regions of an ACL are live and distinct, and there is one. -/
structure Acl.Linked (regions : Arena .region Region) (a : Acl) : Prop where
  ne_nil : a.regions ≠ []
  nodup : a.regions.Nodup
  live : ∀ r ∈ a.regions, regions.contains r = true

/-- The members of a group are live and distinct, and there are not too many of them. -/
structure Group.Linked (acls : Arena .acl Acl) (limit : ℕ) (g : Group) : Prop where
  nodup : g.acls.Nodup
  length_le : g.acls.length ≤ limit
  live : ∀ a ∈ g.acls, acls.contains a = true

lemma Acl.linked_of_checkRegions {rs : Regions} {a : Acl} {u : Unit}
    (h : Acls.checkRegions rs a.regions = .ok u) : a.Linked rs.regions := by
  obtain ⟨hne, hnodup, hlive⟩ := Acls.checkRegions_eq_ok.mp h
  exact ⟨hne, hnodup, hlive⟩

lemma Group.linked_of_checkMembers {gs : Groups} {s : Acls} {id : Handle .group} {g : Group}
    {u : Unit} (h : gs.checkMembers s id g.acls = .ok u) : g.Linked s.acls gs.maxAclsPerGroup := by
  obtain ⟨_, -, hlength, hnodup, hlive⟩ := Groups.checkMembers_eq_ok.mp h
  refine ⟨hnodup, hlength, fun a ha => ?_⟩
  obtain ⟨v, hv, -⟩ := hlive a ha
  exact Arena.contains_iff.mpr ⟨v, hv⟩

namespace Core

variable {c : Core}

/-! ### Links of all objects -/

/-- The handles that are stored without a count name live objects. -/
structure Linked (c : Core) : Prop where
  acls : c.acls.acls.All (Acl.Linked c.regions.regions)
  members : c.groups.groups.All (Group.Linked c.acls.acls c.groups.maxAclsPerGroup)
  next : c.groups.groups.All fun g => ∀ id, g.next = some id → c.groups.groups.contains id = true
  boundAcls : ∀ key, ∀ e ∈ c.bindings.entriesAt key, ∀ id, e.target = .acl id →
    c.acls.acls.contains id = true
  boundGroups : ∀ key, ∀ e ∈ c.bindings.entriesAt key, ∀ id, e.target = .group id →
    c.groups.groups.contains id = true
  interned : c.keyTypes.Linked
  memberLimit : c.groups.maxAclsPerGroup = c.config.maxAclsPerGroup

lemma linked_new {config : Config} {catalog : Catalog} (h : Core.new config catalog = .ok c) :
    c.Linked := by
  rw [Core.new] at h
  split at h
  · cases h
  · cases h
    exact ⟨Arena.all_empty _, Arena.all_empty _, Arena.all_empty _,
      fun _ _ he => absurd he List.not_mem_nil, fun _ _ he => absurd he List.not_mem_nil,
      KeyTypes.linked_empty _ _, rfl⟩

/-! ### Changes of one table -/

/-- Regions may go that no ACL lists. -/
lemma Linked.of_regions (h : c.Linked) {regions : Arena .region Region}
    (hlive : ∀ id, c.Refers id → c.regions.regions.contains id = true →
      regions.contains id = true) :
    { c with regions := { c.regions with regions := regions } }.Linked :=
  { h with
    acls := fun i a ha =>
      { h.acls i a ha with
        live := fun r hr => hlive r (.region ha hr) ((h.acls i a ha).live r hr) } }

lemma Linked.setTable (h : c.Linked) {region : Handle .region} {r : Region}
    (hr : c.regions.regions.get? region = some r) (table : RuleTable) :
    (c.withTable region table).Linked := by
  rw [withTable, setTable_eq hr]
  exact h.of_regions fun id _ hid => (Arena.contains_set hr id).trans hid

/-- ACLs may go that no group lists and no binding targets. -/
lemma Linked.of_acls (h : c.Linked) {acls : Acls}
    (hacls : acls.acls.All (Acl.Linked c.regions.regions))
    (hlive : ∀ id, c.Refers id → c.acls.acls.contains id = true →
      acls.acls.contains id = true) : { c with acls := acls }.Linked :=
  { h with
    acls := hacls
    members := fun i g hg =>
      { h.members i g hg with
        live := fun a ha => hlive a (.member hg ha) ((h.members i g hg).live a ha) }
    boundAcls := fun key e he id ht => hlive id (.boundAcl he ht) (h.boundAcls key e he id ht) }

/-- Groups may go that follow no group and are not bound. -/
lemma Linked.of_groups (h : c.Linked) {groups : Arena .group Group}
    (hmembers : groups.All (Group.Linked c.acls.acls c.groups.maxAclsPerGroup))
    (hnext : groups.All fun g => ∀ id, g.next = some id → groups.contains id = true)
    (hlive : ∀ id, c.Refers id → c.groups.groups.contains id = true →
      groups.contains id = true) : { c with groups := { c.groups with groups := groups } }.Linked :=
  { h with
    members := hmembers
    next := hnext
    boundGroups := fun key e he id ht =>
      hlive id (.boundGroup he ht) (h.boundGroups key e he id ht) }

/-- A group may get live members and a live successor. -/
lemma Linked.withGroup (h : c.Linked) {id : Handle .group} {g g' : Group}
    (hg : c.groups.groups.get? id = some g)
    (hmembers : g'.Linked c.acls.acls c.groups.maxAclsPerGroup)
    (hnext : ∀ i, g'.next = some i → c.groups.groups.contains i = true) :
    (c.withGroup id g').Linked := by
  have hlive : ∀ i, (c.groups.groups.set id g').contains i = c.groups.groups.contains i :=
    Arena.contains_set hg
  refine h.of_groups (h.members.set hg hmembers) ?_ fun i _ hi => (hlive i).trans hi
  simp only [hlive]
  exact h.next.set hg hnext

/-- A key may get entries with live targets. -/
lemma Linked.rebound (h : c.Linked) {key : BindingKey} {list : List BoundEntry} {pools : Pools}
    {stats : Stats}
    (hacls : ∀ e ∈ list, ∀ id, e.target = .acl id → c.acls.acls.contains id = true)
    (hgroups : ∀ e ∈ list, ∀ id, e.target = .group id → c.groups.groups.contains id = true) :
    (c.rebound key list pools stats).Linked := by
  refine { h with boundAcls := fun k e he => ?_, boundGroups := fun k e he => ?_ }
  · simp only [Core.rebound, Bindings.entriesAt_commit] at he
    split at he
    · exact hacls e he
    · exact h.boundAcls k e he
  · simp only [Core.rebound, Bindings.entriesAt_commit] at he
    split at he
    · exact hgroups e he
    · exact h.boundGroups k e he

lemma contains_of_targetPriority_acl {d : Direction} {id : Handle .acl} {priority : ℕ}
    (h : c.targetPriority d (.acl id) = .ok priority) : c.acls.acls.contains id = true := by
  obtain ⟨a, ha, -⟩ := targetPriority_acl_eq_ok.mp h
  exact Arena.contains_iff.mpr ⟨a, ha⟩

lemma contains_of_targetPriority_group {d : Direction} {id : Handle .group} {priority : ℕ}
    (h : c.targetPriority d (.group id) = .ok priority) : c.groups.groups.contains id = true := by
  obtain ⟨g, hg, -⟩ := targetPriority_group_eq_ok.mp h
  exact Arena.contains_iff.mpr ⟨g, hg⟩

/-! ### Every transition -/

theorem Linked.transition {op : Option Operation} {done : Commit OpResult} (hs : c.Steady)
    (h : c.Linked) (ht : Transition c op done) : done.core.Linked := by
  cases ht with
  | observe => exact h
  | createKeyType found => exact { h with interned := h.interned.intern hs.keyTypes found }
  | destroyKeyType destroyed => exact { h with interned := h.interned.destroy destroyed }
  | createRegion found planned inserted counted =>
      obtain ⟨hrec, hinterned, -⟩ := KeyTypes.recounted_acquire counted
      have hl := h.of_regions fun id _ => Arena.contains_of_insertWith? hs.regions inserted
      exact { hl with interned := h.interned.recounted hrec hinterned }
  | resizeRegion found planned resized =>
      exact { h.of_regions fun id _ hid => (Arena.contains_set found id).trans hid with }
  | destroyRegion unused removed uncounted released =>
      obtain ⟨hrec, hinterned, -⟩ := KeyTypes.recounted_release uncounted
      have hno := (userOf?_eq_none_iff_not_refers hs.acls).mp unused
      have hl := h.of_regions fun id href hid =>
        Arena.contains_of_remove? removed hid fun heq => hno (heq ▸ href)
      exact { hl with interned := h.interned.recounted hrec hinterned }
  | createAcl planned inserted =>
      obtain ⟨-, hcheck, -⟩ := Acls.of_planCreate planned
      exact h.of_acls (h.acls.insertWith? hs.acls inserted (Acl.linked_of_checkRegions hcheck))
        fun id _ hid => Arena.contains_of_insertWith? hs.acls inserted hid
  | editAcl found planned =>
      obtain ⟨hcheck, -⟩ := Acls.of_planEdit found planned
      exact h.of_acls (h.acls.set found (Acl.linked_of_checkRegions hcheck))
        fun id _ hid => (Arena.contains_set found id).trans hid
  | destroyAcl unlisted unbound removed =>
      have hno := (free_acl_iff_not_refers hs.groups).mp ⟨unlisted, unbound⟩
      exact h.of_acls (h.acls.remove? removed) fun id href hid =>
        Arena.contains_of_remove? removed hid fun heq => hno (heq ▸ href)
  | setRules found => exact { h.setTable found _ with }
  | setNoRules => exact h
  | deleteRules found => exact { h.setTable found _ with }
  | deleteNoRules => exact h
  | moveBlock found => exact h.setTable found _
  | shiftPriority found => exact h.setTable found _
  | shiftNothing => exact h
  | createGroup planned inserted =>
      have hlive := fun id => Arena.contains_of_insertWith? (k := id) hs.groups inserted
      refine h.of_groups (h.members.insertWith? hs.groups inserted ?_)
        ((h.next.mono fun g hg id hid => hlive id (hg id hid)).insertWith? hs.groups inserted ?_)
        fun id _ => hlive id
      · exact ⟨List.nodup_nil, Nat.zero_le _, fun a ha => absurd ha List.not_mem_nil⟩
      · exact fun id hid => absurd hid.symm (Option.some_ne_none id)
  | setGroupAcls found checked =>
      exact h.withGroup found (Group.linked_of_checkMembers checked) fun _ => h.next _ _ found _
  | addGroupAcl found planned =>
      obtain ⟨_, -, -, -, hcheck⟩ := Groups.planAdd_eq_some.mp planned
      exact h.withGroup found (Group.linked_of_checkMembers hcheck) fun _ => h.next _ _ found _
  | addMember => exact h
  | @deleteGroupAcl id g acl _ found planned =>
      obtain ⟨g', hg', -, rfl⟩ := Groups.planDelete_eq_ok.mp planned
      obtain rfl : g' = g := Option.some.inj (hg'.symm.trans found)
      have hm := h.members _ _ found
      refine h.withGroup found ⟨hm.nodup.filter _, ?_, fun a ha => ?_⟩ fun _ => h.next _ _ found _
      · exact le_trans (List.length_filter_le _ _) hm.length_le
      · exact hm.live a (List.mem_filter.mp ha).1
  | chainGroups found planned =>
      obtain ⟨_, child, -, hchild, -⟩ := Groups.planChain_eq_ok.mp planned
      refine h.withGroup found { h.members _ _ found with } fun id hid => ?_
      obtain rfl := Option.some.inj hid
      exact Arena.contains_iff.mpr ⟨child, hchild⟩
  | unchainGroup found =>
      exact h.withGroup found { h.members _ _ found with }
        fun id hid => absurd hid.symm (Option.some_ne_none id)
  | setGroupPriority found =>
      exact h.withGroup found { h.members _ _ found with } fun _ => h.next _ _ found _
  | destroyGroup unbound unfollowing removed =>
      have hno := (free_group_iff_not_refers hs.groups
        (Arena.remove?_eq_some_iff.mp removed).1).mp ⟨unbound, unfollowing⟩
      refine h.of_groups (h.members.remove? removed) (fun i g hg id hid => ?_) fun id href hid =>
        Arena.contains_of_remove? removed hid fun heq => hno (heq ▸ href)
      rw [Arena.get?_remove? removed] at hg
      split at hg
      · cases hg
      · exact Arena.contains_of_remove? removed (h.next i g hg id hid)
          fun heq => hno (heq ▸ .next hg hid)
  | bind checked bindable counted =>
      refine h.rebound (fun e he id hid => ?_) fun e he id hid => ?_
      · obtain rfl := List.mem_singleton.mp he
        obtain rfl : _ = BindTarget.acl id := hid
        exact contains_of_targetPriority_acl bindable
      · obtain rfl := List.mem_singleton.mp he
        obtain rfl : _ = BindTarget.group id := hid
        exact contains_of_targetPriority_group bindable
  | unbind =>
      exact h.rebound (fun e he => absurd he List.not_mem_nil)
        fun e he => absurd he List.not_mem_nil
  | @bindAdd key group _ _ _ _ bindable planned counted =>
      obtain ⟨-, rfl⟩ := Bindings.planAdd_eq_some.mp planned
      refine h.rebound (fun e he id hid => ?_) fun e he id hid => ?_
      · rcases Bindings.mem_place.mp he with rfl | he
        · cases hid
        · exact h.boundAcls key e he id hid
      · rcases Bindings.mem_place.mp he with rfl | he
        · cases hid
          exact contains_of_targetPriority_group bindable
        · exact h.boundGroups key e he id hid
  | bindAgain => exact h
  | @bindDelete key _ _ _ _ planned counted =>
      obtain ⟨-, rfl⟩ := Bindings.planDelete_eq_ok.mp planned
      exact h.rebound (fun e he => h.boundAcls key e (List.mem_filter.mp he).1)
        fun e he => h.boundGroups key e (List.mem_filter.mp he).1
  | createPoolEntry => exact { h with }
  | editPoolEntry => exact { h with }
  | addPoolMembers => exact { h with }
  | deletePoolMembers => exact { h with }
  | addPbsPorts => exact { h with }
  | deletePbsPorts => exact { h with }
  | destroyPoolEntry => exact { h with }

/-! ### References -/

lemma isLive_of_refCount_pos {e : PoolEntry} (h : 0 < c.pools.refCount e) :
    c.isLive e.ref.handle = true := by
  cases e <;> exact Arena.contains_iff.mpr (Arena.exists_get?_of_refCount_pos h)

/-- In a sound and linked model, whatever is referred to is live. -/
theorem Linked.isLive_of_refers (h : c.Linked) (hs : c.Sound) {kind : ObjectKind}
    {id : Handle kind} (href : c.Refers id) : c.isLive id = true := by
  have hentry : ∀ e : PoolEntry, c.Refers e.ref.handle → c.isLive e.ref.handle = true :=
    fun e he => isLive_of_refCount_pos ((hs.refCount_pos_iff_refers e).mpr he)
  cases kind with
  | keyType =>
      have hpos := hs.users_pos_iff_refers.mpr href
      rw [← hs.users_eq] at hpos
      exact Arena.contains_iff.mpr (Arena.exists_get?_of_refCount_pos hpos)
  | region =>
      cases href with
      | region found listed => exact (h.acls _ _ found).live _ listed
  | acl =>
      cases href with
      | member found listed => exact (h.members _ _ found).live _ listed
      | boundAcl bound target => exact h.boundAcls _ _ bound _ target
  | group =>
      cases href with
      | next found followed => exact h.next _ _ found _ followed
      | boundGroup bound target => exact h.boundGroups _ _ bound _ target
  | pbs => exact hentry (.pbs id) href
  | range => exact hentry (.range id) href
  | customBytes => exact hentry (.customBytes id) href
  | portList => exact hentry (.portList id) href
  | vlanGroup => exact hentry (.vlanGroup id) href

end Core

namespace Controller

variable {s : Controller}

theorem Reachable.linked (h : Reachable s) : s.core.Linked :=
  h.invariant Core.linked_new (fun _ hl => { hl with }) fun hs hl ht => hl.transition hs.steady ht

/-! ### A chain -/

/-- Two groups after the session, the second of which follows the first; the first lists the ACL. -/
def chaining : List Step :=
  [.operation (.group (.create .ingress)),
   .operation (.group (.create .ingress)),
   .operation (.group (.set ⟨0, 1⟩ [⟨0, 1⟩])),
   .operation (.group (.chain ⟨0, 1⟩ ⟨1, 1⟩))]

/-- The controller after the session and the two groups. -/
def chained : Controller := (fresh.run session).run chaining

lemma reachable_chained : Reachable chained := reachable_session.run (by decide +kernel)

lemma refers_of_chain : chained.core.Refers (⟨1, 1⟩ : Handle .group) := by
  refine .next (i := ⟨0, 1⟩) (g := ⟨.ingress, [⟨0, 1⟩], 8, some ⟨1, 1⟩⟩) ?_ rfl
  decide +kernel

/-! ### No reference dangles -/

/-- After every run, whatever the model refers to is live, and so is every interned key type; the
regions of an ACL are distinct, and there is one; the members of a group are distinct, and no more
than the configuration allows. -/
theorem references_live (h : Reachable s) :
    (∀ kind, ∀ id : Handle kind, s.core.Refers id → s.core.isLive id = true) ∧
    (∀ fields id, s.core.keyTypes.interned.get? fields = some id →
      s.core.isLive id = true) ∧
    (∀ i a, s.core.acls.acls.get? i = some a → a.regions ≠ [] ∧ a.regions.Nodup) ∧
    (∀ i g, s.core.groups.groups.get? i = some g →
      g.acls.Nodup ∧ g.acls.length ≤ s.core.config.maxAclsPerGroup) := by
  have hl := h.linked
  refine ⟨fun kind id href => hl.isLive_of_refers h.inStep.sound href, fun fields id hid => ?_,
    fun i a ha => ⟨(hl.acls i a ha).ne_nil, (hl.acls i a ha).nodup⟩, fun i g hg => ?_⟩
  · obtain ⟨ct, hct, -⟩ := hl.interned fields id hid
    exact Arena.contains_iff.mpr ⟨ct, hct⟩
  · rw [← hl.memberLimit]
    exact ⟨(hl.members i g hg).nodup, (hl.members i g hg).length_le⟩

theorem live_of_chain :
    chained.core.Refers (⟨1, 1⟩ : Handle .group) ∧
      chained.core.isLive (⟨1, 1⟩ : Handle .group) = true :=
  ⟨refers_of_chain, (references_live reachable_chained).1 _ _ refers_of_chain⟩

end Controller

end AclPlane
