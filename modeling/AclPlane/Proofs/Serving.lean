import AclPlane.Proofs.Chains
import AclPlane.Proofs.Shown

/-!
What is enforced serves the direction in which it is enforced.

Directions are looked at when an ACL gets into a group, when groups are chained and when either is
bound, while ACLs and groups may be edited at any time.

* `Acl.Edited`: what no edit of an ACL changes, and hence what it serves.
* `Core.Served`: members serve the direction of their group, and bound targets that of their key.
* `Core.Served.transition`: every transition keeps this.
* `Controller.enforced_serve`: after every run, whatever a binding enforces, directly or through a
  chain, serves its direction.
-/

namespace AclPlane

/-! ### Edits of an ACL -/

lemma DirectionSet.includes_empty (d : Direction) : empty.includes d = false := by
  cases d <;> rfl

lemma DirectionSet.isEmpty_iff {b : DirectionSet} : b.isEmpty = true ↔ b = .empty := beq_iff_eq

/-- An ACL after any number of edits: the direction is that of the first, and so is the bitmap
unless it was empty. -/
structure Acl.Edited (a a' : Acl) : Prop where
  direction : a'.direction = a.direction
  bitmap : a.bitmap ≠ .empty → a'.bitmap = a.bitmap

namespace Acl.Edited

variable {a a' a'' : Acl} {d : Direction}

lemma refl (a : Acl) : a.Edited a := ⟨rfl, fun _ => rfl⟩

lemma trans (h : a.Edited a') (h' : a'.Edited a'') : a.Edited a'' := by
  refine ⟨h'.direction.trans h.direction, fun hne => ?_⟩
  have hsame := h.bitmap hne
  rw [← hsame] at hne
  exact (h'.bitmap hne).trans hsame

lemma isMultiPoint_eq (h : a.Edited a') : a'.isMultiPoint = a.isMultiPoint := by
  rw [isMultiPoint, h.direction, isMultiPoint]

/-- Edits take no direction from an ACL. -/
lemma serves (h : a.Edited a') (hd : a.serves d = true) : a'.serves d = true := by
  rw [Acl.serves] at hd
  rw [Acl.serves, h.isMultiPoint_eq]
  split at hd
  · next hmulti =>
      -- the bitmap has been set, since it includes a direction
      have hne : a.bitmap ≠ .empty := by
        intro hempty
        rw [hempty, DirectionSet.includes_empty] at hd
        cases hd
      rw [if_pos hmulti, h.bitmap hne]
      exact hd
  · next hsingle =>
      rw [if_neg hsingle, h.direction]
      exact hd

end Acl.Edited

lemma Acls.edited_of_planEdit {s : Acls} {rs : Regions} {id : Handle .acl}
    {regions : List (Handle .region)} {asked bitmap : DirectionSet} {a : Acl}
    (ha : s.acls.get? id = some a) (h : s.planEdit rs id regions asked = .ok bitmap) :
    a.Edited { a with regions := regions, bitmap := bitmap } := by
  refine ⟨rfl, fun hne => ?_⟩
  obtain ⟨-, hkept | ⟨-, hempty | hsame⟩⟩ := Acls.of_planEdit ha h
  · exact hkept
  · exact absurd (DirectionSet.isEmpty_iff.mp hempty) hne
  · exact hsame.symm

/-! ### Directions of a model -/

/-- A live ACL serves a direction. -/
def Acls.Serve (s : Acls) (d : Direction) (id : Handle .acl) : Prop :=
  ∃ a, s.acls.get? id = some a ∧ a.serves d = true

namespace Core

variable {c : Core}

/-- A live target fits a direction: an ACL serves it, a group has it. -/
def Fits (c : Core) (d : Direction) : BindTarget → Prop
  | .acl id => c.acls.Serve d id
  | .group id => ∃ g, c.groups.groups.get? id = some g ∧ g.direction = d

/-- Members serve the direction of their group, keys can be bound, what is bound on a key fits its
direction, and ACLs of a single direction have no bitmap. -/
structure Served (c : Core) : Prop where
  bitmaps : c.acls.acls.All fun a => a.isMultiPoint = false → a.bitmap = .empty
  members : c.groups.groups.All fun g => ∀ id ∈ g.acls, c.acls.Serve g.direction id
  keys : ∀ key, c.bindings.isBoundAt key = true →
    key.direction ≠ .multiPoints ∧ key.point.supports key.direction = true
  targets : ∀ key, ∀ e ∈ c.bindings.entriesAt key, c.Fits key.direction e.target

lemma served_new {config : Config} {catalog : Catalog} (h : Core.new config catalog = .ok c) :
    c.Served := by
  rw [Core.new] at h
  split at h
  · cases h
  · cases h
    exact ⟨Arena.all_empty _, Arena.all_empty _, fun _ hbound => absurd hbound Bool.false_ne_true,
      fun _ _ he => absurd he List.not_mem_nil⟩

/-! ### What the checks say -/

lemma of_checkBindingKey {key : BindingKey} {u : Unit} (h : c.checkBindingKey key = .ok u) :
    key.direction ≠ .multiPoints ∧ key.point.supports key.direction = true := by
  simp only [checkBindingKey, bind_eq_ok, Bindings.checkPoint, guard_eq_ok, last_guard_eq_ok,
    Bool.not_eq_true', Bool.not_eq_false] at h
  obtain ⟨-, ⟨hdirection, hsupports, -⟩, -⟩ := h
  exact ⟨hdirection, hsupports⟩

lemma fits_of_targetPriority {d : Direction} {target : BindTarget} {priority : ℕ}
    (h : c.targetPriority d target = .ok priority) : c.Fits d target := by
  cases target with
  | acl id =>
      obtain ⟨a, ha, -, hserves, -⟩ := targetPriority_acl_eq_ok.mp h
      exact ⟨a, ha, hserves⟩
  | group id =>
      obtain ⟨g, hg, hdirection, -⟩ := targetPriority_group_eq_ok.mp h
      exact ⟨g, hg, hdirection⟩

lemma serve_of_checkMembers {id : Handle .group} {g : Group} {acls : List (Handle .acl)} {u : Unit}
    (hg : c.groups.groups.get? id = some g)
    (h : c.groups.checkMembers c.acls id acls = .ok u) :
    ∀ acl ∈ acls, c.acls.Serve g.direction acl := by
  obtain ⟨g', hg', -, -, hserve⟩ := Groups.checkMembers_eq_ok.mp h
  obtain rfl := Option.some.inj (hg'.symm.trans hg)
  exact hserve

/-! ### Changes of one table -/

/-- ACLs may go that nothing refers to, and the others may be edited. -/
lemma Served.of_acls (h : c.Served) {acls : Acls}
    (hbitmaps : acls.acls.All fun a => a.isMultiPoint = false → a.bitmap = .empty)
    (hserve : ∀ id d, c.Refers id → c.acls.Serve d id → acls.Serve d id) :
    { c with acls := acls }.Served := by
  refine { h with
    bitmaps := hbitmaps
    members := fun i g hg id hid => hserve id _ (.member hg hid) (h.members i g hg id hid)
    targets := fun key e he => ?_ }
  have hfits := h.targets key e he
  cases ht : e.target with
  | acl id =>
      rw [ht] at hfits
      exact hserve id _ (.boundAcl he ht) hfits
  | group id =>
      rw [ht] at hfits
      exact hfits

/-- Groups may go that are not bound, and others may be replaced by groups of their direction. -/
lemma Served.of_groups (h : c.Served) {groups : Arena .group Group}
    (hmembers : groups.All fun g => ∀ id ∈ g.acls, c.acls.Serve g.direction id)
    (hkept : ∀ id g, c.Refers id → c.groups.groups.get? id = some g →
      ∃ g', groups.get? id = some g' ∧ g'.direction = g.direction) :
    { c with groups := { c.groups with groups := groups } }.Served := by
  refine { h with members := hmembers, targets := fun key e he => ?_ }
  have hfits := h.targets key e he
  cases ht : e.target with
  | acl id =>
      rw [ht] at hfits
      exact hfits
  | group id =>
      rw [ht] at hfits
      obtain ⟨g, hg, hdirection⟩ := hfits
      obtain ⟨g', hg', hsame⟩ := hkept id g (.boundGroup he ht) hg
      exact ⟨g', hg', hsame.trans hdirection⟩

/-- A group may be replaced by one of its direction whose members serve that. -/
lemma Served.withGroup (h : c.Served) {id : Handle .group} {g g' : Group}
    (hg : c.groups.groups.get? id = some g) (hdirection : g'.direction = g.direction)
    (hmembers : ∀ acl ∈ g'.acls, c.acls.Serve g.direction acl) : (c.withGroup id g').Served := by
  rw [← hdirection] at hmembers
  refine h.of_groups (h.members.set hg hmembers) fun i g₁ _ hg₁ => ?_
  rw [Arena.get?_set hg]
  split
  · next heq =>
      rw [heq, hg] at hg₁
      cases hg₁
      exact ⟨g', rfl, hdirection⟩
  · exact ⟨g₁, hg₁, rfl⟩

/-- A key that can be bound may get targets that fit its direction. -/
lemma Served.rebound (h : c.Served) {key : BindingKey} {list : List BoundEntry} {pools : Pools}
    {stats : Stats} (hkey : c.checkBindingKey key = .ok ())
    (hfits : ∀ e ∈ list, c.Fits key.direction e.target) :
    (c.rebound key list pools stats).Served := by
  refine { h with keys := fun k hk => ?_, targets := fun k e he => ?_ }
  · simp only [Core.rebound, Bindings.isBoundAt_commit] at hk
    split at hk
    · next heq => exact heq ▸ of_checkBindingKey hkey
    · exact h.keys k hk
  · simp only [Core.rebound, Bindings.entriesAt_commit] at he
    split at he
    · next heq => exact heq ▸ hfits e he
    · exact h.targets k e he

/-! ### Every transition -/

theorem Served.transition {op : Option Operation} {done : Commit OpResult} (hs : c.Steady)
    (h : c.Served) (ht : Transition c op done) : done.core.Served := by
  cases ht with
  | createAcl planned inserted =>
      obtain ⟨hbitmap, -⟩ := Acls.of_planCreate planned
      refine h.of_acls (h.bitmaps.insertWith? hs.acls inserted fun hsingle => ?_)
        fun i d _ ⟨a, ha, hd⟩ => ⟨a, Arena.get?_insertWith?_of_some hs.acls inserted ha, hd⟩
      rcases hbitmap with rfl | hempty
      · cases hsingle
      · exact DirectionSet.isEmpty_iff.mp hempty
  | @editAcl id regions asked bitmap a found planned =>
      have hedited := Acls.edited_of_planEdit found planned
      refine h.of_acls (h.bitmaps.set found fun hsingle => ?_) fun i d _ ⟨a₁, ha₁, hd⟩ => ?_
      · -- an ACL of a single direction keeps the bitmap that it has
        obtain ⟨-, rfl | ⟨hmulti, -⟩⟩ := Acls.of_planEdit found planned
        · have hempty := h.bitmaps _ _ found
          exact hempty hsingle
        · exact absurd (hmulti.symm.trans hsingle) (by decide)
      · rw [Acls.Serve, Arena.get?_set found]
        split
        · next heq =>
            rw [heq, found] at ha₁
            cases ha₁
            exact ⟨_, rfl, hedited.serves hd⟩
        · exact ⟨a₁, ha₁, hd⟩
  | @destroyAcl id a acls unlisted unbound removed =>
      have hno := (free_acl_iff_not_refers hs.groups).mp ⟨unlisted, unbound⟩
      refine h.of_acls (h.bitmaps.remove? removed) fun i d href ⟨a, ha, hd⟩ => ⟨a, ?_, hd⟩
      have hne : i ≠ id := fun heq => hno (heq ▸ href)
      rw [Arena.get?_remove? removed, if_neg hne]
      exact ha
  | createGroup planned inserted =>
      refine h.of_groups (h.members.insertWith? hs.groups inserted
        fun _ hid => absurd hid List.not_mem_nil) fun i g _ hg => ⟨g, ?_, rfl⟩
      exact Arena.get?_insertWith?_of_some hs.groups inserted hg
  | setGroupAcls found checked =>
      exact h.withGroup found rfl (serve_of_checkMembers found checked)
  | addGroupAcl found planned =>
      obtain ⟨_, -, -, -, checked⟩ := Groups.planAdd_eq_some.mp planned
      exact h.withGroup found rfl (serve_of_checkMembers found checked)
  | @deleteGroupAcl id g acl acls found planned =>
      obtain ⟨g', hg', -, rfl⟩ := Groups.planDelete_eq_ok.mp planned
      obtain rfl := Option.some.inj (hg'.symm.trans found)
      exact h.withGroup found rfl fun i hi => h.members _ _ found i (List.mem_filter.mp hi).1
  | chainGroups found planned => exact h.withGroup found rfl (h.members _ _ found :)
  | unchainGroup found followed => exact h.withGroup found rfl (h.members _ _ found :)
  | setGroupPriority found allowed => exact h.withGroup found rfl (h.members _ _ found :)
  | @destroyGroup id g groups unbound unfollowing removed =>
      have hno := (free_group_iff_not_refers hs.groups
        (Arena.remove?_eq_some_iff.mp removed).1).mp ⟨unbound, unfollowing⟩
      refine h.of_groups (h.members.remove? removed) fun i g href hg => ⟨g, ?_, rfl⟩
      have hne : i ≠ id := fun heq => hno (heq ▸ href)
      rw [Arena.get?_remove? removed, if_neg hne]
      exact hg
  | bind checked bindable counted =>
      refine h.rebound checked fun e he => ?_
      rw [List.mem_singleton.mp he]
      exact fits_of_targetPriority bindable
  | unbind checked bound counted => exact h.rebound checked fun e he => absurd he List.not_mem_nil
  | @bindAdd key group priority list pools checked bindable planned counted =>
      obtain ⟨-, rfl⟩ := Bindings.planAdd_eq_some.mp planned
      refine h.rebound checked fun e he => ?_
      rcases Bindings.mem_place.mp he with rfl | he
      · exact fits_of_targetPriority bindable
      · exact h.targets key e he
  | @bindDelete key group list pools checked planned counted =>
      obtain ⟨-, rfl⟩ := Bindings.planDelete_eq_ok.mp planned
      exact h.rebound checked fun e he => h.targets key e (List.mem_filter.mp he).1
  | _ => exact { h with }

/-- While an ACL is live, it is only edited. -/
theorem Transition.acl_edited {op : Option Operation} {done : Commit OpResult} (hs : c.Steady)
    (ht : Transition c op done) {id : Handle .acl} {a : Acl} (ha : c.acls.acls.get? id = some a)
    (hlive : done.core.acls.acls.contains id = true) :
    ∃ a', done.core.acls.acls.get? id = some a' ∧ a.Edited a' := by
  cases ht with
  | createAcl planned inserted =>
      exact ⟨a, Arena.get?_insertWith?_of_some hs.acls inserted ha, .refl a⟩
  | @editAcl i regions asked bitmap a₁ found planned =>
      rw [Arena.get?_set found]
      split
      · next heq =>
          rw [heq, found] at ha
          cases ha
          exact ⟨_, rfl, Acls.edited_of_planEdit found planned⟩
      · exact ⟨a, ha, .refl a⟩
  | destroyAcl unlisted unbound removed =>
      obtain ⟨a', ha'⟩ := Arena.contains_iff.mp hlive
      have hget := ha'
      rw [Arena.get?_remove? removed] at hget
      split at hget
      · cases hget
      · obtain rfl := Option.some.inj (hget.symm.trans ha)
        exact ⟨a', ha', .refl a'⟩
  | _ => exact ⟨a, ha, .refl a⟩

/-! ### Chains of bound groups -/

/-- The groups in the chain of a group have its direction. -/
lemma Chained.direction_of_mem_chainFrom (h : c.Chained) {head id : Handle .group} {g : Group}
    (hg : c.groups.groups.get? head = some g) (hid : id ∈ c.groups.chainFrom head) :
    ∃ g', c.groups.groups.get? id = some g' ∧ g'.direction = g.direction := by
  obtain ⟨l, hl⟩ := h.groups.trail head (Arena.contains_iff.mpr ⟨g, hg⟩)
  rw [hl.chainFrom_eq h.groups.consistent] at hid
  obtain ⟨g', hg'⟩ := Arena.contains_iff.mp (hl.contains_of_mem hid)
  exact ⟨g', hg', h.groups.direction_of_reflTransGen (hl.mem_iff.mp hid) hg hg'⟩

/-- What a target enforces serves the direction that the target fits. -/
lemma Served.serve_of_mem_enforcedBy (h : c.Served) (hchained : c.Chained) {d : Direction}
    {target : BindTarget} (hfits : c.Fits d target) {id : Handle .acl}
    (hid : id ∈ c.enforcedBy target) : c.acls.Serve d id := by
  cases target with
  | acl i =>
      obtain rfl := List.mem_singleton.mp hid
      exact hfits
  | group head =>
      obtain ⟨g, hg, rfl⟩ := hfits
      obtain ⟨i, hi, hmem⟩ := List.mem_flatMap.mp hid
      obtain ⟨g', hg', hdirection⟩ := hchained.direction_of_mem_chainFrom hg hi
      rw [hg'] at hmem
      rw [← hdirection]
      exact h.members i g' hg' id hmem

end Core

namespace Controller

variable {s : Controller} {config : Config} {given : Option (List KeyBlock)} {sink : Sink}

/-- Every run keeps what is bound fitting its direction. -/
theorem served_run (hs : Controller.start config given sink = .ok s) (steps : List Step) :
    (s.run steps).core.Served := by
  refine run_induction (p := fun _ c => c.Served) hs Core.served_new
    (fun {steps _ _} ih _ ht => ih.transition (steady_run hs steps) ht) (fun _ ih _ => { ih with })
    steps

/-- An ACL that is live after each of several steps has only been edited by them. -/
theorem acl_edited_run (hs : Controller.start config given sink = .ok s) (steps : List Step)
    {id : Handle .acl} {a : Acl} (ha : (s.run steps).core.acls.acls.get? id = some a)
    (more : List Step)
    (hlive : ∀ pre, pre <+: more → (s.run (steps ++ pre)).core.acls.acls.contains id = true) :
    ∃ a', (s.run (steps ++ more)).core.acls.acls.get? id = some a' ∧ a.Edited a' := by
  induction more using List.reverseRecOn with
  | nil =>
      rw [List.append_nil]
      exact ⟨a, ha, .refl a⟩
  | append_singleton more st ih =>
      obtain ⟨a₁, ha₁, hedited⟩ := ih fun pre hpre => hlive pre (hpre.trans (List.prefix_append ..))
      have hlast := hlive _ (List.prefix_refl _)
      rw [← List.append_assoc, run_concat] at hlast ⊢
      cases (s.run (steps ++ more)).follows_step st with
      | done result transition delivered =>
          obtain ⟨a', ha', hstep⟩ :=
            transition.acl_edited (steady_run hs (steps ++ more)) ha₁ hlast
          exact ⟨a', ha', hedited.trans hstep⟩
      | failed result unchanged =>
          rw [unchanged]
          exact ⟨a₁, ha₁, hedited⟩

/-! ### Enforced ACLs -/

/-- After every run, a key that is bound has a direction that its point supports, and not
`multiPoints`.  What is bound fits it: an ACL serves it, and every group in the chain of a group has
it; the members of any group serve the direction of the group, and so every ACL that is enforced on
a key serves the direction of the key.  An ACL of a single direction has no bitmap, and as long as
an ACL is live, it keeps its direction, and its bitmap from when that has been set. -/
theorem enforced_serve (hs : Controller.start config given sink = .ok s) (steps : List Step) :
    let c := (s.run steps).core
    (∀ key, c.bindings.isBoundAt key = true →
      key.direction ≠ .multiPoints ∧ key.point.supports key.direction = true) ∧
    (∀ key, ∀ e ∈ c.bindings.entriesAt key, ∀ id, e.target = .acl id →
      ∃ a, c.acls.acls.get? id = some a ∧ a.serves key.direction = true) ∧
    (∀ key, ∀ e ∈ c.bindings.entriesAt key, ∀ head, e.target = .group head →
      ∀ id ∈ c.groups.chainFrom head,
        ∃ g, c.groups.groups.get? id = some g ∧ g.direction = key.direction) ∧
    (∀ i g, c.groups.groups.get? i = some g → ∀ id ∈ g.acls,
      ∃ a, c.acls.acls.get? id = some a ∧ a.serves g.direction = true) ∧
    (∀ key, ∀ e ∈ c.bindings.entriesAt key, ∀ id ∈ c.enforcedBy e.target,
      ∃ a, c.acls.acls.get? id = some a ∧ a.serves key.direction = true) ∧
    (∀ id a, c.acls.acls.get? id = some a → a.isMultiPoint = false → a.bitmap = .empty) ∧
    (∀ id a more, c.acls.acls.get? id = some a →
      (∀ pre, pre <+: more → (s.run (steps ++ pre)).core.acls.acls.contains id = true) →
        ∃ a', (s.run (steps ++ more)).core.acls.acls.get? id = some a' ∧
          a'.direction = a.direction ∧ (a.bitmap ≠ .empty → a'.bitmap = a.bitmap)) := by
  intro c
  have h : c.Served := served_run hs steps
  have hchained : c.Chained := chained_run hs steps
  refine ⟨h.keys, fun key e he id ht => ?_, fun key e he head ht id hid => ?_, h.members,
    fun key e he id hid => h.serve_of_mem_enforcedBy hchained (h.targets key e he) hid, h.bitmaps,
    fun id a more ha hlive => ?_⟩
  · have hfits := h.targets key e he
    rw [ht] at hfits
    exact hfits
  · have hfits := h.targets key e he
    rw [ht] at hfits
    obtain ⟨g, hg, hdirection⟩ := hfits
    rw [← hdirection]
    exact hchained.direction_of_mem_chainFrom hg hid
  · obtain ⟨a', ha', hedited⟩ := acl_edited_run hs steps ha more hlive
    exact ⟨a', ha', hedited.direction, hedited.bitmap⟩

/-- Sets the bitmap of an ACL that serves no direction yet, lists it in the second group of a chain,
and binds the first. -/
def enforcing : List Step :=
  [.operation (.keyType (.create [.dstIp] none)),
   .operation (.region (.create ⟨0, 1⟩ 4)),
   .operation (.acl (.create .agnostic .multiPoints ⟨false, false, false, false⟩ [⟨0, 1⟩])),
   .operation (.acl (.edit ⟨0, 1⟩ [⟨0, 1⟩] ⟨true, true, false, false⟩)),
   .operation (.group (.create .ingress)),
   .operation (.group (.create .ingress)),
   .operation (.group (.set ⟨1, 1⟩ [⟨0, 1⟩])),
   .operation (.group (.chain ⟨0, 1⟩ ⟨1, 1⟩)),
   .operation (.binding (.bind ⟨.port ⟨7⟩, .ingress⟩ (.group ⟨0, 1⟩)))]

/-- The ACL of the second group is enforced, and serves the direction in which the first is
bound. -/
theorem serves_of_enforcing :
    let c := (fresh.run enforcing).core
    c.enforcedBy (.group ⟨0, 1⟩) = [⟨0, 1⟩] ∧
      ∃ a, c.acls.acls.get? ⟨0, 1⟩ = some a ∧ a.serves .ingress = true := by
  intro c
  have hbound : (⟨.group ⟨0, 1⟩, 8⟩ : BoundEntry) ∈
      c.bindings.entriesAt ⟨.port ⟨7⟩, .ingress⟩ := by decide +kernel
  have henforced : c.enforcedBy (.group ⟨0, 1⟩) = [⟨0, 1⟩] := by decide +kernel
  refine ⟨henforced, ?_⟩
  exact (enforced_serve start_fresh enforcing).2.2.2.2.1 _ _ hbound ⟨0, 1⟩
    (henforced ▸ List.mem_singleton_self _)

end Controller

end AclPlane
