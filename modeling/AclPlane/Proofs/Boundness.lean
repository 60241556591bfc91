import AclPlane.Proofs.Chains
import AclPlane.Proofs.Listed
import AclPlane.Proofs.Readings
import AclPlane.Proofs.Serving

/-!
What is bound is what a binding reaches.

Whether a region or a group is bound is worked out by walks from every binding, which are bounded
and stop where a group comes up again.  Reachability knows neither bound nor stop: a target leads to
the groups behind it along `next`, a group to its members, and an ACL to its regions.

* `Groups.Chained.mem_chainFrom_iff`: the walk from a live group gives what can be reached from it.
* `Core.Reaches`: a region can be reached from a target; `Core.Reached`: from a bound one.
* `Core.isRegionBound_iff`: a region is bound if it can be reached.
* `Core.isGroupBound_iff_ancestor`: a group is bound if the way up from it meets a bound group.
* `Controller.bound_iff_reached`: after every run it is so, and activity can be read exactly of the
  regions that are bound.
-/

namespace AclPlane

open Relation

/-! ### Chains -/

namespace Groups

variable {gs : Groups} {head id parent : Handle .group}

/-- The walk from a live group gives the groups that can be reached from it. -/
lemma Chained.mem_chainFrom_iff (h : gs.Chained) (hlive : gs.groups.contains head = true) :
    id ∈ gs.chainFrom head ↔ ReflTransGen gs.Precedes head id := by
  obtain ⟨l, hl⟩ := h.trail head hlive
  rw [hl.chainFrom_eq h.consistent]
  exact hl.mem_iff

/-- The parent of a group is the only group that precedes it. -/
lemma Chained.parentOf?_eq_some_iff (h : gs.Chained) :
    gs.parentOf? id = some parent ↔ gs.Precedes parent id := by
  have hfound : ∀ i, gs.parentOf? id = some i → gs.Precedes i id := fun i hi => by
    obtain ⟨g, hg, hnext⟩ := Arena.exists_of_find? h.consistent hi
    exact ⟨g, hg, beq_iff_eq.mp hnext⟩
  refine ⟨hfound parent, fun hprec => ?_⟩
  cases hparent : gs.parentOf? id with
  | none => exact absurd hprec ((parentOf?_eq_none_iff_not_precedes h.consistent).mp hparent parent)
  | some i => rw [h.unique (hfound i hparent) hprec]

/-- The way up from a group is the way down to it. -/
lemma Chained.ancestor_iff (h : gs.Chained) :
    ReflTransGen (fun i p => gs.parentOf? i = some p) id head ↔
      ReflTransGen gs.Precedes head id := by
  have hswap : (fun i p => gs.parentOf? i = some p) = Function.swap gs.Precedes := by
    funext i p
    exact propext h.parentOf?_eq_some_iff
  rw [hswap, reflTransGen_swap]

end Groups

/-! ### What a target reaches -/

/-- A live ACL lists a region. -/
def Acls.Lists (s : Acls) (id : Handle .acl) (region : Handle .region) : Prop :=
  ∃ a, s.acls.get? id = some a ∧ region ∈ a.regions

namespace Core

variable {c : Core} {region : Handle .region} {target : BindTarget}

/-- A region can be reached from a target: the ACL lists it, or a member does of a group that comes
behind the target in any number of steps. -/
def Reaches (c : Core) (region : Handle .region) : BindTarget → Prop
  | .acl id => c.acls.Lists id region
  | .group head => ∃ id g, ReflTransGen c.groups.Precedes head id ∧
      c.groups.groups.get? id = some g ∧ ∃ acl ∈ g.acls, c.acls.Lists acl region

/-- A region can be reached from the target of some binding. -/
def Reached (c : Core) (region : Handle .region) : Prop :=
  ∃ key, ∃ e ∈ c.bindings.entriesAt key, c.Reaches region e.target

lemma reaches_group_iff (hc : c.groups.Chained) {head : Handle .group}
    (hlive : c.groups.groups.contains head = true) : c.Reaches region (.group head) ↔
      ∃ acl ∈ c.enforcedBy (.group head), c.acls.Lists acl region := by
  simp only [Reaches, enforcedBy, List.mem_flatMap, hc.mem_chainFrom_iff hlive]
  constructor
  · rintro ⟨id, g, hreach, hg, acl, hmem, hlists⟩
    exact ⟨acl, ⟨id, hreach, by rw [hg]; exact hmem⟩, hlists⟩
  · rintro ⟨acl, ⟨id, hreach, hmem⟩, hlists⟩
    cases hg : c.groups.groups.get? id with
    | none =>
        rw [hg] at hmem
        cases hmem
    | some g =>
        rw [hg] at hmem
        exact ⟨id, g, hreach, hg, acl, hmem, hlists⟩

/-- What can be reached from a bound target is what the ACLs list that the target enforces. -/
lemma reaches_iff (hc : c.Chained) (hl : c.Linked) {key : BindingKey} {e : BoundEntry}
    (he : e ∈ c.bindings.entriesAt key) : c.Reaches region e.target ↔
      ∃ acl ∈ c.enforcedBy e.target, c.acls.Lists acl region := by
  cases ht : e.target with
  | acl id =>
      simp only [Reaches, enforcedBy, List.mem_singleton, exists_eq_left]
  | group head => exact reaches_group_iff hc.groups (hl.boundGroups key e he head ht)

lemma isRegionBound_iff_lists :
    c.isRegionBound region = true ↔ ∃ acl ∈ c.boundAcls, c.acls.Lists acl region := by
  rw [isRegionBound, List.any_eq_true]
  refine exists_congr fun acl => and_congr_right fun _ => ?_
  rw [Acls.Lists]
  cases c.acls.acls.get? acl with
  | none => simp
  | some a => simp [Acl.usesRegion]

/-- A region is bound exactly if it can be reached. -/
theorem isRegionBound_iff (hc : c.Chained) (hl : c.Linked) :
    c.isRegionBound region = true ↔ c.Reached region := by
  simp only [isRegionBound_iff_lists, boundAcls, List.mem_flatMap, Bindings.mem_allEntries_iff]
  constructor
  · rintro ⟨acl, ⟨e, ⟨key, he⟩, henforced⟩, hlists⟩
    exact ⟨key, e, he, (reaches_iff hc hl he).mpr ⟨acl, henforced, hlists⟩⟩
  · rintro ⟨key, e, he, hreach⟩
    obtain ⟨acl, henforced, hlists⟩ := (reaches_iff hc hl he).mp hreach
    exact ⟨acl, ⟨e, ⟨key, he⟩, henforced⟩, hlists⟩

/-- A group is bound exactly if the way up from it meets a group that a binding targets. -/
theorem isGroupBound_iff_ancestor (hc : c.Chained) (hl : c.Linked) {id : Handle .group} :
    c.isGroupBound id = true ↔
      ∃ head, ReflTransGen (fun i p => c.groups.parentOf? i = some p) id head ∧
        ∃ key, ∃ e ∈ c.bindings.entriesAt key, e.target = .group head := by
  simp only [isGroupBound_iff, hc.groups.ancestor_iff]
  constructor
  · rintro ⟨key, e, head, he, ht, hchain⟩
    have hlive := hl.boundGroups key e he head ht
    exact ⟨head, (hc.groups.mem_chainFrom_iff hlive).mp hchain, key, e, he, ht⟩
  · rintro ⟨head, hreach, key, e, he, ht⟩
    have hlive := hl.boundGroups key e he head ht
    exact ⟨key, e, head, he, ht, (hc.groups.mem_chainFrom_iff hlive).mpr hreach⟩

/-- Only regions can be reached that an ACL lists. -/
lemma Reaches.exists_lists (h : c.Reaches region target) : ∃ acl, c.acls.Lists acl region := by
  cases target with
  | acl id => exact ⟨id, h⟩
  | group head =>
      obtain ⟨-, -, -, -, acl, -, hlists⟩ := h
      exact ⟨acl, hlists⟩

end Core

namespace Controller

variable {s : Controller} {config : Config} {given : Option (List KeyBlock)} {sink : Sink}
  {region : Handle .region} {r : Region} {offsets : List ℕ}

/-! ### Readings -/

/-- Only activity of bound regions is read. -/
lemma isRegionBound_of_readActivity {clear : Bool} {bits : List Bool}
    (h : (s.readActivity region offsets clear).result = .ok bits) :
    s.core.isRegionBound region = true := by
  rw [readActivity] at h
  split at h
  · cases h
  · next hcheck => exact (checkActivity_eq_ok.mp hcheck).2

/-- A peek gets what a reading gets that does not clear. -/
lemma result_peekActivity (s : Controller) (region : Handle .region) (offsets : List ℕ) :
    (s.peekActivity region offsets).result = (s.readActivity region offsets false).result := by
  rw [peekActivity, readActivity]
  split
  · rfl
  · rw [peekBits_eq]

/-- After a run, the activity of a bound region can be read unless a fault is armed. -/
lemma exists_bits_of_isRegionBound (hs : Controller.start config given sink = .ok s)
    (steps : List Step)
    (hfault : (s.run steps).device.faults.lookup .readActivity = none)
    (hr : (s.run steps).core.regions.regions.get? region = some r)
    (hlt : ∀ offset ∈ offsets, offset < r.table.capacity)
    (hbound : (s.run steps).core.isRegionBound region = true) (clear : Bool) :
    ∃ bits, ((s.run steps).readActivity region offsets clear).result = .ok bits := by
  obtain ⟨_, _, -, hreach⟩ :=
    (Core.isRegionBound_iff (chained_run hs steps) (linked_run hs steps)).mp hbound
  obtain ⟨acl, a, ha, hlisted⟩ := hreach.exists_lists
  -- the device has not lost the region, since an ACL lists it
  obtain ⟨d, hd, hle⟩ := listed_run hs steps ha hlisted hr
  have hcheck := checkActivity_eq_ok (u := ()).mpr ⟨⟨r, hr, hlt⟩, hbound⟩
  obtain ⟨device, hread, -⟩ :=
    readBits_eq hd (fun offset hmem => (hlt offset hmem).trans_le hle) hfault clear
  rw [readActivity, hcheck, hread]
  exact ⟨_, rfl⟩

/-! ### Runs -/

/-- After every run, a region is bound exactly if it can be reached from the target of a binding,
and a group is bound exactly if the way up from it, parent by parent, meets the target of a binding.
While no fault of the device is armed for it, reading the activity of any offsets of a live region
succeeds exactly if the region is bound in this sense, whether it clears or only peeks. -/
theorem bound_iff_reached (hs : Controller.start config given sink = .ok s) (steps : List Step) :
    let c := (s.run steps).core
    (∀ region, c.isRegionBound region = true ↔ c.Reached region) ∧
    (∀ id, c.isGroupBound id = true ↔
      ∃ head, ReflTransGen (fun i p => c.groups.parentOf? i = some p) id head ∧
        ∃ key, ∃ e ∈ c.bindings.entriesAt key, e.target = .group head) ∧
    ((s.run steps).device.faults.lookup .readActivity = none →
      ∀ region r offsets, c.regions.regions.get? region = some r →
        (∀ offset ∈ offsets, offset < r.table.capacity) →
        (∀ clear, (∃ bits, ((s.run steps).readActivity region offsets clear).result = .ok bits) ↔
          c.Reached region) ∧
        ((∃ bits, ((s.run steps).peekActivity region offsets).result = .ok bits) ↔
          c.Reached region)) := by
  intro c
  have hchained : c.Chained := chained_run hs steps
  have hlinked : c.Linked := linked_run hs steps
  refine ⟨fun region => Core.isRegionBound_iff hchained hlinked,
    fun id => Core.isGroupBound_iff_ancestor hchained hlinked,
    fun hfault region r offsets hr hlt => ?_⟩
  have hread : ∀ clear, (∃ bits,
      ((s.run steps).readActivity region offsets clear).result = .ok bits) ↔ c.Reached region := by
    intro clear
    rw [← Core.isRegionBound_iff hchained hlinked]
    constructor
    · rintro ⟨bits, hbits⟩
      exact isRegionBound_of_readActivity hbits
    · exact fun hbound => exists_bits_of_isRegionBound hs steps hfault hr hlt hbound clear
  refine ⟨hread, ?_⟩
  rw [result_peekActivity]
  exact hread false

/-- The region of the ACL that `enforcing` lists in the second group of a chain is reached from the
first, which is bound, and so its activity can be read. -/
theorem bound_of_enforcing :
    let c := (fresh.run enforcing).core
    c.Reaches ⟨0, 1⟩ (.group ⟨0, 1⟩) ∧ c.isRegionBound ⟨0, 1⟩ = true ∧
      c.isGroupBound ⟨1, 1⟩ = true ∧
        ∃ bits, ((fresh.run enforcing).readActivity ⟨0, 1⟩ [1, 3] true).result = .ok bits := by
  intro c
  obtain ⟨hregion, hgroup, hread⟩ := bound_iff_reached start_fresh enforcing
  have hentry : (⟨.group ⟨0, 1⟩, 8⟩ : BoundEntry) ∈
      c.bindings.entriesAt ⟨.port ⟨7⟩, .ingress⟩ := by decide +kernel
  have hnext : c.groups.Precedes ⟨0, 1⟩ ⟨1, 1⟩ :=
    ⟨⟨.ingress, [], 8, some ⟨1, 1⟩⟩, by decide +kernel, rfl⟩
  have hreach : c.Reaches ⟨0, 1⟩ (.group ⟨0, 1⟩) :=
    ⟨⟨1, 1⟩, ⟨.ingress, [⟨0, 1⟩], 8, none⟩, .single hnext, by decide +kernel, ⟨0, 1⟩,
      List.mem_singleton_self _,
      ⟨.agnostic, .multiPoints, ⟨true, true, false, false⟩, [⟨0, 1⟩]⟩, by decide +kernel,
      List.mem_singleton_self _⟩
  have hreached : c.Reached ⟨0, 1⟩ := ⟨_, _, hentry, hreach⟩
  have hparent : c.groups.parentOf? ⟨1, 1⟩ = some ⟨0, 1⟩ := by decide +kernel
  have hr : c.regions.regions.get? ⟨0, 1⟩ = some ⟨⟨0, 1⟩, 1, 4, 4, .empty 4⟩ := by decide +kernel
  refine ⟨hreach, (hregion _).mpr hreached,
    (hgroup _).mpr ⟨_, .single hparent, _, _, hentry, rfl⟩, ?_⟩
  exact ((hread (by decide +kernel) _ _ [1, 3] hr (by decide)).1 true).mpr hreached

end Controller

end AclPlane
