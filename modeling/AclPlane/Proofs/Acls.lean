import AclPlane.Proofs.Frame

/-!
Plans for ACLs and groups, taken apart.

* `Acls.checkRegions_eq_ok`, `Groups.checkMembers_eq_ok`: what a list of regions or members must be
  like to pass its check.
* `Groups.planAdd_eq_some`, `Groups.planDelete_eq_ok`, `Groups.planChain_eq_ok`: when a group may
  be changed.
* `Groups.mem_chainFrom_self`: a chain begins with the group that it is followed from;
  `Groups.eq_or_follows_of_mem_chainFrom`: whatever else is in it follows another group.
-/

namespace AclPlane

lemma Acls.get_eq_ok {s : Acls} {id : Handle .acl} {a : Acl} :
    s.get id = .ok a ↔ s.acls.get? id = some a := by
  rw [Acls.get]
  cases s.acls.get? id with
  | none => simp
  | some a' => simp

lemma Groups.get_eq_ok {gs : Groups} {id : Handle .group} {g : Group} :
    gs.get id = .ok g ↔ gs.groups.get? id = some g := by
  rw [Groups.get]
  cases gs.groups.get? id with
  | none => simp
  | some g' => simp

/-! ### ACLs -/

namespace Acls

variable {s : Acls} {rs : Regions} {regions : List (Handle .region)} {u : Unit}

lemma checkRegionsFrom_eq_ok {seen : List (Handle .region)} :
    checkRegionsFrom rs seen regions = .ok u ↔
      (∀ r ∈ regions, rs.contains r = true ∧ r ∉ seen) ∧ regions.Nodup := by
  induction regions generalizing seen with
  | nil => simp [checkRegionsFrom]
  | cons r rest ih =>
      simp only [checkRegionsFrom, guard_eq_ok, ih, Bool.not_eq_true', Bool.not_eq_false,
        List.contains_iff_mem, List.mem_cons, not_or, List.nodup_cons, forall_eq_or_imp]
      constructor
      · rintro ⟨hlive, hseen, hrest, hnodup⟩
        exact ⟨⟨⟨hlive, hseen⟩, fun r' hr' => ⟨(hrest r' hr').1, (hrest r' hr').2.2⟩⟩,
          fun hmem => (hrest r hmem).2.1 rfl, hnodup⟩
      · rintro ⟨⟨⟨hlive, hseen⟩, hrest⟩, hnot, hnodup⟩
        refine ⟨hlive, hseen, fun r' hr' => ⟨(hrest r' hr').1, ?_, (hrest r' hr').2⟩, hnodup⟩
        rintro rfl
        exact hnot hr'

/-- The regions of an ACL are live and distinct, and there is one. -/
lemma checkRegions_eq_ok : checkRegions rs regions = .ok u ↔
    regions ≠ [] ∧ regions.Nodup ∧ ∀ r ∈ regions, rs.contains r = true := by
  rw [checkRegions]
  cases regions with
  | nil => simp
  | cons r rest =>
      simp only [List.isEmpty_cons, Bool.false_eq_true, if_false, checkRegionsFrom_eq_ok,
        List.not_mem_nil, not_false_eq_true, and_true]
      constructor
      · rintro ⟨hlive, hnodup⟩
        exact ⟨List.cons_ne_nil _ _, hnodup, hlive⟩
      · rintro ⟨-, hnodup, hlive⟩
        exact ⟨hlive, hnodup⟩

lemma of_planCreate {direction : Direction} {bitmap : DirectionSet} {id : Handle .acl}
    (h : s.planCreate rs direction bitmap regions = .ok id) :
    (direction = .multiPoints ∨ bitmap.isEmpty = true) ∧ checkRegions rs regions = .ok () ∧
      s.acls.nextHandle? = some id := by
  simp only [planCreate, bind_eq_ok, guard_eq_ok] at h
  obtain ⟨hbitmap, _, hregions, h⟩ := h
  refine ⟨?_, hregions, ?_⟩
  · by_contra hno
    rw [not_or] at hno
    exact hbitmap ⟨hno.1, by simpa using hno.2⟩
  · split at h
    · next hn =>
        cases h
        exact hn
    · cases h

/-- An edit keeps the bitmap unless it sets one that has not been set. -/
lemma of_planEdit {id : Handle .acl} {asked bitmap : DirectionSet} {a : Acl}
    (ha : s.acls.get? id = some a) (h : s.planEdit rs id regions asked = .ok bitmap) :
    checkRegions rs regions = .ok () ∧ (bitmap = a.bitmap ∨
      a.isMultiPoint = true ∧ (a.bitmap.isEmpty = true ∨ a.bitmap = bitmap)) := by
  simp only [planEdit, bind_eq_ok, get_eq_ok, ha, Option.some.injEq, exists_eq_left'] at h
  obtain ⟨_, hregions, h⟩ := h
  refine ⟨hregions, ?_⟩
  split at h
  · cases h
    exact .inl rfl
  · simp only [guard_eq_ok, pure_eq_ok, Bool.not_eq_true', Bool.not_eq_false, not_and,
      not_not, ne_eq] at h
    obtain ⟨hmulti, hfixed, rfl⟩ := h
    refine .inr ⟨hmulti, ?_⟩
    cases hempty : a.bitmap.isEmpty with
    | true => exact .inl rfl
    | false => exact .inr (hfixed hempty)

/-- No ACL has a region that none uses. -/
lemma userOf?_eq_none_iff (hc : s.acls.Consistent) {region : Handle .region} :
    s.userOf? region = none ↔ s.acls.All fun a => region ∉ a.regions := by
  rw [userOf?, Arena.find?_eq_none_iff hc]
  simp only [Arena.All, Acl.usesRegion, ← Bool.not_eq_true, List.contains_iff_mem]

end Acls

/-! ### Groups -/

namespace Groups

variable {gs : Groups} {store : Acls} {id : Handle .group} {acl : Handle .acl}
  {acls : List (Handle .acl)} {u : Unit}

lemma checkMembersFrom_eq_ok {direction : Direction} {seen : List (Handle .acl)} :
    checkMembersFrom store id direction seen acls = .ok u ↔
      (∀ i ∈ acls, (∃ a, store.acls.get? i = some a ∧ a.serves direction = true) ∧ i ∉ seen) ∧
        acls.Nodup := by
  induction acls generalizing seen with
  | nil => simp [checkMembersFrom]
  | cons i rest ih =>
      simp only [checkMembersFrom, bind_eq_ok, guard_eq_ok, ih, Acls.get_eq_ok, Bool.not_eq_true',
        Bool.not_eq_false, List.contains_iff_mem, List.mem_cons, not_or, List.nodup_cons,
        forall_eq_or_imp]
      constructor
      · rintro ⟨a, ha, hserves, hseen, hrest, hnodup⟩
        exact ⟨⟨⟨⟨a, ha, hserves⟩, hseen⟩, fun j hj => ⟨(hrest j hj).1, (hrest j hj).2.2⟩⟩,
          fun hmem => (hrest i hmem).2.1 rfl, hnodup⟩
      · rintro ⟨⟨⟨⟨a, ha, hserves⟩, hseen⟩, hrest⟩, hnot, hnodup⟩
        refine ⟨a, ha, hserves, hseen, fun j hj => ⟨(hrest j hj).1, ?_, (hrest j hj).2⟩, hnodup⟩
        rintro rfl
        exact hnot hj

/-- The members of a group are live, serve its direction and are distinct, and there are not too
many of them. -/
lemma checkMembers_eq_ok : gs.checkMembers store id acls = .ok u ↔
    ∃ g, gs.groups.get? id = some g ∧ acls.length ≤ gs.maxAclsPerGroup ∧ acls.Nodup ∧
      ∀ i ∈ acls, ∃ a, store.acls.get? i = some a ∧ a.serves g.direction = true := by
  simp only [checkMembers, bind_eq_ok, guard_eq_ok, get_eq_ok, checkMembersFrom_eq_ok, not_lt,
    List.not_mem_nil, not_false_eq_true, and_true]
  exact exists_congr fun g => and_congr_right fun _ => and_congr_right fun _ => and_comm

/-- A member is added behind the others. -/
lemma planAdd_eq_some : gs.planAdd store id acl = .ok (some acls) ↔
    ∃ g, gs.groups.get? id = some g ∧ acl ∉ g.acls ∧ acls = g.acls ++ [acl] ∧
      gs.checkMembers store id acls = .ok () := by
  simp only [planAdd, bind_eq_ok, get_eq_ok]
  refine exists_congr fun g => and_congr_right fun _ => ?_
  by_cases hmem : acl ∈ g.acls
  · simp [hmem]
  · simp only [List.contains_iff_mem, hmem, if_false, bind_eq_ok, pure_eq_ok, Option.some.injEq,
      not_false_eq_true, true_and]
    constructor
    · rintro ⟨_, hcheck, rfl⟩
      exact ⟨rfl, hcheck⟩
    · rintro ⟨rfl, hcheck⟩
      exact ⟨_, hcheck, rfl⟩

/-- Nothing is planned for an ACL that is a member already. -/
lemma planAdd_eq_none : gs.planAdd store id acl = .ok none ↔
    ∃ g, gs.groups.get? id = some g ∧ acl ∈ g.acls := by
  simp only [planAdd, bind_eq_ok, get_eq_ok]
  refine exists_congr fun g => and_congr_right fun _ => ?_
  by_cases hmem : acl ∈ g.acls
  · simp [hmem]
  · simp only [List.contains_iff_mem, hmem, if_false, bind_eq_ok, pure_eq_ok, reduceCtorEq,
      and_false, exists_const]

lemma planDelete_eq_ok : gs.planDelete id acl = .ok acls ↔
    ∃ g, gs.groups.get? id = some g ∧ acl ∈ g.acls ∧ acls = g.acls.filter (· != acl) := by
  simp only [planDelete, bind_eq_ok, get_eq_ok, guard_eq_ok, pure_eq_ok, Bool.not_eq_true',
    Bool.not_eq_false, List.contains_iff_mem]
  exact exists_congr fun g => and_congr_right fun _ => and_congr_right fun _ => eq_comm

/-- A group may follow another of its direction if neither has a partner on that side yet, it is
not bound, and no chain closes. -/
lemma planChain_eq_ok {bound : Handle .group → Bool} {parent child : Handle .group} :
    gs.planChain bound parent child = .ok u ↔
      ∃ p c, gs.groups.get? parent = some p ∧ gs.groups.get? child = some c ∧ parent ≠ child ∧
        p.next = none ∧ gs.parentOf? child = none ∧ p.direction = c.direction ∧
        bound child = false ∧ parent ∉ gs.chainFrom child := by
  simp only [planChain, bind_eq_ok, get_eq_ok, guard_eq_ok, exists_and_left]
  refine exists_congr fun p => and_congr_right fun _ => exists_congr fun c =>
    and_congr_right fun _ => and_congr_right fun _ => ?_
  cases hnext : p.next with
  | some next => simp [bind_eq_ok]
  | none =>
      cases hparent : gs.parentOf? child with
      | some other => simp [bind_eq_ok]
      | none =>
          simp only [guard_eq_ok, last_guard_eq_ok, pure_eq_ok, not_not, ne_eq,
            Bool.not_eq_true, List.contains_iff_mem, true_and, and_true]

lemma of_planCreate {direction : Direction} (h : gs.planCreate direction = .ok id) :
    direction ≠ .multiPoints ∧ gs.groups.nextHandle? = some id := by
  simp only [planCreate, guard_eq_ok] at h
  obtain ⟨hdirection, h⟩ := h
  split at h
  · next hn =>
      cases h
      exact ⟨hdirection, hn⟩
  · cases h

/-- No group has a member that none holds. -/
lemma holderOf?_eq_none_iff (hc : gs.groups.Consistent) :
    gs.holderOf? acl = none ↔ gs.groups.All fun g => acl ∉ g.acls := by
  rw [holderOf?, Arena.find?_eq_none_iff hc]
  simp only [Arena.All, ← Bool.not_eq_true, List.contains_iff_mem]

/-- A group without a parent is the next of none. -/
lemma parentOf?_eq_none_iff (hc : gs.groups.Consistent) :
    gs.parentOf? id = none ↔ gs.groups.All fun g => g.next ≠ some id := by
  rw [parentOf?, Arena.find?_eq_none_iff hc]
  simp only [Arena.All, ← Bool.not_eq_true, beq_iff_eq, ne_eq]

/-! ### Chains -/

/-- What has been visited stays in the walk. -/
lemma subset_walk (gs : Groups) (steps : ℕ) (visited : List (Handle .group))
    (next : Option (Handle .group)) : visited ⊆ gs.walk steps visited next := by
  induction steps generalizing visited next with
  | zero => exact fun i hi => List.mem_reverse.mpr hi
  | succ steps ih =>
      cases next with
      | none => exact fun i hi => List.mem_reverse.mpr hi
      | some i =>
          rw [walk]
          split
          · exact fun i hi => List.mem_reverse.mpr hi
          · split
            · exact fun j hj => ih _ _ (List.mem_cons_of_mem _ hj)
            · exact fun i hi => List.mem_reverse.mpr hi

/-- What a walk comes to has been visited, or the walk starts there, or it follows a group. -/
lemma mem_walk {steps : ℕ} {visited : List (Handle .group)} {start : Option (Handle .group)}
    (h : id ∈ gs.walk steps visited start) :
    id ∈ visited ∨ start = some id ∨ ∃ i g, gs.groups.get? i = some g ∧ g.next = some id := by
  induction steps generalizing visited start with
  | zero => exact .inl (List.mem_reverse.mp h)
  | succ steps ih =>
      cases start with
      | none => exact .inl (List.mem_reverse.mp h)
      | some i =>
          rw [walk] at h
          split at h
          · exact .inl (List.mem_reverse.mp h)
          · split at h
            · next g hg =>
                rcases ih h with hvisited | hnext | hfollows
                · rcases List.mem_cons.mp hvisited with rfl | hvisited
                  · exact .inr (.inl rfl)
                  · exact .inl hvisited
                · exact .inr (.inr ⟨i, g, hg, hnext⟩)
                · exact .inr (.inr hfollows)
            · exact .inl (List.mem_reverse.mp h)

/-- A group in a chain is its head or follows another group. -/
lemma eq_or_follows_of_mem_chainFrom {head : Handle .group} (h : id ∈ gs.chainFrom head) :
    head = id ∨ ∃ i g, gs.groups.get? i = some g ∧ g.next = some id := by
  rcases mem_walk h with hvisited | hstart | hfollows
  · cases hvisited
  · exact .inl (Option.some.inj hstart)
  · exact .inr hfollows

/-- A chain begins with the group that it is followed from. -/
lemma mem_chainFrom_self {g : Group} (hg : gs.groups.get? id = some g) :
    id ∈ gs.chainFrom id := by
  rw [chainFrom, walk]
  simp only [List.contains_nil, Bool.false_eq_true, if_false, hg]
  exact gs.subset_walk _ _ _ (List.mem_cons_self ..)

end Groups

end AclPlane
