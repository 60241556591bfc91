import AclPlane.Proofs.Acls

/-!
Operations on ACLs and groups go through.

What each operation plans is said once, as the call and the commit of its change: `createAcl_eq_ok`,
`replaceGroup` and the lemmas after them.  The device accepts an ACL whose regions it knows, and the
regions that a request lists are live.  Groups are programmed without a check of the device.
-/

namespace AclPlane.Core

variable {c : Core} {t : DeviceTables} {room : Prop}

/-! ### Plans for ACLs -/

/-- Creating an ACL programs it under its new handle. -/
lemma createAcl_eq_ok {aclType : AclType} {direction : Direction} {bitmap : DirectionSet}
    {regions : List (Handle .region)} {change : Change (Handle .acl)}
    (hp : c.createAcl aclType direction bitmap regions = .ok change) : ∃ id acls,
      c.acls.planCreate c.regions direction bitmap regions = .ok id ∧
      c.acls.acls.insertWith? (fun _ => ⟨aclType, direction, bitmap, regions⟩) = some (id, acls) ∧
      change = ⟨some (.programAcl id regions), .ok ⟨{ c with acls := ⟨acls⟩ }, [], id⟩⟩ := by
  simp only [createAcl, bind_eq_ok, pure_eq_ok] at hp
  obtain ⟨id, hplan, rfl⟩ := hp
  obtain ⟨-, -, hnext⟩ := Acls.of_planCreate hplan
  obtain ⟨acls, hins⟩ := Arena.exists_insertWith? hnext
    fun _ => (⟨aclType, direction, bitmap, regions⟩ : Acl)
  refine ⟨id, acls, hplan, hins, ?_⟩
  simp only [Acls.create, Arena.insert?, hins, ok_bind]
  rfl

/-- Editing an ACL programs its new regions. -/
lemma editAcl_eq_ok {acl : Handle .acl} {regions : List (Handle .region)} {asked : DirectionSet}
    {change : Change Unit} (hp : c.editAcl acl regions asked = .ok change) : ∃ a bitmap,
      c.acls.acls.get? acl = some a ∧ c.acls.planEdit c.regions acl regions asked = .ok bitmap ∧
      change = ⟨some (.programAcl acl regions), .ok ⟨{ c with
        acls := ⟨c.acls.acls.set acl { a with regions := regions, bitmap := bitmap }⟩ },
          [], ()⟩⟩ := by
  simp only [editAcl, bind_eq_ok, pure_eq_ok] at hp
  obtain ⟨bitmap, hplan, rfl⟩ := hp
  obtain ⟨a, ha, -⟩ := bind_eq_ok.mp hplan
  rw [Acls.get_eq_ok] at ha
  refine ⟨a, bitmap, ha, hplan, ?_⟩
  simp only [Acls.edit, Acls.get_eq_ok.mpr ha, ok_bind]
  rfl

/-- Destroying an ACL that nothing refers to removes it. -/
lemma destroyAcl_eq_ok {acl : Handle .acl} {change : Change Unit}
    (hp : c.destroyAcl acl = .ok change) : ∃ a acls,
      c.groups.holderOf? acl = none ∧ c.bindings.isBound (.acl acl) = false ∧
      c.acls.acls.remove? acl = some (a, acls) ∧
      change = ⟨some (.removeAcl acl),
        .ok ⟨{ c with acls := ⟨acls⟩ }, [.objectDeleted acl.ref], ()⟩⟩ := by
  simp only [destroyAcl, bind_eq_ok, Acls.get_eq_ok] at hp
  obtain ⟨a, ha, hp⟩ := hp
  split at hp
  · cases hp
  · next hunlisted =>
      simp only [guard_eq_ok, pure_eq_ok, Bool.not_eq_true] at hp
      obtain ⟨hunbound, rfl⟩ := hp
      obtain ⟨acls, hrem⟩ := Arena.exists_remove? ha
      refine ⟨a, acls, hunlisted, hunbound, hrem, ?_⟩
      simp only [Acls.destroy, hrem, ok_bind]
      rfl

/-! ### ACLs -/

/-- A new ACL is shown with its regions. -/
lemma Shown.insertAcl (h : c.Shown t) (hc : c.acls.acls.Consistent) {id : Handle .acl} {a : Acl}
    {acls : Arena .acl Acl} (hins : c.acls.acls.insertWith? (fun _ => a) = some (id, acls)) :
    { c with acls := ⟨acls⟩ }.Shown { t with acls := t.acls.insert id a.regions } := by
  refine { h with acls := fun i => ?_ }
  rw [OrderedMap.get?_insert, Arena.get?_insertWith? hc hins, h.acls i]
  split <;> rfl

/-- An ACL that is replaced is shown with its new regions. -/
lemma Shown.setAcl (h : c.Shown t) {id : Handle .acl} {a : Acl} (ha : c.acls.acls.get? id = some a)
    (a' : Acl) : { c with acls := ⟨c.acls.acls.set id a'⟩ }.Shown
      { t with acls := t.acls.insert id a'.regions } := by
  refine { h with acls := fun i => ?_ }
  rw [OrderedMap.get?_insert, Arena.get?_set ha, h.acls i]
  split <;> rfl

/-- An ACL that goes is shown no more. -/
lemma Shown.eraseAcl (h : c.Shown t) {id : Handle .acl} {a : Acl} {acls : Arena .acl Acl}
    (hrem : c.acls.acls.remove? id = some (a, acls)) :
    { c with acls := ⟨acls⟩ }.Shown { t with acls := t.acls.erase id } := by
  refine { h with acls := fun i => ?_ }
  rw [OrderedMap.get?_erase, Arena.get?_remove? hrem, h.acls i]
  split <;> rfl

/-- Other ACLs in model and device. -/
lemma InStep.of_acls (h : c.InStep t) {acls : Acls}
    {programmed : OrderedMap (Handle .acl) (List (Handle .region))} (hc : acls.acls.Consistent)
    (hm : { c with acls := acls }.Shown { t with acls := programmed }) :
    { c with acls := acls }.InStep { t with acls := programmed } :=
  ⟨{ h.sound with acls := hc }, { hm with regions := h.mirrors.regions }⟩

/-- The device accepts an ACL over live regions. -/
lemma apply_programAcl (h : c.InStep t) {regions : List (Handle .region)}
    (hr : ∀ r ∈ regions, c.regions.contains r = true) (id : Handle .acl) :
    t.apply (.programAcl id regions) =
      .ok ({ t with acls := t.acls.insert id regions }, false) := by
  have hfind : regions.find? (fun r => !t.regions.contains r) = none := by
    rw [List.find?_eq_none]
    intro r hmem
    rw [h.mirrors.contains_region (hr r hmem)]
    decide
  simp only [DeviceTables.apply, hfind]

theorem lands_createAcl (h : c.InStep t) {aclType : AclType} {direction : Direction}
    {bitmap : DirectionSet} {regions : List (Handle .region)} {change : Change (Handle .acl)}
    (hp : c.createAcl aclType direction bitmap regions = .ok change) :
    change.Lands (some .programAcl) t room := by
  obtain ⟨id, acls, hplan, hins, rfl⟩ := createAcl_eq_ok hp
  obtain ⟨-, hregions, -⟩ := Acls.of_planCreate hplan
  obtain ⟨-, -, hlive⟩ := Acls.checkRegions_eq_ok.mp hregions
  exact Change.lands_call _ (apply_programAcl h hlive _)
    fun _ => h.of_acls (h.sound.acls.insertWith? hins) (h.mirrors.insertAcl h.sound.acls hins)

theorem lands_editAcl (h : c.InStep t) {acl : Handle .acl} {regions : List (Handle .region)}
    {bitmap : DirectionSet} {change : Change Unit}
    (hp : c.editAcl acl regions bitmap = .ok change) : change.Lands (some .programAcl) t room := by
  obtain ⟨a, bitmap', ha, hplan, rfl⟩ := editAcl_eq_ok hp
  obtain ⟨hregions, -⟩ := Acls.of_planEdit ha hplan
  obtain ⟨-, -, hlive⟩ := Acls.checkRegions_eq_ok.mp hregions
  exact Change.lands_call _ (apply_programAcl h hlive _)
    fun _ => h.of_acls (h.sound.acls.set ha) (h.mirrors.setAcl ha _)

theorem lands_destroyAcl (h : c.InStep t) {acl : Handle .acl} {change : Change Unit}
    (hp : c.destroyAcl acl = .ok change) : change.Lands (some .removeAcl) t room := by
  obtain ⟨a, acls, -, -, hrem, rfl⟩ := destroyAcl_eq_ok hp
  have hcontains : t.acls.contains acl = true := by
    rw [OrderedMap.contains, h.mirrors.acls, (Arena.remove?_eq_some_iff.mp hrem).1]
    rfl
  refine Change.lands_call { t with acls := t.acls.erase acl } ?_
    fun _ => h.of_acls (h.sound.acls.remove? hrem) (h.mirrors.eraseAcl hrem)
  simp only [DeviceTables.apply, hcontains, if_true]

/-! ### Plans for groups -/

/-- The change that gives a group other members or another successor. -/
def replaceGroup (c : Core) (id : Handle .group) (g : Group) : Change Unit :=
  ⟨some (.programGroup id g.acls g.next), .ok ⟨{ c with
    groups := { c.groups with groups := c.groups.groups.set id g } }, [], ()⟩⟩

/-- Creating a group programs it under its new handle. -/
lemma createGroup_eq_ok {direction : Direction} {change : Change (Handle .group)}
    (hp : c.createGroup direction = .ok change) : ∃ id groups,
      c.groups.planCreate direction = .ok id ∧
      c.groups.groups.insertWith? (fun _ => ⟨direction, [], c.groups.priorities.usual, none⟩) =
        some (id, groups) ∧
      change = ⟨some (.programGroup id [] none),
        .ok ⟨{ c with groups := { c.groups with groups := groups } }, [], id⟩⟩ := by
  simp only [createGroup, bind_eq_ok, pure_eq_ok] at hp
  obtain ⟨id, hplan, rfl⟩ := hp
  obtain ⟨-, hnext⟩ := Groups.of_planCreate hplan
  obtain ⟨groups, hins⟩ := Arena.exists_insertWith? hnext
    fun _ => (⟨direction, [], c.groups.priorities.usual, none⟩ : Group)
  refine ⟨id, groups, hplan, hins, ?_⟩
  simp only [Groups.create, Arena.insert?, hins, ok_bind]
  rfl

lemma programMembers_eq_ok {group : Handle .group} {acls : List (Handle .acl)}
    {change : Change Unit} (hp : c.programMembers group acls = .ok change) : ∃ g,
      c.groups.groups.get? group = some g ∧
        change = c.replaceGroup group { g with acls := acls } := by
  simp only [programMembers, bind_eq_ok, Groups.get_eq_ok, pure_eq_ok] at hp
  obtain ⟨g, hg, rfl⟩ := hp
  refine ⟨g, hg, ?_⟩
  simp only [Groups.setMembers, Groups.get_eq_ok.mpr hg, ok_bind]
  rfl

lemma setGroupAcls_eq_ok {group : Handle .group} {acls : List (Handle .acl)}
    {change : Change Unit} (hp : c.setGroupAcls group acls = .ok change) : ∃ g,
      c.groups.groups.get? group = some g ∧ c.groups.checkMembers c.acls group acls = .ok () ∧
      change = c.replaceGroup group { g with acls := acls } := by
  simp only [setGroupAcls, bind_eq_ok] at hp
  obtain ⟨_, hcheck, hp⟩ := hp
  obtain ⟨g, hg, rfl⟩ := programMembers_eq_ok hp
  exact ⟨g, hg, hcheck, rfl⟩

/-- Adding a member programs it, unless it is one already. -/
lemma addGroupAcl_eq_ok {group : Handle .group} {acl : Handle .acl} {change : Change Unit}
    (hp : c.addGroupAcl group acl = .ok change) :
    (∃ g acls, c.groups.groups.get? group = some g ∧
      c.groups.planAdd c.acls group acl = .ok (some acls) ∧
      change = c.replaceGroup group { g with acls := acls }) ∨
    (c.groups.planAdd c.acls group acl = .ok none ∧ change = .quiet c ()) := by
  simp only [addGroupAcl, bind_eq_ok] at hp
  obtain ⟨planned, hplan, hp⟩ := hp
  split at hp
  · obtain ⟨g, hg, rfl⟩ := programMembers_eq_ok hp
    exact .inl ⟨g, _, hg, hplan, rfl⟩
  · cases hp
    exact .inr ⟨hplan, rfl⟩

lemma deleteGroupAcl_eq_ok {group : Handle .group} {acl : Handle .acl} {change : Change Unit}
    (hp : c.deleteGroupAcl group acl = .ok change) : ∃ g acls,
      c.groups.groups.get? group = some g ∧ c.groups.planDelete group acl = .ok acls ∧
      change = c.replaceGroup group { g with acls := acls } := by
  simp only [deleteGroupAcl, bind_eq_ok] at hp
  obtain ⟨acls, hplan, hp⟩ := hp
  obtain ⟨g, hg, rfl⟩ := programMembers_eq_ok hp
  exact ⟨g, acls, hg, hplan, rfl⟩

lemma setNext_eq {gs : Groups} {group : Handle .group} {g : Group}
    (hg : gs.groups.get? group = some g) (next : Option (Handle .group)) :
    gs.setNext group next =
      .ok { gs with groups := gs.groups.set group { g with next := next } } := by
  simp only [Groups.setNext, Groups.get_eq_ok.mpr hg, ok_bind]
  rfl

lemma chainGroups_eq_ok {parent child : Handle .group} {change : Change Unit}
    (hp : c.chainGroups parent child = .ok change) : ∃ p,
      c.groups.groups.get? parent = some p ∧
      c.groups.planChain (fun g => c.bindings.isBound (.group g)) parent child = .ok () ∧
      change = c.replaceGroup parent { p with next := some child } := by
  simp only [chainGroups, bind_eq_ok, Groups.get_eq_ok, pure_eq_ok] at hp
  obtain ⟨_, hplan, p, hparent, rfl⟩ := hp
  refine ⟨p, hparent, hplan, ?_⟩
  simp only [setNext_eq hparent, ok_bind]
  rfl

lemma unchainGroup_eq_ok {parent : Handle .group} {change : Change Unit}
    (hp : c.unchainGroup parent = .ok change) : ∃ p,
      c.groups.groups.get? parent = some p ∧ p.next.isSome = true ∧
      change = c.replaceGroup parent { p with next := none } := by
  simp only [unchainGroup, bind_eq_ok, guard_eq_ok, Groups.get_eq_ok, pure_eq_ok] at hp
  obtain ⟨p, hparent, hnext, rfl⟩ := hp
  refine ⟨p, hparent, by simpa [Option.isSome_iff_ne_none] using hnext, ?_⟩
  simp only [setNext_eq hparent, ok_bind]
  rfl

/-- Giving a group another priority does not reach the device. -/
lemma setGroupPriority_eq_ok {group : Handle .group} {priority : ℕ} {change : Change Unit}
    (hp : c.setGroupPriority group priority = .ok change) : ∃ g,
      c.groups.groups.get? group = some g ∧ c.groups.priorities.contains priority = true ∧
      change = .quiet { c with groups := { c.groups with
        groups := c.groups.groups.set group { g with priority := priority } } } () := by
  simp only [setGroupPriority, Groups.setPriority, bind_eq_ok, guard_eq_ok, Groups.get_eq_ok,
    pure_eq_ok, Bool.not_eq_true', Bool.not_eq_false] at hp
  obtain ⟨_, ⟨g, hg, hallowed, rfl⟩, rfl⟩ := hp
  exact ⟨g, hg, hallowed, rfl⟩

/-- Destroying a group that nothing refers to removes it. -/
lemma destroyGroup_eq_ok {group : Handle .group} {change : Change Unit}
    (hp : c.destroyGroup group = .ok change) : ∃ g groups,
      c.isGroupBound group = false ∧ c.groups.parentOf? group = none ∧
      c.groups.groups.remove? group = some (g, groups) ∧
      change = ⟨some (.removeGroup group),
        .ok ⟨{ c with groups := { c.groups with groups := groups } },
          [.objectDeleted group.ref], ()⟩⟩ := by
  simp only [destroyGroup, bind_eq_ok, guard_eq_ok, Groups.get_eq_ok, Bool.not_eq_true] at hp
  obtain ⟨g, hg, hunbound, hp⟩ := hp
  split at hp
  · cases hp
  · next hfirst =>
      cases hp
      obtain ⟨groups, hrem⟩ := Arena.exists_remove? hg
      refine ⟨g, groups, hunbound, hfirst, hrem, ?_⟩
      simp only [Groups.destroy, hrem, ok_bind]
      rfl

/-! ### Groups -/

/-- A new group is shown with its members and its successor. -/
lemma Shown.insertGroup (h : c.Shown t) (hc : c.groups.groups.Consistent) {id : Handle .group}
    {g : Group} {groups : Arena .group Group}
    (hins : c.groups.groups.insertWith? (fun _ => g) = some (id, groups)) :
    { c with groups := { c.groups with groups := groups } }.Shown
      { t with groups := t.groups.insert id (g.acls, g.next) } := by
  refine { h with groups := fun i => ?_ }
  rw [OrderedMap.get?_insert, Arena.get?_insertWith? hc hins, h.groups i]
  split <;> rfl

/-- A group that is replaced is shown with its new members and its new successor. -/
lemma Shown.setGroup (h : c.Shown t) {id : Handle .group} {g : Group}
    (hg : c.groups.groups.get? id = some g) (g' : Group) :
    { c with groups := { c.groups with groups := c.groups.groups.set id g' } }.Shown
      { t with groups := t.groups.insert id (g'.acls, g'.next) } := by
  refine { h with groups := fun i => ?_ }
  rw [OrderedMap.get?_insert, Arena.get?_set hg, h.groups i]
  split <;> rfl

/-- The priority of a group is not shown. -/
lemma Shown.setPriority (h : c.Shown t) {id : Handle .group} {g : Group}
    (hg : c.groups.groups.get? id = some g) (priority : ℕ) :
    { c with groups := { c.groups with
      groups := c.groups.groups.set id { g with priority := priority } } }.Shown t := by
  refine { h with groups := fun i => ?_ }
  rw [Arena.get?_set hg, h.groups i]
  split
  · next hi =>
      rw [hi, hg]
      rfl
  · rfl

/-- A group that goes is shown no more. -/
lemma Shown.eraseGroup (h : c.Shown t) {id : Handle .group} {g : Group}
    {groups : Arena .group Group} (hrem : c.groups.groups.remove? id = some (g, groups)) :
    { c with groups := { c.groups with groups := groups } }.Shown
      { t with groups := t.groups.erase id } := by
  refine { h with groups := fun i => ?_ }
  rw [OrderedMap.get?_erase, Arena.get?_remove? hrem, h.groups i]
  split <;> rfl

/-- Other groups in model and device. -/
lemma InStep.of_groups (h : c.InStep t) {groups : Groups}
    {programmed : OrderedMap (Handle .group) (List (Handle .acl) × Option (Handle .group))}
    (hc : groups.groups.Consistent)
    (hm : { c with groups := groups }.Shown { t with groups := programmed }) :
    { c with groups := groups }.InStep { t with groups := programmed } :=
  ⟨{ h.sound with groups := hc }, { hm with regions := h.mirrors.regions }⟩

theorem lands_createGroup (h : c.InStep t) {direction : Direction} {change : Change (Handle .group)}
    (hp : c.createGroup direction = .ok change) : change.Lands (some .programGroup) t room := by
  obtain ⟨id, groups, -, hins, rfl⟩ := createGroup_eq_ok hp
  exact Change.lands_call { t with groups := t.groups.insert id ([], none) } rfl fun _ =>
    h.of_groups (h.sound.groups.insertWith? hins) (h.mirrors.insertGroup h.sound.groups hins)

/-- Giving a live group other members and another successor. -/
lemma lands_replaceGroup (h : c.InStep t) {group : Handle .group} {g : Group}
    (hg : c.groups.groups.get? group = some g) (g' : Group) :
    (c.replaceGroup group g').Lands (some .programGroup) t room :=
  Change.lands_call { t with groups := t.groups.insert group (g'.acls, g'.next) } rfl
    fun _ => h.of_groups (h.sound.groups.set hg) (h.mirrors.setGroup hg g')

theorem lands_setGroupAcls (h : c.InStep t) {group : Handle .group} {acls : List (Handle .acl)}
    {change : Change Unit} (hp : c.setGroupAcls group acls = .ok change) :
    change.Lands (some .programGroup) t room := by
  obtain ⟨g, hg, -, rfl⟩ := setGroupAcls_eq_ok hp
  exact lands_replaceGroup h hg _

theorem lands_addGroupAcl (h : c.InStep t) {group : Handle .group} {acl : Handle .acl}
    {change : Change Unit} (hp : c.addGroupAcl group acl = .ok change) :
    change.Lands (some .programGroup) t room := by
  rcases addGroupAcl_eq_ok hp with ⟨g, acls, hg, -, rfl⟩ | ⟨-, rfl⟩
  · exact lands_replaceGroup h hg _
  · exact Change.lands_quiet h

theorem lands_deleteGroupAcl (h : c.InStep t) {group : Handle .group} {acl : Handle .acl}
    {change : Change Unit} (hp : c.deleteGroupAcl group acl = .ok change) :
    change.Lands (some .programGroup) t room := by
  obtain ⟨g, acls, hg, -, rfl⟩ := deleteGroupAcl_eq_ok hp
  exact lands_replaceGroup h hg _

theorem lands_chainGroups (h : c.InStep t) {parent child : Handle .group} {change : Change Unit}
    (hp : c.chainGroups parent child = .ok change) : change.Lands (some .programGroup) t room := by
  obtain ⟨p, hparent, -, rfl⟩ := chainGroups_eq_ok hp
  exact lands_replaceGroup h hparent _

theorem lands_unchainGroup (h : c.InStep t) {parent : Handle .group} {change : Change Unit}
    (hp : c.unchainGroup parent = .ok change) : change.Lands (some .programGroup) t room := by
  obtain ⟨p, hparent, -, rfl⟩ := unchainGroup_eq_ok hp
  exact lands_replaceGroup h hparent _

theorem lands_setGroupPriority (h : c.InStep t) {group : Handle .group} {priority : ℕ}
    {change : Change Unit} (hp : c.setGroupPriority group priority = .ok change) :
    change.Lands none t room := by
  obtain ⟨g, hg, -, rfl⟩ := setGroupPriority_eq_ok hp
  exact Change.lands_quiet ⟨{ h.sound with groups := h.sound.groups.set hg },
    { h.mirrors.setPriority hg priority with regions := h.mirrors.regions }⟩

theorem lands_destroyGroup (h : c.InStep t) {group : Handle .group} {change : Change Unit}
    (hp : c.destroyGroup group = .ok change) : change.Lands (some .removeGroup) t room := by
  obtain ⟨g, groups, -, -, hrem, rfl⟩ := destroyGroup_eq_ok hp
  have hcontains : t.groups.contains group = true := by
    rw [OrderedMap.contains, h.mirrors.groups, (Arena.remove?_eq_some_iff.mp hrem).1]
    rfl
  refine Change.lands_call { t with groups := t.groups.erase group } ?_
    fun _ => h.of_groups (h.sound.groups.remove? hrem) (h.mirrors.eraseGroup hrem)
  simp only [DeviceTables.apply, hcontains, if_true]

end AclPlane.Core
