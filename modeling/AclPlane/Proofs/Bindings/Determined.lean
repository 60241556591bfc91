import AclPlane.Proofs.Bindings.Order
import AclPlane.Proofs.Chains
import AclPlane.Proofs.Shown

/-!
How far the tables of the device determine what is bound.

The device knows a target by its raw handle, which gives the index and the generation but not the
kind.  Two models with the same tables therefore have the same targets on a key, unless it carries a
single target that may be an ACL or a group.

* `Bindings.targets_eq_of_rawTargets`: targets of one kind are determined by their raw handles.
* `Core.Lookalikes`: an ACL and a group with the same raw handle, either of which may be bound.
* `Controller.targets_determined`: two runs with the same tables have the same targets on every key,
  up to look-alikes.
* `Controller.device_bind_eq`: these cannot be told apart by any device.
-/

namespace AclPlane

/-! ### Raw handles of one kind -/

/-- Targets of one kind are told apart by their raw handles. -/
lemma BindTarget.eq_of_raw {target target' : BindTarget} (hkind : target.isAcl = target'.isAcl)
    (hraw : target.raw = target'.raw) : target = target' := by
  cases target with
  | acl id =>
      cases target' with
      | acl id' => rw [Handle.raw_inj.mp hraw]
      | group id' => cases hkind
  | group id =>
      cases target' with
      | acl id' => cases hkind
      | group id' => rw [Handle.raw_inj.mp hraw]

namespace Bindings

variable {list list' : List BoundEntry} {isAcl : Bool}

/-- Targets of one kind are determined by their raw handles. -/
lemma targets_eq_of_rawTargets (hraw : rawTargets list = rawTargets list')
    (hkind : ∀ e ∈ list, e.target.isAcl = isAcl) (hkind' : ∀ e ∈ list', e.target.isAcl = isAcl) :
    list.map BoundEntry.target = list'.map BoundEntry.target := by
  induction list generalizing list' with
  | nil => rw [List.map_eq_nil_iff.mp hraw.symm]
  | cons e list ih =>
      cases list' with
      | nil => cases hraw
      | cons e' list' =>
          obtain ⟨hhead, htail⟩ := List.cons.inj hraw
          rw [List.forall_mem_cons] at hkind hkind'
          rw [List.map_cons, List.map_cons, ih htail hkind.2 hkind'.2,
            BindTarget.eq_of_raw (hkind.1.trans hkind'.1.symm) hhead]

/-- What is reported of a key depends on the targets alone, once something is bound there. -/
lemma all_eq (b : Bindings) (key : BindingKey) (cap : Option ℕ) : b.all key cap =
    let targets := (b.entriesAt key).map BoundEntry.target
    if b.isBoundAt key = true then .ok ⟨targets.length, cap.elim targets targets.take⟩
    else .error (.notFound (.binding key)) := by
  rw [all, bound, entriesAt, isBoundAt, OrderedMap.contains]
  cases b.entries.get? key with
  | none => rfl
  | some list =>
      simp only [Option.getD_some, Option.isSome_some, if_true, List.length_map]
      cases cap <;> rfl

/-- A single entry is all that is reported of its key. -/
lemma all_of_single {b : Bindings} {key : BindingKey} {e : BoundEntry}
    (h : b.entriesAt key = [e]) : b.all key none = .ok ⟨1, [e.target]⟩ := by
  obtain ⟨list, hget, -⟩ := mem_entriesAt_iff.mp (h ▸ List.mem_singleton_self e)
  rw [all_eq, h, isBoundAt, OrderedMap.contains, hget]
  rfl

/-- A key carries a single ACL or groups alone. -/
lemma Ordered.single_acl_or_groups {range : PriorityRange} {log : List BoundEntry}
    (h : Ordered range log list) :
    (∃ acl priority, list = [⟨.acl acl, priority⟩]) ∨ ∀ e ∈ list, e.target.isAcl = false := by
  by_cases hall : ∀ e ∈ list, e.target.isAcl = false
  · exact .inr hall
  · push Not at hall
    obtain ⟨⟨target, priority⟩, he, hacl⟩ := hall
    cases target with
    | acl id => exact .inl ⟨id, priority, h.alone _ he rfl⟩
    | group id => exact absurd rfl hacl

end Bindings

/-! ### What the device tells -/

namespace Core

variable {c c' : Core} {t t' : DeviceTables} {key : BindingKey} {acl : Handle .acl}
  {group : Handle .group}

/-- An ACL and a group that are live and have the same raw handle, with the group at the head of its
chain. -/
structure Lookalikes (c : Core) (acl : Handle .acl) (group : Handle .group) : Prop where
  raw_eq : acl.raw = group.raw
  live_acl : c.acls.acls.contains acl = true
  live_group : c.groups.groups.contains group = true
  head : ∀ id, ¬c.groups.Precedes id group

lemma Shown.contains_acl (h : c.Shown t) (id : Handle .acl) :
    c.acls.acls.contains id = (t.acls.get? id).isSome := by
  rw [h.acls, Option.isSome_map, Arena.contains]

lemma Shown.contains_group (h : c.Shown t) (id : Handle .group) :
    c.groups.groups.contains id = (t.groups.get? id).isSome := by
  rw [h.groups, Option.isSome_map, Arena.contains]

/-- The device has the raw handles of what is bound. -/
lemma Shown.rawTargets_eq (h : c.Shown t) (key : BindingKey) :
    Bindings.rawTargets (c.bindings.entriesAt key) = (t.bindings.get? key).getD [] := by
  rw [h.bindings, Bindings.entriesAt]
  cases c.bindings.entries.get? key <;> rfl

lemma Shown.isBoundAt_eq (h : c.Shown t) (key : BindingKey) :
    c.bindings.isBoundAt key = (t.bindings.get? key).isSome := by
  rw [h.bindings, Option.isSome_map, Bindings.isBoundAt, OrderedMap.contains]

lemma Shown.precedes_iff (h : c.Shown t) {a b : Handle .group} :
    c.groups.Precedes a b ↔ ∃ members, t.groups.get? a = some (members, some b) := by
  rw [h.groups]
  constructor
  · rintro ⟨g, hg, hnext⟩
    exact ⟨g.acls, by rw [hg, Option.map_some, hnext]⟩
  · rintro ⟨members, hmap⟩
    obtain ⟨g, hg, heq⟩ := Option.map_eq_some_iff.mp hmap
    exact ⟨g, hg, (Prod.mk.inj heq).2⟩

/-- Look-alikes can be seen on the device. -/
lemma Shown.lookalikes_iff (h : c.Shown t) : c.Lookalikes acl group ↔
    acl.raw = group.raw ∧ (t.acls.get? acl).isSome = true ∧ (t.groups.get? group).isSome = true ∧
      ∀ id members, t.groups.get? id ≠ some (members, some group) := by
  rw [← h.contains_acl, ← h.contains_group]
  constructor
  · rintro ⟨hraw, hacl, hgroup, hhead⟩
    exact ⟨hraw, hacl, hgroup, fun id members hid => hhead id (h.precedes_iff.mpr ⟨members, hid⟩)⟩
  · rintro ⟨hraw, hacl, hgroup, hhead⟩
    refine ⟨hraw, hacl, hgroup, fun id hid => ?_⟩
    obtain ⟨members, hnext⟩ := h.precedes_iff.mp hid
    exact hhead id members hnext

/-- Devices with the same ACLs and groups show the same look-alikes. -/
lemma Lookalikes.of_shown (h : c.Lookalikes acl group) (hc : c.Shown t) (hc' : c'.Shown t')
    (hacls : t.acls = t'.acls) (hgroups : t.groups = t'.groups) : c'.Lookalikes acl group := by
  rw [hc'.lookalikes_iff, ← hacls, ← hgroups]
  exact hc.lookalikes_iff.mp h

/-! ### Two models with the same tables -/

/-- A model with bindings as runs leave them, shown by its device. -/
structure Presented (c : Core) (t : DeviceTables) : Prop where
  shown : c.Shown t
  linked : c.Linked
  chained : c.Chained
  kinds : ∀ key, (∃ acl priority, c.bindings.entriesAt key = [⟨.acl acl, priority⟩]) ∨
    ∀ e ∈ c.bindings.entriesAt key, e.target.isAcl = false

namespace Presented

/-- Where one model has a single ACL and the other groups with the same raw handles, there is one
group, and the two look alike. -/
lemma exists_lookalike (h : c.Presented t) (h' : c'.Presented t') (hacls : t.acls = t'.acls)
    (hgroups : t.groups = t'.groups) (hbindings : t.bindings = t'.bindings) {priority : ℕ}
    (hacl : c.bindings.entriesAt key = [⟨.acl acl, priority⟩])
    (hkind : ∀ e ∈ c'.bindings.entriesAt key, e.target.isAcl = false) :
    ∃ group, c.Lookalikes acl group ∧ c'.Lookalikes acl group ∧
      c.bindings.all key none = .ok ⟨1, [.acl acl]⟩ ∧
        c'.bindings.all key none = .ok ⟨1, [.group group]⟩ := by
  have hraw : Bindings.rawTargets (c'.bindings.entriesAt key) = [acl.raw] := by
    rw [h'.shown.rawTargets_eq, ← hbindings, ← h.shown.rawTargets_eq, hacl]
    rfl
  obtain ⟨⟨target, priority'⟩, hgroup, heq⟩ := List.map_eq_singleton_iff.mp hraw
  cases target with
  | acl id => cases hkind ⟨.acl id, priority'⟩ (by rw [hgroup]; exact List.mem_singleton_self _)
  | group id =>
      have hbound : ⟨.acl acl, priority⟩ ∈ c.bindings.entriesAt key := by
        rw [hacl]
        exact List.mem_singleton_self _
      have hbound' : ⟨.group id, priority'⟩ ∈ c'.bindings.entriesAt key := by
        rw [hgroup]
        exact List.mem_singleton_self _
      have halike : c'.Lookalikes acl id := by
        refine ⟨heq.symm, ?_, h'.linked.boundGroups key _ hbound' id rfl,
          h'.chained.heads id (Bindings.isBound_iff.mpr ⟨key, _, hbound', rfl⟩)⟩
        rw [h'.shown.contains_acl, ← hacls, ← h.shown.contains_acl]
        exact h.linked.boundAcls key _ hbound acl rfl
      exact ⟨id, halike.of_shown h'.shown h.shown hacls.symm hgroups.symm, halike,
        Bindings.all_of_single hacl, Bindings.all_of_single hgroup⟩

/-- Models with the same tables have the same targets on every key, up to look-alikes. -/
theorem same_or_lookalikes (h : c.Presented t) (h' : c'.Presented t') (hacls : t.acls = t'.acls)
    (hgroups : t.groups = t'.groups) (hbindings : t.bindings = t'.bindings) (key : BindingKey) :
    (∀ cap, c.bindings.all key cap = c'.bindings.all key cap) ∨
      ∃ acl group, c.Lookalikes acl group ∧ c'.Lookalikes acl group ∧
        ((c.bindings.all key none = .ok ⟨1, [.acl acl]⟩ ∧
            c'.bindings.all key none = .ok ⟨1, [.group group]⟩) ∨
          (c.bindings.all key none = .ok ⟨1, [.group group]⟩ ∧
            c'.bindings.all key none = .ok ⟨1, [.acl acl]⟩)) := by
  have hraw : Bindings.rawTargets (c.bindings.entriesAt key) =
      Bindings.rawTargets (c'.bindings.entriesAt key) := by
    rw [h.shown.rawTargets_eq, h'.shown.rawTargets_eq, hbindings]
  have hsame : ∀ isAcl, (∀ e ∈ c.bindings.entriesAt key, e.target.isAcl = isAcl) →
      (∀ e ∈ c'.bindings.entriesAt key, e.target.isAcl = isAcl) →
        ∀ cap, c.bindings.all key cap = c'.bindings.all key cap := by
    intro isAcl hkind hkind' cap
    rw [Bindings.all_eq, Bindings.all_eq, Bindings.targets_eq_of_rawTargets hraw hkind hkind',
      h.shown.isBoundAt_eq, h'.shown.isBoundAt_eq, hbindings]
  rcases h.kinds key with ⟨acl, priority, hacl⟩ | hkind
  · rcases h'.kinds key with ⟨acl', priority', hacl'⟩ | hkind'
    · refine .inl (hsame true ?_ ?_)
      · simp only [hacl, List.mem_singleton, forall_eq, BindTarget.isAcl]
      · simp only [hacl', List.mem_singleton, forall_eq, BindTarget.isAcl]
    · obtain ⟨group, halike, halike', hall, hall'⟩ :=
        h.exists_lookalike h' hacls hgroups hbindings hacl hkind'
      exact .inr ⟨acl, group, halike, halike', .inl ⟨hall, hall'⟩⟩
  · rcases h'.kinds key with ⟨acl', priority', hacl'⟩ | hkind'
    · obtain ⟨group, halike', halike, hall', hall⟩ :=
        h'.exists_lookalike h hacls.symm hgroups.symm hbindings.symm hacl' hkind
      exact .inr ⟨acl', group, halike, halike', .inr ⟨hall, hall'⟩⟩
    · exact .inl (hsame false hkind hkind')

end Presented

end Core

namespace Controller

variable {s s' : Controller} {config : Config} {given : Option (List KeyBlock)} {sink sink' : Sink}

lemma presented_run (hs : Controller.start config given sink = .ok s) (steps : List Step) :
    (s.run steps).core.Presented (s.run steps).device.tables :=
  ⟨shown_run hs steps, linked_run hs steps, chained_run hs steps, fun key =>
    (ordered_run hs key steps).single_acl_or_groups⟩

/-! ### Two runs with the same tables -/

/-- Two runs after which the devices have the same ACLs, groups and bindings report the same targets
on every key.  Only a single target may differ: if its raw handle is that of an ACL and of a group
at the head of its chain, both live, one run may have the ACL where the other has the group. -/
theorem targets_determined (hs : Controller.start config given sink = .ok s)
    (hs' : Controller.start config given sink' = .ok s') (steps steps' : List Step)
    (hacls : (s.run steps).device.tables.acls = (s'.run steps').device.tables.acls)
    (hgroups : (s.run steps).device.tables.groups = (s'.run steps').device.tables.groups)
    (hbindings : (s.run steps).device.tables.bindings = (s'.run steps').device.tables.bindings)
    (key : BindingKey) :
    let c := (s.run steps).core
    let c' := (s'.run steps').core
    (∀ cap, c.bindings.all key cap = c'.bindings.all key cap) ∨
      ∃ acl group, c.Lookalikes acl group ∧ c'.Lookalikes acl group ∧
        ((c.bindings.all key none = .ok ⟨1, [.acl acl]⟩ ∧
            c'.bindings.all key none = .ok ⟨1, [.group group]⟩) ∨
          (c.bindings.all key none = .ok ⟨1, [.group group]⟩ ∧
            c'.bindings.all key none = .ok ⟨1, [.acl acl]⟩)) :=
  (presented_run hs steps).same_or_lookalikes (presented_run hs' steps') hacls hgroups hbindings key

/-- Adds the groups of `adding` to the port in another order. -/
def addingLast : List Step :=
  [.operation (.group (.create .ingress)),
   .operation (.group (.create .ingress)),
   .operation (.group (.create .ingress)),
   .operation (.binding (.add ⟨.port ⟨7⟩, .ingress⟩ ⟨0, 1⟩)),
   .operation (.binding (.add ⟨.port ⟨7⟩, .ingress⟩ ⟨2, 1⟩)),
   .operation (.group (.setPriority ⟨1, 1⟩ 9)),
   .operation (.binding (.add ⟨.port ⟨7⟩, .ingress⟩ ⟨1, 1⟩))]

/-- Both orders lead to the same tables, and so to the same targets. -/
theorem targets_of_adding :
    let s := fresh.run adding
    let s' := fresh.run addingLast
    s.device.tables = s'.device.tables ∧
      s.core.bindings.all ⟨.port ⟨7⟩, .ingress⟩ none =
        s'.core.bindings.all ⟨.port ⟨7⟩, .ingress⟩ none := by
  intro s s'
  have htables : s.device.tables = s'.device.tables := by decide +kernel
  have hall : s.core.bindings.all ⟨.port ⟨7⟩, .ingress⟩ none =
      .ok ⟨3, [.group ⟨1, 1⟩, .group ⟨0, 1⟩, .group ⟨2, 1⟩]⟩ := by decide +kernel
  refine ⟨htables, ?_⟩
  rcases targets_determined start_fresh start_fresh adding addingLast
    (congrArg DeviceTables.acls htables) (congrArg DeviceTables.groups htables)
    (congrArg DeviceTables.bindings htables) ⟨.port ⟨7⟩, .ingress⟩ with
    hsame | ⟨acl, group, -, -, ⟨hacl, -⟩ | ⟨hgroup, -⟩⟩
  · exact hsame none
  -- three targets are not a single one
  · cases hall.symm.trans hacl
  · cases hall.symm.trans hgroup

/-! ### Look-alikes in place of each other -/

/-- The device after a change depends on its call alone. -/
lemma device_apply_congr {α : Type} {change change' : Change α} (h : change.call = change'.call) :
    (s.apply (.ok change)).controller.device = (s.apply (.ok change')).controller.device := by
  rw [apply, apply, h]
  cases change'.call with
  | none => rw [device_finish, device_finish]
  | some call =>
      obtain ⟨answer, device, hcall⟩ : ∃ answer device, s.device.call call = (answer, device) :=
        ⟨_, _, rfl⟩
      simp only [hcall]
      cases answer with
      | ok bit => rw [device_finish, device_finish]
      | error e => rfl

/-- No device tells which of two targets with the same raw handle has been bound, if either of them
can be bound. -/
theorem device_bind_eq {key : BindingKey} {target target' : BindTarget} {priority priority' : ℕ}
    (hraw : target.raw = target'.raw)
    (h : s.core.targetPriority key.direction target = .ok priority)
    (h' : s.core.targetPriority key.direction target' = .ok priority') :
    (s.step (.operation (.binding (.bind key target)))).controller.device =
      (s.step (.operation (.binding (.bind key target')))).controller.device := by
  change (s.apply (s.core.bindTarget key target)).controller.device =
    (s.apply (s.core.bindTarget key target')).controller.device
  rw [Core.bindTarget, Core.bindTarget, h, h']
  cases s.core.checkBindingKey key with
  | error e => rfl
  | ok _ =>
      refine device_apply_congr (congrArg some (congrArg (DeviceCall.programBinding key) ?_))
      exact congrArg (fun raw => [raw]) hraw

/-- Creates an ACL and a group, which get the same raw handle. -/
def twins : List Step :=
  [.operation (.keyType (.create [.dstIp] none)),
   .operation (.region (.create ⟨0, 1⟩ 4)),
   .operation (.acl (.create .agnostic .ingress ⟨false, false, false, false⟩ [⟨0, 1⟩])),
   .operation (.group (.create .ingress))]

/-- Binds a target to a port. -/
def bindPort (target : BindTarget) : Step :=
  .operation (.binding (.bind ⟨.port ⟨1⟩, .ingress⟩ target))

/-- The ACL and the group may be bound in place of each other, and no table of the device tells
which of them is. -/
theorem tables_of_twins :
    let a := fresh.run (twins ++ [bindPort (.acl ⟨0, 1⟩)])
    let b := fresh.run (twins ++ [bindPort (.group ⟨0, 1⟩)])
    Controller.start .standard none .recording = .ok fresh ∧ a.device.tables = b.device.tables ∧
      a.core.bindings.all ⟨.port ⟨1⟩, .ingress⟩ none = .ok ⟨1, [.acl ⟨0, 1⟩]⟩ ∧
      b.core.bindings.all ⟨.port ⟨1⟩, .ingress⟩ none = .ok ⟨1, [.group ⟨0, 1⟩]⟩ := by
  decide +kernel

end Controller

end AclPlane
