import AclPlane.Proofs.Landing.Acls
import AclPlane.Proofs.Landing.Bindings
import AclPlane.Proofs.OrderedMap

/-!
Bindings and their plans, taken apart.

* `Bindings.entriesAt_commit`: the entries of every key after one has got others.
* `Bindings.isBound_iff`: what is bound is the target of an entry of some key.
* `Bindings.planAdd_eq_some`, `Bindings.planAdd_eq_none`, `Bindings.planDelete_eq_ok`: the entries
  that are planned.
* `Core.targetPriority_acl_eq_ok`, `Core.targetPriority_group_eq_ok`: what can be bound.
-/

namespace AclPlane

namespace Bindings

variable {b : Bindings} {key k : BindingKey} {list : List BoundEntry} {entry e : BoundEntry}
  {target : BindTarget}

/-! ### Entries -/

/-- A commit changes the entries of its own key only; storing none removes the key. -/
lemma entriesAt_commit (b : Bindings) (key : BindingKey) (list : List BoundEntry)
    (k : BindingKey) :
    (b.commit key list).entriesAt k = if k = key then list else b.entriesAt k := by
  rw [entriesAt, get?_commit]
  by_cases hk : k = key
  · rw [if_pos hk, if_pos hk]
    cases list <;> rfl
  · rw [if_neg hk, if_neg hk]
    rfl

lemma mem_entriesAt_iff :
    e ∈ b.entriesAt key ↔ ∃ list, b.entries.get? key = some list ∧ e ∈ list := by
  rw [entriesAt]
  cases b.entries.get? key with
  | none => simp
  | some list => simp

/-- The entries of all keys are those of each. -/
lemma mem_allEntries_iff : e ∈ b.allEntries ↔ ∃ key, e ∈ b.entriesAt key := by
  simp only [allEntries, List.mem_flatten, OrderedMap.mem_values_iff, mem_entriesAt_iff]
  constructor
  · rintro ⟨list, ⟨key, hget⟩, he⟩
    exact ⟨key, list, hget, he⟩
  · rintro ⟨key, list, hget, he⟩
    exact ⟨list, ⟨key, hget⟩, he⟩

/-- What is bound is the target of an entry of some key. -/
lemma isBound_iff : b.isBound target = true ↔ ∃ key, ∃ e ∈ b.entriesAt key, e.target = target := by
  simp only [isBound, List.any_eq_true, mem_allEntries_iff, beq_iff_eq]
  constructor
  · rintro ⟨e, ⟨key, he⟩, ht⟩
    exact ⟨key, e, he, ht⟩
  · rintro ⟨key, e, he, ht⟩
    exact ⟨e, ⟨key, he⟩, ht⟩

/-! ### Plans -/

/-- An entry is placed among the others, and all of them stay. -/
lemma mem_place : e ∈ place entry list ↔ e = entry ∨ e ∈ list := by
  rw [place, List.mem_append, List.mem_cons, or_left_comm, ← List.mem_append,
    List.takeWhile_append_dropWhile]

/-- A target is added to a key on which neither it nor an ACL is bound. -/
lemma planAdd_eq_some : b.planAdd key entry = .ok (some list) ↔
    (∀ e ∈ b.entriesAt key, e.target ≠ entry.target ∧ e.target.isAcl = false) ∧
      list = place entry (b.entriesAt key) := by
  rw [planAdd]
  by_cases hany : (b.entriesAt key).any (·.target == entry.target) = true
  · obtain ⟨e, he, ht⟩ := List.any_eq_true.mp hany
    simp only [hany, if_true, Except.ok.injEq, reduceCtorEq, false_iff]
    rintro ⟨hfree, -⟩
    exact (hfree e he).1 (beq_iff_eq.mp ht)
  · rw [if_neg hany]
    have hfree : ∀ e ∈ b.entriesAt key, e.target ≠ entry.target := fun e he ht =>
      hany (List.any_eq_true.mpr ⟨e, he, beq_iff_eq.mpr ht⟩)
    cases hfind : (b.entriesAt key).find? (·.target.isAcl) with
    | some e =>
        simp only [reduceCtorEq, false_iff]
        rintro ⟨hall, -⟩
        have hacl := List.find?_some hfind
        rw [(hall e (List.mem_of_find?_eq_some hfind)).2] at hacl
        cases hacl
    | none =>
        have hall : ∀ e ∈ b.entriesAt key, e.target.isAcl = false := fun e he => by
          simpa using List.find?_eq_none.mp hfind e he
        simp only [Except.ok.injEq, Option.some.injEq]
        exact ⟨fun heq => ⟨fun e he => ⟨hfree e he, hall e he⟩, heq.symm⟩, fun ⟨_, heq⟩ => heq.symm⟩

/-- Nothing is planned for a target that is bound already. -/
lemma planAdd_eq_none :
    b.planAdd key entry = .ok none ↔ ∃ e ∈ b.entriesAt key, e.target = entry.target := by
  have hany : (∃ e ∈ b.entriesAt key, e.target = entry.target) ↔
      (b.entriesAt key).any (·.target == entry.target) = true := by
    simp only [List.any_eq_true, beq_iff_eq]
  rw [planAdd, hany]
  split
  · next h => simp only [h]
  · next h => split <;> simp only [h, reduceCtorEq, Except.ok.injEq]

lemma planDelete_eq_ok {group : Handle .group} : b.planDelete key group = .ok list ↔
    (∃ e ∈ b.entriesAt key, e.target = .group group) ∧
      list = (b.entriesAt key).filter (·.target != .group group) := by
  simp only [planDelete, bind_eq_ok, bound, entriesAt]
  cases b.entries.get? key with
  | none => simp
  | some current =>
      simp only [Except.ok.injEq, exists_eq_left', guard_eq_ok, pure_eq_ok, Bool.not_eq_true',
        Bool.not_eq_false, List.any_eq_true, beq_iff_eq, Option.getD_some]
      exact and_congr_right fun _ => eq_comm

end Bindings

/-! ### What can be bound -/

namespace Core

variable {c : Core} {d : Direction} {priority : ℕ}

/-- An ACL is bound with the usual priority of groups if it serves the direction; one for many
points needs a bitmap first. -/
lemma targetPriority_acl_eq_ok {id : Handle .acl} :
    c.targetPriority d (.acl id) = .ok priority ↔ ∃ a, c.acls.acls.get? id = some a ∧
      ¬(a.isMultiPoint = true ∧ a.bitmap.isEmpty = true) ∧ a.serves d = true ∧
        c.groups.priorities.usual = priority := by
  simp only [targetPriority, bind_eq_ok, Acls.get_eq_ok, guard_eq_ok, pure_eq_ok,
    Bool.not_eq_true', Bool.not_eq_false]

/-- A group is bound with its own priority, in its own direction, at the head of its chain. -/
lemma targetPriority_group_eq_ok {id : Handle .group} :
    c.targetPriority d (.group id) = .ok priority ↔ ∃ g, c.groups.groups.get? id = some g ∧
      g.direction = d ∧ c.groups.parentOf? id = none ∧ g.priority = priority := by
  simp only [targetPriority, bind_eq_ok, Groups.get_eq_ok, guard_eq_ok, not_not, ne_eq]
  refine exists_congr fun g => and_congr_right fun _ => and_congr_right fun _ => ?_
  cases c.groups.parentOf? id with
  | none => simp
  | some parent => simp

end Core

end AclPlane
