import AclPlane.Proofs.Acls

/-!
The way from a group to the end of its chain.

* `Groups.Precedes`: a group is followed by another; `Groups.Trail`: the groups that are met on the
  way from a start until there is no next.
* `Groups.Trail.nodup`: since a trail ends, no group comes up twice on it.
* `Groups.Trail.chainFrom_eq`: where there is a trail, the bounded walk gives all of it.
* `Groups.Trail.mem_iff`: what is on a trail is what can be reached from its start.
* `Groups.Trail.exists_of_replaced`: trails after one group has been replaced.
-/

namespace AclPlane

open Relation

namespace Groups

variable {gs gs' : Groups} {a b id head : Handle .group} {g g' : Group}
  {start : Option (Handle .group)} {l l' before rest visited : List (Handle .group)}

/-! ### Trails -/

/-- The group `b` is the next of the group `a`. -/
def Precedes (gs : Groups) (a b : Handle .group) : Prop :=
  ∃ g, gs.groups.get? a = some g ∧ g.next = some b

/-- The groups that are met by following `next` from a start until there is none. -/
inductive Trail (gs : Groups) : Option (Handle .group) → List (Handle .group) → Prop where
  | nil : Trail gs none []
  | cons {id : Handle .group} {g : Group} {rest : List (Handle .group)}
      (found : gs.groups.get? id = some g) (onward : Trail gs g.next rest) :
      Trail gs (some id) (id :: rest)

namespace Trail

/-- A start has one trail. -/
lemma unique (h : gs.Trail start l) (h' : gs.Trail start l') : l = l' := by
  induction h generalizing l' with
  | nil =>
      cases h'
      rfl
  | cons found onward ih =>
      cases h' with
      | cons found' onward' =>
          obtain rfl := Option.some.inj (found.symm.trans found')
          rw [ih onward']

/-- From a group on its way a trail goes on as the trail of that group. -/
lemma drop (h : gs.Trail start (before ++ id :: rest)) : gs.Trail (some id) (id :: rest) := by
  induction before generalizing start with
  | nil =>
      cases h with
      | cons found onward => exact .cons found onward
  | cons i before ih =>
      cases h with
      | cons found onward => exact ih onward

/-- No group comes up twice on a trail: from there on the trail would be longer than itself. -/
lemma nodup (h : gs.Trail start l) : l.Nodup := by
  induction h with
  | nil => exact List.nodup_nil
  | @cons id g rest found onward ih =>
      refine List.nodup_cons.mpr ⟨fun hmem => ?_, ih⟩
      obtain ⟨before, after, rfl⟩ := List.append_of_mem hmem
      have hsame := onward.drop.unique (.cons found onward)
      have hlength := congrArg List.length hsame
      simp only [List.length_cons, List.length_append] at hlength
      omega

lemma contains_of_mem (h : gs.Trail start l) (hid : id ∈ l) :
    gs.groups.contains id = true := by
  obtain ⟨before, rest, rfl⟩ := List.append_of_mem hid
  cases h.drop with
  | cons found onward => exact Arena.contains_iff.mpr ⟨_, found⟩

/-! ### The walk along a trail -/

/-- With as many steps as there are groups ahead, a walk comes to the end of the trail. -/
lemma walk_eq (h : gs.Trail start l) {steps : ℕ} (hsteps : l.length ≤ steps)
    (hnew : ∀ i ∈ l, i ∉ visited) : gs.walk steps visited start = visited.reverse ++ l := by
  induction h generalizing steps visited with
  | nil =>
      rw [List.append_nil]
      cases steps <;> rfl
  | @cons id g rest found onward ih =>
      cases steps with
      | zero => cases hsteps
      | succ steps =>
          have hid : visited.contains id = false := by
            simpa using hnew id List.mem_cons_self
          have hrest : ∀ i ∈ rest, i ∉ id :: visited := by
            intro i hi hmem
            rcases List.mem_cons.mp hmem with rfl | hvisited
            · exact (List.nodup_cons.mp (cons found onward).nodup).1 hi
            · exact hnew i (List.mem_cons_of_mem _ hi) hvisited
          simp only [walk, hid, found, Bool.false_eq_true, if_false]
          rw [ih (Nat.le_of_succ_le_succ hsteps) hrest, List.reverse_cons, List.append_assoc,
            List.singleton_append]

/-- Neither its bound nor what it has visited cuts the walk along a trail short. -/
theorem chainFrom_eq (h : gs.Trail (some head) l) (hc : gs.groups.Consistent) :
    gs.chainFrom head = l := by
  have hlength : l.length ≤ gs.groups.size :=
    Arena.length_le_size hc h.nodup fun i hi => h.contains_of_mem hi
  exact h.walk_eq (Nat.le_succ_of_le hlength) fun i _ => List.not_mem_nil

/-! ### Reachability along a trail -/

/-- What is on a trail is what can be reached from its start. -/
lemma mem_iff (h : gs.Trail (some head) l) : id ∈ l ↔ ReflTransGen gs.Precedes head id := by
  generalize hstart : some head = start at h
  induction h generalizing head with
  | nil => cases hstart
  | @cons i g rest found onward ih =>
      obtain rfl := Option.some.inj hstart
      rw [ReflTransGen.cases_head_iff, List.mem_cons]
      refine or_congr eq_comm ⟨fun hid => ?_, ?_⟩
      · obtain ⟨j, hj⟩ : ∃ j, g.next = some j := by
          cases hnext : g.next with
          | none =>
              rw [hnext] at onward
              cases onward
              cases hid
          | some j => exact ⟨j, rfl⟩
        exact ⟨j, ⟨g, found, hj⟩, (ih hj.symm).mp hid⟩
      · rintro ⟨j, ⟨g', found', hj⟩, hreach⟩
        obtain rfl := Option.some.inj (found.symm.trans found')
        exact (ih hj.symm).mpr hreach

/-- From a group that has a trail no way leads back to it. -/
lemma not_transGen (h : gs.Trail (some id) l) : ¬TransGen gs.Precedes id id := by
  intro hback
  obtain ⟨j, ⟨g, hg, hj⟩, hreach⟩ := TransGen.head'_iff.mp hback
  cases h with
  | cons found onward =>
      obtain rfl := Option.some.inj (found.symm.trans hg)
      have hmem := (mem_iff (hj ▸ onward)).mpr hreach
      exact (List.nodup_cons.mp (cons found onward).nodup).1 hmem

/-! ### Trails after a change -/

/-- A trail stays one while its groups keep their next. -/
lemma congr (h : gs.Trail start l)
    (hsame : ∀ i ∈ l, gs'.groups.get? i = gs.groups.get? i) : gs'.Trail start l := by
  induction h with
  | nil => exact .nil
  | cons found onward ih =>
      exact .cons ((hsame _ List.mem_cons_self).trans found)
        (ih fun i hi => hsame i (List.mem_cons_of_mem _ hi))

/-- A trail goes another way from a group on which the others do not depend. -/
lemma redirect (h : gs.Trail start (before ++ id :: rest))
    (hsame : ∀ i ∈ before, gs'.groups.get? i = gs.groups.get? i) (hl : gs'.Trail (some id) l) :
    gs'.Trail start (before ++ l) := by
  induction before generalizing start with
  | nil =>
      cases h
      exact hl
  | cons i before ih =>
      cases h with
      | cons found onward =>
          exact .cons ((hsame _ List.mem_cons_self).trans found)
            (ih onward fun j hj => hsame j (List.mem_cons_of_mem _ hj))

/-- If one group is replaced that has a trail afterwards, so has every other. -/
lemma exists_of_replaced (h : gs.Trail start l)
    (hput : ∀ i, gs'.groups.get? i = if i = id then some g' else gs.groups.get? i)
    (hid : ∃ l, gs'.Trail (some id) l) : ∃ l, gs'.Trail start l := by
  by_cases hmem : id ∈ l
  · obtain ⟨before, rest, rfl⟩ := List.append_of_mem hmem
    obtain ⟨l', hl'⟩ := hid
    refine ⟨_, h.redirect (fun i hi => ?_) hl'⟩
    have hne : i ≠ id := fun heq =>
      (List.nodup_append.mp h.nodup).2.2 i hi id List.mem_cons_self heq
    rw [hput, if_neg hne]
  · refine ⟨l, h.congr fun i hi => ?_⟩
    have hne : i ≠ id := fun heq => hmem (heq ▸ hi)
    rw [hput, if_neg hne]

/-- A group that is replaced by one with the same next keeps its trail. -/
lemma of_same_next (h : gs.Trail (some id) l) (hg : gs.groups.get? id = some g)
    (hput : ∀ i, gs'.groups.get? i = if i = id then some g' else gs.groups.get? i)
    (hnext : g'.next = g.next) : gs'.Trail (some id) l := by
  have hnodup := h.nodup
  cases h with
  | @cons _ g₀ rest found onward =>
      obtain rfl := Option.some.inj (found.symm.trans hg)
      refine .cons (by rw [hput, if_pos rfl]) (hnext ▸ onward.congr fun i hi => ?_)
      have hne : i ≠ id := fun heq => (List.nodup_cons.mp hnodup).1 (heq ▸ hi)
      rw [hput, if_neg hne]

end Trail

end Groups

end AclPlane
