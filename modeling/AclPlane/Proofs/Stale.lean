import AclPlane.Proofs.Arena.Generations
import AclPlane.Proofs.Names
import AclPlane.Proofs.Transition.Shape

/-!
Handles of destroyed objects.

A slot is freed only by a step that destroys its object, and a handle does not resolve again before
its slot has been freed 2 ^ 32 - 1 times.

* `Controller.freeCount`: how often the slot of an object is freed in a run.
* `Controller.freed_step`, `Controller.freed_run`: every time counts as one more generation.
* `Controller.not_isLive_run`: so a handle that is out of use stays out of use.
* `Controller.stale_rejected`: no creation gives it out again, and no step accepts it.
-/

namespace AclPlane

/-! ### Slots that are freed -/

/-- The slot of an object among those of its kind. -/
def ObjectRef.slot (r : ObjectRef) : ObjectKind × UInt32 := (r.kind, r.handle.index)

namespace Operation

/-- The object that an operation destroys. -/
def destroys : Operation → Option ObjectRef
  | keyType (.destroy id) => some id.ref
  | region (.destroy id) => some id.ref
  | acl (.destroy id) => some id.ref
  | group (.destroy id) => some id.ref
  | pool (.destroy entry) => some entry.ref
  | _ => none

lemma destroys_destroy {kind : ObjectKind} (id : Handle kind) :
    (destroy id).destroys = some id.ref := by
  cases kind <;> rfl

lemma destroys_eq_none {op : Operation} {kind : ObjectKind} (h : op.creates = some kind) :
    op.destroys = none := by
  unfold destroys
  split <;> first | rfl | cases h

end Operation

/-- The object that a step destroys. -/
def Step.destroys (st : Step) : Option ObjectRef := st.operation?.bind Operation.destroys

lemma Step.destroys_eq_none {st : Step} {kind : ObjectKind} (h : st.creates = some kind) :
    st.destroys = none := by
  obtain ⟨op, hop, hcreates⟩ := Option.bind_eq_some_iff.mp h
  rw [destroys, hop]
  exact Operation.destroys_eq_none hcreates

namespace Controller

variable {s : Controller} {kind : ObjectKind} {h : Handle kind} {n : ℕ}

/-- Whether a step frees the slot of an object: it succeeds and destroys what is in the slot. -/
def frees (s : Controller) (r : ObjectRef) (st : Step) : Bool :=
  (s.step st).result.isOk && st.destroys.map ObjectRef.slot == some r.slot

/-- How often the slot of an object is freed in a run. -/
def freeCount (s : Controller) (r : ObjectRef) : List Step → ℕ
  | [] => 0
  | st :: steps =>
    (if s.frees r st then 1 else 0) + (s.step st).controller.freeCount r steps

lemma freeCount_append (s : Controller) (r : ObjectRef) (steps more : List Step) :
    s.freeCount r (steps ++ more) = s.freeCount r steps + (s.run steps).freeCount r more := by
  induction steps generalizing s with
  | nil => exact (Nat.zero_add _).symm
  | cons st steps ih =>
      simp only [List.cons_append, freeCount, ih, Nat.add_assoc]
      rfl

lemma freeCount_concat (s : Controller) (r : ObjectRef) (steps : List Step) (st : Step) :
    s.freeCount r (steps ++ [st]) =
      s.freeCount r steps + if (s.run steps).frees r st then 1 else 0 :=
  s.freeCount_append r steps [st]

lemma frees_of_destroy {st : Step} {r : OpResult} (hr : (s.step st).result = .ok r)
    {id : Handle kind} (hop : st.operation? = some (Operation.destroy id))
    (hindex : id.index = h.index) : s.frees h.ref st = true := by
  have hslot : id.ref.slot = h.ref.slot := Prod.ext rfl hindex
  have hdestroys : st.destroys = some id.ref := by
    rw [Step.destroys, hop]
    exact Operation.destroys_destroy id
  rw [frees, hr, hdestroys, Option.map_some, hslot]
  exact beq_self_eq_true _

/-- A step gives the slot of a handle the next generation at most when it frees the slot. -/
lemma freed_step (hs : s.core.Steady) (hf : (s.core.shape kind).Freed h n) (st : Step) :
    ∃ m, n ≤ m ∧ m ≤ n + (if s.frees h.ref st then 1 else 0) ∧
      ((s.step st).controller.core.shape kind).Freed h m := by
  have hsame : (s.step st).controller.core.shape kind = s.core.shape kind →
      ∃ m, n ≤ m ∧ m ≤ n + (if s.frees h.ref st then 1 else 0) ∧
        ((s.step st).controller.core.shape kind).Freed h m := by
    intro heq
    rw [heq]
    exact ⟨n, le_rfl, Nat.le_add_right _ _, hf⟩
  cases s.follows_step st with
  | failed result unchanged =>
      refine hsame ?_
      rw [unchanged, Core.shape_stats]
  | done result transition delivered =>
      cases transition.reshaped with
      | same shape_eq => exact hsame (shape_eq kind)
      | inserted k id created inserted others =>
          by_cases hk : kind = k
          · subst hk
            exact ⟨n, le_rfl, Nat.le_add_right _ _, hf.insertWith? (hs.shape kind) inserted⟩
          · exact hsame (others kind hk)
      | removed k id asked removed others =>
          by_cases hk : kind = k
          · subst hk
            refine ⟨_, Nat.le_add_right _ _, Nat.add_le_add_left ?_ n, hf.remove? removed⟩
            by_cases hindex : id.index = h.index
            · rw [if_pos hindex, if_pos (frees_of_destroy result asked hindex)]
            · rw [if_neg hindex]
              exact Nat.zero_le _
          · exact hsame (others kind hk)

/-! ### Runs -/

variable {config : Config} {given : Option (List KeyBlock)} {sink : Sink}

/-- After further steps, the slot has been freed at least as often as before, and no more often than
they free it. -/
lemma freed_run (hs : Controller.start config given sink = .ok s) (steps : List Step)
    (hf : ((s.run steps).core.shape kind).Freed h n) (more : List Step) :
    ∃ m, n ≤ m ∧ m ≤ n + (s.run steps).freeCount h.ref more ∧
      ((s.run (steps ++ more)).core.shape kind).Freed h m := by
  induction more using List.reverseRecOn with
  | nil =>
      rw [List.append_nil]
      exact ⟨n, le_rfl, le_rfl, hf⟩
  | append_singleton more st ih =>
      obtain ⟨m, hnm, hm, hfreed⟩ := ih
      obtain ⟨k, hmk, hk, hnext⟩ := freed_step (steady_run hs (steps ++ more)) hfreed st
      have hrun : (s.run steps).run more = s.run (steps ++ more) := List.foldl_append.symm
      rw [freeCount_concat, hrun, ← List.append_assoc, run_concat]
      exact ⟨k, hnm.trans hmk, by omega, hnext⟩

/-- A handle that has been in use, and is so no longer, is not in use before its slot has been freed
2 ^ 32 - 1 times. -/
theorem not_isLive_run (hs : Controller.start config given sink = .ok s)
    (steps gone more : List Step) (hlive : (s.run steps).core.isLive h = true)
    (hgone : (s.run (steps ++ gone)).core.isLive h = false)
    (hfrees : (s.run steps).freeCount h.ref (gone ++ more) < 2 ^ 32 - 1) :
    (s.run (steps ++ gone ++ more)).core.isLive h = false := by
  rw [Core.isLive_eq_contains] at hlive hgone ⊢
  have hgen := ((steady_run hs steps).shape kind).generation_ne_zero hlive
  have hrun : (s.run steps).run gone = s.run (steps ++ gone) := List.foldl_append.symm
  rw [freeCount_append, hrun] at hfrees
  obtain ⟨m, -, hm, hfreed⟩ := freed_run hs steps (Arena.freed_zero_iff.mpr hlive) gone
  -- the slot has been freed, or else the handle would still resolve
  have hpos : m ≠ 0 := by
    rintro rfl
    rw [Arena.freed_zero_iff.mp hfreed] at hgone
    cases hgone
  obtain ⟨k, hmk, hk, hnow⟩ := freed_run hs (steps ++ gone) hfreed more
  rw [Bool.eq_false_iff, ne_eq, hnow.contains_iff hgen (by omega)]
  omega

/-- Take a handle of any kind that is in use at some point of a run and is so no longer at a later
one.  Until its slot has been freed 2 ^ 32 - 1 times in between and since, it does not resolve, no
step that creates an object of its kind has it as the result, and every step that names it ends in
an error. -/
theorem stale_rejected (hs : Controller.start config given sink = .ok s)
    (steps gone more : List Step) (hlive : (s.run steps).core.isLive h = true)
    (hgone : (s.run (steps ++ gone)).core.isLive h = false)
    (hfrees : (s.run steps).freeCount h.ref (gone ++ more) < 2 ^ 32 - 1) :
    let now := s.run (steps ++ gone ++ more)
    now.core.isLive h = false ∧
    (∀ st : Step, st.creates = some kind → (now.step st).result ≠ .ok (.created h.raw)) ∧
    (∀ st : Step, h.ref ∈ st.names → ∃ e, (now.step st).result = .error e) := by
  intro now
  have hnow : now.core.isLive h = false := not_isLive_run hs steps gone more hlive hgone hfrees
  have hsteady : now.core.Steady := steady_run hs _
  have hlinked : now.core.Linked := linked_run hs _
  refine ⟨hnow, fun st hst hr => ?_, fun st hst => ?_⟩
  · -- what is created is live afterwards, and the handle is still out of use then
    obtain ⟨id, hid, hnext⟩ := isLive_of_creates hsteady hlinked hst hr
    have hraw : h.raw = id.raw := OpResult.created.inj hid
    obtain rfl := Handle.raw_inj.mp hraw
    have hfrees' : (s.run steps).freeCount h.ref (gone ++ (more ++ [st])) < 2 ^ 32 - 1 := by
      have hnone : ∀ s' : Controller, s'.frees h.ref st = false := by
        intro s'
        rw [frees, Step.destroys_eq_none hst]
        exact Bool.and_false _
      rw [← List.append_assoc, freeCount_concat, hnone]
      exact hfrees
    have hgone' := not_isLive_run hs steps gone (more ++ [st]) hlive hgone hfrees'
    rw [← List.append_assoc, run_concat, hnext] at hgone'
    cases hgone'
  · cases hr : (now.step st).result with
    | error e => exact ⟨e, rfl⟩
    | ok r =>
        have hnamed : now.core.isLive h = true := isLive_of_names hlinked hr h.ref hst
        rw [hnow] at hnamed
        cases hnamed

/-- Makes an ACL and an empty group. -/
def issuing : List Step :=
  [.operation (.keyType (.create [.dstIp] none)),
   .operation (.region (.create ⟨0, 1⟩ 4)),
   .operation (.acl (.create .agnostic .ingress ⟨false, false, false, false⟩ [⟨0, 1⟩])),
   .operation (.group (.create .ingress))]

/-- Makes another ACL and lists it in the group. -/
def reissuing : List Step :=
  [.operation (.acl (.create .agnostic .ingress ⟨false, false, false, false⟩ [⟨0, 1⟩])),
   .operation (.group (.set ⟨0, 1⟩ [⟨0, 2⟩]))]

/-- The second ACL takes the slot of the first, which has been destroyed, and the handle of the
first gets nothing listed in the group. -/
theorem stale_of_reissuing :
    let gone := [.operation (.acl (.destroy ⟨0, 1⟩))]
    let now := fresh.run (issuing ++ gone ++ reissuing)
    now.core.isLive (⟨0, 2⟩ : Handle .acl) = true ∧
    now.core.isLive (⟨0, 1⟩ : Handle .acl) = false ∧
    ∃ e, (now.step (.operation (.group (.add ⟨0, 1⟩ ⟨0, 1⟩)))).result = .error e := by
  have hstale := stale_rejected start_fresh issuing [.operation (.acl (.destroy ⟨0, 1⟩))] reissuing
    (h := (⟨0, 1⟩ : Handle .acl)) (by decide +kernel) (by decide +kernel) (by decide +kernel)
  obtain ⟨hdead, -, herror⟩ := hstale
  exact ⟨by decide +kernel, hdead, herror _ (by decide)⟩

end Controller

end AclPlane
