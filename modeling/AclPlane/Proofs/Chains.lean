import AclPlane.Proofs.Chains.Trails
import AclPlane.Proofs.Links

/-!
Chains of groups are disjoint simple paths, and what is bound is the head of one.

* `Groups.Chained`: every group has a trail to the end of its chain and at most one predecessor, of
  its own direction.  The lemmas in its namespace say which changes of the groups keep this.
* `Core.Chained.transition`: every transition keeps the groups chained and the bound groups heads.
* `Controller.chains_simple`: so it is after every run.
-/

namespace AclPlane

open Relation

namespace Groups

variable {gs gs' : Groups} {a b id : Handle .group} {g g' : Group}

/-! ### Chained groups -/

/-- A group without a parent is preceded by none. -/
lemma parentOf?_eq_none_iff_not_precedes (hc : gs.groups.Consistent) :
    gs.parentOf? id = none ↔ ∀ a, ¬gs.Precedes a id := by
  rw [parentOf?_eq_none_iff hc]
  constructor
  · rintro hall a ⟨g, hg, hnext⟩
    exact hall a g hg hnext
  · exact fun hno a g hg hnext => hno a ⟨g, hg, hnext⟩

/-- Every group has a trail, and no two groups precede the same one; a group has the direction of
the one that precedes it. -/
structure Chained (gs : Groups) : Prop where
  consistent : gs.groups.Consistent
  trail : ∀ id, gs.groups.contains id = true → ∃ l, gs.Trail (some id) l
  unique : ∀ {a b id}, gs.Precedes a id → gs.Precedes b id → a = b
  direction : ∀ {a b g g'}, gs.groups.get? a = some g → g.next = some b →
    gs.groups.get? b = some g' → g'.direction = g.direction

namespace Chained

/-- What follows a group is live. -/
lemma contains_next (h : gs.Chained) (hab : gs.Precedes a b) : gs.groups.contains b = true := by
  obtain ⟨g, hg, hnext⟩ := hab
  obtain ⟨l, hl⟩ := h.trail a (Arena.contains_iff.mpr ⟨g, hg⟩)
  cases hl with
  | cons found onward =>
      obtain rfl := Option.some.inj (found.symm.trans hg)
      rw [hnext] at onward
      cases onward with
      | cons found' onward' => exact Arena.contains_iff.mpr ⟨_, found'⟩

/-- The groups of a chain have one direction. -/
lemma direction_of_reflTransGen (h : gs.Chained) (hab : ReflTransGen gs.Precedes a b)
    (hg : gs.groups.get? a = some g) (hg' : gs.groups.get? b = some g') :
    g'.direction = g.direction := by
  induction hab generalizing g' with
  | refl => rw [Option.some.inj (hg.symm.trans hg')]
  | tail hreach hstep ih =>
      obtain ⟨g₁, hg₁, hnext⟩ := hstep
      rw [h.direction hg₁ hnext hg', ih hg₁]

/-- Two heads whose chains meet are the same. -/
lemma eq_of_common (h : gs.Chained) (ha : ∀ i, ¬gs.Precedes i a) (hb : ∀ i, ¬gs.Precedes i b)
    (hai : ReflTransGen gs.Precedes a id) (hbi : ReflTransGen gs.Precedes b id) : a = b := by
  induction hai with
  | refl =>
      rcases hbi.cases_tail with heq | ⟨i, -, hstep⟩
      · exact heq
      · exact absurd hstep (ha i)
  | tail hreach hstep ih =>
      rcases hbi.cases_tail with heq | ⟨i, hbi', hstep'⟩
      · exact absurd (heq ▸ hstep) (hb _)
      · exact ih (h.unique hstep hstep' ▸ hbi')

/-! ### Changes of the groups -/

/-- The groups stay chained when one is replaced by another of its direction that still has a trail,
and whose next is its own. -/
lemma replaced (h : gs.Chained) (hg : gs.groups.get? id = some g) (hc : gs'.groups.Consistent)
    (hput : ∀ i, gs'.groups.get? i = if i = id then some g' else gs.groups.get? i)
    (hdirection : g'.direction = g.direction) (htrail : ∃ l, gs'.Trail (some id) l)
    (hown : ∀ i b, g'.next = some b → gs.Precedes i b → i = id)
    (hnext : ∀ b g₁, g'.next = some b → gs.groups.get? b = some g₁ → g₁.direction = g.direction) :
    gs'.Chained := by
  have hcases : ∀ {i b}, gs'.Precedes i b →
      (i = id ∧ g'.next = some b) ∨ (i ≠ id ∧ gs.Precedes i b) := by
    rintro i b ⟨g₁, hg₁, hb⟩
    rw [hput] at hg₁
    split at hg₁
    · next heq =>
        cases hg₁
        exact .inl ⟨heq, hb⟩
    · next hne => exact .inr ⟨hne, g₁, hg₁, hb⟩
  refine ⟨hc, fun i hi => ?_, fun {i j b} hib hjb => ?_, fun {i b g₁ g₂} hg₁ hb hg₂ => ?_⟩
  · rw [Arena.contains, hput] at hi
    by_cases heq : i = id
    · exact heq ▸ htrail
    · rw [if_neg heq] at hi
      obtain ⟨l, hl⟩ := h.trail i hi
      exact hl.exists_of_replaced hput htrail
  · rcases hcases hib with ⟨rfl, hi⟩ | ⟨hi, hib⟩ <;> rcases hcases hjb with ⟨rfl, hj⟩ | ⟨hj, hjb⟩
    · rfl
    · exact (hown j b hi hjb).symm
    · exact hown i b hj hib
    · exact h.unique hib hjb
  · -- the direction of the replaced group is the old one, at either end of a link
    have hg₂' : ∃ g₃, gs.groups.get? b = some g₃ ∧ g₂.direction = g₃.direction := by
      rw [hput] at hg₂
      split at hg₂
      · next heq =>
          cases hg₂
          exact ⟨g, heq ▸ hg, hdirection⟩
      · exact ⟨g₂, hg₂, rfl⟩
    obtain ⟨g₃, hg₃, heq₃⟩ := hg₂'
    rw [heq₃]
    rw [hput] at hg₁
    split at hg₁
    · cases hg₁
      rw [hdirection]
      exact hnext b g₃ hb hg₃
    · exact h.direction hg₁ hb hg₃

/-- A group may be replaced by one of the same direction with the same next. -/
lemma set (h : gs.Chained) (hg : gs.groups.get? id = some g)
    (hdirection : g'.direction = g.direction) (hnext : g'.next = g.next) :
    { gs with groups := gs.groups.set id g' }.Chained := by
  obtain ⟨l, hl⟩ := h.trail id (Arena.contains_iff.mpr ⟨g, hg⟩)
  refine h.replaced hg (h.consistent.set hg) (fun i => Arena.get?_set hg) hdirection
    ⟨l, hl.of_same_next hg (fun i => Arena.get?_set hg) hnext⟩ (fun i b hb hib => ?_)
    fun b g₁ hb hg₁ => ?_
  · exact h.unique hib ⟨g, hg, hnext ▸ hb⟩
  · exact h.direction hg (hnext ▸ hb) hg₁

/-- A chain may be cut behind a group. -/
lemma unchain (h : gs.Chained) (hg : gs.groups.get? id = some g) :
    { gs with groups := gs.groups.set id { g with next := none } }.Chained := by
  refine h.replaced hg (h.consistent.set hg) (fun i => Arena.get?_set hg) rfl ?_
    (fun i b hb => by cases hb) fun b g₁ hb => by cases hb
  exact ⟨[id], .cons (by rw [Arena.get?_set hg, if_pos rfl]) .nil⟩

/-- The end of a chain may be followed by the head of another one of the same direction. -/
lemma chain (h : gs.Chained) {child : Handle .group} (hg : gs.groups.get? id = some g)
    (hchild : gs.groups.get? child = some g') (hhead : ∀ i, ¬gs.Precedes i child)
    (hdirection : g.direction = g'.direction) (hnot : id ∉ gs.chainFrom child) :
    { gs with groups := gs.groups.set id { g with next := some child } }.Chained := by
  obtain ⟨l, hl⟩ := h.trail child (Arena.contains_iff.mpr ⟨g', hchild⟩)
  rw [hl.chainFrom_eq h.consistent] at hnot
  refine h.replaced hg (h.consistent.set hg) (fun i => Arena.get?_set hg) rfl ⟨id :: l, ?_⟩
    (fun i b hb hib => ?_) fun b g₁ hb hg₁ => ?_
  · refine .cons (by rw [Arena.get?_set hg, if_pos rfl]) (hl.congr fun i hi => ?_)
    have hne : i ≠ id := fun heq => hnot (heq ▸ hi)
    rw [Arena.get?_set hg, if_neg hne]
  · cases hb
    exact absurd hib (hhead i)
  · cases hb
    rw [hdirection, Option.some.inj (hchild.symm.trans hg₁)]

/-- A new group has no next, and nothing precedes it. -/
lemma insert (h : gs.Chained) {groups : Arena .group Group} {direction : Direction}
    {priority : ℕ} {acls : List (Handle .acl)}
    (hi : gs.groups.insertWith? (fun _ => ⟨direction, acls, priority, none⟩) = some (id, groups)) :
    { gs with groups := groups }.Chained := by
  have hget := Arena.get?_insertWith? h.consistent hi
  have hfresh := Arena.get?_of_nextHandle? h.consistent (Arena.nextHandle?_of_insertWith? hi)
  have hne : ∀ {i}, gs.groups.contains i = true → i ≠ id := by
    rintro i hlive rfl
    rw [Arena.contains, hfresh] at hlive
    cases hlive
  have hold : ∀ {i b}, { gs with groups := groups }.Precedes i b → gs.Precedes i b := by
    rintro i b ⟨g₁, hg₁, hb⟩
    rw [hget] at hg₁
    split at hg₁
    · cases hg₁
      cases hb
    · exact ⟨g₁, hg₁, hb⟩
  refine ⟨h.consistent.insertWith? hi, fun i hlive => ?_,
    fun hib hjb => h.unique (hold hib) (hold hjb), fun {i b g₁ g₂} hg₁ hb hg₂ => ?_⟩
  · by_cases heq : i = id
    · exact ⟨[i], .cons ((hget i).trans (if_pos heq)) .nil⟩
    · rw [Arena.contains, hget, if_neg heq] at hlive
      obtain ⟨l, hl⟩ := h.trail i hlive
      refine ⟨l, hl.congr fun j hj => ?_⟩
      rw [hget, if_neg (hne (hl.contains_of_mem hj))]
  · have hprecedes : gs.Precedes i b := hold ⟨g₁, hg₁, hb⟩
    obtain ⟨g₃, hg₃, hb₃⟩ := hprecedes
    rw [hget, if_neg (hne (Arena.contains_iff.mpr ⟨g₃, hg₃⟩)), hg₃] at hg₁
    rw [hget, if_neg (hne (h.contains_next ⟨g₃, hg₃, hb₃⟩))] at hg₂
    exact h.direction (Option.some.inj hg₁ ▸ hg₃) hb hg₂

/-- The head of a chain may go. -/
lemma remove (h : gs.Chained) {groups : Arena .group Group}
    (hr : gs.groups.remove? id = some (g, groups)) (hhead : ∀ i, ¬gs.Precedes i id) :
    { gs with groups := groups }.Chained := by
  have hget := Arena.get?_remove? hr
  have hlive : ∀ {i g₁}, groups.get? i = some g₁ → i ≠ id ∧ gs.groups.get? i = some g₁ := by
    intro i g₁ hg₁
    rw [hget] at hg₁
    split at hg₁
    · cases hg₁
    · next hne => exact ⟨hne, hg₁⟩
  have hold : ∀ {i b}, { gs with groups := groups }.Precedes i b → gs.Precedes i b := by
    rintro i b ⟨g₁, hg₁, hb⟩
    exact ⟨g₁, (hlive hg₁).2, hb⟩
  refine ⟨h.consistent.remove? hr, fun i hi => ?_, fun hib hjb => h.unique (hold hib) (hold hjb),
    fun hg₁ hb hg₂ => h.direction (hlive hg₁).2 hb (hlive hg₂).2⟩
  obtain ⟨g₁, hg₁⟩ := Arena.contains_iff.mp hi
  obtain ⟨hne, hg₁⟩ := hlive hg₁
  obtain ⟨l, hl⟩ := h.trail i (Arena.contains_iff.mpr ⟨g₁, hg₁⟩)
  refine ⟨l, hl.congr fun j hj => ?_⟩
  -- only the trail from the removed group itself goes through it
  have hj' : j ≠ id := by
    rintro rfl
    rcases (hl.mem_iff.mp hj).cases_tail with heq | ⟨k, -, hstep⟩
    · exact hne heq.symm
    · exact hhead k hstep
  rw [hget, if_neg hj']

end Chained

end Groups

namespace Core

variable {c : Core} {id : Handle .group}

/-! ### Bound groups -/

/-- The groups of a model are chained, and those that are bound are heads of their chains. -/
structure Chained (c : Core) : Prop where
  groups : c.groups.Chained
  heads : ∀ id, c.bindings.isBound (.group id) = true → ∀ a, ¬c.groups.Precedes a id

lemma chained_new {config : Config} {catalog : Catalog} (h : Core.new config catalog = .ok c) :
    c.Chained := by
  rw [Core.new] at h
  split at h
  · cases h
  · cases h
    have hnone : ∀ i, (Groups.empty config).groups.get? i = none := fun _ => Arena.get?_empty _
    refine ⟨⟨Arena.consistent_empty _, fun i hi => ?_, ?_, ?_⟩, fun i hi => by cases hi⟩
    · rw [Arena.contains, hnone] at hi
      cases hi
    · rintro i j b ⟨g, hg, -⟩
      rw [hnone] at hg
      cases hg
    · intro i b g g' hg
      rw [hnone] at hg
      cases hg

/-- A group may be replaced by one with the same next. -/
lemma Chained.withGroup (h : c.Chained) {g g' : Group} (hg : c.groups.groups.get? id = some g)
    (hdirection : g'.direction = g.direction) (hnext : g'.next = g.next) :
    (c.withGroup id g').Chained := by
  refine ⟨h.groups.set hg hdirection hnext, fun i hi a ⟨g₁, hg₁, ha⟩ => ?_⟩
  rw [show (c.withGroup id g').groups.groups.get? a = _ from Arena.get?_set hg] at hg₁
  split at hg₁
  · next heq =>
      cases hg₁
      exact h.heads i hi a ⟨g, heq ▸ hg, hnext ▸ ha⟩
  · exact h.heads i hi a ⟨g₁, hg₁, ha⟩

/-- A key may get entries whose groups are heads. -/
lemma Chained.rebound (h : c.Chained) {key : BindingKey} {list : List BoundEntry} {pools : Pools}
    {stats : Stats} (hlist : ∀ e ∈ list, ∀ id, e.target = .group id →
      ∀ a, ¬c.groups.Precedes a id) : (c.rebound key list pools stats).Chained := by
  refine ⟨h.groups, fun id hid => ?_⟩
  obtain ⟨k, e, he, ht⟩ := Bindings.isBound_iff.mp hid
  rw [show (c.rebound key list pools stats).bindings.entriesAt k = _ from
    Bindings.entriesAt_commit ..] at he
  split at he
  · exact hlist e he id ht
  · exact h.heads id (Bindings.isBound_iff.mpr ⟨k, e, he, ht⟩)

/-- What can be bound is the head of its chain. -/
lemma Chained.not_precedes_of_targetPriority (h : c.Chained) {d : Direction} {priority : ℕ}
    (hp : c.targetPriority d (.group id) = .ok priority) : ∀ a, ¬c.groups.Precedes a id := by
  obtain ⟨_, -, -, hfirst, -⟩ := targetPriority_group_eq_ok.mp hp
  exact (Groups.parentOf?_eq_none_iff_not_precedes h.groups.consistent).mp hfirst

/-! ### Every transition -/

theorem Chained.transition {op : Option Operation} {done : Commit OpResult} (h : c.Chained)
    (ht : Transition c op done) : done.core.Chained := by
  have hbound : ∀ {key e id}, e ∈ c.bindings.entriesAt key → e.target = .group id →
      ∀ a, ¬c.groups.Precedes a id := fun he htarget =>
    h.heads _ (Bindings.isBound_iff.mpr ⟨_, _, he, htarget⟩)
  cases ht with
  | createGroup planned inserted =>
      refine ⟨h.groups.insert inserted, fun id hid a ⟨g, hg, ha⟩ => ?_⟩
      rw [Arena.get?_insertWith? h.groups.consistent inserted] at hg
      split at hg
      · cases hg
        cases ha
      · exact h.heads id hid a ⟨g, hg, ha⟩
  | setGroupAcls found checked => exact h.withGroup found rfl rfl
  | addGroupAcl found planned => exact h.withGroup found rfl rfl
  | deleteGroupAcl found planned => exact h.withGroup found rfl rfl
  | setGroupPriority found allowed => exact h.withGroup found rfl rfl
  | @chainGroups parent child p found planned =>
      obtain ⟨p', g, hp', hg, -, -, hfirst, hdirection, hunbound, hnot⟩ :=
        Groups.planChain_eq_ok.mp planned
      obtain rfl := Option.some.inj (hp'.symm.trans found)
      have hhead := (Groups.parentOf?_eq_none_iff_not_precedes h.groups.consistent).mp hfirst
      refine ⟨h.groups.chain found hg hhead hdirection hnot, fun id hid a ⟨g₁, hg₁, ha⟩ => ?_⟩
      -- the one group that is newly preceded is not bound
      rw [show (c.withGroup parent _).groups.groups.get? a = _ from Arena.get?_set found] at hg₁
      split at hg₁
      · cases hg₁
        cases ha
        exact Bool.false_ne_true (hunbound.symm.trans hid)
      · exact h.heads id hid a ⟨g₁, hg₁, ha⟩
  | @unchainGroup parent p found followed =>
      refine ⟨h.groups.unchain found, fun id hid a ⟨g₁, hg₁, ha⟩ => ?_⟩
      rw [show (c.withGroup parent _).groups.groups.get? a = _ from Arena.get?_set found] at hg₁
      split at hg₁
      · cases hg₁
        cases ha
      · exact h.heads id hid a ⟨g₁, hg₁, ha⟩
  | destroyGroup unbound unfollowing removed =>
      have hhead := (Groups.parentOf?_eq_none_iff_not_precedes h.groups.consistent).mp unfollowing
      refine ⟨h.groups.remove removed hhead, fun id hid a ⟨g₁, hg₁, ha⟩ => ?_⟩
      rw [Arena.get?_remove? removed] at hg₁
      split at hg₁
      · cases hg₁
      · exact h.heads id hid a ⟨g₁, hg₁, ha⟩
  | bind checked bindable counted =>
      refine h.rebound fun e he id hid => ?_
      obtain rfl := List.mem_singleton.mp he
      obtain rfl : _ = BindTarget.group id := hid
      exact h.not_precedes_of_targetPriority bindable
  | unbind => exact h.rebound fun e he => absurd he List.not_mem_nil
  | bindAdd checked bindable planned counted =>
      obtain ⟨-, rfl⟩ := Bindings.planAdd_eq_some.mp planned
      refine h.rebound fun e he id hid => ?_
      rcases Bindings.mem_place.mp he with rfl | he
      · cases hid
        exact h.not_precedes_of_targetPriority bindable
      · exact hbound he hid
  | bindDelete checked planned counted =>
      obtain ⟨-, rfl⟩ := Bindings.planDelete_eq_ok.mp planned
      exact h.rebound fun e he id hid => hbound (List.mem_filter.mp he).1 hid
  | _ => exact ⟨h.groups, h.heads⟩

end Core

namespace Controller

variable {s : Controller} {config : Config} {given : Option (List KeyBlock)} {sink : Sink}

/-- Every run keeps groups chained and bound groups heads. -/
theorem chained_run (hs : Controller.start config given sink = .ok s) (steps : List Step) :
    (s.run steps).core.Chained :=
  run_invariant hs Core.chained_new (fun _ h => ⟨h.groups, h.heads⟩) (fun h => h.transition) steps

/-! ### Simple chains -/

/-- After every run no group comes up again behind itself, and no group is the next of two.  The
groups of a chain have one direction, chains from different heads do not meet, and a bound group is
the next of none.  From a live group the bounded walk gives the whole way to the end of its chain,
each group once, and so exactly what can be reached. -/
theorem chains_simple (hs : Controller.start config given sink = .ok s) (steps : List Step) :
    let c := (s.run steps).core
    (∀ a, ¬TransGen c.groups.Precedes a a) ∧
    (∀ a b id, c.groups.Precedes a id → c.groups.Precedes b id → a = b) ∧
    (∀ a b g g', ReflTransGen c.groups.Precedes a b → c.groups.groups.get? a = some g →
      c.groups.groups.get? b = some g' → g'.direction = g.direction) ∧
    (∀ a b id, (∀ i, ¬c.groups.Precedes i a) → (∀ i, ¬c.groups.Precedes i b) →
      ReflTransGen c.groups.Precedes a id → ReflTransGen c.groups.Precedes b id → a = b) ∧
    (∀ key, ∀ e ∈ c.bindings.entriesAt key, ∀ id, e.target = .group id →
      ∀ a, ¬c.groups.Precedes a id) ∧
    (∀ id, c.groups.groups.contains id = true →
      c.groups.Trail (some id) (c.groups.chainFrom id) ∧ (c.groups.chainFrom id).Nodup ∧
        ∀ i, i ∈ c.groups.chainFrom id ↔ ReflTransGen c.groups.Precedes id i) := by
  intro c
  have h : c.Chained := chained_run hs steps
  refine ⟨fun a hback => ?_, fun a b id => h.groups.unique, fun a b g g' =>
    h.groups.direction_of_reflTransGen, fun a b id => h.groups.eq_of_common, fun key e he id ht =>
      h.heads id (Bindings.isBound_iff.mpr ⟨key, e, he, ht⟩), fun id hid => ?_⟩
  · obtain ⟨b, ⟨g, hg, -⟩, -⟩ := TransGen.head'_iff.mp hback
    obtain ⟨l, hl⟩ := h.groups.trail a (Arena.contains_iff.mpr ⟨g, hg⟩)
    exact hl.not_transGen hback
  · obtain ⟨l, hl⟩ := h.groups.trail id hid
    rw [hl.chainFrom_eq h.groups.consistent]
    exact ⟨hl, hl.nodup, fun i => hl.mem_iff⟩

/-- The first of two groups that have been chained is followed by the second and nothing else, the
second follows no other, and no way leads back. -/
theorem chain_of_two_groups :
    let c := (fresh.run (session ++ chaining)).core
    c.groups.chainFrom ⟨0, 1⟩ = [⟨0, 1⟩, ⟨1, 1⟩] ∧ c.groups.Precedes ⟨0, 1⟩ ⟨1, 1⟩ ∧
      ¬TransGen c.groups.Precedes ⟨1, 1⟩ ⟨0, 1⟩ ∧
        ∀ a, c.groups.Precedes a ⟨1, 1⟩ → a = ⟨0, 1⟩ := by
  intro c
  obtain ⟨hback, hunique, -⟩ := chains_simple start_fresh (session ++ chaining)
  have hnext : c.groups.Precedes ⟨0, 1⟩ ⟨1, 1⟩ := by
    refine ⟨⟨.ingress, [⟨0, 1⟩], 8, some ⟨1, 1⟩⟩, ?_, rfl⟩
    decide +kernel
  exact ⟨by decide +kernel, hnext, fun h => hback _ (.head hnext h),
    fun a ha => hunique _ _ _ ha hnext⟩

end Controller

end AclPlane
