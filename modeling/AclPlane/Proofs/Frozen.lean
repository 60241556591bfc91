import AclPlane.Proofs.Marks.Determined
import AclPlane.Proofs.Pools.Revisions

/-!
Comparators and custom-byte sets are frozen while rules match on them.

What guards an entry is its count, and the count is kept elsewhere: rules that refer to the entry
are moved, overwritten by others and dropped with their region.  As long as the counts are exact, an
entry that some stored rule refers to has a count above zero, and none of this changes what it
holds.

* `Core.Operand`, `Core.operand?`: what a match compares with, once the handle in it is looked up.
* `Controller.ranges_kept`, `Controller.customBytes_kept`: a step keeps what a stored rule refers
  to.
* `Controller.referenced_frozen`: so it stays the same for as long as stored rules refer to it, and
  those rules mean the same.
-/

namespace AclPlane

/-! ### What a match compares with -/

/-- What a match on a shared object compares with: an interval, or bytes from the packet. -/
inductive Operand where
  | interval (r : RangeComparator)
  | bytes (set : CustomByteSet) (value mask : BitVec 32)
  deriving DecidableEq

namespace Core

variable {c : Core}

/-- What a match compares with, where it names a comparator or a custom-byte set. -/
def operand? (c : Core) : Match → Option Operand
  | .range id => (c.pools.ranges.pool.value? id).map .interval
  | .customBytes id value mask => (c.pools.customBytes.value? id).map (.bytes · value mask)
  | _ => none

/-- What a stored rule refers to is live. -/
lemma Sound.exists_range (h : c.Sound) {id : Handle .range} (href : c.Refers id) :
    ∃ r, c.pools.ranges.pool.value? id = some r :=
  Option.isSome_iff_exists.mp
    (Pool.value?_isSome_of_refCount_pos ((h.refCount_pos_iff_refers (.range id)).mpr href))

lemma Sound.exists_customBytes (h : c.Sound) {id : Handle .customBytes} (href : c.Refers id) :
    ∃ set, c.pools.customBytes.value? id = some set :=
  Option.isSome_iff_exists.mp
    (Pool.value?_isSome_of_refCount_pos ((h.refCount_pos_iff_refers (.customBytes id)).mpr href))

end Core

namespace Controller

variable {s : Controller} {steps pre stretch : List Step}

/-! ### One step -/

/-- A step revises the pools, whether it succeeds or not. -/
lemma revised_step (hs : s.core.Steady) (st : Step) :
    s.core.pools.Revised (s.step st).controller.core.pools := by
  cases s.follows_step st with
  | done result transition delivered => exact transition.revised hs
  | failed result unchanged =>
      rw [unchanged]
      exact .refl _

/-- No step changes a comparator that a stored rule refers to. -/
lemma ranges_kept (h : s.core.Sound) {id : Handle .range} (href : s.core.Refers id) (st : Step) :
    (s.step st).controller.core.pools.ranges.pool.value? id =
      s.core.pools.ranges.pool.value? id :=
  (revised_step h.steady st).ranges.fixed id ((h.refCount_pos_iff_refers (.range id)).mpr href)

/-- No step changes a custom-byte set that a stored rule refers to. -/
lemma customBytes_kept (h : s.core.Sound) {id : Handle .customBytes} (href : s.core.Refers id)
    (st : Step) :
    (s.step st).controller.core.pools.customBytes.value? id = s.core.pools.customBytes.value? id :=
  (revised_step h.steady st).customBytes.fixed id
    ((h.refCount_pos_iff_refers (.customBytes id)).mpr href)

/-! ### Stretches of a run -/

lemma RunHasRoom.of_prefix (h : s.RunHasRoom steps) (hpre : pre <+: steps) : s.RunHasRoom pre := by
  obtain ⟨rest, rfl⟩ := hpre
  induction pre generalizing s with
  | nil => trivial
  | cons st pre ih => exact ⟨h.1, ih h.2⟩

/-- What is read off the model is the same after each step of a stretch, and after whatever step may
come next. -/
def Frozen {α : Type} (s : Controller) (stretch : List Step) (f : Core → α) : Prop :=
  ∀ pre, pre <+: stretch → f (s.run pre).core = f s.core ∧
    ∀ st, f ((s.run pre).step st).controller.core = f s.core

/-- What no step changes is frozen. -/
lemma frozen_of_kept {α : Type} {f : Core → α}
    (hkept : ∀ pre, pre <+: stretch → ∀ st,
      f ((s.run pre).step st).controller.core = f (s.run pre).core) : s.Frozen stretch f := by
  have hsame : ∀ pre, pre <+: stretch → f (s.run pre).core = f s.core := by
    intro pre hpre
    induction pre using List.reverseRecOn with
    | nil => rfl
    | append_singleton pre st ih =>
        have hbefore : pre <+: stretch := (List.prefix_append pre [st]).trans hpre
        rw [run_concat, hkept pre hbefore st, ih hbefore]
  exact fun pre hpre => ⟨hsame pre hpre, fun st => (hkept pre hpre st).trans (hsame pre hpre)⟩

/-- What is made of something frozen is frozen. -/
lemma Frozen.map {α β : Type} {f : Core → α} (h : s.Frozen stretch f) (g : α → β) :
    s.Frozen stretch fun c => g (f c) := fun pre hpre =>
  ⟨congrArg g (h pre hpre).1, fun st => congrArg g ((h pre hpre).2 st)⟩

/-- Take any stretch of a run in which no reference count passes its greatest value.  A comparator
or a custom-byte set that some stored rule refers to after each step of the stretch is live and
frozen.  So a rule that is stored all along compares with the same interval or the same bytes
wherever it names a comparator or a custom-byte set. -/
theorem referenced_frozen (h : Reachable s) (hroom : s.RunHasRoom stretch) :
    (∀ id : Handle .range, (∀ pre, pre <+: stretch → (s.run pre).core.Refers id) →
      (∃ r, s.core.pools.ranges.pool.value? id = some r) ∧
        s.Frozen stretch fun c => c.pools.ranges.pool.value? id) ∧
    (∀ id : Handle .customBytes, (∀ pre, pre <+: stretch → (s.run pre).core.Refers id) →
      (∃ set, s.core.pools.customBytes.value? id = some set) ∧
        s.Frozen stretch fun c => c.pools.customBytes.value? id) ∧
    (∀ rule, (∀ pre, pre <+: stretch → rule ∈ (s.run pre).core.rules) → ∀ k ∈ rule.keys,
      s.Frozen stretch fun c => c.operand? k.matcher) := by
  have hsound : ∀ pre, pre <+: stretch → (s.run pre).core.Sound := fun pre hpre =>
    (h.run (hroom.of_prefix hpre)).inStep.sound
  have hrange : ∀ id : Handle .range, (∀ pre, pre <+: stretch → (s.run pre).core.Refers id) →
      s.Frozen stretch fun c => c.pools.ranges.pool.value? id := fun id href =>
    frozen_of_kept fun pre hpre => ranges_kept (hsound pre hpre) (href pre hpre)
  have hbytes : ∀ id : Handle .customBytes,
      (∀ pre, pre <+: stretch → (s.run pre).core.Refers id) →
        s.Frozen stretch fun c => c.pools.customBytes.value? id := fun id href =>
    frozen_of_kept fun pre hpre => customBytes_kept (hsound pre hpre) (href pre hpre)
  refine ⟨fun id href => ⟨?_, hrange id href⟩, fun id href => ⟨?_, hbytes id href⟩,
    fun rule hstored k hk => ?_⟩
  · exact h.inStep.sound.exists_range (href [] List.nil_prefix)
  · exact h.inStep.sound.exists_customBytes (href [] List.nil_prefix)
  · cases hmatcher : k.matcher with
    | range id =>
        exact (hrange id fun pre hpre => .range (hstored pre hpre) hk hmatcher).map
          (Option.map Operand.interval)
    | customBytes id value mask =>
        exact (hbytes id fun pre hpre => .customBytes (hstored pre hpre) hk hmatcher).map
          (Option.map (Operand.bytes · value mask))
    | _ => exact fun pre hpre => ⟨rfl, fun st => rfl⟩

/-- A rule that matches on a comparator. -/
def onRange (priority : ℕ) : Rule := ⟨priority, [⟨.l4PortRange, .range ⟨0, 1⟩⟩], [.discard]⟩

/-- A rule that matches on the bytes of a custom-byte set. -/
def onBytes : Rule :=
  ⟨7, [⟨.customBytes0, .customBytes ⟨0, 1⟩ 0x0800#32 0xffff#32⟩], [.discard]⟩

/-- Makes a comparator and a custom-byte set and stores a rule on each. -/
def filtering : List Step :=
  [.operation (.pool (.create (.range ⟨.l4DstPort, 80, 90⟩))),
   .operation (.pool (.create (.customBytes ⟨.l3Start, 4, 2⟩))),
   .operation (.keyType (.create [.l4PortRange] none)),
   .operation (.keyType (.create [.customBytes0] none)),
   .operation (.region (.create ⟨0, 1⟩ 4)),
   .operation (.region (.create ⟨1, 1⟩ 4)),
   .operation (.rule (.set ⟨0, 1⟩ [1] [onRange 5])),
   .operation (.rule (.set ⟨1, 1⟩ [0] [onBytes]))]

/-- Tries to edit the comparator and to destroy the set, while the first rule is moved and
overwritten by another on the same comparator, and the region of the second is resized. -/
def tampering : List Step :=
  [.operation (.pool (.edit (.range ⟨0, 1⟩) (.range ⟨.l4DstPort, 0, 100⟩))),
   .operation (.rule (.move ⟨0, 1⟩ ⟨1, 1, 3⟩)),
   .operation (.pool (.destroy (.customBytes ⟨0, 1⟩))),
   .operation (.rule (.set ⟨0, 1⟩ [3] [onRange 9])),
   .operation (.region (.resize ⟨1, 1⟩ 8))]

/-- The comparator and the set are the same after all of this, and the second rule compares with the
same bytes. -/
theorem frozen_of_tampering :
    ((fresh.run filtering).run tampering).core.pools.ranges.pool.value? ⟨0, 1⟩ =
      some ⟨.l4DstPort, 80, 90⟩ ∧
    ((fresh.run filtering).run tampering).core.pools.customBytes.value? ⟨0, 1⟩ =
      some ⟨.l3Start, 4, 2⟩ ∧
    ((fresh.run filtering).run tampering).core.operand?
        (.customBytes ⟨0, 1⟩ 0x0800#32 0xffff#32) =
      some (.bytes ⟨.l3Start, 4, 2⟩ 0x0800#32 0xffff#32) := by
  have hreachable : Reachable (fresh.run filtering) :=
    (Reachable.start start_fresh).run (by decide +kernel)
  have hroom : (fresh.run filtering).RunHasRoom tampering := by decide +kernel
  obtain ⟨hranges, hbytes, hoperand⟩ := referenced_frozen hreachable hroom
  have hrange : ∀ pre, pre <+: tampering →
      ((fresh.run filtering).run pre).core.Refers (⟨0, 1⟩ : Handle .range) := by
    have hstored : ∀ pre ∈ tampering.inits, ∃ rule ∈ ((fresh.run filtering).run pre).core.rules,
        ⟨.l4PortRange, .range ⟨0, 1⟩⟩ ∈ rule.keys := by decide +kernel
    intro pre hpre
    obtain ⟨rule, hrule, hkey⟩ := hstored pre ((List.mem_inits _ _).mpr hpre)
    exact .range hrule hkey rfl
  have hrule : ∀ pre, pre <+: tampering →
      onBytes ∈ ((fresh.run filtering).run pre).core.rules := by
    have hstored : ∀ pre ∈ tampering.inits,
        onBytes ∈ ((fresh.run filtering).run pre).core.rules := by decide +kernel
    exact fun pre hpre => hstored pre ((List.mem_inits _ _).mpr hpre)
  have hkey : (⟨.customBytes0, .customBytes ⟨0, 1⟩ 0x0800#32 0xffff#32⟩ : KeyMatch) ∈
      onBytes.keys := List.mem_singleton_self _
  have hset := fun pre hpre => Core.Refers.customBytes (hrule pre hpre) hkey rfl
  have hbefore : (fresh.run filtering).core.pools.ranges.pool.value? ⟨0, 1⟩ =
        some ⟨.l4DstPort, 80, 90⟩ ∧
      (fresh.run filtering).core.pools.customBytes.value? ⟨0, 1⟩ = some ⟨.l3Start, 4, 2⟩ ∧
      (fresh.run filtering).core.operand? (.customBytes ⟨0, 1⟩ 0x0800#32 0xffff#32) =
        some (.bytes ⟨.l3Start, 4, 2⟩ 0x0800#32 0xffff#32) := by decide +kernel
  have hrangeSame := ((hranges _ hrange).2 tampering List.prefix_rfl).1
  have hsetSame := ((hbytes _ hset).2 tampering List.prefix_rfl).1
  have hoperandSame := (hoperand _ hrule _ hkey tampering List.prefix_rfl).1
  exact ⟨hrangeSame.trans hbefore.1, hsetSame.trans hbefore.2.1, hoperandSame.trans hbefore.2.2⟩

end Controller

end AclPlane
