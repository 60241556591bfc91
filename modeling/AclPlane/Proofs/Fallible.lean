import AclPlane.Error
import Mathlib.Tactic

/-!
Sequences of steps that can fail.

* `bind_eq_ok`: a sequence succeeds exactly if its first step does and the rest does on its
  result; with it the plan of an operation is taken apart into the checks that it has passed.
* `Refuses`: every error is a refusal, that is, it comes neither from the device nor from a count
  that would fall below zero.  `refuses_bind` and `refuses_ite` carry it along sequences of
  checks.
-/

namespace AclPlane

variable {ε α β : Type}

/-! ### Success -/

lemma bind_eq_ok {x : Except ε α} {f : α → Except ε β} {b : β} :
    (x >>= f) = .ok b ↔ ∃ a, x = .ok a ∧ f a = .ok b := by
  cases x with
  | error e =>
      constructor
      · intro h
        cases h
      · rintro ⟨a, ha, -⟩
        cases ha
  | ok a =>
      constructor
      · exact fun h => ⟨a, rfl, h⟩
      · rintro ⟨a', ha, hf⟩
        cases ha
        exact hf

@[simp] lemma ok_bind (a : α) (f : α → Except ε β) : (Except.ok a >>= f) = f a := rfl

@[simp] lemma pure_eq_ok {a b : α} : (pure a : Except ε α) = .ok b ↔ a = b := by
  constructor
  · intro h
    cases h
    rfl
  · rintro rfl
    rfl

lemma map_eq_ok {x : Except ε α} {f : α → β} {b : β} :
    x.map f = .ok b ↔ ∃ a, x = .ok a ∧ f a = b := by
  cases x with
  | error e => simp [Except.map]
  | ok a => simp [Except.map]

lemma isOk_iff {x : Except ε α} : x.isOk = true ↔ ∃ a, x = .ok a := by
  cases x with
  | error e => exact iff_of_false Bool.false_ne_true nofun
  | ok a => exact iff_of_true rfl ⟨a, rfl⟩

/-- A sequence goes on behind a guard if the condition of the guard fails. -/
lemma guard_eq_ok {p : Prop} [Decidable p] {e : ε} {f : β → Except ε α} {x : Except ε α} {b : α} :
    (if p then throw e >>= f else x) = .ok b ↔ ¬p ∧ x = .ok b := by
  by_cases hp : p
  · simp only [hp, if_true, not_true_eq_false, false_and, iff_false]
    intro h
    cases h
  · simp only [hp, if_false, not_false_eq_true, true_and]

/-- A guard at the end of a sequence. -/
lemma last_guard_eq_ok {p : Prop} [Decidable p] {e : ε} {x : Except ε α} {b : α} :
    (if p then throw e else x) = .ok b ↔ ¬p ∧ x = .ok b := by
  by_cases hp : p
  · simp [hp]
  · simp [hp]

/-- Whether a sequence succeeds does not depend on what is made of its result. -/
lemma exists_bind_pure_iff {x : Except ε α} {f : α → β} :
    (∃ b, (x >>= fun a => pure (f a)) = .ok b) ↔ ∃ a, x = .ok a := by
  simp only [bind_eq_ok, pure_eq_ok]
  constructor
  · rintro ⟨_, a, ha, -⟩
    exact ⟨a, ha⟩
  · rintro ⟨a, ha⟩
    exact ⟨_, a, ha, rfl⟩

/-- Sequences that go on alike from every value are alike. -/
lemma map_bind_congr {γ : Type} {x : Except ε α} {f f' : α → Except ε β} {g : β → γ}
    (h : ∀ a, (f a).map g = (f' a).map g) : (x >>= f).map g = (x >>= f').map g := by
  cases x with
  | error e => rfl
  | ok a => exact h a

/-! ### Steps over a list -/

lemma forM_eq_ok {f : α → Except ε Unit} {l : List α} {u : Unit} :
    l.forM f = .ok u ↔ ∀ a ∈ l, f a = .ok () := by
  induction l with
  | nil =>
      refine ⟨fun _ a ha => ?_, fun _ => rfl⟩
      cases ha
  | cons a l ih =>
      rw [List.forM_eq_forM] at ih ⊢
      rw [List.forM_cons, bind_eq_ok, List.forall_mem_cons]
      constructor
      · rintro ⟨_, ha, hl⟩
        exact ⟨ha, ih.mp hl⟩
      · rintro ⟨ha, hl⟩
        exact ⟨(), ha, ih.mpr hl⟩

/-- A list of steps succeeds if each of them does. -/
lemma exists_mapM_iff {f : α → Except ε β} {l : List α} :
    (∃ l', l.mapM f = .ok l') ↔ ∀ a ∈ l, ∃ b, f a = .ok b := by
  induction l with
  | nil =>
      refine ⟨fun _ a ha => ?_, fun _ => ⟨[], rfl⟩⟩
      cases ha
  | cons a l ih =>
      simp only [List.mapM_cons, bind_eq_ok, pure_eq_ok, List.forall_mem_cons, ← ih]
      constructor
      · rintro ⟨_, b, hb, l', hl', -⟩
        exact ⟨⟨b, hb⟩, l', hl'⟩
      · rintro ⟨⟨b, hb⟩, l', hl'⟩
        exact ⟨_, b, hb, l', hl', rfl⟩

/-- What a list of steps gives comes from its steps. -/
lemma exists_of_mem_mapM {f : α → Except ε β} {l : List α} {l' : List β} (h : l.mapM f = .ok l')
    {b : β} (hb : b ∈ l') : ∃ a ∈ l, f a = .ok b := by
  induction l generalizing l' with
  | nil =>
      simp only [List.mapM_nil, pure_eq_ok] at h
      subst h
      cases hb
  | cons a l ih =>
      simp only [List.mapM_cons, bind_eq_ok, pure_eq_ok] at h
      obtain ⟨b', hb', rest, hrest, rfl⟩ := h
      rcases List.mem_cons.mp hb with rfl | hb
      · exact ⟨a, List.mem_cons_self .., hb'⟩
      · obtain ⟨a', ha', hf⟩ := ih hrest hb
        exact ⟨a', List.mem_cons_of_mem _ ha', hf⟩

/-- A list of steps that each give what `g` says, if they give anything, gives what `g` says. -/
lemma eq_map_of_mapM {f : α → Except ε β} {g : α → β} {l : List α} {l' : List β}
    (h : l.mapM f = .ok l') (hg : ∀ a b, f a = .ok b → b = g a) : l' = l.map g := by
  induction l generalizing l' with
  | nil =>
      simp only [List.mapM_nil, pure_eq_ok] at h
      exact h.symm
  | cons a l ih =>
      simp only [List.mapM_cons, bind_eq_ok, pure_eq_ok] at h
      obtain ⟨b, hb, rest, hrest, rfl⟩ := h
      rw [List.map_cons, hg a b hb, ih hrest]

/-- What every step keeps, all of them keep. -/
lemma foldlM_keeps {f : β → α → Except ε β} {p : β → Prop}
    (hf : ∀ b a b', p b → f b a = .ok b' → p b') {l : List α} {b b' : β}
    (h : l.foldlM f b = .ok b') (hb : p b) : p b' := by
  induction l generalizing b with
  | nil =>
      rw [List.foldlM_nil, pure_eq_ok] at h
      exact h ▸ hb
  | cons a l ih =>
      rw [List.foldlM_cons, bind_eq_ok] at h
      obtain ⟨b₁, hstep, hrest⟩ := h
      exact ih hrest (hf b a b₁ hb hstep)

/-! ### Refusals -/

/-- Whether an error comes from a check: the device and the counts have errors of their own. -/
def AclError.isRefusal : AclError → Bool
  | .device _ => false
  | .invalidParam (.countUnderflow _) => false
  | _ => true

/-- Whatever error comes out is a refusal. -/
def Refuses (x : Except AclError α) : Prop := ∀ e, x = .error e → e.isRefusal = true

@[simp] lemma refuses_ok (a : α) : Refuses (.ok a) := by
  intro e h
  cases h

@[simp] lemma refuses_pure (a : α) : Refuses (pure a) := refuses_ok a

@[simp] lemma refuses_error {e : AclError} :
    Refuses (.error e : Except AclError α) ↔ e.isRefusal = true := by
  constructor
  · exact fun h => h e rfl
  · intro h e' he
    cases he
    exact h

@[simp] lemma refuses_throw {e : AclError} :
    Refuses (throw e : Except AclError α) ↔ e.isRefusal = true := refuses_error

/-- A sequence refuses if its first step does, and the rest on every result of that. -/
@[simp] lemma refuses_bind {x : Except AclError α} {f : α → Except AclError β} :
    Refuses (x >>= f) ↔ Refuses x ∧ ∀ a, x = .ok a → Refuses (f a) := by
  cases x with
  | error e =>
      constructor
      · intro h
        exact ⟨refuses_error.mpr (h e rfl), fun a ha => by cases ha⟩
      · rintro ⟨h, -⟩ e' he
        cases he
        exact h e rfl
  | ok a =>
      constructor
      · intro h
        refine ⟨refuses_ok a, fun a' ha => ?_⟩
        cases ha
        exact h
      · exact fun h => h.2 a rfl

@[simp] lemma refuses_map {x : Except AclError α} {f : α → β} :
    Refuses (x.map f) ↔ Refuses x := by
  cases x with
  | error e => exact refuses_error.trans refuses_error.symm
  | ok a => exact iff_of_true (refuses_ok (f a)) (refuses_ok a)

@[simp] lemma refuses_functor_map {x : Except AclError α} {f : α → β} :
    Refuses (f <$> x) ↔ Refuses x := refuses_map

@[simp] lemma refuses_ite {p : Prop} [Decidable p] {x y : Except AclError α} :
    Refuses (if p then x else y) ↔ (p → Refuses x) ∧ (¬p → Refuses y) := by
  by_cases hp : p
  · simp [hp]
  · simp [hp]

lemma refuses_forM {f : α → Except AclError Unit} (hf : ∀ a, Refuses (f a)) (l : List α) :
    Refuses (l.forM f) := by
  induction l with
  | nil => exact refuses_ok ()
  | cons a l ih =>
      rw [List.forM_eq_forM] at ih ⊢
      rw [List.forM_cons, refuses_bind]
      exact ⟨hf a, fun _ _ => ih⟩

lemma refuses_mapM {f : α → Except AclError β} (hf : ∀ a, Refuses (f a)) (l : List α) :
    Refuses (l.mapM f) := by
  induction l with
  | nil => simp
  | cons a l ih => simp [hf a, ih]

end AclPlane
