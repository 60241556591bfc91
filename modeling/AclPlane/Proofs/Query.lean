import AclPlane.Query
import Mathlib.Data.List.Perm.Basic
import Mathlib.Data.List.Perm.Subperm

/-!
Scans over keys that come and go.

A scan asks for a first page and then for the page behind the last key that it has got, until a page
is empty.  Between two requests keys may come and go, the last one returned among them.

* `Query.remaining`: the live keys behind a cursor, in ascending order; `mem_remaining_iff`.
* `Query.scan`: the pages of a scan, each with the keys that are live at its request.
* `ascending_scan`: what a scan returns ascends, so no key comes twice.
* `mem_scan`: a finished scan has returned every key that was live at each of its requests.
* `isFinished_scan`: while the keys stay the same, a scan is finished by the request that follows
  the pages with all of them.
-/

namespace AclPlane.Query

variable {κ : Type} [Ord κ]

/-- The query for the page behind a cursor, without one for the first page. -/
def page (n : ℕ) : Option κ → Query κ
  | none => .first n
  | some after => .next after n

/-- The live keys behind a cursor, without one all of them, in ascending order. -/
def remaining (live : List κ) : Option κ → List κ
  | none => sortKeys live
  | some after => (sortKeys live).dropWhile fun k => (compare k after).isLE

/-- The pages of a scan from a cursor, each with the keys that are live at its request.  The scan
goes on behind the last key of a page and ends with an empty one. -/
def scan (n : ℕ) : Option κ → List (List κ) → List (List κ × List κ)
  | _, [] => []
  | cursor, live :: rest =>
    let keys := (remaining live cursor).take n
    (live, keys) :: match keys.getLast? with
      | some last => scan n (some last) rest
      | none => []

/-- The keys that a scan returns. -/
def returned (pages : List (List κ × List κ)) : List κ := pages.flatMap Prod.snd

/-- The last page of a scan is empty. -/
def IsFinished (pages : List (List κ × List κ)) : Prop := pages.getLast?.map Prod.snd = some []

variable {live other keys : List κ} {lives rest : List (List κ)} {cursor : Option κ} {n : ℕ}
  {k last : κ}

/-! ### Requests -/

/-- A page has the first of the keys that remain. -/
lemma select_page (n : ℕ) (cursor : Option κ) (live : List κ) :
    (page n cursor).select live = some ⟨live.length, (remaining live cursor).take n⟩ := by
  cases cursor with
  | none => simp [page, select, remaining, sortKeys]
  | some after => simp [page, select, remaining, sortKeys]

lemma perm_sortKeys (live : List κ) : (sortKeys live).Perm live := List.mergeSort_perm ..

lemma sortKeys_of_sorted (h : live.Pairwise fun a b => (compare a b).isLE = true) :
    sortKeys live = live := List.mergeSort_of_pairwise h

lemma scan_cons_of_some (hlast : ((remaining live cursor).take n).getLast? = some last) :
    scan n cursor (live :: rest) =
      (live, (remaining live cursor).take n) :: scan n (some last) rest := by
  rw [scan, hlast]

/-- An empty page ends the scan. -/
lemma scan_cons_of_none (hnone : ((remaining live cursor).take n).getLast? = none) :
    scan n cursor (live :: rest) = [(live, [])] := by
  rw [scan, hnone, List.getLast?_eq_none_iff.mp hnone]

omit [Ord κ] in
lemma isFinished_cons_iff {pages : List (List κ × List κ)} (hlast : keys.getLast? = some last) :
    IsFinished ((live, keys) :: pages) ↔ IsFinished pages := by
  cases pages with
  | nil =>
      have hne : keys ≠ [] := by
        rintro rfl
        cases hlast
      simp [IsFinished, hne]
  | cons p pages => rw [IsFinished, List.getLast?_cons_cons, IsFinished]

/-- A scan stops early only with an empty page. -/
lemma isFinished_of_length_lt (h : (scan n cursor lives).length < lives.length) :
    IsFinished (scan n cursor lives) := by
  induction lives generalizing cursor with
  | nil => cases h
  | cons live rest ih =>
      cases hlast : ((remaining live cursor).take n).getLast? with
      | none =>
          rw [scan_cons_of_none hlast]
          rfl
      | some last =>
          rw [scan_cons_of_some hlast] at h ⊢
          exact (isFinished_cons_iff hlast).mpr (ih (Nat.lt_of_succ_lt_succ h))

/-! ### Ascending keys -/

/-- The keys of a page come before its last one. -/
lemma eq_or_lt_of_getLast? (h : keys.Pairwise fun a b => compare a b = .lt)
    (hlast : keys.getLast? = some last) (hk : k ∈ keys) : k = last ∨ compare k last = .lt := by
  obtain ⟨init, rfl⟩ := List.getLast?_eq_some_iff.mp hlast
  rcases List.mem_append.mp hk with hk | hk
  · exact .inr ((List.pairwise_append.mp h).2.2 k hk last (List.mem_singleton_self last))
  · exact .inl (List.mem_singleton.mp hk)

variable [Std.TransOrd κ]

lemma nodup_of_ascending (h : keys.Pairwise fun a b => compare a b = .lt) : keys.Nodup :=
  h.imp fun {a b} hab heq => by
    rw [heq, Std.ReflOrd.compare_self] at hab
    cases hab

/-- Of ascending keys, those behind a cursor are a suffix. -/
lemma mem_dropWhile_iff (h : keys.Pairwise fun a b => compare a b = .lt) (after : κ) :
    k ∈ keys.dropWhile (fun k => (compare k after).isLE) ↔ k ∈ keys ∧ compare after k = .lt := by
  induction keys with
  | nil => simp
  | cons x rest ih =>
      obtain ⟨hx, hrest⟩ := List.pairwise_cons.mp h
      have hbehind : ¬(compare x after).isLE = true ↔ compare after x = .lt := by
        rw [Std.OrientedOrd.eq_swap (a := after) (b := x)]
        cases compare x after <;> decide
      rw [List.dropWhile_cons]
      split
      · next hle =>
          rw [ih hrest, List.mem_cons]
          refine and_congr_left fun hk => ⟨.inr, fun hmem => hmem.resolve_left ?_⟩
          rintro rfl
          exact hbehind.mpr hk hle
      · next hle =>
          have hafter := hbehind.mp hle
          refine ⟨fun hk => ⟨hk, ?_⟩, And.left⟩
          rcases List.mem_cons.mp hk with rfl | hk
          · exact hafter
          · exact Std.TransCmp.lt_trans hafter (hx k hk)

variable [Std.LawfulEqOrd κ]

/-- Distinct keys are sorted strictly. -/
lemma ascending_sortKeys (h : live.Nodup) :
    (sortKeys live).Pairwise fun a b => compare a b = .lt := by
  have hsorted : (sortKeys live).Pairwise fun a b => (compare a b).isLE = true := by
    refine List.pairwise_mergeSort (fun a b c => Std.TransCmp.isLE_trans) (fun a b => ?_) live
    rw [Std.OrientedOrd.eq_swap (a := b) (b := a)]
    cases compare a b <;> rfl
  have hnodup : (sortKeys live).Pairwise (· ≠ ·) := (perm_sortKeys live).nodup_iff.mpr h
  refine (hsorted.and hnodup).imp fun {a b} hab => ?_
  cases hcompare : compare a b with
  | lt => rfl
  | eq => exact absurd (Std.LawfulEqOrd.eq_of_compare hcompare) hab.2
  | gt =>
      have hle := hab.1
      rw [hcompare] at hle
      cases hle

lemma ascending_remaining (h : live.Nodup) (cursor : Option κ) :
    (remaining live cursor).Pairwise fun a b => compare a b = .lt := by
  cases cursor with
  | none => exact ascending_sortKeys h
  | some after => exact (ascending_sortKeys h).sublist (List.dropWhile_sublist _)

/-- What remains is what is live and behind the cursor. -/
lemma mem_remaining_iff (h : live.Nodup) :
    k ∈ remaining live cursor ↔ k ∈ live ∧ ∀ c ∈ cursor, compare c k = .lt := by
  cases cursor with
  | none => simp [remaining, (perm_sortKeys live).mem_iff]
  | some after => simp [remaining, mem_dropWhile_iff (ascending_sortKeys h),
      (perm_sortKeys live).mem_iff]

/-- What is not in a page and remains is behind the last key of the page. -/
lemma lt_of_mem_drop (h : live.Nodup)
    (hlast : ((remaining live cursor).take n).getLast? = some last)
    (hk : k ∈ (remaining live cursor).drop n) : compare last k = .lt := by
  have hascending := ascending_remaining h cursor
  rw [← List.take_append_drop n (remaining live cursor)] at hascending
  exact (List.pairwise_append.mp hascending).2.2 last (List.mem_of_getLast? hlast) k hk

/-! ### What a scan returns -/

/-- A page has at most `n` keys, all of them live at its request. -/
lemma subset_of_mem_scan (hlives : ∀ live ∈ lives, live.Nodup) {p : List κ × List κ}
    (hp : p ∈ scan n cursor lives) : p.1 ∈ lives ∧ p.2 ⊆ p.1 ∧ p.2.length ≤ n := by
  induction lives generalizing cursor with
  | nil => cases hp
  | cons live rest ih =>
      obtain ⟨hlive, hrest⟩ := List.forall_mem_cons.mp hlives
      cases hlast : ((remaining live cursor).take n).getLast? with
      | none =>
          rw [scan_cons_of_none hlast, List.mem_singleton] at hp
          rw [hp]
          exact ⟨List.mem_cons_self, List.nil_subset _, Nat.zero_le n⟩
      | some last =>
          rw [scan_cons_of_some hlast, List.mem_cons] at hp
          rcases hp with rfl | hp
          · refine ⟨List.mem_cons_self, fun k hk => ?_, List.length_take_le ..⟩
            exact ((mem_remaining_iff hlive).mp (List.mem_of_mem_take hk)).1
          · obtain ⟨hmem, hkeys⟩ := ih hrest hp
            exact ⟨List.mem_cons_of_mem _ hmem, hkeys⟩

/-- The keys that a scan returns ascend, from behind its cursor on. -/
theorem ascending_scan (hlives : ∀ live ∈ lives, live.Nodup) (n : ℕ) (cursor : Option κ) :
    (returned (scan n cursor lives)).Pairwise (fun a b => compare a b = .lt) ∧
      ∀ k ∈ returned (scan n cursor lives), ∀ c ∈ cursor, compare c k = .lt := by
  induction lives generalizing cursor with
  | nil => exact ⟨.nil, by simp [scan, returned]⟩
  | cons live rest ih =>
      obtain ⟨hlive, hrest⟩ := List.forall_mem_cons.mp hlives
      cases hlast : ((remaining live cursor).take n).getLast? with
      | none =>
          rw [scan_cons_of_none hlast]
          exact ⟨.nil, by simp [returned]⟩
      | some last =>
          obtain ⟨hascending, hbehind⟩ := ih hrest (some last)
          have hpage : ((remaining live cursor).take n).Pairwise fun a b => compare a b = .lt :=
            (ascending_remaining hlive cursor).sublist (List.take_sublist ..)
          have hcursor : ∀ k ∈ (remaining live cursor).take n, ∀ c ∈ cursor, compare c k = .lt :=
            fun k hk => ((mem_remaining_iff hlive).mp (List.mem_of_mem_take hk)).2
          rw [scan_cons_of_some hlast, returned, List.flatMap_cons]
          refine ⟨List.pairwise_append.mpr ⟨hpage, hascending, fun a ha b hb => ?_⟩,
            fun k hk c hc => ?_⟩
          · have hb' := hbehind b hb last rfl
            rcases eq_or_lt_of_getLast? hpage hlast ha with rfl | ha'
            · exact hb'
            · exact Std.TransCmp.lt_trans ha' hb'
          · rcases List.mem_append.mp hk with hk | hk
            · exact hcursor k hk c hc
            · exact Std.TransCmp.lt_trans (hcursor last (List.mem_of_getLast? hlast) c hc)
                (hbehind k hk last rfl)

/-- A finished scan has returned what was live behind its cursor at every request. -/
theorem mem_scan (hlives : ∀ live ∈ lives, live.Nodup) (hn : 0 < n)
    (hfinished : IsFinished (scan n cursor lives)) (hk : ∀ p ∈ scan n cursor lives, k ∈ p.1)
    (hcursor : ∀ c ∈ cursor, compare c k = .lt) : k ∈ returned (scan n cursor lives) := by
  induction lives generalizing cursor with
  | nil => cases hfinished
  | cons live rest ih =>
      obtain ⟨hlive, hrest⟩ := List.forall_mem_cons.mp hlives
      have hremains : k ∈ live → k ∈ remaining live cursor :=
        fun hmem => (mem_remaining_iff hlive).mpr ⟨hmem, hcursor⟩
      cases hlast : ((remaining live cursor).take n).getLast? with
      | none =>
          -- an empty page means that nothing remains
          rw [scan_cons_of_none hlast] at hk
          have hmem := hremains (hk _ (List.mem_singleton_self _))
          rw [List.getLast?_eq_none_iff, List.take_eq_nil_iff] at hlast
          rw [hlast.resolve_left (Nat.ne_of_gt hn)] at hmem
          cases hmem
      | some last =>
          rw [scan_cons_of_some hlast] at hfinished hk ⊢
          obtain ⟨hmem, hk⟩ := List.forall_mem_cons.mp hk
          have hsplit := hremains hmem
          rw [← List.take_append_drop n (remaining live cursor), List.mem_append] at hsplit
          rw [returned, List.flatMap_cons, List.mem_append]
          refine hsplit.imp_right fun hdrop => ?_
          refine ih hrest ((isFinished_cons_iff hlast).mp hfinished) hk fun c hc => ?_
          obtain rfl := Option.some.inj hc
          exact lt_of_mem_drop hlive hlast hdrop

/-! ### Scans over the same keys -/

/-- While the keys stay the same, every page leaves as many fewer. -/
lemma length_remaining_le (h : live.Nodup) (hother : other.Nodup)
    (hsame : ∀ k, k ∈ other → k ∈ live)
    (hlast : ((remaining live cursor).take n).getLast? = some last) :
    (remaining other (some last)).length ≤ (remaining live cursor).length - n := by
  have hpage := (ascending_remaining h cursor).sublist (List.take_sublist n _)
  have hlastmem := (mem_remaining_iff h).mp (List.mem_of_mem_take (List.mem_of_getLast? hlast))
  rw [← List.length_drop]
  refine ((nodup_of_ascending (ascending_remaining hother _)).subperm fun k hk => ?_).length_le
  obtain ⟨hmem, hbehind⟩ := (mem_remaining_iff hother).mp hk
  have hlt := hbehind last rfl
  have hremains : k ∈ remaining live cursor := (mem_remaining_iff h).mpr
    ⟨hsame k hmem, fun c hc => Std.TransCmp.lt_trans (hlastmem.2 c hc) hlt⟩
  rw [← List.take_append_drop n (remaining live cursor), List.mem_append] at hremains
  -- a key of the page is not behind the last one
  refine hremains.resolve_left fun htake => ?_
  have hirrefl : compare last last ≠ .lt := by
    rw [Std.ReflOrd.compare_self]
    decide
  rcases eq_or_lt_of_getLast? hpage hlast htake with rfl | hk'
  · exact hirrefl hlt
  · exact hirrefl (Std.TransCmp.lt_trans hlt hk')

/-- A scan over the same keys is finished once its pages have room for all that remain and one
more is asked for. -/
theorem isFinished_scan (hlives : ∀ live ∈ lives, live.Nodup) (hn : 0 < n) (hlive : live.Nodup)
    (hsame : ∀ p ∈ scan n cursor lives, ∀ k, k ∈ p.1 ↔ k ∈ live)
    (hroom : (remaining live cursor).length + n ≤ n * lives.length) :
    IsFinished (scan n cursor lives) := by
  induction lives generalizing cursor with
  | nil =>
      rw [List.length_nil, Nat.mul_zero] at hroom
      omega
  | cons first rest ih =>
      obtain ⟨hfirst, hrest⟩ := List.forall_mem_cons.mp hlives
      cases hlast : ((remaining first cursor).take n).getLast? with
      | none =>
          rw [scan_cons_of_none hlast]
          rfl
      | some last =>
          rw [scan_cons_of_some hlast] at hsame ⊢
          obtain ⟨hmem, hsame⟩ := List.forall_mem_cons.mp hsame
          refine (isFinished_cons_iff hlast).mpr (ih hrest hsame ?_)
          have hle : (remaining first cursor).length ≤ (remaining live cursor).length := by
            refine ((nodup_of_ascending (ascending_remaining hfirst _)).subperm
              fun k hk => ?_).length_le
            obtain ⟨hk, hcursor⟩ := (mem_remaining_iff hfirst).mp hk
            exact (mem_remaining_iff hlive).mpr ⟨(hmem k).mp hk, hcursor⟩
          have hnext := length_remaining_le hfirst hlive (fun k => (hmem k).mpr) hlast
          have hpos : 0 < (remaining first cursor).length :=
            List.length_pos_of_mem (List.mem_of_mem_take (List.mem_of_getLast? hlast))
          rw [List.length_cons, Nat.mul_succ] at hroom
          -- something remains, so there is room for another page
          have hmore : n ≤ n * rest.length := by
            refine Nat.le_mul_of_pos_right n (Nat.pos_of_ne_zero fun hzero => ?_)
            rw [hzero, Nat.mul_zero] at hroom
            omega
          omega

end AclPlane.Query
