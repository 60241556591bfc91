import AclPlane.Proofs.Arena.Generations
import AclPlane.Proofs.Guarantees
import AclPlane.Proofs.Query
import AclPlane.Proofs.Steady
import AclPlane.Proofs.Transition.Shape

/-!
Scans over the objects of a kind.

A client that lists all objects of a kind asks for a first page and then for the page behind the
last raw handle it has got, until a page is empty.  Before each request anything may happen: objects
are created and destroyed, and slots are taken again.

* `Step.page`: the request for a page, and `Controller.scan`: the requests of a client.
* `Core.queryObjects_page`: which page of which kind a model answers with.
* `Controller.map_scan`: the answers are those of a scan over the live handles.
* `Controller.scan_exact`: they ascend, repeat nothing, and miss nothing that stays.
-/

namespace AclPlane

lemma Handle.compare_eq_lt_iff {kind : ObjectKind} {a b : Handle kind} : compare a b = .lt ↔
    a.index < b.index ∨ a.index = b.index ∧ a.generation < b.generation := by
  rw [compare_eq_lex, Ordering.then_eq_lt, Std.compare_eq_lt, Std.compare_eq_lt,
    Std.compare_eq_iff_eq]

namespace Core

variable {c : Core} {kind : ObjectKind} {h : Handle kind}

/-- The live handles of a kind. -/
def handles (c : Core) (kind : ObjectKind) : List (Handle kind) := (c.shape kind).handles

lemma Steady.nodup_handles (hc : c.Steady) (kind : ObjectKind) : (c.handles kind).Nodup :=
  Arena.nodup_handles (hc.shape kind)

lemma Steady.mem_handles_iff (hc : c.Steady) : h ∈ c.handles kind ↔ c.isLive h = true := by
  rw [isLive_eq_contains, Arena.contains_iff, handles, Arena.handles, List.mem_map]
  constructor
  · rintro ⟨⟨k, v⟩, hk, rfl⟩
    exact ⟨v, (Arena.mem_toList_iff (hc.shape kind)).mp hk⟩
  · rintro ⟨v, hv⟩
    exact ⟨(h, v), (Arena.mem_toList_iff (hc.shape kind)).mpr hv, rfl⟩

lemma Steady.generation_ne_zero (hc : c.Steady) (hlive : c.isLive h = true) : h.generation ≠ 0 :=
  (hc.shape kind).generation_ne_zero ((c.isLive_eq_contains h).symm.trans hlive)

/-- A query over raw handles that are decoded is one over handles. -/
lemma typed_page (n : ℕ) {cursor : Option (Handle kind)}
    (hcursor : ∀ h ∈ cursor, h.generation ≠ 0) :
    ObjectQuery.typed kind (Query.page n (cursor.map Handle.raw)) = .ok (Query.page n cursor) := by
  cases cursor with
  | none => rfl
  | some h =>
      simp only [ObjectQuery.typed, Option.map_some, Query.page, Query.mapKeyM,
        Handle.ofRaw?_raw h (hcursor h rfl)]
      rfl

lemma listing_eq_ok {q : Query RawHandle} {typed : Query (Handle kind)} {total : ℕ}
    {items : List (Handle kind)}
    {run : Query (Handle kind) → Except AclError (Page (Handle kind))}
    (hq : ObjectQuery.typed kind q = .ok typed) (hrun : run typed = .ok ⟨total, items⟩) :
    listing q run = .ok ⟨total, items.map Handle.raw⟩ := by
  rw [listing, hq, ok_bind, hrun]
  rfl

/-- A model answers with the page of the kind behind the cursor. -/
lemma queryObjects_page (c : Core) (n : ℕ) {cursor : Option (Handle kind)}
    (hcursor : ∀ h ∈ cursor, h.generation ≠ 0) :
    c.queryObjects ⟨kind, Query.page n (cursor.map Handle.raw)⟩ =
      .ok ⟨(c.handles kind).length,
        ((Query.remaining (c.handles kind) cursor).take n).map Handle.raw⟩ := by
  have hselect := Query.select_page n cursor (c.handles kind)
  have htyped := typed_page n hcursor
  cases kind with
  | keyType =>
      rw [handles, shape, Arena.handles_shape] at hselect ⊢
      exact listing_eq_ok htyped (by rw [KeyTypes.query, Arena.select, hselect])
  | region =>
      rw [handles, shape, Arena.handles_shape] at hselect ⊢
      exact listing_eq_ok htyped (by rw [Regions.query, Arena.select, hselect])
  | acl =>
      rw [handles, shape, Arena.handles_shape] at hselect ⊢
      exact listing_eq_ok htyped (by rw [Acls.query, Arena.select, hselect])
  | group =>
      rw [handles, shape, Arena.handles_shape] at hselect ⊢
      exact listing_eq_ok htyped (by rw [Groups.query, Arena.select, hselect])
  | _ =>
      rw [handles, shape, Arena.handles_shape] at hselect ⊢
      exact listing_eq_ok htyped (by rw [Pool.query, Arena.select, hselect])

end Core

/-! ### Requests -/

/-- The request for a page of at most `n` objects behind a raw handle, without one for the first. -/
def Step.page (kind : ObjectKind) (n : ℕ) : Option RawHandle → Step
  | none => .command .getFirst (.query ⟨kind, none, some n⟩)
  | some last => .command .getNext (.query ⟨kind, some last, some n⟩)

/-- A request of a scan: the controller that gets it, and what comes of it. -/
structure Visit where
  now : Controller
  outcome : Outcome OpResult

namespace Visit

/-- The raw handles of the answer. -/
def items (v : Visit) : List RawHandle :=
  match v.outcome.result with
  | .ok (.listing page) => page.items
  | _ => []

/-- The handles of the answer. -/
def handles (v : Visit) (kind : ObjectKind) : List (Handle kind) := v.items.filterMap Handle.ofRaw?

/-- The live handles of a kind and those of the answer. -/
def paged (v : Visit) (kind : ObjectKind) : List (Handle kind) × List (Handle kind) :=
  (v.now.core.handles kind, v.handles kind)

/-- The answer has the number of live handles and some of them. -/
structure IsPage (v : Visit) (kind : ObjectKind) : Prop where
  steady : v.now.core.Steady
  result_eq : v.outcome.result =
    .ok (.listing ⟨(v.now.core.handles kind).length, (v.handles kind).map Handle.raw⟩)

end Visit

namespace Controller

/-- The requests of a client that scans the objects of a kind.  Before each of them steps of others
happen.  The next request continues behind the last raw handle of the answer; after an empty page
there is none. -/
def scan (s : Controller) (kind : ObjectKind) (n : ℕ) (last : Option RawHandle) :
    List (List Step) → List Visit
  | [] => []
  | gap :: gaps =>
    let now := s.run gap
    let visit : Visit := ⟨now, now.step (.page kind n last)⟩
    visit :: match visit.items.getLast? with
      | some next => visit.outcome.controller.scan kind n (some next) gaps
      | none => []

/-- The last page of a scan is empty. -/
def IsScanned (visits : List Visit) : Prop := visits.getLast?.map Visit.items = some []

variable {s : Controller} {kind : ObjectKind} {n : ℕ} {cursor : Option (Handle kind)}
  {gap : List Step} {gaps : List (List Step)}

lemma step_page (s : Controller) (n : ℕ) (hcursor : ∀ h ∈ cursor, h.generation ≠ 0) :
    s.step (.page kind n (cursor.map Handle.raw)) =
      ⟨.ok (.listing ⟨(s.core.handles kind).length,
        ((Query.remaining (s.core.handles kind) cursor).take n).map Handle.raw⟩), [], s⟩ := by
  have hquery := s.core.queryObjects_page n hcursor
  cases cursor with
  | none => exact congrArg (fun r => (⟨r.map .listing, [], s⟩ : Outcome OpResult)) hquery
  | some h => exact congrArg (fun r => (⟨r.map .listing, [], s⟩ : Outcome OpResult)) hquery

/-- The handles of a page of a steady model decode from their raw values. -/
lemma filterMap_ofRaw?_raw {keys : List (Handle kind)} (h : ∀ k ∈ keys, k.generation ≠ 0) :
    (keys.map Handle.raw).filterMap Handle.ofRaw? = keys := by
  induction keys with
  | nil => rfl
  | cons k keys ih =>
      obtain ⟨hk, hkeys⟩ := List.forall_mem_cons.mp h
      rw [List.map_cons, List.filterMap_cons_some (Handle.ofRaw?_raw k hk), ih hkeys]

/-- The first request of a scan gets the page behind the cursor, and where the scan goes on. -/
lemma scan_cons (hs : (s.run gap).core.Steady) (hcursor : ∀ h ∈ cursor, h.generation ≠ 0) (n : ℕ)
    (gaps : List (List Step)) :
    let keys := (Query.remaining ((s.run gap).core.handles kind) cursor).take n
    ∃ v : Visit, v.now = s.run gap ∧ v.handles kind = keys ∧ v.IsPage kind ∧
      (∀ k ∈ keys, k.generation ≠ 0) ∧
      (keys.getLast? = none → s.scan kind n (cursor.map Handle.raw) (gap :: gaps) = [v]) ∧
      (∀ last, keys.getLast? = some last → s.scan kind n (cursor.map Handle.raw) (gap :: gaps) =
        v :: (s.run gap).scan kind n ((some last).map Handle.raw) gaps) := by
  intro keys
  have hstep := step_page (s.run gap) n hcursor
  have hgenerations : ∀ k ∈ keys, k.generation ≠ 0 := fun k hk => by
    have hlive := (Query.mem_remaining_iff (hs.nodup_handles kind)).mp (List.mem_of_mem_take hk)
    exact hs.generation_ne_zero (hs.mem_handles_iff.mp hlive.1)
  have hhandles : Visit.handles ⟨s.run gap, ⟨.ok (.listing
      ⟨((s.run gap).core.handles kind).length, keys.map Handle.raw⟩), [], s.run gap⟩⟩ kind = keys :=
    filterMap_ofRaw?_raw hgenerations
  refine ⟨_, rfl, hhandles, ⟨hs, ?_⟩, hgenerations, fun hnone => ?_, fun last hlast => ?_⟩
  · rw [hhandles]
  · rw [scan, hstep]
    simp only [Visit.items, List.getLast?_map, keys, hnone, Option.map_none]
  · rw [scan, hstep]
    simp only [Visit.items, List.getLast?_map, keys, hlast, Option.map_some]

/-! ### The scan of a client -/

/-- The live handles of a kind at each request. -/
def livesAt (s : Controller) (kind : ObjectKind) : List (List Step) → List (List (Handle kind))
  | [] => []
  | gap :: gaps => (s.run gap).core.handles kind :: (s.run gap).livesAt kind gaps

variable {config : Config} {given : Option (List KeyBlock)} {sink : Sink}

lemma run_append (s : Controller) (steps more : List Step) :
    (s.run steps).run more = s.run (steps ++ more) := List.foldl_append.symm

lemma nodup_of_mem_livesAt (hs : Controller.start config given sink = .ok s) (steps : List Step)
    (gaps : List (List Step)) : ∀ live ∈ (s.run steps).livesAt kind gaps, live.Nodup := by
  induction gaps generalizing steps with
  | nil => exact List.forall_mem_nil _
  | cons gap gaps ih =>
      rw [livesAt, run_append]
      exact List.forall_mem_cons.mpr ⟨(steady_run hs _).nodup_handles kind, ih _⟩

lemma length_livesAt (s : Controller) (gaps : List (List Step)) :
    (s.livesAt kind gaps).length = gaps.length := by
  induction gaps generalizing s with
  | nil => rfl
  | cons gap gaps ih => exact congrArg (· + 1) (ih _)

/-- The answers to a client are the pages of a scan over the live handles. -/
lemma map_scan (hs : Controller.start config given sink = .ok s) (n : ℕ)
    (cursor : Option (Handle kind)) (hcursor : ∀ h ∈ cursor, h.generation ≠ 0) (steps : List Step)
    (gaps : List (List Step)) :
    ((s.run steps).scan kind n (cursor.map Handle.raw) gaps).map (fun v => v.paged kind) =
      Query.scan n cursor ((s.run steps).livesAt kind gaps) ∧
    ∀ v ∈ (s.run steps).scan kind n (cursor.map Handle.raw) gaps, v.IsPage kind := by
  induction gaps generalizing steps cursor with
  | nil => exact ⟨rfl, List.forall_mem_nil _⟩
  | cons gap gaps ih =>
      have hsteady : ((s.run steps).run gap).core.Steady := by
        rw [run_append]
        exact steady_run hs _
      obtain ⟨v, hnow, hhandles, hpage, hgenerations, hnone, hsome⟩ :=
        scan_cons hsteady hcursor n gaps
      rw [livesAt]
      cases hlast : ((Query.remaining (((s.run steps).run gap).core.handles kind)
          cursor).take n).getLast? with
      | none =>
          rw [hnone hlast, Query.scan_cons_of_none hlast, List.map_singleton, Visit.paged, hnow,
            hhandles, List.getLast?_eq_none_iff.mp hlast]
          exact ⟨rfl, List.forall_mem_singleton.mpr hpage⟩
      | some last =>
          have hlive : ∀ h ∈ some last, h.generation ≠ 0 := fun h hh => by
            obtain rfl := Option.some.inj hh
            exact hgenerations _ (List.mem_of_getLast? hlast)
          obtain ⟨heq, hpages⟩ := ih _ hlive (steps ++ gap)
          rw [run_append] at hsome hnow hhandles hlast ⊢
          rw [hsome last hlast, Query.scan_cons_of_some hlast, List.map_cons, Visit.paged, hnow,
            hhandles, heq]
          exact ⟨rfl, List.forall_mem_cons.mpr ⟨hpage, hpages⟩⟩

/-! ### What a client gets -/

/-- The handles that a scan has returned. -/
def returned (kind : ObjectKind) (visits : List Visit) : List (Handle kind) :=
  visits.flatMap fun v => v.handles kind

variable {visits : List Visit} {lives : List (List (Handle kind))} {h : Handle kind}
  {live : List (Handle kind)}

lemma isScanned_iff (hpages : ∀ v ∈ visits, v.IsPage kind) :
    IsScanned visits ↔ Query.IsFinished (visits.map fun v => v.paged kind) := by
  rw [IsScanned, Query.IsFinished, List.getLast?_map, Option.map_map]
  cases hv : visits.getLast? with
  | none => simp
  | some v =>
      have hresult := (hpages v (List.mem_of_getLast? hv)).result_eq
      have hitems : v.items = (v.handles kind).map Handle.raw := by
        rw [Visit.items, hresult]
      simp [hitems, Visit.paged]

lemma returned_eq (hscan : visits.map (fun v => v.paged kind) = Query.scan n none lives) :
    returned kind visits = Query.returned (Query.scan n none lives) := by
  rw [← hscan, Query.returned, List.flatMap_map]
  rfl

/-- A page has at most `n` of the live handles. -/
lemma handles_subset (hscan : visits.map (fun v => v.paged kind) = Query.scan n none lives)
    (hlives : ∀ live ∈ lives, live.Nodup) {v : Visit} (hv : v ∈ visits) :
    v.handles kind ⊆ v.now.core.handles kind ∧ (v.handles kind).length ≤ n := by
  have hmem : v.paged kind ∈ Query.scan n none lives := by
    rw [← hscan]
    exact List.mem_map_of_mem hv
  exact (Query.subset_of_mem_scan hlives hmem).2

lemma ascending_returned (hscan : visits.map (fun v => v.paged kind) = Query.scan n none lives)
    (hlives : ∀ live ∈ lives, live.Nodup) :
    (returned kind visits).Pairwise fun a b => compare a b = .lt := by
  rw [returned_eq hscan]
  exact (Query.ascending_scan hlives n none).1

/-- A scan up to an empty page has returned what was live at every request. -/
lemma mem_returned (hscan : visits.map (fun v => v.paged kind) = Query.scan n none lives)
    (hlives : ∀ live ∈ lives, live.Nodup) (hpages : ∀ v ∈ visits, v.IsPage kind) (hn : 0 < n)
    (hscanned : IsScanned visits) (hlive : ∀ v ∈ visits, v.now.core.isLive h = true) :
    h ∈ returned kind visits := by
  rw [isScanned_iff hpages, hscan] at hscanned
  rw [returned_eq hscan]
  refine Query.mem_scan hlives hn hscanned ?_ nofun
  rw [← hscan]
  exact List.forall_mem_map.mpr fun v hv => (hpages v hv).steady.mem_handles_iff.mpr (hlive v hv)

/-- While the live handles stay the same, an empty page follows the pages with all of them. -/
lemma isScanned_of_room (hscan : visits.map (fun v => v.paged kind) = Query.scan n none lives)
    (hlives : ∀ live ∈ lives, live.Nodup) (hpages : ∀ v ∈ visits, v.IsPage kind) (hn : 0 < n)
    (hlive : live.Nodup) (hsame : ∀ v ∈ visits, ∀ h, v.now.core.isLive h = true ↔ h ∈ live)
    (hroom : live.length + n ≤ n * lives.length) : IsScanned visits := by
  rw [isScanned_iff hpages, hscan]
  refine Query.isFinished_scan hlives hn hlive ?_ ?_
  · rw [← hscan]
    exact List.forall_mem_map.mpr fun v hv h =>
      (hpages v hv).steady.mem_handles_iff.trans (hsame v hv h)
  · rw [Query.remaining, (Query.perm_sortKeys live).length_eq]
    exact hroom

/-- Take a scan of the objects of a kind, with pages of some size, in any run, and any steps of
others before each of its requests.

Every answer is a page of at most that size: the number of live handles, and raw handles of objects
that are live at the request.  The handles returned ascend by their index, then by generation, so
none comes twice.  The scan stops early only with an empty page.  If its last page is empty, each
handle that was live at every request has been returned exactly once.

If the live handles are the same at every request, an empty page follows the pages with all of them
at the latest, the scan up to it returns exactly these handles, and every answer has their number
as its total. -/
theorem scan_exact (hs : Controller.start config given sink = .ok s) (steps : List Step)
    (kind : ObjectKind) (hn : 0 < n) (gaps : List (List Step)) :
    let visits := (s.run steps).scan kind n none gaps
    (∀ v ∈ visits, ∃ live : List (Handle kind), live.Nodup ∧
      (∀ h, h ∈ live ↔ v.now.core.isLive h = true) ∧
      v.outcome.result = .ok (.listing ⟨live.length, (v.handles kind).map Handle.raw⟩) ∧
      v.handles kind ⊆ live ∧ (v.handles kind).length ≤ n) ∧
    ((returned kind visits).Pairwise fun a b =>
      a.index < b.index ∨ a.index = b.index ∧ a.generation < b.generation) ∧
    (visits.length < gaps.length → IsScanned visits) ∧
    (IsScanned visits → ∀ h : Handle kind, (∀ v ∈ visits, v.now.core.isLive h = true) →
      (returned kind visits).count h = 1) ∧
    (∀ live : List (Handle kind), live.Nodup →
      (∀ v ∈ visits, ∀ h, v.now.core.isLive h = true ↔ h ∈ live) →
      (live.length + n ≤ n * gaps.length → IsScanned visits) ∧
      (IsScanned visits → (returned kind visits).Perm live) ∧
      ∀ v ∈ visits, v.outcome.result =
        .ok (.listing ⟨live.length, (v.handles kind).map Handle.raw⟩)) := by
  intro visits
  obtain ⟨hscan, hpages⟩ : visits.map (fun v => v.paged kind) =
      Query.scan n none ((s.run steps).livesAt kind gaps) ∧ ∀ v ∈ visits, v.IsPage kind :=
    map_scan hs n none nofun steps gaps
  have hlives : ∀ live ∈ (s.run steps).livesAt kind gaps, live.Nodup :=
    nodup_of_mem_livesAt hs steps gaps
  have hlength : ((s.run steps).livesAt kind gaps).length = gaps.length := length_livesAt _ gaps
  have hascending := ascending_returned hscan hlives
  have hnodup := Query.nodup_of_ascending hascending
  refine ⟨fun v hv => ⟨v.now.core.handles kind, (hpages v hv).steady.nodup_handles kind,
      fun h => (hpages v hv).steady.mem_handles_iff, (hpages v hv).result_eq,
      handles_subset hscan hlives hv⟩,
    hascending.imp fun hab => Handle.compare_eq_lt_iff.mp hab, fun hlt => ?_,
    fun hscanned h hlive =>
      List.count_eq_one_of_mem hnodup (mem_returned hscan hlives hpages hn hscanned hlive),
    fun live hlive hsame => ⟨fun hroom => ?_, fun hscanned => ?_, fun v hv => ?_⟩⟩
  · rw [isScanned_iff hpages, hscan]
    refine Query.isFinished_of_length_lt ?_
    rwa [← hscan, List.length_map, hlength]
  · refine isScanned_of_room hscan hlives hpages hn hlive hsame ?_
    rwa [hlength]
  · refine (List.perm_ext_iff_of_nodup hnodup hlive).mpr fun h => ⟨fun hmem => ?_, fun hmem => ?_⟩
    · obtain ⟨v, hv, hh⟩ := List.mem_flatMap.mp hmem
      have hpage := (handles_subset hscan hlives hv).1 hh
      exact (hsame v hv h).mp ((hpages v hv).steady.mem_handles_iff.mp hpage)
    · exact mem_returned hscan hlives hpages hn hscanned fun v hv => (hsame v hv h).mpr hmem
  · have hperm : (v.now.core.handles kind).Perm live :=
      (List.perm_ext_iff_of_nodup ((hpages v hv).steady.nodup_handles kind) hlive).mpr fun h =>
        (hpages v hv).steady.mem_handles_iff.trans (hsame v hv h)
    rw [← hperm.length_eq]
    exact (hpages v hv).result_eq

/-- Steps of others between the requests of a scan of the groups, of which there are three: the
group that the first page ends with makes way for another in its slot, which then goes as well. -/
def meanwhile : List (List Step) :=
  [[.operation (.group (.create .ingress)), .operation (.group (.create .ingress)),
      .operation (.group (.create .ingress))],
   [.operation (.group (.destroy ⟨0, 1⟩)), .operation (.group (.create .egress))],
   [.operation (.group (.destroy ⟨0, 2⟩))], [], []]

/-- The scan returns the new group in the slot of its cursor, and it returns the group that stays
once. -/
theorem scan_of_changing_groups :
    let visits := (fresh.run []).scan .group 1 none meanwhile
    returned .group visits = [⟨0, 1⟩, ⟨0, 2⟩, ⟨1, 1⟩, ⟨2, 1⟩] ∧
      (returned .group visits).count ⟨2, 1⟩ = 1 := by
  intro visits
  obtain ⟨-, -, -, honce, -⟩ := scan_exact start_fresh [] .group Nat.one_pos meanwhile
  obtain ⟨hscan, hpages⟩ : visits.map (fun v => v.paged .group) =
      Query.scan 1 none ((fresh.run []).livesAt .group meanwhile) ∧
        ∀ v ∈ visits, v.IsPage .group := map_scan start_fresh 1 none nofun [] meanwhile
  have hlives : (fresh.run []).livesAt .group meanwhile =
      [[⟨0, 1⟩, ⟨1, 1⟩, ⟨2, 1⟩], [⟨0, 2⟩, ⟨1, 1⟩, ⟨2, 1⟩], [⟨1, 1⟩, ⟨2, 1⟩], [⟨1, 1⟩, ⟨2, 1⟩],
        [⟨1, 1⟩, ⟨2, 1⟩]] := by decide +kernel
  -- the live groups ascend as they are, so that the pages can be computed without sorting them
  have hpaged : Query.scan 1 none ((fresh.run []).livesAt .group meanwhile) =
      [([⟨0, 1⟩, ⟨1, 1⟩, ⟨2, 1⟩], [⟨0, 1⟩]), ([⟨0, 2⟩, ⟨1, 1⟩, ⟨2, 1⟩], [⟨0, 2⟩]),
        ([⟨1, 1⟩, ⟨2, 1⟩], [⟨1, 1⟩]), ([⟨1, 1⟩, ⟨2, 1⟩], [⟨2, 1⟩]), ([⟨1, 1⟩, ⟨2, 1⟩], [])] := by
    have hsorted : ∀ live ∈ (fresh.run []).livesAt .group meanwhile,
        Query.sortKeys live = live := by
      have hpairwise : ∀ live ∈ (fresh.run []).livesAt .group meanwhile,
          live.Pairwise fun a b => (compare a b).isLE = true := by decide +kernel
      exact fun live hlive => Query.sortKeys_of_sorted (hpairwise live hlive)
    rw [hlives] at hsorted ⊢
    obtain ⟨hfirst, hsecond, hlater, -⟩ := by simpa only [List.forall_mem_cons] using hsorted
    simp only [Query.scan, Query.remaining, hfirst, hsecond, hlater]
    decide +kernel
  have hreturned : returned .group visits = [⟨0, 1⟩, ⟨0, 2⟩, ⟨1, 1⟩, ⟨2, 1⟩] := by
    rw [returned_eq hscan, hpaged]
    rfl
  have hscanned : IsScanned visits := by
    rw [isScanned_iff hpages, hscan, hpaged]
    rfl
  refine ⟨hreturned, honce hscanned _ fun v hv => ?_⟩
  have hmem : v.paged .group ∈ visits.map fun v => v.paged .group := List.mem_map_of_mem hv
  have hlive : ∀ p ∈ visits.map fun v => v.paged .group, (⟨2, 1⟩ : Handle .group) ∈ p.1 := by
    rw [hscan, hpaged]
    decide
  exact (hpages v hv).steady.mem_handles_iff.mp (hlive _ hmem)

end Controller

end AclPlane
