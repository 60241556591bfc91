import AclPlane.Proofs.KeyCover
import AclPlane.Proofs.KeyTypes
import AclPlane.Proofs.References
import AclPlane.Proofs.Transition.Steps

/-!
What a request for a key type gives after any history of requests.

A request without a first block takes whatever key type is interned for its fields, and that may
have been compiled from a first block at an earlier request.  So the blocks are as few as they can
be, or they are as few as they can be beside the first block of that request.

* `KeyTypes.Compiled`: the blocks of every key type are what is compiled for its fields, freely or
  from a first block that has been asked for.
* `Controller.Hinted`: a step of a run has created a key type from a first block.
* `Controller.compiled_run`: every run keeps its key types compiled.
* `Controller.cover_smallest_unless_hinted`: what a request without a first block gives.
* `Controller.reused_cover_not_smallest`: it need not be a smallest cover.
-/

namespace AclPlane

/-! ### Compiled key types -/

namespace KeyTypes

variable {k k' : KeyTypes} {id : Handle .keyType} {kt : KeyType} {catalog : Catalog}
  {hinted hinted' : Handle .keyType → FieldSet → KeyBlockId → Prop}

/-- The blocks of every key type are what is compiled for its fields, freely or from a first block
that `hinted` allows. -/
structure Compiled (k : KeyTypes) (catalog : Catalog)
    (hinted : Handle .keyType → FieldSet → KeyBlockId → Prop) : Prop where
  consistent : k.types.Consistent
  linked : k.Linked
  blocks : ∀ id ct, k.types.get? id = some ct → ∃ first,
    KeyCover.compile catalog k.maxBlocks ct.value.fields first = .ok ct.value.blocks ∧
      ∀ b ∈ first, hinted id ct.value.fields b

namespace Compiled

lemma empty (maxKeyTypes maxBlocks : ℕ) :
    (KeyTypes.empty maxKeyTypes maxBlocks).Compiled catalog hinted :=
  ⟨Arena.consistent_empty _, linked_empty _ _, fun id ct hct => by
    rw [show (KeyTypes.empty maxKeyTypes maxBlocks).types.get? id = none from Arena.get?_empty _]
      at hct
    cases hct⟩

lemma mono (h : k.Compiled catalog hinted)
    (hmono : ∀ id fields b, hinted id fields b → hinted' id fields b) :
    k.Compiled catalog hinted' :=
  { h with
    blocks := fun id ct hct => by
      obtain ⟨first, hcompile, hfirst⟩ := h.blocks id ct hct
      exact ⟨first, hcompile, fun b hb => hmono _ _ _ (hfirst b hb)⟩ }

lemma register (h : k.Compiled catalog hinted) (hr : k.register kt = .ok (id, k'))
    {first : Option KeyBlockId}
    (hcompile : KeyCover.compile catalog k.maxBlocks kt.fields first = .ok kt.blocks)
    (hfirst : ∀ b ∈ first, hinted id kt.fields b) : k'.Compiled catalog hinted := by
  have hlinked := h.linked.register h.consistent hr
  obtain ⟨types, hins, rfl⟩ := register_eq_ok.mp hr
  refine ⟨h.consistent.insertWith? hins, hlinked, fun i ct hct => ?_⟩
  rw [Arena.get?_insertWith? h.consistent hins] at hct
  split at hct
  · next heq =>
      cases hct
      subst heq
      exact ⟨first, hcompile, hfirst⟩
  · exact h.blocks i ct hct

/-- A request keeps key types compiled, provided that a new one may come from its first block. -/
lemma intern (h : k.Compiled catalog hinted) {list : List BasicKey} {hint : Option KeyBlockId}
    (hr : k.intern catalog list hint = .ok (id, k'))
    (hnew : ∀ b, hint = some b → k.types.contains id = false →
      hinted id (FieldSet.ofList list) b) : k'.Compiled catalog hinted := by
  cases hint with
  | none =>
      rcases internAny_eq_ok.mp hr with ⟨-, rfl⟩ | ⟨-, blocks, hcompile, hregister⟩
      · exact h
      · exact h.register hregister hcompile fun b hb => by cases hb
  | some first =>
      rcases internHinted_eq_ok.mp hr with
        ⟨-, rfl⟩ | ⟨-, blocks, hcompile, ⟨-, rfl⟩ | ⟨-, hregister⟩⟩
      · exact h
      · exact h
      · refine h.register hregister hcompile fun b hb => ?_
        obtain rfl := Option.some.inj hb
        refine hnew first rfl ?_
        obtain ⟨types, hins, -⟩ := register_eq_ok.mp hregister
        rw [Arena.contains,
          Arena.get?_of_nextHandle? h.consistent (Arena.nextHandle?_of_insertWith? hins)]
        rfl

lemma destroy (h : k.Compiled catalog hinted) (hd : k.destroy id = .ok k') :
    k'.Compiled catalog hinted := by
  have hlinked := h.linked.destroy hd
  obtain ⟨ct, types, -, -, hrem, rfl⟩ := destroy_eq_ok.mp hd
  refine ⟨h.consistent.remove? hrem, hlinked, fun i ct' hct' => ?_⟩
  rw [Arena.get?_remove? hrem] at hct'
  split at hct'
  · cases hct'
  · exact h.blocks i ct' hct'

lemma recounted (h : k.Compiled catalog hinted) (hrec : k.types.Recounted k'.types)
    (hinterned : k'.interned = k.interned) (hmax : k'.maxBlocks = k.maxBlocks) :
    k'.Compiled catalog hinted := by
  refine ⟨hrec.consistent h.consistent, h.linked.recounted hrec hinterned, fun i ct hct => ?_⟩
  have hvalue := hrec.value i
  rw [hct, Option.map_some, eq_comm, Option.map_eq_some_iff] at hvalue
  obtain ⟨ct', hct', heq⟩ := hvalue
  rw [hmax, ← heq]
  exact h.blocks i ct' hct'

end Compiled

/-- A request without a first block gives a key type with exactly its fields. -/
lemma exists_of_internAny (h : k.Linked) (hc : k.types.Consistent) {fields : FieldSet}
    (hr : k.internAny catalog fields = .ok (id, k')) :
    ∃ ct, k'.types.get? id = some ct ∧ ct.value.fields = fields := by
  rcases internAny_eq_ok.mp hr with ⟨hid, rfl⟩ | ⟨-, blocks, -, hregister⟩
  · exact h fields id hid
  · obtain ⟨types, hins, rfl⟩ := register_eq_ok.mp hregister
    exact ⟨Counted.new ⟨fields, blocks⟩, by rw [Arena.get?_insertWith? hc hins, if_pos rfl], rfl⟩

end KeyTypes

namespace Core

variable {c : Core} {catalog : Catalog}
  {hinted hinted' : Handle .keyType → FieldSet → KeyBlockId → Prop}

/-- The key types of a model are compiled from its catalog. -/
structure Compiled (c : Core) (catalog : Catalog)
    (hinted : Handle .keyType → FieldSet → KeyBlockId → Prop) : Prop where
  catalog_eq : c.catalog = catalog
  keyTypes : c.keyTypes.Compiled catalog hinted

/-- Every transition keeps key types compiled, provided that a new one may come from the first
block that is asked for. -/
theorem Compiled.transition {op : Option Operation} {done : Commit OpResult}
    (h : c.Compiled catalog hinted) (ht : Transition c op done)
    (hmono : ∀ id fields b, hinted id fields b → hinted' id fields b)
    (hnew : ∀ list b, ∀ id : Handle .keyType, op = some (.keyType (.create list (some b))) →
      done.result = .created id.raw → c.isLive id = false →
        hinted' id (FieldSet.ofList list) b) : done.core.Compiled catalog hinted' := by
  have hk := h.keyTypes.mono hmono
  cases ht with
  | createKeyType found =>
      rw [h.catalog_eq] at found
      refine ⟨h.catalog_eq, hk.intern found ?_⟩
      rintro b rfl hfresh
      exact hnew _ b _ rfl rfl hfresh
  | destroyKeyType destroyed => exact ⟨h.catalog_eq, hk.destroy destroyed⟩
  | createRegion found planned inserted counted =>
      obtain ⟨hrec, hinterned, hmax⟩ := KeyTypes.recounted_acquire counted
      exact ⟨h.catalog_eq, hk.recounted hrec hinterned hmax⟩
  | destroyRegion unused removed uncounted released =>
      obtain ⟨hrec, hinterned, hmax⟩ := KeyTypes.recounted_release uncounted
      exact ⟨h.catalog_eq, hk.recounted hrec hinterned hmax⟩
  | _ => exact ⟨h.catalog_eq, hk⟩

end Core

namespace Controller

variable {s : Controller} {steps : List Step}

/-! ### Runs -/

/-- A step of a run, a request for the fields with the first block `b`, has created a key type. -/
inductive Hinted (s : Controller) (steps : List Step) (id : Handle .keyType) (fields : FieldSet)
    (b : KeyBlockId) : Prop where
  | mk {before after : List Step} {st : Step} {list : List BasicKey}
      (split : steps = before ++ st :: after)
      (asked : st.operation? = some (.keyType (.create list (some b))))
      (same : FieldSet.ofList list = fields)
      (fresh : (s.run before).core.isLive id = false)
      (created : ((s.run before).step st).result = .ok (.created id.raw))

lemma Hinted.append {id : Handle .keyType} {fields : FieldSet} {b : KeyBlockId}
    (h : Hinted s steps id fields b) (more : List Step) : Hinted s (steps ++ more) id fields b := by
  obtain ⟨split, asked, same, fresh, created⟩ := h
  exact ⟨by rw [split, List.append_assoc, List.cons_append], asked, same, fresh, created⟩

/-- Every run keeps its key types compiled. -/
theorem compiled_run {config : Config} {blocks : Option (List KeyBlock)} {sink : Sink}
    (hs : Controller.start config blocks sink = .ok s) (steps : List Step) :
    (s.run steps).core.Compiled s.core.catalog (s.Hinted steps) := by
  -- the induction takes the last step off, since what has been asked for lies before it
  induction steps using List.reverseRecOn with
  | nil =>
      simp only [Controller.start, bind_eq_ok, pure_eq_ok] at hs
      obtain ⟨catalog, -, core, hcore, rfl⟩ := hs
      rw [Core.new] at hcore
      split at hcore
      · cases hcore
      · cases hcore
        exact ⟨rfl, .empty _ _⟩
  | append_singleton steps st ih =>
      have hmono := fun id fields b (h : s.Hinted steps id fields b) => h.append [st]
      rw [run_concat]
      cases (s.run steps).follows_step st with
      | done result transition delivered =>
          refine ih.transition transition hmono fun list b id asked created fresh => ?_
          refine ⟨rfl, asked, rfl, fresh, ?_⟩
          rw [result]
          exact congrArg _ created
      | failed result unchanged =>
          rw [unchanged]
          exact ⟨ih.catalog_eq, ih.keyTypes.mono hmono⟩

lemma lawful_start {config : Config} {given : Option (List KeyBlock)} {sink : Sink}
    (hs : Controller.start config given sink = .ok s) : s.core.catalog.Lawful := by
  simp only [Controller.start, bind_eq_ok, pure_eq_ok] at hs
  obtain ⟨catalog, hgiven, core, hcore, rfl⟩ := hs
  rw [Core.new] at hcore
  split at hcore
  · cases hcore
  · cases hcore
    exact Catalog.lawful_ofGiven hgiven

/-- In every run the blocks of a key type cover its fields, of which there is one, within the
budget. -/
lemma isCover_run {config : Config} {given : Option (List KeyBlock)} {sink : Sink}
    (hs : Controller.start config given sink = .ok s) (steps : List Step) {id : Handle .keyType}
    {ct : Counted KeyType} (hct : (s.run steps).core.keyTypes.types.get? id = some ct) :
    (s.run steps).core.catalog.IsCover ct.value.fields ct.value.blocks ∧
      ct.value.fields.isEmpty = false ∧
      ct.value.blocks.length ≤ (s.run steps).core.keyTypes.maxBlocks := by
  have hcompiled := compiled_run hs steps
  obtain ⟨first, hcompile, -⟩ := hcompiled.keyTypes.blocks id ct hct
  obtain ⟨hcover, hle, -⟩ := KeyCover.isCover_of_compile (lawful_start hs) hcompile
  rw [hcompiled.catalog_eq]
  exact ⟨hcover, (KeyCover.exposed_of_compile hcompile).1, hle⟩

/-! ### Requests without a first block -/

lemma intern_of_create {fields : List BasicKey} {hint : Option KeyBlockId} {id : Handle .keyType}
    (h : (s.step (.operation (.keyType (.create fields hint)))).result =
      .ok (.created id.raw)) :
    s.core.keyTypes.intern s.core.catalog fields hint = .ok (id,
      (s.step (.operation (.keyType (.create fields hint)))).controller.core.keyTypes) := by
  have hfollows := s.follows_step (.operation (.keyType (.create fields hint)))
  generalize s.step (.operation (.keyType (.create fields hint))) = o at h hfollows ⊢
  obtain ⟨result, events, core, device, hub⟩ := o
  cases hfollows with
  | done hresult transition delivered =>
      obtain rfl : _ = OpResult.created id.raw := Except.ok.inj (hresult.symm.trans h)
      generalize hcreated : OpResult.created id.raw = r at transition
      cases transition with
      | observe reading => cases reading _ rfl
      | createKeyType found =>
          rw [OpResult.created.injEq, Handle.raw_inj] at hcreated
          rw [hcreated]
          exact found
  | failed hresult unchanged => cases hresult.symm.trans h

/-- A region takes one block of the hardware budget for each block of its key type and each row. -/
lemma hwUsed_of_createRegion {id : Handle .keyType} {ct : Counted KeyType} {capacity : ℕ}
    (hct : s.core.keyTypes.types.get? id = some ct)
    (h : (s.step (.operation (.region (.create id capacity)))).result.isOk = true) :
    (s.step (.operation (.region (.create id capacity)))).controller.core.regions.hwUsed =
      s.core.regions.hwUsed +
        Region.rowCost (Regions.roundUp capacity) ct.value.blocks.length := by
  have hfollows := s.follows_step (.operation (.region (.create id capacity)))
  generalize s.step (.operation (.region (.create id capacity))) = o at h hfollows ⊢
  obtain ⟨result, events, core, device, hub⟩ := o
  cases hfollows with
  | done hresult transition delivered =>
      cases transition with
      | observe reading => cases reading _ rfl
      | createRegion found planned inserted counted =>
          obtain rfl := Option.some.inj (found.symm.trans hct)
          obtain ⟨hsize, -, -⟩ := Regions.planCreate_eq_ok.mp planned
          rw [(Regions.hwSizeFor_eq_ok.mp hsize).2]
          rfl
  | failed hresult unchanged =>
      rw [show result = .error _ from hresult] at h
      cases h

/-- In every run over a catalog of at most 16 blocks, a request without a first block that succeeds
gives a key type with exactly the requested fields, whose blocks cover them.  No cover has fewer
blocks, unless an earlier request has created the key type from a first block: then it begins with
that block, and no cover with that block has fewer.  A region of the key type takes as many blocks
in each row. -/
theorem cover_smallest_unless_hinted {config : Config} {given : Option (List KeyBlock)}
    {sink : Sink} (hs : Controller.start config given sink = .ok s)
    (hsize : s.core.catalog.size ≤ 16) (steps : List Step) {fields : List BasicKey}
    {id : Handle .keyType}
    (h : ((s.run steps).step (.operation (.keyType (.create fields none)))).result =
      .ok (.created id.raw)) :
    let s' := ((s.run steps).step (.operation (.keyType (.create fields none)))).controller
    ∃ ct, s'.core.keyTypes.types.get? id = some ct ∧ ct.value.fields = FieldSet.ofList fields ∧
      s.core.catalog.IsCover (FieldSet.ofList fields) ct.value.blocks ∧
      ((∀ other, s.core.catalog.IsCover (FieldSet.ofList fields) other →
          ct.value.blocks.length ≤ other.length) ∨
        ∃ b, s.Hinted steps id (FieldSet.ofList fields) b ∧ ct.value.blocks.head? = some b ∧
          ∀ other, s.core.catalog.IsCover (FieldSet.ofList fields) other → b ∈ other →
            ct.value.blocks.length ≤ other.length) ∧
      ∀ capacity, (s'.step (.operation (.region (.create id capacity)))).result.isOk = true →
        (s'.step (.operation (.region (.create id capacity)))).controller.core.regions.hwUsed =
          s'.core.regions.hwUsed +
            Region.rowCost (Regions.roundUp capacity) ct.value.blocks.length := by
  intro s'
  have hlawful := lawful_start hs
  have hbefore := compiled_run hs steps
  have hintern := intern_of_create h
  rw [hbefore.catalog_eq] at hintern
  have hafter : s'.core.keyTypes.Compiled s.core.catalog (s.Hinted steps) :=
    hbefore.keyTypes.intern hintern fun b hb => by cases hb
  obtain ⟨ct, hct, hfields⟩ :=
    KeyTypes.exists_of_internAny hbefore.keyTypes.linked hbefore.keyTypes.consistent hintern
  obtain ⟨first, hcompile, hfirst⟩ := hafter.blocks id ct hct
  rw [hfields] at hcompile hfirst
  obtain ⟨hcover, -, rest, hblocks, -⟩ := KeyCover.isCover_of_compile hlawful hcompile
  have hsmallest : ∀ other, s.core.catalog.IsCover (FieldSet.ofList fields) other →
      (∀ b ∈ first, b ∈ other) → ct.value.blocks.length ≤ other.length := fun other =>
    KeyCover.length_le_of_compile hlawful (KeyCover.selectionCount_le hsize) hcompile
  refine ⟨ct, hct, hfields, hcover, ?_, fun capacity => hwUsed_of_createRegion hct⟩
  cases first with
  | none => exact .inl fun other hother => hsmallest other hother fun b hb => by cases hb
  | some b =>
      refine .inr ⟨b, hfirst b rfl, by rw [hblocks]; rfl, fun other hother hb => ?_⟩
      exact hsmallest other hother fun b' hb' => Option.some.inj hb' ▸ hb

/-! ### A cover that is used again -/

/-- A request for both IPv4 addresses, from a first block if one is given. -/
def addressRequest (hint : Option KeyBlockId) : Step :=
  .operation (.keyType (.create [.srcIp, .dstIp] hint))

lemma catalog_run_fresh (steps : List Step) : (fresh.run steps).core.catalog = .builtIn :=
  (compiled_run start_fresh steps).catalog_eq

lemma created_addressRequest :
    ((fresh.run [addressRequest (some ⟨4⟩)]).step (addressRequest none)).result =
      .ok (.created (⟨0, 1⟩ : Handle .keyType).raw) := by decide +kernel

lemma blocks_addressRequest :
    (((fresh.run [addressRequest (some ⟨4⟩)]).step
      (addressRequest none)).controller.core.keyTypes.types.get? ⟨0, 1⟩).map
        (fun ct => ct.value.blocks) = some [⟨4⟩, ⟨3⟩] := by decide +kernel

/-- After a request with the first block 4 the one without a first block gives the same key type,
whose first block is needed with another beside it. -/
theorem four_covers_not_alone :
    ((fresh.run [addressRequest (some ⟨4⟩)]).step (addressRequest none)).result =
      .ok (.created (⟨0, 1⟩ : Handle .keyType).raw) ∧
    ¬Catalog.builtIn.IsCover (FieldSet.ofList [.srcIp, .dstIp]) [⟨4⟩] := by
  refine ⟨created_addressRequest, fun hfour => ?_⟩
  obtain ⟨ct, hct, -, -, hsmallest, -⟩ := cover_smallest_unless_hinted start_fresh
    (by decide +kernel) [addressRequest (some ⟨4⟩)] created_addressRequest
  have hmap := congrArg (Option.map fun ct => ct.value.blocks) hct
  have hblocks : ct.value.blocks = [⟨4⟩, ⟨3⟩] :=
    Option.some.inj (hmap.symm.trans blocks_addressRequest)
  rw [hblocks] at hsmallest
  rcases hsmallest with hall | ⟨b, -, hhead, hbeside⟩
  · exact absurd (hall _ hfour) (by decide)
  · obtain rfl : _ = b := Option.some.inj hhead
    exact absurd (hbeside _ hfour (List.mem_cons_self ..)) (by decide)

/-- A request with the first block 4 is answered by the blocks 4 and 3, and so is the next one
without a first block, although block 3 alone covers both addresses. -/
theorem reused_cover_not_smallest :
    let s := fresh.run [addressRequest (some ⟨4⟩)]
    Reachable s ∧ s.core.catalog.size ≤ 16 ∧
    (s.step (addressRequest none)).result = .ok (.created (⟨0, 1⟩ : Handle .keyType).raw) ∧
    ((s.step (addressRequest none)).controller.core.keyTypes.types.get? ⟨0, 1⟩).map
      (fun ct => ct.value.blocks) = some [⟨4⟩, ⟨3⟩] ∧
    s.core.catalog.IsCover (FieldSet.ofList [.srcIp, .dstIp]) [⟨3⟩] := by
  refine ⟨(Reachable.start start_fresh).run (by decide +kernel), by decide +kernel,
    created_addressRequest, blocks_addressRequest, ?_⟩
  have hcompile : KeyCover.compile .builtIn 6 (FieldSet.ofList [.srcIp, .dstIp]) none =
      .ok [⟨3⟩] := by cbv
  rw [catalog_run_fresh]
  exact (KeyCover.isCover_of_compile (lawful_start start_fresh) hcompile).1

end Controller

end AclPlane
