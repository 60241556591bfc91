import AclPlane.Proofs.Bindings
import AclPlane.Proofs.Guarantees
import AclPlane.Proofs.StableSort
import AclPlane.Proofs.Transition.Steps

/-!
The order in which the targets of a key are evaluated.

The log of a key is what requests alone have left of it: a binding leaves a single entry, an
addition a new last one, and nothing is ever sorted.  An entry keeps the priority that its target
had at that time.

* `Core.Ranked`: priorities of groups lie in the range of the configuration.
* `Bindings.Ordered`: entries are the sorted log; the lemmas in its namespace say that placing and
  filtering entries keep up with the log.
* `Controller.bindings_ordered`: so it is on every key after every run.
-/

namespace AclPlane

/-! ### Logs of keys -/

namespace Core

/-- The priority with which a target would be bound: its own for a group, the usual one for an
ACL. -/
def priorityNow (c : Core) : BindTarget → ℕ
  | .acl _ => c.config.groupPriority.usual
  | .group id => ((c.groups.groups.get? id).map Group.priority).getD 0

/-- The log of a key after an operation has succeeded. -/
def logBinding (c : Core) (key : BindingKey) (log : List BoundEntry) :
    Option Operation → List BoundEntry
  | some (.binding (.bind k target)) =>
    if k = key then [⟨target, c.priorityNow target⟩] else log
  | some (.binding (.unbind k)) => if k = key then [] else log
  | some (.binding (.add k group)) =>
    if k = key ∧ ∀ e ∈ log, e.target ≠ .group group then
      log ++ [⟨.group group, c.priorityNow (.group group)⟩]
    else log
  | some (.binding (.delete k group)) =>
    if k = key then log.filter (·.target != .group group) else log
  | _ => log

end Core

namespace Controller

/-- The log of a key after several steps; steps that fail leave no trace in it. -/
def bindingLog (key : BindingKey) : Controller → List BoundEntry → List Step → List BoundEntry
  | _, log, [] => log
  | s, log, st :: steps =>
    bindingLog key (s.step st).controller
      (if (s.step st).result.isOk then s.core.logBinding key log st.operation? else log) steps

lemma bindingLog_concat (key : BindingKey) (s : Controller) (log : List BoundEntry)
    (steps : List Step) (st : Step) :
    bindingLog key s log (steps ++ [st]) =
      if ((s.run steps).step st).result.isOk then
        (s.run steps).core.logBinding key (bindingLog key s log steps) st.operation?
      else bindingLog key s log steps := by
  induction steps generalizing s log with
  | nil => rfl
  | cons st' steps ih => exact ih _ _

end Controller

/-! ### Priorities of groups -/

/-- The usual priority lies in the range of a configuration that has been checked. -/
lemma Config.contains_usual {config : Config} (h : config.check = .ok ()) :
    config.groupPriority.contains config.groupPriority.usual = true := by
  rw [check] at h
  split at h
  · cases h
  · simp only [guard_eq_ok, bind_eq_ok, checkPriorities] at h
    obtain ⟨-, -, _, hgroup, -⟩ := h
    by_contra hnot
    rw [if_neg hnot] at hgroup
    cases hgroup

namespace Core

variable {c : Core} {config : Config}

/-- The priorities of groups lie in the range of the configuration, and so does the usual one. -/
structure Ranked (config : Config) (c : Core) : Prop where
  config_eq : c.config = config
  priorities_eq : c.groups.priorities = config.groupPriority
  usual : config.groupPriority.contains config.groupPriority.usual = true
  consistent : c.groups.groups.Consistent
  groups : c.groups.groups.All fun g => config.groupPriority.contains g.priority = true

lemma ranked_new {catalog : Catalog} (h : Core.new config catalog = .ok c) : c.Ranked config := by
  rw [Core.new] at h
  split at h
  · cases h
  · next checked =>
      cases h
      exact ⟨rfl, rfl, Config.contains_usual checked, Arena.consistent_empty _, Arena.all_empty _⟩

/-- A group may be replaced by one whose priority lies in the range. -/
lemma Ranked.withGroup (h : c.Ranked config) {id : Handle .group} {g g' : Group}
    (hg : c.groups.groups.get? id = some g)
    (hp : config.groupPriority.contains g'.priority = true) : (c.withGroup id g').Ranked config :=
  ⟨h.config_eq, h.priorities_eq, h.usual, h.consistent.set hg, h.groups.set hg hp⟩

theorem Ranked.transition {op : Option Operation} {done : Commit OpResult} (h : c.Ranked config)
    (ht : Transition c op done) : done.core.Ranked config := by
  cases ht with
  | createGroup planned inserted =>
      refine ⟨h.config_eq, h.priorities_eq, h.usual, h.consistent.insertWith? inserted,
        h.groups.insertWith? h.consistent inserted ?_⟩
      rw [h.priorities_eq]
      exact h.usual
  | setGroupAcls found checked => exact h.withGroup found (h.groups _ _ found :)
  | addGroupAcl found planned => exact h.withGroup found (h.groups _ _ found :)
  | deleteGroupAcl found planned => exact h.withGroup found (h.groups _ _ found :)
  | chainGroups found planned => exact h.withGroup found (h.groups _ _ found :)
  | unchainGroup found followed => exact h.withGroup found (h.groups _ _ found :)
  | setGroupPriority found allowed => exact h.withGroup found (h.priorities_eq ▸ allowed)
  | destroyGroup unbound unfollowing removed =>
      exact ⟨h.config_eq, h.priorities_eq, h.usual, h.consistent.remove? removed,
        h.groups.remove? removed⟩
  | _ => exact ⟨h.config_eq, h.priorities_eq, h.usual, h.consistent, h.groups⟩

/-- A target is bound with the priority that it has, which lies in the range. -/
lemma Ranked.of_targetPriority (h : c.Ranked config) {d : Direction} {target : BindTarget}
    {priority : ℕ} (hp : c.targetPriority d target = .ok priority) :
    c.priorityNow target = priority ∧ config.groupPriority.contains priority = true := by
  cases target with
  | acl id =>
      obtain ⟨-, -, -, -, rfl⟩ := targetPriority_acl_eq_ok.mp hp
      rw [priorityNow, h.priorities_eq, h.config_eq]
      exact ⟨rfl, h.usual⟩
  | group id =>
      obtain ⟨g, hg, -, -, rfl⟩ := targetPriority_group_eq_ok.mp hp
      rw [priorityNow, hg]
      exact ⟨rfl, h.groups _ _ hg⟩

end Core

/-! ### Entries in order -/

namespace Bindings

variable {range : PriorityRange} {log list : List BoundEntry} {entry : BoundEntry}

/-- The entries of a key with a log: sorted, without repetition, with no ACL but a single one, and
with priorities in the range. -/
structure Ordered (range : PriorityRange) (log list : List BoundEntry) : Prop where
  sorted : list = log.sortDescending BoundEntry.priority
  distinct : (list.map BoundEntry.target).Nodup
  alone : ∀ e ∈ list, e.target.isAcl = true → list = [e]
  contains : ∀ e ∈ list, range.contains e.priority = true

lemma perm_place (entry : BoundEntry) (list : List BoundEntry) :
    (place entry list).Perm (entry :: list) := by
  rw [place]
  refine List.perm_middle.trans (.cons _ ?_)
  rw [List.takeWhile_append_dropWhile]

namespace Ordered

lemma mem_log_iff (h : Ordered range log list) {e : BoundEntry} : e ∈ log ↔ e ∈ list := by
  rw [h.sorted, List.mem_sortDescending]

lemma nil : Ordered range [] [] :=
  ⟨List.mergeSort_nil.symm, List.nodup_nil, fun _ he => absurd he List.not_mem_nil,
    fun _ he => absurd he List.not_mem_nil⟩

/-- A single entry is in order. -/
lemma single (h : range.contains entry.priority = true) : Ordered range [entry] [entry] := by
  refine ⟨(List.mergeSort_singleton _).symm, List.nodup_singleton _, fun e he _ => ?_,
    fun e he => ?_⟩
  · rw [List.mem_singleton.mp he]
  · rwa [List.mem_singleton.mp he]

/-- A group that is not there yet is placed behind the entries of equal or higher priority. -/
lemma place (h : Ordered range log list) (hrange : range.contains entry.priority = true)
    (hgroup : entry.target.isAcl = false)
    (hfree : ∀ e ∈ list, e.target ≠ entry.target ∧ e.target.isAcl = false) :
    Ordered range (log ++ [entry]) (place entry list) := by
  refine ⟨?_, ?_, fun e he hacl => ?_, fun e he => ?_⟩
  · rw [List.sortDescending_concat, ← h.sorted]
    rfl
  · refine ((perm_place entry list).map _).nodup_iff.mpr (List.nodup_cons.mpr ⟨?_, h.distinct⟩)
    rintro hmem
    obtain ⟨e, he, ht⟩ := List.mem_map.mp hmem
    exact (hfree e he).1 ht
  · rcases mem_place.mp he with rfl | he
    · exact absurd (hgroup.symm.trans hacl) Bool.false_ne_true
    · exact absurd ((hfree e he).2.symm.trans hacl) Bool.false_ne_true
  · rcases mem_place.mp he with rfl | he
    · exact hrange
    · exact h.contains e he

/-- Entries may be removed from the list and the log alike. -/
lemma filter (h : Ordered range log list) (p : BoundEntry → Bool) :
    Ordered range (log.filter p) (list.filter p) := by
  refine ⟨?_, h.distinct.sublist (List.filter_sublist.map _), fun e he hacl => ?_, fun e he => ?_⟩
  · rw [h.sorted, List.filter_sortDescending]
  · obtain ⟨hmem, hp⟩ := List.mem_filter.mp he
    rw [h.alone e hmem hacl, List.filter_cons_of_pos hp, List.filter_nil]
  · exact h.contains e (List.mem_filter.mp he).1

end Ordered

end Bindings

/-! ### Every transition -/

namespace Core

variable {c : Core} {config : Config} {key : BindingKey} {log : List BoundEntry}

/-- An operation that is no operation on bindings leaves no trace in the log of a key. -/
lemma logBinding_of_reading {op : Option Operation} (h : ∀ o ∈ op, o.isReading = true) :
    c.logBinding key log op = log := by
  rcases op with _ | op
  · rfl
  · cases op with
    | binding op => cases h _ rfl
    | _ => rfl

/-- Every operation that succeeds changes the entries of a key as it changes the log. -/
theorem ordered_transition {op : Option Operation} {done : Commit OpResult}
    (hc : c.Ranked config)
    (h : Bindings.Ordered config.groupPriority log (c.bindings.entriesAt key))
    (ht : Transition c op done) :
    Bindings.Ordered config.groupPriority (c.logBinding key log op)
      (done.core.bindings.entriesAt key) := by
  cases ht with
  | observe reading => rwa [logBinding_of_reading reading]
  | @bind k target priority pools checked bindable counted =>
      obtain ⟨rfl, hrange⟩ := hc.of_targetPriority bindable
      rw [logBinding, rebound, Bindings.entriesAt_commit]
      by_cases hk : k = key
      · rw [if_pos hk, if_pos hk.symm]
        exact .single hrange
      · rwa [if_neg hk, if_neg (Ne.symm hk)]
  | @unbind k pools checked bound counted =>
      rw [logBinding, rebound, Bindings.entriesAt_commit]
      by_cases hk : k = key
      · rw [if_pos hk, if_pos hk.symm]
        exact .nil
      · rwa [if_neg hk, if_neg (Ne.symm hk)]
  | @bindAdd k group priority list pools checked bindable planned counted =>
      obtain ⟨rfl, hrange⟩ := hc.of_targetPriority bindable
      obtain ⟨hfree, rfl⟩ := Bindings.planAdd_eq_some.mp planned
      rw [logBinding, rebound, Bindings.entriesAt_commit]
      by_cases hk : k = key
      · subst hk
        rw [if_pos rfl, if_pos ⟨rfl, fun e he => (hfree e (h.mem_log_iff.mp he)).1⟩]
        exact h.place hrange rfl hfree
      · rwa [if_neg fun hand => hk hand.1, if_neg (Ne.symm hk)]
  | @bindAgain k group priority checked bindable planned =>
      rw [logBinding]
      rwa [if_neg]
      rintro ⟨rfl, hfree⟩
      obtain ⟨e, he, ht⟩ := Bindings.planAdd_eq_none.mp planned
      exact hfree e (h.mem_log_iff.mpr he) ht
  | @bindDelete k group list pools checked planned counted =>
      obtain ⟨-, rfl⟩ := Bindings.planDelete_eq_ok.mp planned
      rw [logBinding, rebound, Bindings.entriesAt_commit]
      by_cases hk : k = key
      · subst hk
        rw [if_pos rfl, if_pos rfl]
        exact h.filter _
      · rwa [if_neg hk, if_neg (Ne.symm hk)]
  | _ => exact h

end Core

namespace Controller

variable {s : Controller} {config : Config} {given : Option (List KeyBlock)} {sink : Sink}

/-- Every run keeps the priorities of groups in the range of the configuration. -/
theorem ranked_run (hs : Controller.start config given sink = .ok s) (steps : List Step) :
    (s.run steps).core.Ranked config :=
  run_invariant hs Core.ranked_new
    (fun _ h => ⟨h.config_eq, h.priorities_eq, h.usual, h.consistent, h.groups⟩)
    (fun h => h.transition) steps

/-- After every run the entries of a key are its sorted log. -/
theorem ordered_run (hs : Controller.start config given sink = .ok s) (key : BindingKey)
    (steps : List Step) :
    Bindings.Ordered config.groupPriority (bindingLog key s [] steps)
      ((s.run steps).core.bindings.entriesAt key) := by
  refine run_induction (p := fun steps c => Bindings.Ordered config.groupPriority
    (bindingLog key s [] steps) (c.bindings.entriesAt key)) hs (fun hnew => ?_)
    (fun {steps _ _} ih hok ht => ?_) (fun _ ih herror => ?_) steps
  · rw [Core.new] at hnew
    split at hnew
    · cases hnew
    · cases hnew
      exact .nil
  · rw [bindingLog_concat, hok]
    exact Core.ordered_transition (ranked_run hs steps) ih ht
  · rw [bindingLog_concat, herror]
    exact ih

/-- After every run no key is listed with nothing bound. -/
theorem entries_ne_run (hs : Controller.start config given sink = .ok s) (key : BindingKey)
    (steps : List Step) : (s.run steps).core.bindings.entries.get? key ≠ some [] := by
  refine run_invariant (p := fun c => ∀ k, c.bindings.entries.get? k ≠ some []) hs
    (fun hnew k => ?_) (fun _ h => h) (fun h ht => ?_) steps key
  · rw [Core.new] at hnew
    split at hnew
    · cases hnew
    · cases hnew
      intro hlisted
      cases hlisted
  · cases ht with
    | bind => exact Bindings.get?_commit_ne_nil h
    | unbind => exact Bindings.get?_commit_ne_nil h
    | bindAdd => exact Bindings.get?_commit_ne_nil h
    | bindDelete => exact Bindings.get?_commit_ne_nil h
    | _ => exact h

/-- Giving a group another priority leaves all bindings as they are. -/
lemma bindings_of_setPriority {st : Step} {id : Handle .group} {priority : ℕ}
    (hop : st.operation? = some (.group (.setPriority id priority))) :
    (s.step st).controller.core.bindings = s.core.bindings := by
  cases s.follows_step st with
  | done result transition delivered =>
      rw [hop] at transition
      generalize (s.step st).controller.core = c at transition
      cases transition with
      | observe reading => rfl
      | setGroupPriority found allowed => rfl
  | failed result unchanged => rw [unchanged]

/-! ### Order of evaluation -/

/-- After every run the entries of a key are those of its log, stably sorted by descending
priority.  No target is listed twice, an ACL is alone, and every priority lies in the range of the
configuration.  Giving a group another priority changes no binding, and a key on which nothing is
bound is not listed. -/
theorem bindings_ordered (hs : Controller.start config given sink = .ok s) (steps : List Step)
    (key : BindingKey) :
    let b := (s.run steps).core.bindings
    b.entriesAt key = (bindingLog key s [] steps).sortDescending BoundEntry.priority ∧
    ((b.entriesAt key).map BoundEntry.target).Nodup ∧
    (∀ e ∈ b.entriesAt key, e.target.isAcl = true → b.entriesAt key = [e]) ∧
    (∀ e ∈ b.entriesAt key,
      config.groupPriority.min ≤ e.priority ∧ e.priority ≤ config.groupPriority.max) ∧
    (∀ st id priority, st.operation? = some (.group (.setPriority id priority)) →
      ((s.run steps).step st).controller.core.bindings = b) ∧
    b.entries.get? key ≠ some [] := by
  intro b
  have h := ordered_run hs key steps
  refine ⟨h.sorted, h.distinct, h.alone, fun e he => ?_, fun _ _ _ => bindings_of_setPriority,
    entries_ne_run hs key steps⟩
  simpa [PriorityRange.contains] using h.contains e he

/-- Adds three groups to a port, the second of them with a higher priority; then the first gets the
highest of all. -/
def adding : List Step :=
  [.operation (.group (.create .ingress)),
   .operation (.group (.create .ingress)),
   .operation (.group (.create .ingress)),
   .operation (.group (.setPriority ⟨1, 1⟩ 9)),
   .operation (.binding (.add ⟨.port ⟨7⟩, .ingress⟩ ⟨0, 1⟩)),
   .operation (.binding (.add ⟨.port ⟨7⟩, .ingress⟩ ⟨1, 1⟩)),
   .operation (.binding (.add ⟨.port ⟨7⟩, .ingress⟩ ⟨2, 1⟩)),
   .operation (.group (.setPriority ⟨0, 1⟩ 20))]

/-- The second group is evaluated first; the others keep the order in which they were added. -/
theorem groups_in_order :
    let log : List BoundEntry :=
      [⟨.group ⟨0, 1⟩, 8⟩, ⟨.group ⟨1, 1⟩, 9⟩, ⟨.group ⟨2, 1⟩, 8⟩]
    bindingLog ⟨.port ⟨7⟩, .ingress⟩ fresh [] adding = log ∧
      log.sortDescending BoundEntry.priority =
        [⟨.group ⟨1, 1⟩, 9⟩, ⟨.group ⟨0, 1⟩, 8⟩, ⟨.group ⟨2, 1⟩, 8⟩] := by
  intro log
  have hlog : bindingLog ⟨.port ⟨7⟩, .ingress⟩ fresh [] adding = log := by decide +kernel
  obtain ⟨hsorted, -⟩ := bindings_ordered start_fresh adding ⟨.port ⟨7⟩, .ingress⟩
  rw [hlog] at hsorted
  exact ⟨hlog, hsorted.symm.trans (by decide +kernel)⟩

end Controller

end AclPlane
