import AclPlane.Proofs.Marks.Determined

/-!
Operations on the rules of different regions commute.

The regions share the pools, the key types, the statistics and the device.  But a plan reads the
outline of the model and the rules of its own region, and neither changes with the rules of another
region; and the counts in the pools, which both operations change, follow from the rules at the end.

* `Core.call_ruleChange`: what a plan depends on.
* `Controller.Ruled.eq_of_swap`: two operations that succeed leave the same controller behind in
  either order, since marks and statistics do not show the order.
* `Controller.rule_operations_commute`: so results and controller do not depend on the order.
-/

namespace AclPlane

/-! ### What a plan depends on -/

namespace Core

variable {c c' : Core} {region : Handle .region}

lemma call_setRules (houtline : c'.outline = c.outline)
    (hget : c'.regions.get region = c.regions.get region) (offsets : List ℕ) (rules : List Rule) :
    (c'.setRules region offsets rules).map Change.call =
      (c.setRules region offsets rules).map Change.call := by
  obtain ⟨hconfig, -, hkeyTypes, -, -, -, -, hpools, -⟩ := Core.mk.inj houtline
  simp only [setRules, hget, hconfig, hkeyTypes, Pools.checkRefs_of_outline hpools]
  refine map_bind_congr fun target => ?_
  split
  · rfl
  · split
    · rfl
    · refine map_bind_congr fun kt => map_bind_congr fun _ => map_bind_congr fun _ => ?_
      split
      · rfl
      · rfl

lemma call_deleteRules (hget : c'.regions.get region = c.regions.get region)
    (offsets : List ℕ) : (c'.deleteRules region offsets).map Change.call =
      (c.deleteRules region offsets).map Change.call := by
  rw [deleteRules, deleteRules, hget]
  refine map_bind_congr fun target => map_bind_congr fun occupied => ?_
  split
  · rfl
  · rfl

lemma call_shiftPriority (houtline : c'.outline = c.outline)
    (hget : c'.regions.get region = c.regions.get region) (low high : ℕ) (delta : ℤ) :
    (c'.shiftPriority region low high delta).map Change.call =
      (c.shiftPriority region low high delta).map Change.call := by
  obtain ⟨hconfig, -⟩ := Core.mk.inj houtline
  simp only [shiftPriority, hget, hconfig]
  refine map_bind_congr fun target => map_bind_congr fun updates => ?_
  split
  · rfl
  · rfl

/-- The call that is planned, and the reason why nothing is planned, depend on the outline of the
model and on the rules of the region. -/
theorem call_ruleChange {op : RuleOp} (houtline : c'.outline = c.outline)
    (hregion : c'.regions.regions.get? op.region = c.regions.regions.get? op.region) :
    (c'.ruleChange op).map Change.call = (c.ruleChange op).map Change.call := by
  have hget : c'.regions.get op.region = c.regions.get op.region := by
    rw [Regions.get, Regions.get, hregion]
  cases op with
  | set region offsets rules => exact call_setRules houtline hget offsets rules
  | delete region offsets => exact call_deleteRules hget offsets
  | deleteAll region =>
      change c'.regions.get region = c.regions.get region at hget
      rw [ruleChange, ruleChange, deleteAllRules, deleteAllRules, hget]
      exact map_bind_congr fun target => call_deleteRules hget _
  | move region block =>
      change c'.regions.get region = c.regions.get region at hget
      rw [ruleChange, ruleChange, moveBlock, moveBlock, hget]
      exact map_bind_congr fun target => map_bind_congr fun _ => rfl
  | shiftPriority region shift =>
      exact call_shiftPriority houtline hget shift.low shift.high shift.delta

end Core

/-! ### Two operations -/

/-- The rules of different regions may be changed in any order. -/
lemma RuleOp.mark_comm {a b : RuleOp} (hne : a.region ≠ b.region) (id : Handle .region)
    (m : Marks) : (Operation.rule b).mark id ((Operation.rule a).mark id m) =
      (Operation.rule a).mark id ((Operation.rule b).mark id m) := by
  by_cases ha : a.region = id
  · have hb : b.region ≠ id := fun hb => hne (ha.trans hb.symm)
    rw [Operation.mark_rule_of_ne hb, Operation.mark_rule_of_ne hb]
  · rw [Operation.mark_rule_of_ne ha, Operation.mark_rule_of_ne ha]

namespace Controller

variable {s sa sb sab sba : Controller} {a b : RuleOp}

/-- The number of calls that an operation makes after another is the one that it makes before. -/
lemma Ruled.calls_after (ha : s.Ruled a sa) (hab : sa.Ruled b sab) (hb : s.Ruled b sb)
    (hne : a.region ≠ b.region) :
    sab.device.calls + s.device.calls = sa.device.calls + sb.device.calls := by
  obtain ⟨change, hplan, hcalls⟩ := hab.calls_eq
  obtain ⟨change', hplan', hcalls'⟩ := hb.calls_eq
  have hcall := Core.call_ruleChange ha.outline_eq (ha.get?_of_ne hne.symm)
  rw [hplan, hplan'] at hcall
  have hsame : change.call = change'.call := Except.ok.inj hcall
  rw [hsame] at hcalls
  omega

/-- What an operation adds to the statistics after another is what it adds before. -/
lemma Ruled.stats_after (ha : s.Ruled a sa) (hab : sa.Ruled b sab)
    (hne : a.region ≠ b.region) :
    ∃ r r', s.core.regions.regions.get? a.region = some r ∧
      s.core.regions.regions.get? b.region = some r' ∧
      sab.core.stats = b.account r'.table (a.account r.table s.core.stats) := by
  obtain ⟨r, hr, hstats⟩ := ha.stats_eq
  obtain ⟨r', hr', hstats'⟩ := hab.stats_eq
  rw [ha.get?_of_ne hne.symm] at hr'
  exact ⟨r, r', hr, hr', by rw [hstats', hstats]⟩

/-- Two operations that succeed leave the same controller behind in either order. -/
theorem Ruled.eq_of_swap (h : Reachable s) (hsab : Reachable sab) (hsba : Reachable sba)
    (hne : a.region ≠ b.region) (ha : s.Ruled a sa) (hab : sa.Ruled b sab) (hb : s.Ruled b sb)
    (hba : sb.Ruled a sba) : sab = sba := by
  have houtline : sab.core.outline = sba.core.outline :=
    calc sab.core.outline = sa.core.outline := hab.outline_eq
      _ = s.core.outline := ha.outline_eq
      _ = sb.core.outline := hb.outline_eq.symm
      _ = sba.core.outline := hba.outline_eq.symm
  have hstats : sab.core.stats = sba.core.stats := by
    obtain ⟨r, r', hr, hr', hstats⟩ := ha.stats_after hab hne
    obtain ⟨q', q, hq', hq, hstats'⟩ := hb.stats_after hba hne.symm
    obtain rfl := Option.some.inj (hr.symm.trans hq)
    obtain rfl := Option.some.inj (hr'.symm.trans hq')
    rw [hstats, hstats', RuleOp.account_comm]
  obtain ⟨marks, hmarks⟩ := h.exists_carries
  have hmab := hab.carries _ (ha.carries marks hmarks)
  have hmba := hba.carries _ (hb.carries marks hmarks)
  rw [funext fun id => RuleOp.mark_comm hne id (marks id)] at hmab
  obtain ⟨hcore, htables⟩ := hsab.eq_of_carries hsba houtline hmab hmba hstats
  have hfaults : sab.device.faults = sba.device.faults :=
    calc sab.device.faults = s.device.faults := hab.faults_eq.trans ha.faults_eq
      _ = sba.device.faults := (hba.faults_eq.trans hb.faults_eq).symm
  have hcalls : sab.device.calls = sba.device.calls := by
    have hcallsab := ha.calls_after hab hb hne
    have hcallsba := hb.calls_after hba ha hne.symm
    omega
  have hhub : sab.hub = sba.hub :=
    calc sab.hub = s.hub := hab.hub_eq.trans ha.hub_eq
      _ = sba.hub := (hba.hub_eq.trans hb.hub_eq).symm
  obtain ⟨_, ⟨_, _, _⟩, _⟩ := sab
  obtain ⟨_, ⟨_, _, _⟩, _⟩ := sba
  subst hcore htables hfaults hcalls hhub
  rfl

/-- An operation on rules has the same result after an operation on another region as before. -/
lemma result_rule_after (h : Reachable s) (hne : a.region ≠ b.region)
    (ha : s.Unarmed (.rule a)) (hb : s.Unarmed (.rule b))
    (hroom : (s.execute (.rule a)).result.isOk = true →
      (Step.operation (.rule a)).HasRoom s.core) :
    ((s.execute (.rule a)).controller.execute (.rule b)).result =
      (s.execute (.rule b)).result := by
  have hra := result_rule h.inStep ha
  cases hplan : s.core.ruleChange a with
  | error e => rw [controller_rule_of_error hplan]
  | ok change =>
      rw [hplan] at hra
      have hruled := ruled_of_ok h.inStep hra
      have hstep : (s.execute (.rule a)).controller.core.InStep
          (s.execute (.rule a)).controller.device.tables :=
        (h.step (.operation (.rule a)) hroom).inStep
      have hb' : (s.execute (.rule a)).controller.Unarmed (.rule b) := hruled.unarmed hb
      have hcall := Core.call_ruleChange hruled.outline_eq (hruled.get?_of_ne hne.symm)
      -- the result says no more of a plan than its call does
      have hdone : ∀ plan : Except AclError (Change Unit), plan.map (fun _ => OpResult.done) =
          (plan.map Change.call).map fun _ => OpResult.done := by
        intro plan
        cases plan <;> rfl
      rw [result_rule hstep hb', result_rule h.inStep hb, hdone, hcall, ← hdone]

/-- A rule operation whose plan fails makes no difference, whether it comes first or second. -/
lemma run_of_error (h : Reachable s) (hne : a.region ≠ b.region) (hb : s.Unarmed (.rule b))
    {e : AclError} (hplan : s.core.ruleChange a = .error e) :
    s.run [.operation (.rule a), .operation (.rule b)] =
      s.run [.operation (.rule b), .operation (.rule a)] := by
  have hfirst : (s.execute (.rule a)).controller = s := controller_rule_of_error hplan
  have hsecond : ((s.execute (.rule b)).controller.execute (.rule a)).controller =
      (s.execute (.rule b)).controller := by
    have hrb := result_rule h.inStep hb
    cases hplanb : s.core.ruleChange b with
    | error e' => rw [controller_rule_of_error hplanb, hfirst]
    | ok change =>
        rw [hplanb] at hrb
        have hruled := ruled_of_ok h.inStep hrb
        have hcall := Core.call_ruleChange hruled.outline_eq (hruled.get?_of_ne hne)
        rw [hplan] at hcall
        cases hplan' : (s.execute (.rule b)).controller.core.ruleChange a with
        | error e' => exact controller_rule_of_error hplan'
        | ok change' =>
            rw [hplan'] at hcall
            cases hcall
  calc s.run [.operation (.rule a), .operation (.rule b)]
      = ((s.execute (.rule a)).controller.execute (.rule b)).controller := rfl
    _ = (s.execute (.rule b)).controller := by rw [hfirst]
    _ = ((s.execute (.rule b)).controller.execute (.rule a)).controller := hsecond.symm
    _ = s.run [.operation (.rule b), .operation (.rule a)] := rfl

/-- Take any reachable controller, and two operations on the rules of different regions: batches of
rules stored or deleted, block moves, or priority shifts, with any arguments.  As long as no fault
is armed for them and no reference count passes its greatest value in either order, each of them has
the same result after the other as before it, be it success or an error, and the order makes no
difference to the controller afterwards: the model with its pools and statistics, the device with
its tables, its armed faults and the number of its calls, and the receivers of events. -/
theorem rule_operations_commute (h : Reachable s) (hne : a.region ≠ b.region)
    (ha : s.Unarmed (.rule a)) (hb : s.Unarmed (.rule b))
    (hab : s.RunHasRoom [.operation (.rule a), .operation (.rule b)])
    (hba : s.RunHasRoom [.operation (.rule b), .operation (.rule a)]) :
    ((s.execute (.rule a)).controller.execute (.rule b)).result =
        (s.execute (.rule b)).result ∧
      ((s.execute (.rule b)).controller.execute (.rule a)).result =
        (s.execute (.rule a)).result ∧
      s.run [.operation (.rule a), .operation (.rule b)] =
        s.run [.operation (.rule b), .operation (.rule a)] := by
  have hresultb := result_rule_after h hne ha hb hab.1
  have hresulta := result_rule_after h hne.symm hb ha hba.1
  refine ⟨hresultb, hresulta, ?_⟩
  have hra := result_rule h.inStep ha
  have hrb := result_rule h.inStep hb
  cases hplana : s.core.ruleChange a with
  | error e => exact run_of_error h hne hb hplana
  | ok changea =>
      cases hplanb : s.core.ruleChange b with
      | error e => exact (run_of_error h hne.symm ha hplanb).symm
      | ok changeb =>
          rw [hplana] at hra
          rw [hplanb] at hrb
          rw [hrb] at hresultb
          rw [hra] at hresulta
          have hsa := h.step (.operation (.rule a)) hab.1
          have hsb := h.step (.operation (.rule b)) hba.1
          exact Ruled.eq_of_swap h (h.run hab) (h.run hba) hne
            (ruled_of_ok h.inStep hra) (ruled_of_ok hsa.inStep hresultb)
            (ruled_of_ok h.inStep hrb) (ruled_of_ok hsb.inStep hresulta)

/-- After the session, another region stores a rule that refers to the same PBS entry. -/
def sharing : List Step :=
  [.operation (.region (.create ⟨0, 1⟩ 4)),
    .operation (.rule (.set ⟨1, 1⟩ [0] [⟨3, [], [.pbs ⟨0, 1⟩]⟩]))]

/-- One region gives its two references to the entry back, while the other takes two more. -/
theorem rule_operations_commute_of_sharing :
    let s := fresh.run (session ++ sharing)
    let deleting : RuleOp := .deleteAll ⟨0, 1⟩
    let storing : RuleOp := .set ⟨1, 1⟩ [0, 3] [⟨8, [], [.pbs ⟨0, 1⟩]⟩, ⟨9, [], [.pbs ⟨0, 1⟩]⟩]
    (s.execute (.rule deleting)).result = .ok .done ∧
    (s.execute (.rule storing)).result = .ok .done ∧
    ((s.execute (.rule deleting)).controller.execute (.rule storing)).result = .ok .done ∧
    ((s.execute (.rule storing)).controller.execute (.rule deleting)).result = .ok .done ∧
    s.core.pools.refCount (.pbs ⟨0, 1⟩) = 3 ∧
    (s.run [.operation (.rule deleting), .operation (.rule storing)]).core.pools.refCount
      (.pbs ⟨0, 1⟩) = 2 ∧
    s.run [.operation (.rule deleting), .operation (.rule storing)] =
      s.run [.operation (.rule storing), .operation (.rule deleting)] := by
  intro s deleting storing
  have hs : Reachable s := (Reachable.start start_fresh).run (by decide +kernel)
  have hdeleting : (s.execute (.rule deleting)).result = .ok .done := by decide +kernel
  have hstoring : (s.execute (.rule storing)).result = .ok .done := by decide +kernel
  obtain ⟨hfirst, hsecond, hrun⟩ := rule_operations_commute hs
    (show deleting.region ≠ storing.region by decide) (by decide +kernel) (by decide +kernel)
    (by decide +kernel) (by decide +kernel)
  exact ⟨hdeleting, hstoring, hfirst.trans hstoring, hsecond.trans hdeleting, by decide +kernel,
    by decide +kernel, hrun⟩

end Controller

end AclPlane
