import IctAlgo.Reports.Offline
import IctAlgo.Reports.Proof.Trends
import Mathlib.Data.Finset.Dedup
import Mathlib.Data.Finset.Card

/-!
# What an offline evaluation counts

`CountsEveryReport`: the totals are those of the reports in the window, and tighter constraints block
no fewer.

* `evaluateReport_report`: the checks of a report of the report service, one constraint at a time.
* `results_length`: reports with the same id have one result.
* `computeEvaluationStatistics_reports`: the statistics raise on the first pressure, which is a text.
* `countsEveryReport_iff`: the totals are right for an empty window only.
-/

set_option autoImplicit false

namespace Reports

open Lib Orchestrator

/-! ## What is counted -/

/-- The constraints that a report of the report service violates. It has no volume, drawdown, regime
and governance markers. -/
def violatedBy (c : Constraints) (r : Report) : List String :=
  ([("max_exposure", c.maxExposure.any fun maxExp => decide (maxExp < 0)), ("max_drawdown", false),
      ("min_confidence", c.minConfidence.any fun minConf => decide (r.confidenceScore < minConf)),
      ("blocked_regimes", c.blockedRegimes.any fun blocked => blocked.contains ""),
      ("required_governance", c.requiredGovernance.any fun required => !required.isEmpty)].filter
    (·.2)).map (·.1)

/-- Constraints that are there get tighter. -/
structure Tightens (c c' : Constraints) : Prop where
  maxExposure : Option.Rel (fun m m' => m' ≤ m) c.maxExposure c'.maxExposure
  maxDrawdown : Option.Rel (fun m m' => m ≤ m') c.maxDrawdown c'.maxDrawdown
  minConfidence : Option.Rel (fun m m' => m ≤ m') c.minConfidence c'.minConfidence
  blockedRegimes : Option.Rel (fun l l' => l ⊆ l') c.blockedRegimes c'.blockedRegimes
  requiredGovernance : Option.Rel (fun l l' => l ⊆ l') c.requiredGovernance c'.requiredGovernance

section
variable (tx : Texts) (reports : List Report) (s : Scenario)

/-- The reports in the window of the scenario. -/
def windowReports : List Report :=
  reports.filter fun r => inWindow tx s.evaluationWindow r.toFields

/-- The statistics of the scenario over the archive of the reports. -/
def statisticsOf : EvaluationStatistics :=
  (evaluatePolicyScenario tx (archiveOf reports) s).statistics

structure CountsEveryReport : Prop where
  total : (statisticsOf tx reports s).totalTradesEvaluated = (windowReports tx reports s).length
  split : (statisticsOf tx reports s).tradesAllowed + (statisticsOf tx reports s).tradesWouldBlock =
    (statisticsOf tx reports s).totalTradesEvaluated
  blocked : (statisticsOf tx reports s).tradesWouldBlock =
    (windowReports tx reports s).countP fun r => !(violatedBy s.policyConstraints r).isEmpty
  monotone : ∀ c', Tightens s.policyConstraints c' →
    (statisticsOf tx reports s).tradesWouldBlock ≤
      (statisticsOf tx reports { s with policyConstraints := c' }).tradesWouldBlock

/-! ## One report -/

/-- **The checks of a report.** -/
theorem evaluateReport_report (c : Constraints) (r : Report) :
    evaluateReport? c r.toFields = some {
      wouldBlock := !(violatedBy c r).isEmpty
      violatedConstraints := violatedBy c r
      confidenceScore := .float (.fin r.confidenceScore)
      governancePressure := .str r.governancePressure.text } := by
  have hexposure : exceedsExposure? c r.toFields = some (c.maxExposure.any fun m => m < 0) := by
    cases h : c.maxExposure with
    | none => simp [exceedsExposure?, violates?, h]
    | some m =>
      simp [exceedsExposure?, violates?, h, Report.toFields, Dict.ofItems, Dict.getD, Dict.get?_set,
        Value.num?, PyFloat.lt]
  have hdrawdown : exceedsDrawdown? c r.toFields = some false := by
    cases h : c.maxDrawdown with
    | none => simp [exceedsDrawdown?, violates?, h]
    | some m =>
      simp [exceedsDrawdown?, violates?, h, Report.toFields, Dict.ofItems, Dict.get?_set]
  have hconfidence : lacksConfidence? c r.toFields =
      some (c.minConfidence.any fun m => r.confidenceScore < m) := by
    cases h : c.minConfidence with
    | none => simp [lacksConfidence?, violates?, h]
    | some m =>
      simp [lacksConfidence?, violates?, h, Dict.getD, toFields_confidence, Value.num?, PyFloat.lt]
  have hregime : inBlockedRegime? c r.toFields =
      some (c.blockedRegimes.any fun blocked => blocked.contains "") := by
    cases h : c.blockedRegimes with
    | none => simp [inBlockedRegime?, violates?, h]
    | some blocked =>
      simp [inBlockedRegime?, violates?, h, Report.toFields, Dict.ofItems, Dict.getD, Dict.get?_set]
  have hgovernance : lacksGovernance? c r.toFields =
      some (c.requiredGovernance.any fun required => !required.isEmpty) := by
    cases h : c.requiredGovernance with
    | none => simp [lacksGovernance?, violates?, h]
    | some required =>
      cases required with
      | nil =>
        simp [lacksGovernance?, violates?, h, Report.toFields, Dict.ofItems, Dict.getD,
          Dict.get?_set, setOf?]
      | cons marker required =>
        simp [lacksGovernance?, violates?, h, Report.toFields, Dict.ofItems, Dict.getD,
          Dict.get?_set, setOf?]
  unfold evaluateReport?
  rw [hexposure, hdrawdown, hconfidence, hregime, hgovernance]
  simp only [Option.bind_eq_bind, Option.bind_some, Option.pure_def, Dict.getD, toFields_confidence,
    toFields_pressure, Option.getD_some]
  rfl

/-! ## The results -/

theorem toFields_id (r : Report) :
    r.toFields.getD "correlation_id" (.str "unknown") = .str r.correlationId := by
  rw [Dict.getD, toFields_correlationId, Option.getD_some]

/-- The result of a report goes under its id. -/
theorem addResult_report (c : Constraints) (results : Dict Value PolicyResult) (r : Report) :
    ∃ result, addResult c results r.toFields = results.set (.str r.correlationId) result ∧
      result.governancePressure = .str r.governancePressure.text := by
  unfold addResult
  rw [evaluateReport_report, toFields_id]
  exact ⟨_, rfl, rfl⟩

theorem results_isSome (c : Constraints) (rs : List Report) (correlationId : String) :
    ((evaluateReportsAgainstPolicy (rs.map Report.toFields) c).get? (.str correlationId)).isSome =
      decide (correlationId ∈ rs.map (·.correlationId)) := by
  unfold evaluateReportsAgainstPolicy
  induction rs using List.reverseRecOn with
  | nil => rfl
  | append_singleton rs r ih =>
    obtain ⟨result, hset, -⟩ := addResult_report c
      ((rs.map Report.toFields).foldl (addResult c) Dict.empty) r
    rw [List.map_append, List.foldl_append, List.map_singleton, List.foldl_cons, List.foldl_nil, hset,
      Dict.get?_set]
    by_cases h : correlationId = r.correlationId
    · subst h
      simp
    · simp only [Value.str.injEq, h, ↓reduceIte, ih]
      simp [h]

/-- **Reports with the same id are evaluated as one.** -/
theorem results_length (c : Constraints) (rs : List Report) :
    (evaluateReportsAgainstPolicy (rs.map Report.toFields) c).items.length =
      (rs.map (·.correlationId)).toFinset.card := by
  induction rs using List.reverseRecOn with
  | nil => rfl
  | append_singleton rs r ih =>
    have hknown := results_isSome c rs r.correlationId
    obtain ⟨result, hset, -⟩ := addResult_report c
      (evaluateReportsAgainstPolicy (rs.map Report.toFields) c) r
    have hstep : evaluateReportsAgainstPolicy ((rs ++ [r]).map Report.toFields) c =
        (evaluateReportsAgainstPolicy (rs.map Report.toFields) c).set (.str r.correlationId)
          result := by
      rw [← hset, evaluateReportsAgainstPolicy, List.map_append, List.foldl_append]
      rfl
    rw [hstep, Dict.length_set, ih, hknown, List.map_append, List.map_singleton, List.toFinset_append]
    by_cases h : r.correlationId ∈ rs.map (·.correlationId)
    · rw [decide_eq_true h, if_pos rfl, Finset.union_eq_left.2 (by simpa using h), Nat.add_zero]
    · rw [decide_eq_false h, if_neg (by decide), Finset.union_comm,
        List.toFinset_cons, List.toFinset_nil, Finset.insert_union, Finset.empty_union,
        Finset.card_insert_of_notMem (by simpa using h)]

/-! ## The statistics -/

/-- Every result has the pressure of a report, which is no number. -/
theorem results_pressure (c : Constraints) (rs : List Report) (results : Dict Value PolicyResult)
    (h : ∀ v ∈ results.values, v.governancePressure.num? = none) :
    ∀ v ∈ ((rs.map Report.toFields).foldl (addResult c) results).values,
      v.governancePressure.num? = none := by
  induction rs generalizing results with
  | nil => exact h
  | cons r rs ih =>
    obtain ⟨result, hset, hpressure⟩ := addResult_report c results r
    rw [List.map_cons, List.foldl_cons, hset]
    apply ih
    intro v hv
    obtain rfl | hmem := Dict.mem_values_set hv
    · rw [hpressure]
      rfl
    · exact h v hmem

/-- The mean of values of which the first is no number raises. -/
theorem meanOr0_of_text {v : Value} {vs : List Value} (h : v.num? = none) :
    meanOr0? (v :: vs) = none := by
  simp [meanOr0?, List.mapM_cons, h]

/-- **The statistics of reports are all zero.** They are those of no result, or they raise. -/
theorem computeEvaluationStatistics_reports (c : Constraints) (rs : List Report) :
    let stats := computeEvaluationStatistics (rs.map Report.toFields)
      (evaluateReportsAgainstPolicy (rs.map Report.toFields) c)
    stats.totalTradesEvaluated = 0 ∧ stats.tradesAllowed = 0 ∧ stats.tradesWouldBlock = 0 := by
  have hpressure := results_pressure c rs Dict.empty (by intro v hv; cases hv)
  unfold evaluateReportsAgainstPolicy computeEvaluationStatistics
  generalize (rs.map Report.toFields).foldl (addResult c) Dict.empty = results at hpressure ⊢
  cases hvalues : results.values with
  | nil =>
    have hitems : results.items = [] := List.map_eq_nil_iff.1 hvalues
    unfold evaluationStatistics?
    rw [hvalues, hitems]
    cases hflags : riskFlags? (rs.map Report.toFields) with
    | none => simp [meanOr0?]
    | some flags =>
      cases hvolumes : (rs.map Report.toFields).mapM
          fun r => (r.getD "trade_volume" (.int 0)).num? with
      | none => simp [meanOr0?]
      | some volumes => simp [meanOr0?]
  | cons v vs =>
    have hraises : meanOr0? (results.values.map (·.governancePressure)) = none := by
      rw [hvalues]
      exact meanOr0_of_text (hpressure v (by rw [hvalues]; exact List.mem_cons_self))
    unfold evaluationStatistics?
    rw [hraises]
    cases meanOr0? (results.values.map (·.confidenceScore)) with
    | none => simp
    | some x => simp

/-! ## The totals -/

theorem filterByWindow_archiveOf :
    filterByWindow tx (archiveOf reports) s.evaluationWindow =
      (windowReports tx reports s).map Report.toFields := by
  unfold filterByWindow windowReports archiveOf
  rw [archiveBatch_reports, List.nil_append, List.filter_map]
  rfl

/-- **Every total is zero.** -/
theorem statisticsOf_zero :
    (statisticsOf tx reports s).totalTradesEvaluated = 0 ∧
      (statisticsOf tx reports s).tradesAllowed = 0 ∧
      (statisticsOf tx reports s).tradesWouldBlock = 0 := by
  unfold statisticsOf evaluatePolicyScenario
  simp only [filterByWindow_archiveOf]
  split
  · exact ⟨rfl, rfl, rfl⟩
  · exact computeEvaluationStatistics_reports s.policyConstraints (windowReports tx reports s)

/-- **The totals count every report** exactly when none is in the window. -/
theorem countsEveryReport_iff :
    CountsEveryReport tx reports s ↔ windowReports tx reports s = [] := by
  obtain ⟨htotal, hallowed, hblock⟩ := statisticsOf_zero tx reports s
  refine ⟨fun h => ?_, fun h => ?_⟩
  · have hlength := h.total
    rw [htotal] at hlength
    exact List.length_eq_zero_iff.1 hlength.symm
  · refine ⟨?_, ?_, ?_, fun c' _ => ?_⟩
    · rw [htotal, h, List.length_nil]
    · rw [htotal, hallowed, hblock]
    · rw [hblock, h, List.countP_nil]
    · rw [hblock]
      exact Nat.zero_le _

end

/-- A report with the confidence 80 and no pressure. -/
def oneReport : Report :=
  ⟨"trade-1", 80, .none, .fin 0, [], "", "2026-01-01T00:00:00+00:00", "", by norm_num⟩

/-- One archived report, and a scenario without constraints and without a window: no trade is
evaluated. -/
theorem oneReport_uncounted :
    ¬CountsEveryReport ⟨fun _ => none, fun _ _ => "", fun _ => "", fun _ => ""⟩ [oneReport] {} := by
  intro h
  have hlength := h.total
  rw [(statisticsOf_zero _ _ _).1] at hlength
  exact absurd hlength (by decide +kernel)

end Reports
