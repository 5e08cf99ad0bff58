import IctAlgo.Reports.Archive

/-!
# Offline evaluation of policies

`evaluate_policy_scenario` of `reasoner_service/decision_offline_evaluation_service.py` over the
archive. The reports are dictionaries with any fields, the constraints have their documented types. A
report whose evaluation raises is left out, and statistics that raise are all zero.

Last is `compute_trends` of `reasoner_service/decision_intelligence_memory_service.py` with a time
window, whose bounds are compared as texts.
-/

set_option autoImplicit false

namespace Reports

open Lib Orchestrator

/-! ## Scenarios -/

/-- `policy_constraints`; a constraint that is not there is `none`. -/
structure Constraints where
  maxExposure : Option ℚ := none
  maxDrawdown : Option ℚ := none
  minConfidence : Option ℚ := none
  blockedRegimes : Option (List String) := none
  requiredGovernance : Option (List String) := none

/-- `evaluation_window`; a bound that is not there is empty. -/
structure Window where
  start : String := ""
  stop : String := ""

structure Scenario where
  scenarioName : String := "unnamed_scenario"
  policyConstraints : Constraints := {}
  evaluationWindow : Option Window := none

/-! ## The window -/

section
variable (tx : Texts)

/-- `start <= t <= stop`, where no comparison raises. -/
def between (start stop t : Datetime) : Bool :=
  (start.sub? t).any (· ≤ 0) && (t.sub? stop).any (· ≤ 0)

/-- The report was evaluated between the two times. -/
def evaluatedBetween (start stop : Datetime) (report : Fields) : Bool :=
  match report.getD "evaluated_at" (.str "") with
  | .str s => (tx.datetime? (.str s)).any (between start stop)
  | _ => false

/-- The report is in the window. Every report is in a window that is not there or has a bound that is
empty or no time. -/
def inWindow (window : Option Window) (report : Fields) : Bool :=
  match window with
  | none => true
  | some w =>
    if w.start = "" || w.stop = "" then true
    else match tx.datetime? (.str w.start), tx.datetime? (.str w.stop) with
      | some start, some stop => evaluatedBetween tx start stop report
      | _, _ => true

/-- `_filter_by_window`. -/
def filterByWindow (reports : List Fields) (window : Option Window) : List Fields :=
  reports.filter (inWindow tx window)

end

/-! ## The constraints -/

/-- The elements of `v`, all of which can be hashed; `none` when that raises. -/
def setOf? : Value → Option (List Value)
  | .list xs => if xs.all Value.hashable then some xs else none
  | .str s => some (s.toList.map fun c => .str c.toString)
  | .dict items => some (items.map fun item => .str item.1)
  | _ => none

/-- A constraint that is there is violated; `none` when the check raises. -/
def violates? {α : Type} (constraint : Option α) (check : α → Option Bool) : Option Bool :=
  match constraint with
  | none => some false
  | some a => check a

section
variable (c : Constraints) (report : Fields)

def exceedsExposure? : Option Bool :=
  violates? c.maxExposure fun maxExp => do
    let exposure ← (report.getD "trade_volume" (.int 0)).num?
    return (PyFloat.fin maxExp).lt exposure

def exceedsDrawdown? : Option Bool :=
  violates? c.maxDrawdown fun maxDd =>
    match report.get? "drawdown" with
    | none => some false
    | some drawdown => drawdown.num?.map fun x => x.lt (.fin maxDd)

def lacksConfidence? : Option Bool :=
  violates? c.minConfidence fun minConf => do
    let confidence ← (report.getD "confidence_score" (.float (.fin 1))).num?
    return confidence.lt (.fin minConf)

def inBlockedRegime? : Option Bool :=
  violates? c.blockedRegimes fun blocked =>
    match report.getD "regime" (.str "") with
    | .str regime => some (blocked.contains regime)
    | _ => some false

def lacksGovernance? : Option Bool :=
  violates? c.requiredGovernance fun required => do
    let governance ← setOf? (report.getD "governance_markers" (.list []))
    return !required.all fun marker => governance.contains (.str marker)

structure PolicyResult where
  wouldBlock : Bool
  violatedConstraints : List String
  confidenceScore : Value
  governancePressure : Value

/-- The evaluation of one report; `none` when a check raises. -/
def evaluateReport? : Option PolicyResult := do
  let checks := [("max_exposure", ← exceedsExposure? c report),
    ("max_drawdown", ← exceedsDrawdown? c report), ("min_confidence", ← lacksConfidence? c report),
    ("blocked_regimes", ← inBlockedRegime? c report),
    ("required_governance", ← lacksGovernance? c report)]
  let violated := (checks.filter (·.2)).map (·.1)
  return {
    wouldBlock := !violated.isEmpty
    violatedConstraints := violated
    confidenceScore := report.getD "confidence_score" (.float (.fin 0))
    governancePressure := report.getD "governance_pressure" (.float (.fin 0)) }

/-- The body of the loop over the reports: the result goes under the id of the report. -/
def addResult (results : Dict Value PolicyResult) (report : Fields) : Dict Value PolicyResult :=
  let reportId := report.getD "correlation_id" (.str "unknown")
  match evaluateReport? c report with
  | some result => if reportId.hashable then results.set reportId result else results
  | none => results

end

/-- `_evaluate_reports_against_policy`. -/
def evaluateReportsAgainstPolicy (reports : List Fields) (c : Constraints) :
    Dict Value PolicyResult :=
  reports.foldl (addResult c) Dict.empty

/-! ## Statistics -/

structure EvaluationStatistics where
  totalTradesEvaluated : ℕ := 0
  tradesAllowed : ℕ := 0
  tradesWouldBlock : ℕ := 0
  averageConfidence : PyFloat := .fin 0
  averageGovernancePressure : PyFloat := .fin 0
  riskFlagFrequency : Dict Value ℕ := Dict.empty
  totalVolume : PyFloat := .fin 0

/-- `mean(vs) if vs else 0.0`; `none` when a value is no number. -/
def meanOr0? (vs : List Value) : Option PyFloat :=
  match vs with
  | [] => some (.fin 0)
  | _ => (vs.mapM Value.num?).map meanFloats

/-- The flags of the reports, one after another; `none` when the loop over them raises. -/
def riskFlags? (reports : List Fields) : Option (List Value) :=
  (reports.mapM fun r => setOf? (r.getD "risk_flags" (.list []))).map List.flatten

/-- The statistics, where nothing raises. -/
def evaluationStatistics? (reports : List Fields) (results : Dict Value PolicyResult) :
    Option EvaluationStatistics := do
  let blockedCount := results.values.countP (·.wouldBlock)
  let averageConfidence ← meanOr0? (results.values.map (·.confidenceScore))
  let averageGovernancePressure ← meanOr0? (results.values.map (·.governancePressure))
  let flags ← riskFlags? reports
  let volumes ← reports.mapM fun r => (r.getD "trade_volume" (.int 0)).num?
  return {
    totalTradesEvaluated := results.items.length
    tradesAllowed := results.items.length - blockedCount
    tradesWouldBlock := blockedCount
    averageConfidence
    averageGovernancePressure
    riskFlagFrequency := Dict.groupBy id (fun n _ => n + 1) 0 flags
    totalVolume := sumFloats volumes }

/-- `_compute_evaluation_statistics`. -/
def computeEvaluationStatistics (reports : List Fields) (results : Dict Value PolicyResult) :
    EvaluationStatistics :=
  (evaluationStatistics? reports results).getD {}

structure ImpactAnalysis where
  blockedPercentage : ℚ := 0
  allowedPercentage : ℚ := 100
  averageBlockedConfidence : PyFloat := .fin 0
  averageAllowedConfidence : PyFloat := .fin 0

/-- `n / total * 100 if total > 0 else 0.0`. -/
def percentageOf (n total : ℕ) : ℚ := if 0 < total then n / total * 100 else 0

/-- The confidences of the reports that would be blocked, or of the others. -/
def confidencesOf (results : Dict Value PolicyResult) (blocked : Bool) : List Value :=
  (results.values.filter (·.wouldBlock = blocked)).map (·.confidenceScore)

/-- The impact, where nothing raises. -/
def impactAnalysis? (results : Dict Value PolicyResult) (stats : EvaluationStatistics) :
    Option ImpactAnalysis := do
  let averageBlockedConfidence ← meanOr0? (confidencesOf results true)
  let averageAllowedConfidence ← meanOr0? (confidencesOf results false)
  return {
    blockedPercentage := percentageOf stats.tradesWouldBlock stats.totalTradesEvaluated
    allowedPercentage := percentageOf stats.tradesAllowed stats.totalTradesEvaluated
    averageBlockedConfidence
    averageAllowedConfidence }

/-- `_compute_impact_analysis`. -/
def computeImpactAnalysis (results : Dict Value PolicyResult) (stats : EvaluationStatistics) :
    ImpactAnalysis :=
  (impactAnalysis? results stats).getD {}

structure EvaluationResult where
  scenarioName : String
  policyConstraints : Constraints
  statistics : EvaluationStatistics := {}
  impactAnalysis : ImpactAnalysis := {}

/-- `evaluate_policy_scenario`; the empty evaluation when no report is in the window. -/
def evaluatePolicyScenario (tx : Texts) (archive : Archive) (s : Scenario) : EvaluationResult :=
  let reports := filterByWindow tx archive s.evaluationWindow
  if reports.isEmpty then
    { scenarioName := s.scenarioName, policyConstraints := s.policyConstraints }
  else
    let results := evaluateReportsAgainstPolicy reports s.policyConstraints
    let statistics := computeEvaluationStatistics reports results
    { scenarioName := s.scenarioName
      policyConstraints := s.policyConstraints
      statistics
      impactAnalysis := computeImpactAnalysis results statistics }

/-! ## Trends in a time window -/

/-- `start <= report.get("timestamp") <= end`, where no comparison raises. -/
def timestampWithin (w : Window) (report : Fields) : Bool :=
  match val report "timestamp" with
  | .str t => decide (w.start ≤ t) && decide (t ≤ w.stop)
  | _ => false

/-- `_filter_by_time_window`; all reports where none is in the window. -/
def filterByTimeWindow (reports : List Fields) (window : Option Window) : List Fields :=
  match window with
  | none => reports
  | some w =>
    if w.start = "" || w.stop = "" then reports
    else
      let filtered := reports.filter (timestampWithin w)
      if filtered.isEmpty then reports else filtered

/-- `_empty_trends_structure`. -/
def emptyTrends : MemoryTrends where
  reportCount := 0
  confidence := {}
  governancePressure := {}
  riskFlagFrequency := Dict.empty
  tradeVolume := {}

/-- `compute_trends`, with a time window or without. -/
def Memory.computeTrendsIn (m : Memory) (window : Option Window) : MemoryTrends :=
  if m.cachedReports.isEmpty then emptyTrends
  else
    let reportsToAnalyze := filterByTimeWindow m.cachedReports window
    if reportsToAnalyze.isEmpty then emptyTrends
    else ({ cachedReports := reportsToAnalyze } : Memory).computeTrends

end Reports
