import IctAlgo.Analytics.Confidence
import IctAlgo.Orchestrator.Allowlist
import IctAlgo.Reports.Governance
import IctAlgo.Reports.Timeline

/-!
# Decision intelligence reports

`generate_report` of `reasoner_service/decision_intelligence_report_service.py`, over the timelines,
the governance service and the policy evaluator; the counterfactual simulator is the environment's.
Every step catches what it raises, so that `generate_report` itself never meets an exception. A
`Report` carries that its confidence is a percentage.
-/

set_option autoImplicit false

namespace Reports

open Lib Lib.Decimal Orchestrator Analytics

/-! ## Reports -/

/-- `governance_pressure`. -/
inductive Pressure
  | none | low | medium | high
  deriving DecidableEq, Repr

def Pressure.text : Pressure → String
  | .none => "none"
  | .low => "low"
  | .medium => "medium"
  | .high => "high"

structure Report where
  correlationId : String
  confidenceScore : ℚ
  governancePressure : Pressure
  counterfactualRegret : PyFloat
  riskFlags : List String
  explanation : String
  evaluatedAt : String
  disclaimer : String
  bounds : 0 ≤ confidenceScore ∧ confidenceScore ≤ 100

/-- The report as a dictionary. -/
def Report.toFields (r : Report) : Fields :=
  Dict.ofItems
    [("correlation_id", .str r.correlationId),
      ("confidence_score", .float (.fin r.confidenceScore)),
      ("governance_pressure", .str r.governancePressure.text),
      ("counterfactual_regret", .float r.counterfactualRegret),
      ("risk_flags", .list (r.riskFlags.map .str)),
      ("explanation", .str r.explanation),
      ("evaluated_at", .str r.evaluatedAt),
      ("disclaimer", .str r.disclaimer)]

/-! ## The data of the services -/

structure TimelineData where
  eventsCount : ℕ := 0
  outcomePnl : PyFloat := .fin 0

/-- `_get_timeline_data`; the last number recorded as `pnl` counts. -/
def getTimelineData (s : Timelines) (correlationId : String) : TimelineData :=
  let timeline := s.getTimeline correlationId
  let pnl := timeline.foldl (fun pnl e =>
    if e.eventType = "OUTCOME_RECORDED" then
      ((e.payload.getD "pnl" (.float (.fin 0))).num?).getD pnl
    else pnl) (.fin 0)
  ⟨timeline.length, pnl⟩

structure GovernanceData where
  violations : List String
  violationCount : ℕ
  allowed : Bool

/-- `_get_governance_data`. -/
def getGovernanceData (tx : Texts) (cv : Conv) (g : Governance) (correlationId : String) :
    GovernanceData :=
  let tradeContext : Fields := Dict.empty.set "correlation_id" (.str correlationId)
  let evaluation := g.evaluateTrade tx cv tradeContext
  ⟨evaluation.violations, evaluation.violations.length, evaluation.allowed⟩

structure CounterfactualData where
  wouldHaveBeenAllowed : Value := .bool true
  violatedRules : Value := .list []
  pnlDifference : Value := .float (.fin 0)

/-- `_get_counterfactual_data`; `none` is a simulation that raises. -/
def getCounterfactualData (simulation : Option Fields) : CounterfactualData :=
  match simulation with
  | none => {}
  | some d =>
    { wouldHaveBeenAllowed := d.getD "would_have_been_allowed" (.bool true)
      violatedRules := d.getD "violated_rules" (.list [])
      pnlDifference := d.getD "pnl_difference" (.float (.fin 0)) }

/-! ## The parts of a report -/

/-- `_calculate_confidence_score` before the rounding. -/
def confidenceBase (t : TimelineData) (gov : GovernanceData) (c : CounterfactualData)
    (policyConfidence : ℚ) : ℚ :=
  let completeness :=
    if t.eventsCount ≥ 4 then 20 else if t.eventsCount ≥ 3 then 15
    else if t.eventsCount ≥ 2 then 10 else 0
  let violations :=
    if gov.violationCount = 0 then 20 else if gov.violationCount = 1 then 10
    else if gov.violationCount > 3 then -10 else 0
  let alignment := if c.wouldHaveBeenAllowed.truthy then 20 else -10
  let pnl :=
    if (PyFloat.fin 0).lt t.outcomePnl then 10
    else if t.outcomePnl.lt (.fin (-100)) then -5 else 0
  max 0 (min 100 (50 + completeness + violations + alignment + policyConfidence * 20 + pnl))

/-- `_calculate_confidence_score`. -/
def calculateConfidenceScore (t : TimelineData) (gov : GovernanceData) (c : CounterfactualData)
    (policyConfidence : ℚ) : ℚ :=
  roundTo 1 (confidenceBase t gov c policyConfidence)

/-- `_determine_governance_pressure`, of a number of violations. -/
def pressureOf (violationCount : ℕ) : Pressure :=
  if violationCount = 0 then .none
  else if violationCount = 1 then .low
  else if violationCount ≤ 3 then .medium
  else .high

/-- `round(x, 2)`. -/
def round2 : PyFloat → PyFloat
  | .fin q => .fin (roundTo 2 q)
  | x => x

/-- `_calculate_counterfactual_regret`. -/
def calculateCounterfactualRegret (c : CounterfactualData) : PyFloat :=
  ((c.pnlDifference.num?).map round2).getD (.fin 0)

/-- `blocked_rules[0]` in a text; `none` when it raises. -/
def firstRule? (tx : Texts) : Value → Option String
  | .list (v :: _) => some (tx.display v)
  | .str s => s.toList.head?.map Char.toString
  | _ => none

/-- The flag of the counterfactual; `none` when it raises. -/
def blockedFlag? (tx : Texts) (c : CounterfactualData) : Option (List String) :=
  if c.wouldHaveBeenAllowed.truthy || !c.violatedRules.truthy then some []
  else (firstRule? tx c.violatedRules).map fun rule => [s!"Would have been blocked: {rule}"]

/-- `_identify_risk_flags`; without flags when it raises. -/
def identifyRiskFlags (tx : Texts) (t : TimelineData) (gov : GovernanceData)
    (c : CounterfactualData) : List String :=
  let count := gov.violations.length
  let violations := if count = 0 then [] else [s!"Governance violations detected: {count} rule(s)"]
  let pnl := tx.fixed 2 t.outcomePnl
  let loss := if t.outcomePnl.lt (.fin (-200)) then [s!"Large loss: {pnl}"] else []
  let sparse := if t.eventsCount < 2 then ["Limited event data for analysis"] else []
  (do
    let blocked ← blockedFlag? tx c
    let regret ← c.pnlDifference.num?
    let cost :=
      if (PyFloat.fin 150).lt regret then ["High counterfactual opportunity cost"] else []
    return violations ++ loss ++ blocked ++ cost ++ sparse).getD []

/-- `_generate_explanation`. -/
def generateExplanation (tx : Texts) (correlationId : String) (confidence : ℚ) (pressure : Pressure)
    (regret : PyFloat) (flags : List String) : String :=
  let description :=
    if 75 ≤ confidence then "high confidence" else if 50 ≤ confidence then "moderate confidence"
    else "low confidence"
  let score := tx.fixed 0 (.fin confidence)
  let governance := match pressure with
    | .none => "No governance violations detected."
    | .low => "Light governance pressure from minimal violations."
    | .medium => "Moderate governance pressure from multiple violations."
    | .high => "Significant governance pressure from numerous violations."
  let cost := tx.fixed 2 regret
  let avoided := tx.fixed 2 (negFloat regret)
  let counterfactual :=
    if (PyFloat.fin 0).lt regret then
      [s!"Counterfactual analysis suggests {cost} " ++
        "in unrealized opportunity cost if rules were enforced."]
    else if regret.lt (.fin 0) then
      [s!"Counterfactual analysis suggests {avoided} in avoided loss if rules were enforced."]
    else []
  let observed := "; ".intercalate (flags.take 2)
  let risk := if flags.isEmpty then [] else [s!"Key observations: {observed}"]
  " ".intercalate
    ([s!"Trade {correlationId} was analyzed with {description} ({score}/100).", governance] ++
      counterfactual ++ risk ++
      ["This analysis is provided for human review only. " ++
        "No enforcement or blocking occurs based on this report."])

/-- The disclaimer of a report. -/
def reportDisclaimer : String :=
  "This report is informational only and does not influence live trading. " ++
    "It provides analytical intelligence for human review and decision-making only. " ++
    "No enforcement, blocking, or execution occurs based on this report."

/-! ## `generate_report` -/

theorem confidenceScore_bounds (t : TimelineData) (gov : GovernanceData) (c : CounterfactualData)
    (policyConfidence : ℚ) :
    0 ≤ calculateConfidenceScore t gov c policyConfidence ∧
      calculateConfidenceScore t gov c policyConfidence ≤ 100 := by
  have hbase : 0 ≤ confidenceBase t gov c policyConfidence ∧
      confidenceBase t gov c policyConfidence ≤ 100 :=
    ⟨le_max_left _ _, max_le (by norm_num) (min_le_left _ _)⟩
  exact roundTo_bounds 0 100 1 (by exact_mod_cast hbase.1) (by exact_mod_cast hbase.2)

/-- The services a report reads. -/
structure Services where
  timelines : Timelines := {}
  governance : Governance := {}
  evaluator : Evaluator := {}
  simulate : String → Option Fields := fun _ => none

section
variable (tx : Texts) (cv : Conv) (sqrt : ℚ → ℚ) (sv : Services)

/-- `generate_report`; `now` is the clock. -/
def generateReport (now correlationId : String) : Report :=
  let timelineData := getTimelineData sv.timelines correlationId
  let governanceData := getGovernanceData tx cv sv.governance correlationId
  let counterfactualData := getCounterfactualData (sv.simulate correlationId)
  let policyConfidence := (sv.evaluator.evaluatePolicy sqrt "default").confidenceScore
  let confidence := calculateConfidenceScore timelineData governanceData counterfactualData
    policyConfidence
  let pressure := pressureOf governanceData.violationCount
  let regret := calculateCounterfactualRegret counterfactualData
  let flags := identifyRiskFlags tx timelineData governanceData counterfactualData
  { correlationId := if correlationId = "" then "unknown" else correlationId
    confidenceScore := confidence
    governancePressure := pressure
    counterfactualRegret := regret
    riskFlags := flags
    explanation := generateExplanation tx correlationId confidence pressure regret flags
    evaluatedAt := now
    disclaimer := reportDisclaimer
    bounds := confidenceScore_bounds _ _ _ _ }

end

end Reports
