import IctAlgo.Analytics.Outcomes

/-!
# The confidence in a policy

`PolicyConfidenceEvaluator` of `reasoner_service/policy_confidence_evaluator.py`. It reads the
published dictionaries by key, with a default for a key that is missing.
-/

set_option autoImplicit false

namespace Analytics

open Lib Lib.Decimal

structure EvaluatorConfig where
  minSampleSize : ℤ := 30
  minConfidenceThreshold : ℚ := 7 / 10
  falseNegativePenalty : ℚ := 3 / 10
  falsePositivePenalty : ℚ := 1 / 10
  regimeInstabilityPenalty : ℚ := 1 / 5
  minNetPnlDelta : ℚ := 100

/-- What is registered for a policy. The heatmap is not read. -/
structure PolicyAnalytics where
  vetoImpact : Numbers
  regimePerformance : Dict String Numbers

structure Evaluator where
  config : EvaluatorConfig := {}
  policyAnalytics : Dict String PolicyAnalytics := Dict.empty

/-- The report on a policy; `error` is the message of an error report. -/
structure ConfidenceReport where
  policyName : String
  sampleSize : ℚ := 0
  falsePositiveRate : ℚ := 0
  falseNegativeRate : ℚ := 0
  netPnlDeltaIfEnforced : ℚ := 0
  regimeInstabilityScore : ℚ := 0
  confidenceScore : ℚ := 0
  enforcementReady : Bool := false
  error : Option String := none

/-- `add_policy_analytics`. -/
def Evaluator.addPolicyAnalytics (ev : Evaluator) (policyName : String) (vetoImpact : Numbers)
    (regimePerformance : Dict String Numbers) : Evaluator :=
  { ev with policyAnalytics := ev.policyAnalytics.set policyName ⟨vetoImpact, regimePerformance⟩ }

/-- `_calculate_net_pnl_delta`. -/
def calculateNetPnlDelta (vetoImpact : Numbers) : ℚ :=
  vetoImpact.getD "vetoed_losers" 0 * 75 + vetoImpact.getD "vetoed_winners" 0 * -100

section
variable (sqrt : ℚ → ℚ)

/-- The win rate the evaluator derives for a regime, if it has trades. -/
def derivedWinRate (regimePerf : Dict String Numbers) (r : Regime) : Option ℚ :=
  let data := regimePerf.getD r.name Dict.empty
  let trades := data.getD "trades_in_regime" 0
  if 0 < trades then some (data.getD "wins" 0 / trades) else none

/-- The part of `_assess_regime_instability` behind the win rates. -/
def instability (winRates : List ℚ) : ℚ :=
  if winRates.length < 2 then 0
  else if mean winRates = 0 then 1
  else
    let cv := if 0 < mean winRates then sqrt (variance winRates) / mean winRates else 1
    min cv 1

/-- `_assess_regime_instability`. -/
def assessRegimeInstability (regimePerf : Dict String Numbers) : ℚ :=
  instability sqrt (Regime.all.filterMap (derivedWinRate regimePerf))

/-- `_compute_confidence_score`. -/
def computeConfidenceScore (cfg : EvaluatorConfig)
    (sampleSize fpr fnr regimeInstability netPnlDelta : ℚ) : ℚ :=
  let sizePenalty :=
    if sampleSize < cfg.minSampleSize then (1 - sampleSize / cfg.minSampleSize) * (1 / 2) else 0
  let bonus :=
    if cfg.minNetPnlDelta < netPnlDelta then
      min (1 / 10) ((netPnlDelta - cfg.minNetPnlDelta) / 2000)
    else 0
  let score := 1 - sizePenalty - fnr * cfg.falseNegativePenalty - fpr * cfg.falsePositivePenalty -
    regimeInstability * cfg.regimeInstabilityPenalty + bonus
  max 0 (min 1 score)

/-- `_create_error_report`. -/
def createErrorReport (policyName message : String) : ConfidenceReport where
  policyName
  error := some ("Evaluation failed: " ++ message)

/-- `evaluate_policy`. -/
def Evaluator.evaluatePolicy (ev : Evaluator) (policyName : String) : ConfidenceReport :=
  match ev.policyAnalytics.get? policyName with
  | none => createErrorReport policyName "Policy not found in evaluator. No analytics registered."
  | some analytics =>
    let vetoImpact := analytics.vetoImpact
    let sampleSize := vetoImpact.getD "total_trades" 0
    let fpr := 1 - vetoImpact.getD "veto_precision" 1
    let fnr := 1 - vetoImpact.getD "veto_recall" 1
    let netPnlDelta := calculateNetPnlDelta vetoImpact
    let regimeInstability := assessRegimeInstability sqrt analytics.regimePerformance
    let score := computeConfidenceScore ev.config sampleSize fpr fnr regimeInstability netPnlDelta
    { policyName, sampleSize
      falsePositiveRate := roundTo 4 fpr
      falseNegativeRate := roundTo 4 fnr
      netPnlDeltaIfEnforced := roundTo 2 netPnlDelta
      regimeInstabilityScore := roundTo 4 regimeInstability
      confidenceScore := roundTo 4 score
      enforcementReady := ev.config.minConfidenceThreshold ≤ score &&
        ev.config.minSampleSize ≤ sampleSize }

end

end Analytics
