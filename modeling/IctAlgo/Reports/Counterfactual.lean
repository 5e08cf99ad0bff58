import IctAlgo.Lib.Binary64
import IctAlgo.Lib.FloatSum
import IctAlgo.Reports.Governance
import IctAlgo.Reports.Timeline

/-!
# Counterfactual simulations

`simulate` of `reasoner_service/counterfactual_enforcement_simulator.py`, with the arithmetic of its
floats and integers.
-/

set_option autoImplicit false

namespace Reports

open Lib Orchestrator

/-! ## Numbers -/

/-- A result that is a number. -/
inductive Number
  | int (n : ℤ)
  | float (x : PyFloat)

namespace Number

/-- `float(x)`, which raises for an integer out of range. -/
def float? : Number → Option PyFloat
  | .int n => Binary64.floatOfInt? n
  | .float x => some x

/-- `x + y`. Integers are exact; with a float both are floats. -/
def add? : Number → Number → Option Number
  | .int m, .int n => some (.int (m + n))
  | x, y => do return .float (Binary64.add (← x.float?) (← y.float?))

/-- `x > 0`. -/
def pos : Number → Bool
  | .int n => 0 < n
  | .float x => PyFloat.lt (.fin 0) x

/-- `x < 0`. -/
def neg : Number → Bool
  | .int n => n < 0
  | .float x => x.lt (.fin 0)

end Number

/-- `x`, if `isinstance(x, (int, float))`. -/
def number? : Value → Option Number
  | .int n => some (.int n)
  | .bool b => some (.int (if b then 1 else 0))
  | .float x => some (.float x)
  | _ => none

/-- What `total += x if isinstance(x, (int, float)) else 0.0` adds to a float. -/
def resultOf? (v : Value) : Option PyFloat := ((number? v).getD (.float (.fin 0))).float?

namespace Event

/-- `event["payload"].get("pnl", 0.0)`. -/
def pnl (e : Event) : Value := e.payload.getD "pnl" (.float (.fin 0))

/-- `event["payload"].get("violations", [])`. -/
def violations (e : Event) : Value := e.payload.getD "violations" (.list [])

end Event

namespace Simulator

/-! ## The events -/

/-- What the loop over the timeline has extracted. -/
structure Extracted where
  tradeEvents : List Event := []
  outcomeEvents : List Event := []
  originalPnl : PyFloat := .fin 0
  wouldHaveBeenAllowed : Bool := true
  violatedRules : List Value := []

/-- The body of the loop; a result that is too large and violations that are no collection raise. -/
def Extracted.add (cv : Conv) (x : Extracted) (e : Event) : Option Extracted :=
  if e.eventType = "TRADE_EXECUTED" then some { x with tradeEvents := x.tradeEvents ++ [e] }
  else if e.eventType = "OUTCOME_RECORDED" then do
    let result ← resultOf? e.pnl
    return { x with
      outcomeEvents := x.outcomeEvents ++ [e]
      originalPnl := Binary64.add x.originalPnl result }
  else if e.eventType = "GOVERNANCE_EVALUATED" then
    if e.violations.truthy then do
      let rules ← cv.items? e.violations
      return { x with wouldHaveBeenAllowed := false, violatedRules := x.violatedRules ++ rules }
    else some x
  else some x

/-! ## The estimates -/

/-- One more outcome in the sum of the losses; a comparison may raise. -/
def addLoss (total : Number) (e : Event) : Option Number := do
  let pnl ← number? e.pnl
  if pnl.neg then total.add? pnl else return total

/-- `losing_trades_pnl`, as a float. -/
def losingTradesPnl? (outcomeEvents : List Event) : Option PyFloat := do
  (← outcomeEvents.foldlM addLoss (.int 0)).float?

/-- `int(n * 0.3)`. -/
def thirtyPercent (n : ℕ) : ℕ := Binary64.truncMul (Binary64.roundSig n) 5404319552844595 54

/-- `_simulate_blocked_trades`. -/
def simulateBlockedTrades (tradeEvents outcomeEvents : List Event) (originalPnl : PyFloat) :
    PyFloat × ℕ :=
  if tradeEvents.isEmpty || outcomeEvents.isEmpty then (originalPnl, 0)
  else match losingTradesPnl? outcomeEvents with
    | none => (originalPnl, 0)
    | some losingTradesPnl =>
      let blockedImpact := Binary64.mul losingTradesPnl (.fin (1 / 2))
      (Binary64.sub originalPnl blockedImpact, thirtyPercent outcomeEvents.length)

/-- The variables of a loop of `_simulate_drawdown`. -/
structure Drawdown where
  cumulativePnl : PyFloat := .fin 0
  peak : PyFloat := .fin 0
  maxDrawdown : PyFloat := .fin 0

/-- `max(x, y)`, which is `x` unless `y > x`. -/
def maxFloat (x y : PyFloat) : PyFloat := if x.lt y then y else x

/-- The rest of the body of a loop, once the cumulative pnl is known. -/
def Drawdown.track (d : Drawdown) (cumulativePnl : PyFloat) : Drawdown :=
  let peak := maxFloat d.peak cumulativePnl
  ⟨cumulativePnl, peak, maxFloat d.maxDrawdown (Binary64.sub peak cumulativePnl)⟩

/-- The body of the first loop. -/
def Drawdown.addOutcome (d : Drawdown) (e : Event) : Option Drawdown := do
  return d.track (Binary64.add d.cumulativePnl (← resultOf? e.pnl))

/-- The body of the second loop, which counts winning trades only. -/
def Drawdown.addWin (d : Drawdown) (e : Event) : Option Drawdown :=
  match (number? e.pnl).filter Number.pos with
  | some pnl => do return d.track (Binary64.add d.cumulativePnl (← pnl.float?))
  | none => some (d.track d.cumulativePnl)

/-- `_simulate_drawdown`. -/
def simulateDrawdown (outcomeEvents : List Event) : PyFloat × PyFloat :=
  (do
    let original ← outcomeEvents.foldlM Drawdown.addOutcome {}
    let counterfactual ← outcomeEvents.foldlM Drawdown.addWin {}
    return (original.maxDrawdown, counterfactual.maxDrawdown) : Option (PyFloat × PyFloat)).getD
    (.fin 0, .fin 0)

/-- The name of a rule, if it is a text. -/
def ruleName? : Value → Option String
  | .str s => some s
  | _ => none

/-- `_compute_rule_impact_frequency`. -/
def ruleImpactFrequency (violatedRules : List Value) : Dict String ℕ :=
  (violatedRules.filterMap ruleName?).foldl
    (fun impact name => impact.set name (impact.getD name 0 + 1)) Dict.empty

/-! ## `simulate` -/

structure OriginalOutcome where
  pnl : PyFloat
  tradesExecuted : ℕ
  outcomesRecorded : ℕ

structure ExecutionImpact where
  tradesExecuted : ℕ := 0
  tradesBlocked : ℕ := 0
  maxDrawdownOriginal : PyFloat := .fin 0
  maxDrawdownCounterfactual : PyFloat := .fin 0
  drawdownImprovement : PyFloat := .fin 0

/-- What `simulate` returns, but for its disclaimer and the time. -/
structure Simulation where
  correlationId : String
  originalOutcome : Option OriginalOutcome := none
  wouldHaveBeenAllowed : Bool := true
  violatedRules : List Value := []
  counterfactualPnl : PyFloat := .fin 0
  pnlDifference : PyFloat := .fin 0
  executionImpact : ExecutionImpact := {}
  ruleImpact : Dict String ℕ := Dict.empty
  explanation : String := ""

/-- `', '.join(rules)`, which raises for a rule that is no text. -/
def joinRules? (rules : List Value) : Option String := (rules.mapM ruleName?).map (", ").intercalate

/-- The explanation of a simulation. -/
def explain? (tx : Texts) (r : Simulation) (originalPnl : PyFloat) : Option String :=
  let id := r.correlationId
  let money (x : PyFloat) : String := tx.fixed 2 x
  let violated := s!"Trade {id} violated {r.violatedRules.length} governance rule(s)"
  if r.wouldHaveBeenAllowed then
    some (s!"Trade {id} would have been allowed under governance rules. " ++
      s!"Original PnL: {money originalPnl}. No counterfactual blocking applied.")
  else if (PyFloat.fin 0).lt r.pnlDifference then do
    let rules ← joinRules? r.violatedRules
    return violated ++ s!": {rules}. If enforced, would have improved PnL by {money r.pnlDifference} " ++
      s!"(counterfactual: {money r.counterfactualPnl} vs actual: {money originalPnl}). " ++
      s!"Drawdown would improve by {money r.executionImpact.drawdownImprovement}."
  else if r.pnlDifference.lt (.fin 0) then do
    let rules ← joinRules? r.violatedRules
    return violated ++ s!": {rules}. If enforced, would have worsened PnL by " ++
      s!"{money (absFloat r.pnlDifference)}. Trade was profitable despite violations."
  else some (violated ++ " but had neutral impact on PnL.")

/-- The part of `simulate` behind the loop, without the explanation. -/
def simulationOf (correlationId : String) (x : Extracted) : Simulation :=
  let (counterfactualPnl, blockedCount) :=
    simulateBlockedTrades x.tradeEvents x.outcomeEvents x.originalPnl
  let (originalDd, counterfactualDd) := simulateDrawdown x.outcomeEvents
  { correlationId
    originalOutcome := some ⟨x.originalPnl, x.tradeEvents.length, x.outcomeEvents.length⟩
    wouldHaveBeenAllowed := x.wouldHaveBeenAllowed
    violatedRules := x.violatedRules
    counterfactualPnl
    pnlDifference := Binary64.sub counterfactualPnl x.originalPnl
    executionImpact := {
      tradesExecuted := x.tradeEvents.length
      tradesBlocked := blockedCount
      maxDrawdownOriginal := originalDd
      maxDrawdownCounterfactual := counterfactualDd
      drawdownImprovement := Binary64.sub originalDd counterfactualDd }
    ruleImpact := ruleImpactFrequency x.violatedRules }

/-- `simulate`; `none` for the answer that tells an error. -/
def simulate (tx : Texts) (cv : Conv) (s : Timelines) (correlationId : String) : Option Simulation :=
  match s.getTimeline correlationId with
  | [] => some { correlationId, explanation := s!"No timeline found for correlation_id: {correlationId}" }
  | e :: es => do
    let x ← (e :: es).foldlM (Extracted.add cv) {}
    let r := simulationOf correlationId x
    let explanation ← explain? tx r x.originalPnl
    return { r with explanation }

end Simulator

end Reports
