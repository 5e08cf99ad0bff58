import IctAlgo.Lib.Decimal
import IctAlgo.Lib.Dict

/-!
# Analytics of outcomes

`policy_veto_impact` and `regime_policy_performance` of
`reasoner_service/outcome_analytics_service.py`. The values of `signal_type`, `symbol` and
`timeframe` are of any type; numbers are exact. What the services publish is a dictionary of numbers.
-/

set_option autoImplicit false

namespace Analytics

open Lib Lib.Decimal

/-- A dictionary of numbers. -/
abbrev Numbers := Dict String ℚ

/-- `outcome`. -/
inductive TradeResult
  | win | loss | breakeven
  deriving DecidableEq, Repr

structure Outcome (κ : Type) where
  signalType : κ
  symbol : κ
  timeframe : κ
  outcome : TradeResult
  pnl : Option ℚ := none

structure ShadowEvaluation (κ : Type) where
  decision : Option String
  signalType : κ
  symbol : κ
  timeframe : κ

section
variable {κ : Type}

def Outcome.key (o : Outcome κ) : κ × κ × κ := (o.signalType, o.symbol, o.timeframe)

def ShadowEvaluation.key (e : ShadowEvaluation κ) : κ × κ × κ :=
  (e.signalType, e.symbol, e.timeframe)

def ShadowEvaluation.isVeto (e : ShadowEvaluation κ) : Bool := e.decision = some "veto"

end

/-! ## `policy_veto_impact` -/

section
variable {κ : Type} [DecidableEq κ]

/-- The evaluations that veto, by key. -/
def vetoIndex (evaluations : List (ShadowEvaluation κ)) :
    Dict (κ × κ × κ) (List (ShadowEvaluation κ)) :=
  Dict.groupBy ShadowEvaluation.key (fun found e => found ++ [e]) []
    (evaluations.filter ShadowEvaluation.isVeto)

/-- The counters of the loop over the outcomes. -/
structure VetoCounts where
  wouldHaveBeenVetoed : ℕ := 0
  vetoedWinners : ℕ := 0
  vetoedLosers : ℕ := 0

/-- The body of the loop. -/
def countVeto (index : Dict (κ × κ × κ) (List (ShadowEvaluation κ))) (c : VetoCounts)
    (o : Outcome κ) : VetoCounts :=
  if (index.get? o.key).isSome then
    let c := { c with wouldHaveBeenVetoed := c.wouldHaveBeenVetoed + 1 }
    match o.outcome with
    | .win => { c with vetoedWinners := c.vetoedWinners + 1 }
    | .loss => { c with vetoedLosers := c.vetoedLosers + 1 }
    | .breakeven => c
  else c

/-- `m / n if n > 0 else 0.0`. -/
def ratioOr0 (m n : ℕ) : ℚ := if 0 < n then m / n else 0

/-- `policy_veto_impact`. -/
def policyVetoImpact (outcomes : List (Outcome κ)) (evaluations : List (ShadowEvaluation κ)) :
    Numbers :=
  let c := outcomes.foldl (countVeto (vetoIndex evaluations)) {}
  let totalLosers := outcomes.countP (·.outcome = .loss)
  Dict.ofItems
    [("total_trades", outcomes.length),
      ("would_have_been_vetoed", c.wouldHaveBeenVetoed),
      ("vetoed_winners", c.vetoedWinners),
      ("vetoed_losers", c.vetoedLosers),
      ("veto_precision", roundTo 4 (ratioOr0 c.vetoedLosers c.wouldHaveBeenVetoed)),
      ("veto_recall", roundTo 4 (ratioOr0 c.vetoedLosers totalLosers)),
      ("veto_false_positives", c.vetoedWinners),
      ("veto_false_negatives", totalLosers - c.vetoedLosers)]

end

/-! ## `regime_policy_performance` -/

inductive Regime
  | trendingMarket | rangingMarket | highVolatility
  deriving DecidableEq, Repr

def Regime.name : Regime → String
  | .trendingMarket => "trending_market"
  | .rangingMarket => "ranging_market"
  | .highVolatility => "high_volatility"

/-- The regimes in the order of the dictionaries. -/
def Regime.all : List Regime := [.trendingMarket, .rangingMarket, .highVolatility]

def mean (xs : List ℚ) : ℚ := xs.sum / xs.length

/-- The mean of the squared distances from the mean. -/
def variance (xs : List ℚ) : ℚ := (xs.map fun x => (x - mean xs) ^ 2).sum / xs.length

structure Thresholds where
  trending : ℚ
  ranging : ℚ
  volatility : ℚ

section
variable {κ : Type} (sqrt : ℚ → ℚ)

/-- `o.get("pnl", 0)`. -/
def Outcome.pnlOr0 (o : Outcome κ) : ℚ := o.pnl.getD 0

def thresholds (pnls : List ℚ) : Thresholds :=
  let stdDev := sqrt (variance pnls)
  ⟨mean pnls + stdDev, mean pnls - stdDev, stdDev * (3 / 2)⟩

/-- The regime of an outcome, if it has one. -/
def regimeOf (t : Thresholds) (pnl : ℚ) : Option Regime :=
  if t.volatility < |pnl| then some .highVolatility
  else if t.trending < pnl then some .trendingMarket
  else if pnl < t.ranging then some .rangingMarket
  else none

/-- The outcomes classified into a regime. -/
def classified (outcomes : List (Outcome κ)) (r : Regime) : List (Outcome κ) :=
  let t := thresholds sqrt (outcomes.map Outcome.pnlOr0)
  outcomes.filter fun o => regimeOf t o.pnlOr0 = some r

/-- What is published for a regime. -/
def regimeStats (os : List (Outcome κ)) : Numbers :=
  if os.isEmpty then Dict.ofItems [("trades_in_regime", 0)]
  else
    let wins := os.countP (·.outcome = .win)
    let losses := os.countP (·.outcome = .loss)
    let pnls := os.map Outcome.pnlOr0
    Dict.ofItems
      [("trades_in_regime", os.length),
        ("win_rate", roundTo 4 (wins / os.length)),
        ("loss_rate", roundTo 4 (losses / os.length)),
        ("avg_pnl", roundTo 2 (mean pnls)),
        ("total_pnl", roundTo 2 pnls.sum)]

/-- `regime_policy_performance`; without outcomes every regime is empty. -/
def regimePolicyPerformance (outcomes : List (Outcome κ)) : Dict String Numbers :=
  Dict.ofItems (Regime.all.map fun r => (r.name, regimeStats (classified sqrt outcomes r)))

end

end Analytics
