import IctAlgo.Analytics.Outcomes

/-!
# The heatmap of vetoes

`signal_policy_heatmap` of `reasoner_service/outcome_analytics_service.py`. A field of an outcome is
missing, `None` or a value of any type; `unknown` is the text `"unknown"`, under which outcomes are
grouped that lack the field.
-/

set_option autoImplicit false

namespace Analytics

open Lib Lib.Decimal

/-! ## Records -/

/-- A `DecisionOutcome` dict, as far as the heatmap reads it. -/
structure OutcomeRecord (κ : Type) where
  signalType : Option (Option κ) := none
  symbol : Option (Option κ) := none
  timeframe : Option (Option κ) := none
  outcome : TradeResult

/-- What `get` without a default reads of the fields. -/
def OutcomeRecord.read {κ : Type} (o : OutcomeRecord κ) : Outcome (Option κ) where
  signalType := o.signalType.join
  symbol := o.symbol.join
  timeframe := o.timeframe.join
  outcome := o.outcome

/-- `outcome.get(field, "unknown")`. -/
def orUnknown {κ : Type} (unknown : κ) (field : Option (Option κ)) : Option κ :=
  field.getD (some unknown)

/-! ## Tables -/

/-- `perf_key`. -/
def TradeResult.name : TradeResult → String
  | .win => "win"
  | .loss => "loss"
  | .breakeven => "breakeven"

/-- A `performance_if_..` table. -/
abbrev Performance := Dict String ℕ

def Performance.new : Performance := Dict.ofItems [("wins", 0), ("losses", 0), ("breakeven", 0)]

/-- `table[perf_key] += 1`, from 0 for a key that is not in the table. -/
def Performance.count (table : Performance) (r : TradeResult) : Performance :=
  table.set r.name (table.getD r.name 0 + 1)

structure SignalStats where
  totalTrades : ℕ := 0
  vetoedTrades : ℕ := 0
  performanceIfVetoed : Performance := .new
  performanceIfAllowed : Performance := .new

structure SignalReport extends SignalStats where
  vetoRate : ℚ

structure TimeframeStats where
  totalTrades : ℕ := 0
  vetoedTrades : ℕ := 0
  vetoRate : ℚ := 0

structure Heatmap (κ : Type) where
  bySignalType : Dict (Option κ) SignalReport
  byTimeframe : Dict (Option κ) TimeframeStats

/-! ## `signal_policy_heatmap` -/

section
variable {κ : Type} [DecidableEq κ]

/-- `veto_index`: the keys of the evaluations that veto. -/
def vetoKeys (evaluations : List (ShadowEvaluation (Option κ))) :
    List (Option κ × Option κ × Option κ) :=
  (evaluations.filter ShadowEvaluation.isVeto).map ShadowEvaluation.key

/-- `veto_index_by_signal_tf`. -/
def vetoSignalTimeframes (evaluations : List (ShadowEvaluation (Option κ))) :
    List (Option κ × Option κ) :=
  (evaluations.filter ShadowEvaluation.isVeto).map fun e => (e.signalType, e.timeframe)

/-- `key in veto_index`. -/
def keyVetoed (evaluations : List (ShadowEvaluation (Option κ))) (o : OutcomeRecord κ) : Bool :=
  o.read.key ∈ vetoKeys evaluations

/-- `is_vetoed`: without a symbol the signal type and the timeframe are enough. -/
def isVetoed (evaluations : List (ShadowEvaluation (Option κ))) (o : OutcomeRecord κ) : Bool :=
  keyVetoed evaluations o || (o.read.symbol.isNone &&
    decide ((o.read.signalType, o.read.timeframe) ∈ vetoSignalTimeframes evaluations))

/-- The body of the loop over the signal types. -/
def countSignal (evaluations : List (ShadowEvaluation (Option κ))) (stats : SignalStats)
    (o : OutcomeRecord κ) : SignalStats :=
  let stats := { stats with totalTrades := stats.totalTrades + 1 }
  if isVetoed evaluations o then { stats with
    vetoedTrades := stats.vetoedTrades + 1
    performanceIfVetoed := stats.performanceIfVetoed.count o.outcome }
  else { stats with performanceIfAllowed := stats.performanceIfAllowed.count o.outcome }

/-- The body of the loop over the timeframes. -/
def countTimeframe (evaluations : List (ShadowEvaluation (Option κ))) (stats : TimeframeStats)
    (o : OutcomeRecord κ) : TimeframeStats :=
  let stats := { stats with totalTrades := stats.totalTrades + 1 }
  if keyVetoed evaluations o then { stats with vetoedTrades := stats.vetoedTrades + 1 }
  else stats

variable (unknown : κ)

def signalPolicyHeatmap (outcomes : List (OutcomeRecord κ))
    (evaluations : List (ShadowEvaluation (Option κ))) : Heatmap κ where
  bySignalType := (Dict.groupBy (fun o => orUnknown unknown o.signalType) (countSignal evaluations) {}
    outcomes).mapVals fun stats => { stats with
      vetoRate := roundTo 4 (ratioOr0 stats.vetoedTrades stats.totalTrades) }
  byTimeframe := (Dict.groupBy (fun o => orUnknown unknown o.timeframe) (countTimeframe evaluations) {}
    outcomes).mapVals fun stats => { stats with
      vetoRate := roundTo 4 (ratioOr0 stats.vetoedTrades stats.totalTrades) }

end

end Analytics
