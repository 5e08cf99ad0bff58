import IctAlgo.Analytics.Stats

/-!
# Outcome policies

`reasoner_service/outcome_policy_evaluator.py` over the statistics of a table of outcomes, in floats. Each
rule asks the service for its own aggregation; the first veto counts. The table and the clock stand
still while the rules are evaluated.
-/

set_option autoImplicit false

namespace OutcomePolicy

open Lib OutcomeStats

inductive PolicyDecision
  | allow
  | veto
  deriving DecidableEq

/-- `metrics_snapshot`: the entry of a group, or the streaks. -/
inductive MetricsSnapshot
  | group (metrics : GroupMetrics PyFloat)
  | streaks (streaks : Streaks)

structure PolicyEvaluation where
  decision : PolicyDecision
  reason : String
  ruleName : String
  signalType : Option String := none
  symbol : Option String := none
  timeframe : Option String := none
  metricsSnapshot : Option MetricsSnapshot := none
  timestamp : ℤ

/-- How numbers are written: `:.2f` and `:.2%`. -/
structure Texts where
  fixed : PyFloat → String
  percent : PyFloat → String

/-- The arguments of `evaluate`. -/
structure Query where
  signalType : Option String := none
  symbol : Option String := none
  timeframe : Option String := none

/-- An optional text in an f-string. -/
def shown (text : Option String) : String := text.getD "None"

def Query.veto (q : Query) (ruleName reason : String) (metrics : MetricsSnapshot) (now : ℤ) :
    PolicyEvaluation where
  decision := .veto
  reason := reason
  ruleName := ruleName
  signalType := q.signalType
  symbol := q.symbol
  timeframe := q.timeframe
  metricsSnapshot := some metrics
  timestamp := now

/-! ## Rules -/

structure WinRateThresholdRule where
  name : String := "win_rate_threshold"
  minWinRate : ℚ := Binary64.literal (45 / 100)
  minTrades : ℤ := 10
  nonneg : 0 ≤ minWinRate
  le_one : minWinRate ≤ 1

structure LossStreakRule where
  name : String := "loss_streak"
  maxStreak : ℤ := 5
  one_le : 1 ≤ maxStreak

structure AvgPnLThresholdRule where
  name : String := "avg_pnl_threshold"
  minAvgPnl : ℚ := 0
  minTrades : ℤ := 10

structure SymbolDrawdownRule where
  name : String := "symbol_drawdown"
  maxDrawdown : ℚ := -100
  minTrades : ℤ := 5

section
variable (tx : Texts) (rows : List DecisionOutcome) (now : ℤ) (q : Query)

/-- The rules about a metric of a group: no group, or too few trades in it, is no veto. -/
def vetoBelow (ruleName : String) (stats : Option (Dict String (GroupMetrics PyFloat)))
    (key : Option String) (minTrades : ℤ) (metric : GroupMetrics PyFloat → PyFloat) (least : ℚ)
    (reason : GroupMetrics PyFloat → String) : Option PolicyEvaluation :=
  match stats with
  | none => none
  | some stats =>
    match key.bind stats.get? with
    | none => none
    | some group =>
      if (group.count : ℤ) < minTrades then none
      else if (metric group).lt (.fin least) then some (q.veto ruleName (reason group) (.group group) now)
      else none

def WinRateThresholdRule.evaluate (rule : WinRateThresholdRule) : Option PolicyEvaluation :=
  vetoBelow now q rule.name (aggregateBySignalType rows now q.symbol q.timeframe {}) q.signalType
    rule.minTrades (·.winRate) rule.minWinRate fun sigStats =>
      let winRate := tx.percent sigStats.winRate
      let least := tx.percent (.fin rule.minWinRate)
      s!"{shown q.signalType} win rate {winRate} below minimum {least} ({sigStats.count} trades)"

def LossStreakRule.evaluate (rule : LossStreakRule) : Option PolicyEvaluation :=
  match getLossStreak rows now q.symbol q.timeframe q.signalType with
  | none => none
  | some streaks =>
    if rule.maxStreak < streaks.current then
      let reason :=
        s!"{shown q.signalType} loss streak {streaks.current} exceeds maximum {rule.maxStreak}"
      some (q.veto rule.name reason (.streaks streaks) now)
    else none

def AvgPnLThresholdRule.evaluate (rule : AvgPnLThresholdRule) : Option PolicyEvaluation :=
  vetoBelow now q rule.name (aggregateBySignalType rows now q.symbol q.timeframe {}) q.signalType
    rule.minTrades (·.avgPnl) rule.minAvgPnl fun sigStats =>
      let avgPnl := tx.fixed sigStats.avgPnl
      let least := tx.fixed (.fin rule.minAvgPnl)
      s!"{shown q.signalType} avg PnL {avgPnl} below minimum {least} ({sigStats.count} trades)"

/-- It needs a symbol. -/
def SymbolDrawdownRule.evaluate (rule : SymbolDrawdownRule) : Option PolicyEvaluation :=
  if q.symbol.all (· = "") then none
  else vetoBelow now q rule.name (aggregateBySymbol rows now q.timeframe q.signalType {}) q.symbol
    rule.minTrades (·.totalPnl) rule.maxDrawdown fun symStats =>
      let totalPnl := tx.fixed symStats.totalPnl
      let limit := tx.fixed (.fin rule.maxDrawdown)
      let count := symStats.count
      s!"{shown q.symbol} total PnL {totalPnl} exceeds drawdown limit {limit} ({count} trades)"

inductive PolicyRule
  | winRate (rule : WinRateThresholdRule)
  | lossStreak (rule : LossStreakRule)
  | avgPnl (rule : AvgPnLThresholdRule)
  | drawdown (rule : SymbolDrawdownRule)

def PolicyRule.name : PolicyRule → String
  | .winRate rule => rule.name
  | .lossStreak rule => rule.name
  | .avgPnl rule => rule.name
  | .drawdown rule => rule.name

def PolicyRule.evaluate : PolicyRule → Option PolicyEvaluation
  | .winRate rule => rule.evaluate tx rows now q
  | .lossStreak rule => rule.evaluate rows now q
  | .avgPnl rule => rule.evaluate tx rows now q
  | .drawdown rule => rule.evaluate tx rows now q

/-- The loop over the rules. -/
def firstVeto : List PolicyRule → Option PolicyEvaluation
  | [] => none
  | rule :: rules =>
    match rule.evaluate tx rows now q with
    | none => firstVeto rules
    | some result => if result.decision = .veto then some result else firstVeto rules

end

/-! ## The evaluator -/

/-- The rules have different names. -/
structure OutcomePolicyEvaluator where
  rules : List PolicyRule := []
  evaluationLog : List PolicyEvaluation := []
  distinct : (rules.map (·.name)).Nodup := by exact List.nodup_nil

namespace OutcomePolicyEvaluator

variable (e : OutcomePolicyEvaluator)

/-- `add_rule`; a name that is there raises `ValueError`. -/
def addRule (rule : PolicyRule) : Option OutcomePolicyEvaluator :=
  if h : rule.name ∈ e.rules.map (·.name) then none
  else some { e with
    rules := e.rules ++ [rule]
    distinct := by
      rw [List.map_append, List.map_singleton, List.nodup_append]
      refine ⟨e.distinct, List.pairwise_singleton _ _, fun name hname other hother heq => h ?_⟩
      rwa [← List.mem_singleton.1 hother, ← heq] }

/-- `evaluate`: the answer and the evaluator after it. -/
def evaluate (tx : Texts) (rows : List DecisionOutcome) (now : ℤ) (q : Query) :
    Option PolicyEvaluation × OutcomePolicyEvaluator :=
  match firstVeto tx rows now q e.rules with
  | some result => (some result, { e with evaluationLog := e.evaluationLog ++ [result] })
  | none => (none, e)

end OutcomePolicyEvaluator

end OutcomePolicy
