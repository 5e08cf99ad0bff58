import Mathlib.Data.List.Nodup
import IctAlgo.Analytics.Policy
import IctAlgo.Analytics.Proof.Partitions
import IctAlgo.Lib.Sorting

/-!
# Vetoes

`PolicyRule.Holds outcomes rule`: the condition of a rule, over the outcomes of a signal type, a
symbol and a timeframe, from the latest on; with all three given every rule looks at the same outcomes.
A total is the sum of floats, in this order.

* `evaluate_cases`: a rule vetoes exactly when there are outcomes and its condition holds of them.
* `firstVeto_of_applies`, `firstVeto_eq_none`: the loop finds the first such rule.
-/

set_option autoImplicit false

namespace OutcomePolicy

open Lib Lib.Binary64 OutcomeStats

/-! ## Definitions -/

/-- The outcomes, latest first, are the losses since the last one that is none, and those before them. -/
structure LossesSince (outcomes losses older : List DecisionOutcome) : Prop where
  split : outcomes = losses ++ older
  losses : ∀ o ∈ losses, o.isLoss = true
  older : ∀ o ∈ older.head?, o.isLoss = false

/-- The profits of some outcomes, as floats. -/
def pnls (outcomes : List DecisionOutcome) : List PyFloat := outcomes.map (nearest ·.pnl)

/-- The condition of a rule. -/
def PolicyRule.Holds (outcomes : List DecisionOutcome) : PolicyRule → Prop
  | .winRate rule => rule.minTrades ≤ outcomes.length ∧
      (nearest (outcomes.countP (·.isWin) / outcomes.length)).lt (.fin rule.minWinRate) = true
  | .lossStreak rule => ∃ losses older, LossesSince outcomes losses older ∧
      rule.maxStreak < losses.length
  | .avgPnl rule => rule.minTrades ≤ outcomes.length ∧
      (mean (pnls outcomes)).lt (.fin rule.minAvgPnl) = true
  | .drawdown rule => rule.minTrades ≤ outcomes.length ∧
      (total (pnls outcomes)).lt (.fin rule.maxDrawdown) = true

/-- A signal of a symbol on a timeframe. -/
structure Setup where
  signalType : String
  symbol : String
  timeframe : String
  signalType_ne : signalType ≠ ""
  symbol_ne : symbol ≠ ""
  timeframe_ne : timeframe ≠ ""

namespace Setup

variable (s : Setup)

def query : Query := ⟨some s.signalType, some s.symbol, some s.timeframe⟩

/-- The outcomes that match the filters of every rule, latest first. -/
def outcomes (rows : List DecisionOutcome) : List DecisionOutcome :=
  (rows.filter fun o =>
    o.symbol = s.symbol && o.timeframe = s.timeframe && o.signalType = s.signalType).mergeSort
    latestFirst

end Setup

namespace PolicyRule

variable (s : Setup) (rows : List DecisionOutcome) (now : ℤ) (rule : PolicyRule)

/-- There are outcomes and the condition holds of them. -/
def Applies : Prop := s.outcomes rows ≠ [] ∧ rule.Holds (s.outcomes rows)

/-- What a rule measures: the metrics of the outcomes, or their streaks. -/
def Measures (outcomes : List DecisionOutcome) : PolicyRule → MetricsSnapshot → Prop
  | .lossStreak _, .streaks streaks => StreaksOf outcomes.reverse streaks
  | .lossStreak _, .group _ => False
  | _, .group metrics => metrics = metricsOf outcomes
  | _, .streaks _ => False

/-- The veto of a rule: it names the rule and the setup, and has the metrics of the outcomes. -/
structure VetoOf (result : PolicyEvaluation) : Prop where
  decision : result.decision = .veto
  ruleName : result.ruleName = rule.name
  signalType : result.signalType = some s.signalType
  symbol : result.symbol = some s.symbol
  timeframe : result.timeframe = some s.timeframe
  metrics : ∃ metrics, result.metricsSnapshot = some metrics ∧
    rule.Measures (s.outcomes rows) metrics
  timestamp : result.timestamp = now

end PolicyRule

/-! ## Metrics -/

/-- A total of the statistics. -/
theorem totalPnl_eq_total (outcomes : List DecisionOutcome) : totalPnl outcomes = total (pnls outcomes) := by
  unfold totalPnl total pnls
  rw [List.foldl_map]
  rfl

theorem latestFirst_trans (a b c : DecisionOutcome) (hab : latestFirst a b) (hbc : latestFirst b c) :
    latestFirst a c := by
  simp only [latestFirst, decide_eq_true_eq] at hab hbc ⊢
  omega

theorem latestFirst_total (a b : DecisionOutcome) : latestFirst a b || latestFirst b a := by
  simp only [latestFirst, Bool.or_eq_true, decide_eq_true_eq]
  omega

theorem accepts_none (column : String) : accepts none column = true := rfl

theorem accepts_some {text : String} (h : text ≠ "") (column : String) :
    accepts (some text) column = decide (column = text) := by
  simp [accepts, h]

section
variable (rows : List DecisionOutcome) (now : ℤ)

theorem getFilteredOutcomes_eq {f : Filters} (hall : f.lastNTrades = none) :
    getFilteredOutcomes rows now f = (rows.filter (f.selects now)).mergeSort latestFirst := by
  simp only [getFilteredOutcomes, hall]

/-- The group of a key: the metrics of the selected outcomes that have it. -/
theorem aggregateBy_group {α : Type} [Zero α] [Add α] [Numeric α]
    (key : DecisionOutcome → String) {f : Filters}
    (hall : f.lastNTrades = none) (k : String) {outcomes : List DecisionOutcome}
    (houtcomes : (rows.filter fun o => f.selects now o && key o = k).mergeSort latestFirst = outcomes) :
    ((aggregateBy rows now key f).bind fun stats : Dict String (GroupMetrics α) => stats.get? k) =
      if outcomes = [] then none else some (metricsOf outcomes) := by
  have hfilter : (getFilteredOutcomes rows now f).filter (key · = k) = outcomes := by
    rw [getFilteredOutcomes_eq rows now hall, ← houtcomes,
      filter_mergeSort latestFirst_trans latestFirst_total, List.filter_filter]
    simp only [Bool.and_comm]
  rw [← hfilter]
  unfold aggregateBy
  cases hfound : getFilteredOutcomes rows now f with
  | nil => rfl
  | cons o os => exact get?_groupBy (α := α) key (o :: os) k

end

/-! ## Rules -/

section
variable (now : ℤ) (q : Query) (ruleName : String) (minTrades : ℤ)
  (metric : GroupMetrics PyFloat → PyFloat) (least : ℚ) (reason : GroupMetrics PyFloat → String)

theorem vetoBelow_cases {stats : Option (Dict String (GroupMetrics PyFloat))} {k : String}
    {outcomes : List DecisionOutcome}
    (hgroup : (stats.bind fun stats => stats.get? k) =
      if outcomes = [] then none else some (metricsOf outcomes)) :
    (vetoBelow now q ruleName stats (some k) minTrades metric least reason =
        some (q.veto ruleName (reason (metricsOf outcomes)) (.group (metricsOf outcomes)) now) ∧
      outcomes ≠ [] ∧ minTrades ≤ outcomes.length ∧ (metric (metricsOf outcomes)).lt (.fin least) = true) ∨
    (vetoBelow now q ruleName stats (some k) minTrades metric least reason = none ∧
      ¬ (outcomes ≠ [] ∧ minTrades ≤ outcomes.length ∧
        (metric (metricsOf outcomes)).lt (.fin least) = true)) := by
  by_cases hnil : outcomes = []
  · rw [if_pos hnil] at hgroup
    refine .inr ⟨?_, fun h => h.1 hnil⟩
    unfold vetoBelow
    cases stats with
    | none => rfl
    | some stats =>
      rw [Option.bind_some] at hgroup
      simp only [Option.bind_some, hgroup]
  · rw [if_neg hnil] at hgroup
    obtain ⟨stats, rfl, hget⟩ := Option.bind_eq_some_iff.1 hgroup
    have hveto : vetoBelow now q ruleName (some stats) (some k) minTrades metric least reason =
        if ((metricsOf outcomes : GroupMetrics PyFloat).count : ℤ) < minTrades then none
        else if (metric (metricsOf outcomes)).lt (.fin least) then
          some (q.veto ruleName (reason (metricsOf outcomes)) (.group (metricsOf outcomes)) now)
        else none := by
      simp only [vetoBelow, Option.bind_some, hget]
    have hcount : (metricsOf outcomes : GroupMetrics PyFloat).count = outcomes.length := rfl
    rw [hveto, hcount]
    split
    · exact .inr ⟨rfl, fun h => absurd h.2.1 (by omega)⟩
    · split
      · exact .inl ⟨rfl, hnil, by omega, by assumption⟩
      · exact .inr ⟨rfl, fun h => absurd h.2.2 (by assumption)⟩

end

section
variable (s : Setup) (rows : List DecisionOutcome) (now : ℤ)

theorem outcomes_bySignalType :
    (rows.filter fun o =>
      ({ symbol := some s.symbol, timeframe := some s.timeframe } : Filters).selects now o &&
        o.signalType = s.signalType).mergeSort latestFirst = s.outcomes rows := by
  unfold Setup.outcomes
  congr 1
  refine List.filter_congr fun o _ => ?_
  simp only [Filters.selects, accepts_some s.symbol_ne, accepts_some s.timeframe_ne, accepts_none,
    Option.all_none, Bool.and_true]

theorem outcomes_bySymbol :
    (rows.filter fun o =>
      ({ timeframe := some s.timeframe, signalType := some s.signalType } : Filters).selects now o &&
        o.symbol = s.symbol).mergeSort latestFirst = s.outcomes rows := by
  unfold Setup.outcomes
  congr 1
  refine List.filter_congr fun o _ => ?_
  simp only [Filters.selects, accepts_some s.timeframe_ne, accepts_some s.signalType_ne,
    accepts_none, Option.all_none, Bool.true_and, Bool.and_true]
  rw [Bool.and_comm, Bool.and_assoc]

theorem outcomes_bySetup :
    (rows.filter (Filters.selects { symbol := some s.symbol, timeframe := some s.timeframe,
                                    signalType := some s.signalType } now)).mergeSort latestFirst =
      s.outcomes rows := by
  unfold Setup.outcomes
  congr 1
  refine List.filter_congr fun o _ => ?_
  simp only [Filters.selects, accepts_some s.symbol_ne, accepts_some s.timeframe_ne,
    accepts_some s.signalType_ne, Option.all_none, Bool.and_true]

theorem lossesSince_takeWhile (outcomes : List DecisionOutcome) :
    LossesSince outcomes (outcomes.takeWhile (·.isLoss))
      (outcomes.dropWhile (·.isLoss)) where
  split := List.takeWhile_append_dropWhile.symm
  losses := fun _ ho => List.mem_takeWhile_imp ho
  older := fun o ho => by
    have hhead := List.head?_dropWhile_not (·.isLoss) outcomes
    rw [Option.mem_def.1 ho] at hhead
    exact hhead

/-- There is one such cut. -/
theorem LossesSince.losses_eq {outcomes losses older : List DecisionOutcome}
    (h : LossesSince outcomes losses older) :
    losses = outcomes.takeWhile (·.isLoss) := by
  have holder : older.takeWhile (·.isLoss) = [] := by
    cases older with
    | nil => rfl
    | cons o older => rw [List.takeWhile_cons_of_neg (by simp [h.older o rfl])]
  rw [h.split, List.takeWhile_append_of_pos h.losses, holder, List.append_nil]

/-- The streaks of the outcomes, latest first. -/
def streaksOf (latest : List DecisionOutcome) : Streaks :=
  ⟨currentStreak latest, (latest.reverse.foldl StreakLoop.add {}).maxStreak⟩

theorem streaksOf_spec (latest : List DecisionOutcome) :
    StreaksOf latest.reverse (streaksOf latest) := by
  have hstreaks := streaksOf_loops latest.reverse
  rwa [List.reverse_reverse] at hstreaks

theorem getLossStreak_eq :
    getLossStreak rows now (some s.symbol) (some s.timeframe) (some s.signalType) =
      if s.outcomes rows = [] then none else some (streaksOf (s.outcomes rows)) := by
  unfold getLossStreak
  rw [getFilteredOutcomes_eq _ _ rfl, outcomes_bySetup]
  cases hfound : s.outcomes rows with
  | nil => rfl
  | cons o os =>
    rw [if_neg (List.cons_ne_nil o os)]
    dsimp only
    rw [List.reverse_reverse]
    rfl

theorem holds_lossStreak_iff (rule : LossStreakRule) (outcomes : List DecisionOutcome) :
    (PolicyRule.lossStreak rule).Holds outcomes ↔
      rule.maxStreak < (streaksOf outcomes).current := by
  have hcurrent : (streaksOf outcomes).current =
      (outcomes.takeWhile (·.isLoss)).length := currentStreak_eq _
  rw [hcurrent]
  refine ⟨fun h => ?_, fun h => ⟨_, _, lossesSince_takeWhile outcomes, h⟩⟩
  obtain ⟨losses, older, hsince, hlt⟩ := h
  rwa [← hsince.losses_eq]

theorem lossStreak_cases (rule : LossStreakRule) :
    (∃ reason, rule.evaluate rows now s.query =
        some (s.query.veto rule.name reason
          (.streaks (streaksOf (s.outcomes rows))) now) ∧
      (PolicyRule.lossStreak rule).Applies s rows) ∨
    (rule.evaluate rows now s.query = none ∧ ¬ (PolicyRule.lossStreak rule).Applies s rows) := by
  have hstreak := getLossStreak_eq s rows now
  unfold PolicyRule.Applies
  rw [holds_lossStreak_iff]
  by_cases hnil : s.outcomes rows = []
  · rw [if_pos hnil] at hstreak
    refine .inr ⟨?_, fun h => h.1 hnil⟩
    simp only [LossStreakRule.evaluate, Setup.query, hstreak]
  · rw [if_neg hnil] at hstreak
    by_cases hlt : rule.maxStreak < (streaksOf (s.outcomes rows)).current
    · have hveto : ∃ reason, rule.evaluate rows now s.query = some (s.query.veto rule.name reason
          (.streaks (streaksOf (s.outcomes rows))) now) := by
        simp only [LossStreakRule.evaluate, Setup.query, hstreak, if_pos hlt]
        exact ⟨_, rfl⟩
      obtain ⟨reason, hveto⟩ := hveto
      exact .inl ⟨reason, hveto, hnil, hlt⟩
    · refine .inr ⟨?_, fun h => hlt h.2⟩
      simp only [LossStreakRule.evaluate, Setup.query, hstreak, if_neg hlt]

theorem holds_avgPnl_iff (rule : AvgPnLThresholdRule) (outcomes : List DecisionOutcome) :
    (PolicyRule.avgPnl rule).Holds outcomes ↔ rule.minTrades ≤ outcomes.length ∧
      (metricsOf outcomes : GroupMetrics PyFloat).avgPnl.lt (.fin rule.minAvgPnl) = true := by
  show _ ∧ (div (total (pnls outcomes)) (pnls outcomes).length).lt _ = true ↔
    _ ∧ (div (totalPnl outcomes) outcomes.length).lt _ = true
  rw [totalPnl_eq_total, pnls, List.length_map]

theorem holds_drawdown_iff (rule : SymbolDrawdownRule) (outcomes : List DecisionOutcome) :
    (PolicyRule.drawdown rule).Holds outcomes ↔ rule.minTrades ≤ outcomes.length ∧
      (metricsOf outcomes : GroupMetrics PyFloat).totalPnl.lt (.fin rule.maxDrawdown) = true := by
  show _ ∧ (total (pnls outcomes)).lt _ = true ↔ _ ∧ (totalPnl outcomes : PyFloat).lt _ = true
  rw [totalPnl_eq_total]

/-- A rule answers with its veto, or does not apply. -/
theorem evaluate_cases (tx : Texts) (rule : PolicyRule) :
    (∃ result, rule.evaluate tx rows now s.query = some result ∧ rule.Applies s rows ∧
      rule.VetoOf s rows now result) ∨
    (rule.evaluate tx rows now s.query = none ∧ ¬ rule.Applies s rows) := by
  cases rule with
  | winRate rule =>
    obtain ⟨hveto, happlies⟩ | hallow := vetoBelow_cases now s.query rule.name rule.minTrades
      (·.winRate) rule.minWinRate _
      (aggregateBy_group rows now (·.signalType) rfl _ (outcomes_bySignalType s rows now))
    · exact .inl ⟨_, hveto, happlies, rfl, rfl, rfl, rfl, rfl, ⟨_, rfl, rfl⟩, rfl⟩
    · exact .inr hallow
  | avgPnl rule =>
    unfold PolicyRule.Applies
    rw [holds_avgPnl_iff]
    obtain ⟨hveto, happlies⟩ | hallow := vetoBelow_cases now s.query rule.name rule.minTrades
      (·.avgPnl) rule.minAvgPnl _
      (aggregateBy_group rows now (·.signalType) rfl _ (outcomes_bySignalType s rows now))
    · exact .inl ⟨_, hveto, happlies, rfl, rfl, rfl, rfl, rfl, ⟨_, rfl, rfl⟩, rfl⟩
    · exact .inr hallow
  | drawdown rule =>
    have hsymbol : s.query.symbol.all (· = "") = false := by simp [Setup.query, s.symbol_ne]
    have heval : (PolicyRule.drawdown rule).evaluate tx rows now s.query = vetoBelow now s.query
        rule.name (aggregateBySymbol rows now s.query.timeframe s.query.signalType {}) s.query.symbol
        rule.minTrades (·.totalPnl) rule.maxDrawdown _ := if_neg (by simp [hsymbol])
    unfold PolicyRule.Applies
    rw [heval, holds_drawdown_iff]
    obtain ⟨hveto, happlies⟩ | hallow := vetoBelow_cases now s.query rule.name rule.minTrades
      (·.totalPnl) rule.maxDrawdown _
      (aggregateBy_group rows now (·.symbol) rfl _ (outcomes_bySymbol s rows now))
    · exact .inl ⟨_, hveto, happlies, rfl, rfl, rfl, rfl, rfl, ⟨_, rfl, rfl⟩, rfl⟩
    · exact .inr hallow
  | lossStreak rule =>
    obtain ⟨reason, hveto, happlies⟩ | hallow := lossStreak_cases s rows now rule
    · exact .inl ⟨_, hveto, happlies, rfl, rfl, rfl, rfl, rfl, ⟨_, rfl, streaksOf_spec _⟩, rfl⟩
    · exact .inr hallow

/-! ## The loop -/

theorem firstVeto_of_applies (tx : Texts) {before : List PolicyRule} {rule : PolicyRule}
    (after : List PolicyRule) (hbefore : ∀ r ∈ before, ¬ r.Applies s rows)
    (hrule : rule.Applies s rows) :
    ∃ result, firstVeto tx rows now s.query (before ++ rule :: after) = some result ∧
      rule.VetoOf s rows now result := by
  induction before with
  | nil =>
    obtain ⟨result, hresult, -, hveto⟩ | ⟨-, hnot⟩ := evaluate_cases s rows now tx rule
    · refine ⟨result, ?_, hveto⟩
      simp only [List.nil_append, firstVeto, hresult, hveto.decision, ↓reduceIte]
    · exact absurd hrule hnot
  | cons r before ih =>
    obtain ⟨hr, hbefore⟩ := List.forall_mem_cons.1 hbefore
    obtain ⟨-, -, happlies, -⟩ | ⟨hnone, -⟩ := evaluate_cases s rows now tx r
    · exact absurd happlies hr
    · simp only [List.cons_append, firstVeto, hnone]
      exact ih hbefore

theorem firstVeto_eq_none (tx : Texts) {rules : List PolicyRule} :
    firstVeto tx rows now s.query rules = none ↔ ∀ r ∈ rules, ¬ r.Applies s rows := by
  induction rules with
  | nil => simp [firstVeto]
  | cons r rules ih =>
    rw [List.forall_mem_cons]
    obtain ⟨result, hresult, happlies, hveto⟩ | ⟨hnone, hnot⟩ :=
      evaluate_cases s rows now tx r
    · simp [firstVeto, hresult, hveto.decision, happlies]
    · simp [firstVeto, hnone, hnot, ih]

/-- **Outcome policies.** With at least one outcome of the setup, a rule vetoes exactly when its
condition holds of these outcomes; without one it does not. The evaluator answers with the veto of the
first such rule, which is the only one of its name, and logs it; without such a rule it answers with
`None` and stays as it is. -/
theorem evaluate_first_veto (tx : Texts) (rows : List DecisionOutcome) (now : ℤ)
    (e : OutcomePolicyEvaluator) (s : Setup) :
    (∀ before rule after, e.rules = before ++ rule :: after →
      (∀ r ∈ before, ¬ r.Applies s rows) → rule.Applies s rows →
      ∃ result, rule.VetoOf s rows now result ∧ (∀ r ∈ e.rules, r.name = result.ruleName → r = rule) ∧
        e.evaluate tx rows now s.query =
          (some result, { e with evaluationLog := e.evaluationLog ++ [result] })) ∧
    ((∀ rule ∈ e.rules, ¬ rule.Applies s rows) → e.evaluate tx rows now s.query = (none, e)) ∧
    ((e.evaluate tx rows now s.query).1 = none ↔ ∀ rule ∈ e.rules, ¬ rule.Applies s rows) := by
  refine ⟨fun before rule after hrules hbefore hrule => ?_, fun hnone => ?_, ?_⟩
  · obtain ⟨result, hresult, hveto⟩ :=
      firstVeto_of_applies s rows now tx after hbefore hrule
    refine ⟨result, hveto, fun r hr hname => ?_, ?_⟩
    · rw [hveto.ruleName] at hname
      exact List.inj_on_of_nodup_map e.distinct hr (by simp [hrules]) hname
    · simp only [OutcomePolicyEvaluator.evaluate, hrules, hresult]
  · simp only [OutcomePolicyEvaluator.evaluate, (firstVeto_eq_none s rows now tx).2 hnone]
  · rw [← firstVeto_eq_none s rows now tx]
    unfold OutcomePolicyEvaluator.evaluate
    split <;> simp [*]

end

def bullishSetup : Setup where
  signalType := "bullish_choch"
  symbol := "EURUSD"
  timeframe := "4H"
  signalType_ne := by decide
  symbol_ne := by decide
  timeframe_ne := by decide

/-- A limit above zero, for any number of trades. -/
def profitEvaluator : OutcomePolicyEvaluator where
  rules := [.drawdown { maxDrawdown := 1, minTrades := 0 }]
  distinct := List.pairwise_singleton _ _

theorem outcomes_empty (s : Setup) : s.outcomes [] = [] := List.mergeSort_nil

/-- Ten profits of 0.1. -/
def tenths : List DecisionOutcome :=
  List.replicate 10 ⟨"EURUSD", "4H", "bullish_choch", "win", literal (1 / 10), 0⟩

/-- An average of at least 0.1. -/
def averageEvaluator : OutcomePolicyEvaluator where
  rules := [.avgPnl { minAvgPnl := literal (1 / 10) }]
  distinct := List.pairwise_singleton _ _

theorem outcomes_tenths : bullishSetup.outcomes tenths = tenths := by
  have hsorted : tenths.Pairwise fun a b => latestFirst a b := by decide
  exact List.mergeSort_of_pairwise hsorted

/-- In a table without outcomes the total is below the limit, but there is no veto; and ten profits of 0.1
are vetoed for their average, which is 0.1 but for the rounding of the sum. -/
theorem no_veto_without_outcomes :
    (¬ ∀ (tx : Texts) (rows : List DecisionOutcome) (now : ℤ) (e : OutcomePolicyEvaluator) (s : Setup),
      (e.evaluate tx rows now s.query).1 = none ↔
        ∀ rule ∈ e.rules, ¬ rule.Holds (s.outcomes rows)) ∧
    ∀ (tx : Texts) (now : ℤ), (averageEvaluator.evaluate tx tenths now bullishSetup.query).1 ≠ none ∧
      (tenths.map (·.pnl)).sum / tenths.length = literal (1 / 10) := by
  constructor
  · intro h
    let tx : Texts := ⟨fun _ => "", fun _ => ""⟩
    have hnone : (profitEvaluator.evaluate tx [] 0 bullishSetup.query).1 = none := by
      have hveto : firstVeto tx [] 0 bullishSetup.query profitEvaluator.rules = none :=
        (firstVeto_eq_none _ _ _ tx).2 fun _ _ happlies => happlies.1 (outcomes_empty _)
      simp only [OutcomePolicyEvaluator.evaluate, hveto]
    have hholds : (PolicyRule.drawdown { maxDrawdown := 1, minTrades := 0 }).Holds
        (bullishSetup.outcomes []) := by
      rw [outcomes_empty]
      exact ⟨le_rfl, by decide +kernel⟩
    exact (h tx [] 0 profitEvaluator bullishSetup).1 hnone _ List.mem_cons_self hholds
  · intro tx now
    have happlies : (PolicyRule.avgPnl { minAvgPnl := literal (1 / 10) }).Applies bullishSetup
        tenths := by
      unfold PolicyRule.Applies
      rw [outcomes_tenths]
      exact ⟨by decide, by decide, by decide +kernel⟩
    have hbefore : ∀ rule ∈ ([] : List PolicyRule), ¬ rule.Applies bullishSetup tenths :=
      fun _ h => absurd h List.not_mem_nil
    obtain ⟨result, hresult, -⟩ :=
      firstVeto_of_applies bullishSetup tenths now tx [] hbefore happlies
    refine ⟨?_, by decide +kernel⟩
    have hrules : averageEvaluator.rules =
        [] ++ PolicyRule.avgPnl { minAvgPnl := literal (1 / 10) } :: [] := rfl
    simp only [OutcomePolicyEvaluator.evaluate, hrules, hresult]
    exact Option.some_ne_none result

end OutcomePolicy
