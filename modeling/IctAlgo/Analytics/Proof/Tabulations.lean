import IctAlgo.Lib.Filters
import IctAlgo.Analytics.Heatmap
import IctAlgo.Analytics.Proof.ErrorRates

/-!
# The tabulations of vetoes

`Tabulated`: the tables of each signal type say how its trades ended, and the three counts of vetoed
trades agree. A result is counted under its own name, which for a win or a loss is not the name of an
entry; and only the signal types count a trade without a symbol by its signal type and timeframe.

* `getD_foldl_count`, `sum_foldl_count`: what a table holds.
* `foldl_countSignal`: the statistics of a signal type are counts of its trades.
* `tabulated_iff`: when the tabulations agree.
-/

set_option autoImplicit false

namespace Analytics

open Lib Lib.Decimal

/-! ## Tables -/

namespace Performance

/-- The entries a table is published with. -/
def counted (table : Performance) : ℕ :=
  table.getD "wins" 0 + table.getD "losses" 0 + table.getD "breakeven" 0

theorem getD_count (table : Performance) (r : TradeResult) (key : String) :
    (table.count r).getD key 0 = table.getD key 0 + if r.name = key then 1 else 0 := by
  unfold count
  by_cases h : r.name = key
  · subst h
    simp
  · rw [Dict.getD_set_ne _ _ _ (Ne.symm h), if_neg h, add_zero]

/-- An entry counts the results of its name. -/
theorem getD_foldl_count (rs : List TradeResult) (table : Performance) (key : String) :
    (rs.foldl count table).getD key 0 = table.getD key 0 + rs.countP (·.name = key) := by
  induction rs generalizing table with
  | nil => rfl
  | cons r rs ih =>
    rw [List.foldl_cons, ih, getD_count, List.countP_cons]
    simp only [decide_eq_true_eq]
    omega

theorem sum_count (table : Performance) (r : TradeResult) :
    (table.count r).values.sum = table.values.sum + 1 := by
  have h := Dict.sum_set table r.name (table.getD r.name 0 + 1)
  unfold count
  omega

/-- The table counts every result. -/
theorem sum_foldl_count (rs : List TradeResult) (table : Performance) :
    (rs.foldl count table).values.sum = table.values.sum + rs.length := by
  induction rs generalizing table with
  | nil => rfl
  | cons r rs ih =>
    rw [List.foldl_cons, ih, sum_count, List.length_cons]
    omega

/-- The table of the results `rs`. -/
def of (rs : List TradeResult) : Performance := rs.foldl count .new

theorem getD_of (rs : List TradeResult) (key : String) :
    (of rs).getD key 0 = rs.countP (·.name = key) := by
  have hnew : new.getD key 0 = 0 := by
    simp only [new, Dict.ofItems, Dict.getD, List.foldl_cons, List.foldl_nil, Dict.get?_set]
    split_ifs <;> rfl
  rw [of, getD_foldl_count, hnew, Nat.zero_add]

/-- No result is called so. -/
theorem getD_of_eq_zero (rs : List TradeResult) {key : String} (h : ∀ r : TradeResult, r.name ≠ key) :
    (of rs).getD key 0 = 0 := by
  rw [getD_of]
  simp [h]

theorem getD_wins (rs : List TradeResult) : (of rs).getD "wins" 0 = 0 :=
  getD_of_eq_zero rs fun r => by cases r <;> decide

theorem getD_losses (rs : List TradeResult) : (of rs).getD "losses" 0 = 0 :=
  getD_of_eq_zero rs fun r => by cases r <;> decide

/-- Of the published entries only the breakevens are counted. -/
theorem counted_of (rs : List TradeResult) : (of rs).counted = rs.countP (· = .breakeven) := by
  have hname (r : TradeResult) : r.name = "breakeven" ↔ r = .breakeven := by
    cases r <;> decide
  unfold counted
  rw [getD_wins, getD_losses, getD_of]
  simp only [hname, Nat.zero_add]

end Performance

/-! ## The statistics of a signal type -/

section
variable {κ : Type} [DecidableEq κ] {unknown : κ} (evaluations : List (ShadowEvaluation (Option κ)))

/-- How the trades that satisfy `p` ended. -/
def resultsOf (p : OutcomeRecord κ → Bool) (os : List (OutcomeRecord κ)) : List TradeResult :=
  (os.filter p).map (·.outcome)

/-- The statistics are counts of the trades. -/
theorem foldl_countSignal (os : List (OutcomeRecord κ)) :
    os.foldl (countSignal evaluations) {} =
      { totalTrades := os.length
        vetoedTrades := os.countP (isVetoed evaluations)
        performanceIfVetoed := .of (resultsOf (isVetoed evaluations) os)
        performanceIfAllowed := .of (resultsOf (!isVetoed evaluations ·) os) } := by
  induction os using List.reverseRecOn with
  | nil => rfl
  | append_singleton os o ih =>
    rw [List.foldl_append, ih]
    simp only [List.foldl_cons, List.foldl_nil, countSignal, resultsOf, List.filter_append,
      List.map_append, List.length_append, List.countP_append, Performance.of, List.foldl_append]
    cases h : isVetoed evaluations o with
    | true => simp [h]
    | false => simp [h]

/-- The tables add up to the trades of their signal type. -/
structure TablesAgree (report : SignalReport) (group : List (OutcomeRecord κ)) : Prop where
  total : report.performanceIfVetoed.counted + report.performanceIfAllowed.counted =
    report.totalTrades
  vetoed : report.performanceIfVetoed.values.sum = report.vetoedTrades
  wins : report.performanceIfVetoed.getD "wins" 0 + report.performanceIfAllowed.getD "wins" 0 =
    group.countP (·.outcome = .win)
  losses : report.performanceIfVetoed.getD "losses" 0 + report.performanceIfAllowed.getD "losses" 0 =
    group.countP (·.outcome = .loss)

/-- The trades of a signal type, under which those without one are unknown. -/
def signalGroup (unknown : κ) (outcomes : List (OutcomeRecord κ)) (signal : Option κ) :
    List (OutcomeRecord κ) :=
  outcomes.filter fun o => orUnknown unknown o.signalType = signal

/-- The vetoed trades of all signal types. -/
def Heatmap.vetoedBySignalType (heat : Heatmap κ) : ℕ :=
  (heat.bySignalType.values.map (·.vetoedTrades)).sum

/-- The vetoed trades of all timeframes. -/
def Heatmap.vetoedByTimeframe (heat : Heatmap κ) : ℕ :=
  (heat.byTimeframe.values.map (·.vetoedTrades)).sum

/-- The tabulations agree with the trades and with each other. -/
structure Tabulated (unknown : κ) (outcomes : List (OutcomeRecord κ))
    (evaluations : List (ShadowEvaluation (Option κ))) : Prop where
  tables : ∀ signal report,
    (signalPolicyHeatmap unknown outcomes evaluations).bySignalType.get? signal = some report →
      TablesAgree report (signalGroup unknown outcomes signal)
  timeframes : (signalPolicyHeatmap unknown outcomes evaluations).vetoedBySignalType =
    (signalPolicyHeatmap unknown outcomes evaluations).vetoedByTimeframe
  impact : ((signalPolicyHeatmap unknown outcomes evaluations).vetoedBySignalType : ℚ) =
    (policyVetoImpact (outcomes.map OutcomeRecord.read) evaluations).getD "would_have_been_vetoed" 0

variable {evaluations} {outcomes : List (OutcomeRecord κ)}

/-- What is published for a signal type. -/
theorem get?_bySignalType {signal : Option κ} {report : SignalReport}
    (h : (signalPolicyHeatmap unknown outcomes evaluations).bySignalType.get? signal = some report) :
    report.toSignalStats =
      (signalGroup unknown outcomes signal).foldl (countSignal evaluations) {} := by
  unfold signalPolicyHeatmap at h
  rw [Dict.get?_mapVals, Dict.get?_groupBy, Option.map_eq_some_iff] at h
  obtain ⟨stats, hstats, rfl⟩ := h
  split at hstats
  · cases hstats
  · rw [← Option.some.inj hstats]
    rfl

/-- The signal type of a trade is published. -/
theorem exists_bySignalType (unknown : κ) (evaluations : List (ShadowEvaluation (Option κ)))
    {o : OutcomeRecord κ} (ho : o ∈ outcomes) :
    ∃ report, (signalPolicyHeatmap unknown outcomes evaluations).bySignalType.get?
      (orUnknown unknown o.signalType) = some report := by
  unfold signalPolicyHeatmap
  rw [Dict.get?_mapVals, Dict.get?_groupBy, if_neg]
  · exact ⟨_, rfl⟩
  · exact List.ne_nil_of_mem (List.mem_filter.2 ⟨ho, by simp⟩)

/-- A trade is in one of the tables. -/
theorem countP_resultsOf (group : List (OutcomeRecord κ)) (r : TradeResult) :
    (resultsOf (isVetoed evaluations) group).countP (· = r) +
      (resultsOf (!isVetoed evaluations ·) group).countP (· = r) =
    group.countP (·.outcome = r) := by
  unfold resultsOf
  rw [List.countP_map, List.countP_map]
  exact (List.countP_eq_countP_filter_add group _ _).symm

/-- The tables of a group of trades agree with it when all broke even. -/
theorem tablesAgree_iff {report : SignalReport} {group : List (OutcomeRecord κ)}
    (h : report.toSignalStats = group.foldl (countSignal evaluations) {}) :
    TablesAgree report group ↔ ∀ o ∈ group, o.outcome = .breakeven := by
  rw [foldl_countSignal] at h
  have htotal : report.totalTrades = group.length := congrArg SignalStats.totalTrades h
  have hcount : report.vetoedTrades = group.countP (isVetoed evaluations) :=
    congrArg SignalStats.vetoedTrades h
  have hvetoed := congrArg SignalStats.performanceIfVetoed h
  have hallowed := congrArg SignalStats.performanceIfAllowed h
  simp only at hvetoed hallowed
  refine ⟨fun hagree => ?_, fun heven => ⟨?_, ?_, ?_, ?_⟩⟩
  · have hlength := hagree.total
    rw [hvetoed, hallowed, Performance.counted_of, Performance.counted_of, countP_resultsOf, htotal,
      List.countP_eq_length] at hlength
    simpa using hlength
  · rw [hvetoed, hallowed, Performance.counted_of, Performance.counted_of, countP_resultsOf, htotal,
      List.countP_eq_length]
    simpa using heven
  · rw [hvetoed, hcount, Performance.of, Performance.sum_foldl_count, resultsOf, List.length_map,
      ← List.countP_eq_length_filter]
    exact Nat.zero_add _
  · rw [hvetoed, hallowed, Performance.getD_wins, Performance.getD_wins, eq_comm, List.countP_eq_zero]
    intro o ho
    simp [heven o ho]
  · rw [hvetoed, hallowed, Performance.getD_losses, Performance.getD_losses, eq_comm,
      List.countP_eq_zero]
    intro o ho
    simp [heven o ho]

/-! ## The sums -/

theorem vetoedBySignalType_eq : (signalPolicyHeatmap unknown outcomes evaluations).vetoedBySignalType =
    outcomes.countP (isVetoed evaluations) := by
  have hadd (stats : SignalStats) (o : OutcomeRecord κ) :
      (countSignal evaluations stats o).vetoedTrades =
        stats.vetoedTrades + if isVetoed evaluations o then 1 else 0 := by
    unfold countSignal
    split <;> rfl
  unfold signalPolicyHeatmap Heatmap.vetoedBySignalType
  rw [Dict.values_mapVals, List.map_map]
  exact Dict.countP_groupBy hadd rfl outcomes

theorem vetoedByTimeframe_eq : (signalPolicyHeatmap unknown outcomes evaluations).vetoedByTimeframe =
    outcomes.countP (keyVetoed evaluations) := by
  have hadd (stats : TimeframeStats) (o : OutcomeRecord κ) :
      (countTimeframe evaluations stats o).vetoedTrades =
        stats.vetoedTrades + if keyVetoed evaluations o then 1 else 0 := by
    unfold countTimeframe
    split <;> rfl
  unfold signalPolicyHeatmap Heatmap.vetoedByTimeframe
  rw [Dict.values_mapVals, List.map_map]
  exact Dict.countP_groupBy hadd rfl outcomes

theorem vetoed_read (o : OutcomeRecord κ) : vetoed evaluations o.read = keyVetoed evaluations o := by
  rw [Bool.eq_iff_iff]
  simp [vetoed, keyVetoed, vetoKeys, and_assoc]

theorem wouldHaveBeenVetoed_eq :
    (policyVetoImpact (outcomes.map OutcomeRecord.read) evaluations).getD "would_have_been_vetoed" 0 =
      outcomes.countP (keyVetoed evaluations) := by
  have hcount : (outcomes.map OutcomeRecord.read).countP (vetoed evaluations) =
      outcomes.countP (keyVetoed evaluations) := by
    rw [List.countP_map]
    exact List.countP_congr fun o _ => by simp [vetoed_read]
  unfold policyVetoImpact
  rw [foldl_countVeto]
  simp [Dict.ofItems, Dict.getD, Dict.get?_set, hcount]

/-- The two counts agree when no trade is vetoed for its signal type and timeframe alone. -/
theorem countP_isVetoed_iff :
    outcomes.countP (isVetoed evaluations) = outcomes.countP (keyVetoed evaluations) ↔
      ∀ o ∈ outcomes, isVetoed evaluations o → keyVetoed evaluations o :=
  countP_eq_countP_iff fun o h => by rw [isVetoed, h, Bool.true_or]

/-! ## The tabulations -/

theorem Tabulated.breakeven (h : Tabulated unknown outcomes evaluations) :
    ∀ o ∈ outcomes, o.outcome = .breakeven := by
  intro o ho
  obtain ⟨report, hreport⟩ := exists_bySignalType unknown evaluations ho
  have hgroup := (tablesAgree_iff (get?_bySignalType hreport)).1 (h.tables _ report hreport)
  exact hgroup o (List.mem_filter.2 ⟨ho, by simp⟩)

/-- **The tabulations agree** exactly when every trade broke even, and a trade without a symbol that
is vetoed for its signal type and timeframe is also vetoed under its own key. -/
theorem tabulated_iff : Tabulated unknown outcomes evaluations ↔
    (∀ o ∈ outcomes, o.outcome = .breakeven) ∧
      ∀ o ∈ outcomes, isVetoed evaluations o → keyVetoed evaluations o := by
  refine ⟨fun h => ⟨h.breakeven, ?_⟩, fun h => ⟨fun signal report hreport => ?_, ?_, ?_⟩⟩
  · have hsum := h.timeframes
    rw [vetoedBySignalType_eq, vetoedByTimeframe_eq] at hsum
    exact countP_isVetoed_iff.1 hsum
  · exact (tablesAgree_iff (get?_bySignalType hreport)).2 fun o ho => h.1 o (List.mem_of_mem_filter ho)
  · rw [vetoedBySignalType_eq, vetoedByTimeframe_eq]
    exact countP_isVetoed_iff.2 h.2
  · rw [vetoedBySignalType_eq, wouldHaveBeenVetoed_eq, countP_isVetoed_iff.2 h.2]

/-- A trade that won. -/
def oneWinner : List (OutcomeRecord String) :=
  [{ signalType := some (some "bullish_choch"), symbol := some (some "EURUSD")
     timeframe := some (some "4H"), outcome := .win }]

/-- It is in no table as a win. -/
theorem oneWinner_untabulated : ¬ Tabulated "unknown" oneWinner [] := by
  intro h
  cases h.breakeven _ (List.mem_singleton.2 rfl)

end

end Analytics
