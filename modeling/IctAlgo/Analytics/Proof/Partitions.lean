import Mathlib.Data.List.TakeWhile
import IctAlgo.Analytics.Stats
import IctAlgo.Lib.PartialSums

/-!
# Streaks and partitions

* `StreaksOf`: current and longest streak of outcomes in the order in which they closed;
  `follows_foldl` is the first loop of `get_loss_streak`.
* `Aggregates`: the groups of an aggregation partition the outcomes.
* `stats_by_definition`: what the service returns for a table without two rows of one closing time.
-/

set_option autoImplicit false

namespace OutcomeStats

open Lib

/-! ## Definitions -/

/-- The losses after the last outcome that is none, and the longest run of losses. -/
structure StreaksOf (outcomes : List DecisionOutcome) (s : Streaks) : Prop where
  current : ∃ before after, outcomes = before ++ after ∧ (∀ o ∈ after, o.isLoss) ∧
    (∀ o ∈ before.getLast?, o.isLoss = false) ∧ s.current = after.length
  longest : IsGreatest (runs (fun o => o.isLoss = true) outcomes) s.max
  le : s.current ≤ s.max

/-- What an aggregation says about the outcomes of a group. -/
def metricsOf {α : Type} [Zero α] [Add α] [Numeric α] (outcomes : List DecisionOutcome) :
    GroupMetrics α where
  count := outcomes.length
  wins := outcomes.countP (·.isWin)
  losses := outcomes.countP (·.isLoss)
  breakevens := outcomes.countP fun o => !o.isWin && !o.isLoss
  totalPnl := totalPnl outcomes
  winRate := Numeric.ofRat (outcomes.countP (·.isWin) / outcomes.length)
  avgPnl := Numeric.divNat (totalPnl outcomes) outcomes.length

structure Totals where
  count : ℕ
  wins : ℕ
  losses : ℕ
  totalPnl : ℚ

/-- The sums over the groups. -/
def totals (stats : Dict String (GroupMetrics ℚ)) : Totals where
  count := (stats.values.map (·.count)).sum
  wins := (stats.values.map (·.wins)).sum
  losses := (stats.values.map (·.losses)).sum
  totalPnl := (stats.values.map (·.totalPnl)).sum

/-- The groups are those of the key, and each outcome is in one of them. -/
structure Aggregates (key : DecisionOutcome → String) (outcomes : List DecisionOutcome)
    (stats : Dict String (GroupMetrics ℚ)) : Prop where
  groups : ∀ k, stats.get? k =
    if outcomes.filter (key · = k) = [] then none else some (metricsOf (outcomes.filter (key · = k)))
  adds : ∀ g ∈ stats.values, g.wins + g.losses + g.breakevens = g.count
  totals : totals stats = ⟨outcomes.length, outcomes.countP (·.isWin), outcomes.countP (·.isLoss),
    (outcomes.map (·.pnl)).sum⟩

/-! ## Streaks -/

/-- The variables of the first loop after some outcomes. -/
structure Follows (outcomes : List DecisionOutcome) (l : StreakLoop) : Prop where
  current : IsGreatest (endRuns (fun o => o.isLoss = true) outcomes) l.currentStreak
  longest : IsGreatest (runs (fun o => o.isLoss = true) outcomes) l.maxStreak

theorem Follows.add {outcomes : List DecisionOutcome} {l : StreakLoop} (h : Follows outcomes l)
    (o : DecisionOutcome) : Follows (outcomes ++ [o]) (l.add o) := by
  have hcurrent := isGreatest_endRuns_concat (x := o) h.current
  have hlongest := isGreatest_runs_concat h.longest hcurrent
  unfold StreakLoop.add
  cases hloss : o.isLoss with
  | true =>
    simp only [hloss, ↓reduceIte] at hcurrent hlongest ⊢
    exact ⟨hcurrent, hlongest⟩
  | false =>
    simp only [hloss, Bool.false_eq_true, ↓reduceIte, Nat.max_zero] at hcurrent hlongest ⊢
    exact ⟨hcurrent, hlongest⟩

theorem follows_foldl (outcomes : List DecisionOutcome) :
    Follows outcomes (outcomes.foldl StreakLoop.add {}) := by
  induction outcomes using List.reverseRecOn with
  | nil => exact ⟨isGreatest_endRuns_nil, isGreatest_runs_nil⟩
  | append_singleton outcomes o ih =>
    rw [List.foldl_append]
    exact ih.add o

theorem currentStreak_eq (outcomes : List DecisionOutcome) :
    currentStreak outcomes = (outcomes.takeWhile (·.isLoss)).length := by
  induction outcomes with
  | nil => rfl
  | cons o os ih =>
    cases hloss : o.isLoss with
    | true => simp [currentStreak, hloss, ih]
    | false => simp [currentStreak, hloss]

theorem streaksOf_loops (outcomes : List DecisionOutcome) : StreaksOf outcomes
    ⟨currentStreak outcomes.reverse, (outcomes.foldl StreakLoop.add {}).maxStreak⟩ := by
  have hsplit : (outcomes.reverse.dropWhile (·.isLoss)).reverse ++
      (outcomes.reverse.takeWhile (·.isLoss)).reverse = outcomes := by
    rw [← List.reverse_append, List.takeWhile_append_dropWhile, List.reverse_reverse]
  have hlosses : ∀ o ∈ (outcomes.reverse.takeWhile (·.isLoss)).reverse, o.isLoss = true :=
    fun o ho => List.mem_takeWhile_imp (List.mem_reverse.1 ho)
  have hlongest := (follows_foldl outcomes).longest
  refine ⟨⟨_, _, hsplit.symm, hlosses, fun o ho => ?_, ?_⟩, hlongest, ?_⟩
  · rw [List.getLast?_reverse] at ho
    have hhead := List.head?_dropWhile_not (·.isLoss) outcomes.reverse
    rw [Option.mem_def.1 ho] at hhead
    exact hhead
  · rw [currentStreak_eq, List.length_reverse]
  · have hrun : (outcomes.reverse.takeWhile (·.isLoss)).reverse <:+: outcomes :=
      ⟨_, [], by rw [List.append_nil, hsplit]⟩
    rw [currentStreak_eq, ← List.length_reverse]
    exact hlongest.2 ⟨_, hrun, hlosses, rfl⟩

/-! ## Groups -/

theorem totalPnl_concat {α : Type} [Zero α] [Add α] [Numeric α] (outcomes : List DecisionOutcome)
    (o : DecisionOutcome) :
    (totalPnl (outcomes ++ [o]) : α) = totalPnl outcomes + Numeric.ofRat o.pnl := by
  unfold totalPnl
  rw [List.foldl_append]
  rfl

/-- The exact sum. -/
theorem totalPnl_eq_sum (outcomes : List DecisionOutcome) :
    totalPnl outcomes = (outcomes.map (·.pnl)).sum := by
  induction outcomes using List.reverseRecOn with
  | nil => rfl
  | append_singleton outcomes o ih =>
    rw [totalPnl_concat, ih, List.map_append, List.sum_append, List.map_singleton, List.sum_singleton]
    rfl

section
variable {α : Type} [Zero α] [Add α] [Numeric α] (g : GroupStats α) (o : DecisionOutcome)

theorem isLoss_of_isWin {o : DecisionOutcome} (h : o.isWin = true) : o.isLoss = false := by
  have hwin : o.outcome = "win" := of_decide_eq_true h
  unfold DecisionOutcome.isLoss
  rw [hwin]
  decide

theorem GroupStats.add_count : (g.add o).count = g.count + 1 := by
  unfold GroupStats.add
  split_ifs <;> rfl

theorem GroupStats.add_totalPnl : (g.add o).totalPnl = g.totalPnl + Numeric.ofRat o.pnl := by
  unfold GroupStats.add
  split_ifs <;> rfl

theorem GroupStats.add_wins : (g.add o).wins = g.wins + if o.isWin then 1 else 0 := by
  unfold GroupStats.add
  split_ifs <;> rfl

theorem GroupStats.add_losses : (g.add o).losses = g.losses + if o.isLoss then 1 else 0 := by
  unfold GroupStats.add
  by_cases hwin : o.isWin = true
  · simp [hwin, isLoss_of_isWin hwin]
  · split_ifs <;> rfl

theorem GroupStats.add_breakevens :
    (g.add o).breakevens = g.breakevens + if !o.isWin && !o.isLoss then 1 else 0 := by
  unfold GroupStats.add
  cases hwin : o.isWin <;> cases hloss : o.isLoss <;> rfl

end

theorem foldl_add_metrics {α : Type} [Zero α] [Add α] [Numeric α] (outcomes : List DecisionOutcome)
    (hne : outcomes ≠ []) :
    (outcomes.foldl GroupStats.add ({} : GroupStats α)).metrics = metricsOf outcomes := by
  have hfold : outcomes.foldl GroupStats.add {} = (metricsOf outcomes : GroupMetrics α).toGroupStats := by
    clear hne
    induction outcomes using List.reverseRecOn with
    | nil => rfl
    | append_singleton outcomes o ih =>
      rw [List.foldl_append, List.foldl_cons, List.foldl_nil, ih]
      unfold metricsOf
      ext
      · simp [GroupStats.add_count]
      · simp [GroupStats.add_wins]
      · simp [GroupStats.add_losses]
      · simp [GroupStats.add_breakevens, List.countP_cons]
      · simp [GroupStats.add_totalPnl, totalPnl_concat]
  have hpos : 0 < outcomes.length := List.length_pos_iff.2 hne
  rw [hfold]
  simp [GroupStats.metrics, metricsOf, hpos]

theorem length_eq_add_countP (outcomes : List DecisionOutcome) :
    outcomes.countP (·.isWin) + outcomes.countP (·.isLoss) +
      outcomes.countP (fun o => !o.isWin && !o.isLoss) = outcomes.length := by
  induction outcomes with
  | nil => rfl
  | cons o os ih =>
    cases hwin : o.isWin with
    | true =>
      have hloss := isLoss_of_isWin hwin
      simp [hwin, hloss]
      omega
    | false =>
      cases hloss : o.isLoss <;> simp [hwin, hloss] <;> omega

/-- The group of a key, in any arithmetic. -/
theorem get?_groupBy {α : Type} [Zero α] [Add α] [Numeric α] (key : DecisionOutcome → String)
    (outcomes : List DecisionOutcome) (k : String) :
    ((Dict.groupBy key GroupStats.add ({} : GroupStats α) outcomes).mapVals GroupStats.metrics).get? k =
      if outcomes.filter (key · = k) = [] then none
      else some (metricsOf (outcomes.filter (key · = k))) := by
  rw [Dict.get?_mapVals, Dict.get?_groupBy]
  split
  · rfl
  · rename_i hne
    rw [Option.map_some, foldl_add_metrics _ hne]

theorem aggregates_groupBy (key : DecisionOutcome → String) (outcomes : List DecisionOutcome) :
    Aggregates key outcomes
      ((Dict.groupBy key GroupStats.add {} outcomes).mapVals GroupStats.metrics) := by
  refine ⟨get?_groupBy key outcomes, fun g hg => ?_, ?_⟩
  · obtain ⟨k, hk⟩ := Dict.mem_values.1 hg
    rw [get?_groupBy] at hk
    split at hk
    · cases hk
    · rw [← Option.some.inj hk]
      exact length_eq_add_countP _
  · unfold totals
    rw [Dict.values_mapVals]
    simp only [List.map_map, Function.comp_def, GroupStats.metrics]
    congr 1
    · rw [Dict.sum_groupBy GroupStats.count GroupStats.add_count rfl]
      simp
    · exact Dict.countP_groupBy GroupStats.add_wins rfl _
    · exact Dict.countP_groupBy GroupStats.add_losses rfl _
    · exact Dict.sum_groupBy (g := fun o : DecisionOutcome => o.pnl) GroupStats.totalPnl
        GroupStats.add_totalPnl rfl _

/-! ## The service -/

section
variable (rows : List DecisionOutcome) (now : ℤ)

/-- A query without a limit finds the rows that it selects, from the latest on. -/
theorem getFilteredOutcomes_ordered (hdistinct : (rows.map (·.closedAt)).Nodup) (f : Filters)
    (hall : f.lastNTrades = none) :
    (getFilteredOutcomes rows now f).reverse.Perm (rows.filter (f.selects now)) ∧
      (getFilteredOutcomes rows now f).reverse.Pairwise fun a b => a.closedAt < b.closedAt := by
  have hperm : (getFilteredOutcomes rows now f).Perm (rows.filter (f.selects now)) := by
    simp only [getFilteredOutcomes, hall]
    exact List.mergeSort_perm _ _
  have hsorted : (getFilteredOutcomes rows now f).Pairwise fun a b => latestFirst a b := by
    simp only [getFilteredOutcomes, hall]
    refine List.pairwise_mergeSort (fun a b c hab hbc => ?_) (fun a b => ?_) _
    · simp only [latestFirst, decide_eq_true_eq] at hab hbc ⊢
      exact hbc.trans hab
    · simp only [latestFirst, Bool.or_eq_true, decide_eq_true_eq]
      exact le_total _ _
  have hnodup : (getFilteredOutcomes rows now f).Pairwise fun a b => a.closedAt ≠ b.closedAt := by
    rw [← List.pairwise_map]
    exact (hperm.map _).nodup_iff.2 ((List.filter_sublist.map _).nodup hdistinct)
  refine ⟨(List.reverse_perm _).trans hperm, ?_⟩
  rw [List.pairwise_reverse]
  refine (hsorted.and hnodup).imp fun {a b} h => ?_
  have hle : b.closedAt ≤ a.closedAt := of_decide_eq_true h.1
  exact lt_of_le_of_ne hle (Ne.symm h.2)

theorem aggregateBy_eq {f : Filters} (hne : getFilteredOutcomes rows now f ≠ [])
    (key : DecisionOutcome → String) : ∃ stats, aggregateBy rows now key f = some stats ∧
      Aggregates key (getFilteredOutcomes rows now f) stats := by
  unfold aggregateBy
  cases houtcomes : getFilteredOutcomes rows now f with
  | nil => exact absurd houtcomes hne
  | cons o os => exact ⟨_, rfl, aggregates_groupBy key (o :: os)⟩

/-- **Outcome statistics by their definition.** The streaks are those of the selected outcomes in the
order in which they closed; the three aggregations partition the same outcomes, with the same sums over
the groups, and these give the win rate and the average. -/
theorem stats_by_definition (hdistinct : (rows.map (·.closedAt)).Nodup) :
    (∀ symbol timeframe signalType, ∃ outcomes : List DecisionOutcome,
      outcomes.Perm (rows.filter
        ({ symbol, timeframe, signalType : Filters }.selects now)) ∧
      outcomes.Pairwise (fun a b => a.closedAt < b.closedAt) ∧
      (outcomes ≠ [] → ∃ s, getLossStreak rows now symbol timeframe signalType = some s ∧
        StreaksOf outcomes s)) ∧
    ∀ w : Window,
      let outcomes := getFilteredOutcomes rows now { toWindow := w }
      outcomes ≠ [] → ∃ bySignalType bySymbol byTimeframe,
        aggregateBySignalType rows now none none w = some bySignalType ∧
        aggregateBySymbol rows now none none w = some bySymbol ∧
        aggregateByTimeframe rows now none none w = some byTimeframe ∧
        Aggregates (·.signalType) outcomes bySignalType ∧
        Aggregates (·.symbol) outcomes bySymbol ∧
        Aggregates (·.timeframe) outcomes byTimeframe ∧
        totals bySignalType = totals bySymbol ∧ totals bySymbol = totals byTimeframe ∧
        getWinRate rows now { toWindow := w } =
          some ((totals bySymbol).wins / (totals bySymbol).count : ℚ) ∧
        getAvgPnl rows now { toWindow := w } =
          some ((totals bySymbol).totalPnl / (totals bySymbol).count) := by
  refine ⟨fun symbol timeframe signalType => ?_, fun w hne => ?_⟩
  · obtain ⟨hperm, hordered⟩ := getFilteredOutcomes_ordered rows now hdistinct
      { symbol, timeframe, signalType } rfl
    refine ⟨_, hperm, hordered, fun hne => ?_⟩
    unfold getLossStreak
    cases houtcomes : getFilteredOutcomes rows now { symbol, timeframe, signalType } with
    | nil => exact absurd (by rw [houtcomes]; rfl) hne
    | cons o os => exact ⟨_, rfl, streaksOf_loops _⟩
  · obtain ⟨bySignalType, hsignal, hbySignal⟩ := aggregateBy_eq rows now hne (·.signalType)
    obtain ⟨bySymbol, hsymbol, hbySymbol⟩ := aggregateBy_eq rows now hne (·.symbol)
    obtain ⟨byTimeframe, htimeframe, hbyTimeframe⟩ := aggregateBy_eq rows now hne (·.timeframe)
    refine ⟨bySignalType, bySymbol, byTimeframe, hsignal, hsymbol, htimeframe, hbySignal, hbySymbol,
      hbyTimeframe, hbySignal.totals.trans hbySymbol.totals.symm,
      hbySymbol.totals.trans hbyTimeframe.totals.symm, ?_, ?_⟩
    · rw [hbySymbol.totals]
      unfold getWinRate
      cases houtcomes : getFilteredOutcomes rows now { toWindow := w } with
      | nil => exact absurd houtcomes hne
      | cons o os => rfl
    · rw [hbySymbol.totals]
      unfold getAvgPnl
      cases houtcomes : getFilteredOutcomes rows now { toWindow := w } with
      | nil => exact absurd houtcomes hne
      | cons o os =>
        dsimp only
        rw [totalPnl_eq_sum]
        rfl

end

/-- Two losses around a win. -/
def lossWinLoss : List DecisionOutcome :=
  [⟨"EURUSD", "4H", "bullish_choch", "loss", -10, 1⟩, ⟨"GBPUSD", "1H", "bullish_choch", "win", 25, 2⟩,
    ⟨"EURUSD", "1H", "bearish_bos", "loss", -5, 3⟩]

theorem stats_lossWinLoss :
    (∃ outcomes s, outcomes.Perm lossWinLoss ∧ getLossStreak lossWinLoss 3 none none none = some s ∧
      StreaksOf outcomes s) ∧
    ∃ bySymbol byTimeframe, aggregateBySymbol lossWinLoss 3 none none {} = some bySymbol ∧
      aggregateByTimeframe lossWinLoss 3 none none {} = some byTimeframe ∧
      totals bySymbol = totals byTimeframe := by
  obtain ⟨hstreaks, haggregates⟩ := stats_by_definition lossWinLoss 3 (by decide)
  obtain ⟨outcomes, hperm, -, hstreak⟩ := hstreaks none none none
  have hne : outcomes ≠ [] := by
    rintro rfl
    exact absurd hperm.length_eq (by decide)
  obtain ⟨s, hs, hof⟩ := hstreak hne
  have hfound : getFilteredOutcomes lossWinLoss 3 {} ≠ [] := by
    intro hnil
    obtain ⟨hall, -⟩ := getFilteredOutcomes_ordered lossWinLoss 3 (by decide) {} rfl
    rw [hnil] at hall
    exact absurd hall.length_eq (by decide)
  obtain ⟨-, bySymbol, byTimeframe, -, hsymbol, htimeframe, -, -, -, -, hsame, -⟩ :=
    haggregates {} hfound
  exact ⟨⟨outcomes, s, hperm, hs, hof⟩, bySymbol, byTimeframe, hsymbol, htimeframe, hsame⟩

end OutcomeStats
