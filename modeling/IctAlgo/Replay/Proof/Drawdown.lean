import Mathlib.Data.List.Induction
import Mathlib.Tactic.NormNum
import IctAlgo.Lib.PartialSums
import IctAlgo.Replay.Metrics

/-!
# Drawdown and streaks

The equity is the running sum of the R multiples that are there.

* `Follows`: what the variables of the one-pass loop are after some R multiples; `Follows.add` is one
  step of it, `follows_foldl` the loop.
* `computeDrawdownStreaks_eq`: the two loops of `ReplayRunner` end with the same values.
* `groupMetrics_measured`: drawdown and streaks of a group are the greatest fall and the longest runs.
-/

set_option autoImplicit false

namespace Replay

open Lib

/-- Drawdown and streaks by their definition: the greatest fall of the equity, and the longest runs of
losses and of wins. -/
structure Measured (rs : List ℚ) (maxDd : ℚ) (maxLossStreak maxWinStreak : ℕ) : Prop where
  drawdown : IsGreatest (falls rs) maxDd
  lossStreak : IsGreatest (runs (· < 0) rs) maxLossStreak
  winStreak : IsGreatest (runs (0 < ·) rs) maxWinStreak

/-! ## The loop -/

section
variable (c : Curve) (r : ℚ)

/-- `if v > m: m = v`. -/
theorem ite_gt_eq_max (m v : ℚ) : (if v > m then v else m) = max m v := by
  rcases lt_or_ge m v with h | h
  · rw [if_pos h, max_eq_right h.le]
  · rw [if_neg (not_lt.2 h), max_eq_left h]

theorem Curve.add_cumulative : (c.add r).cumulative = c.cumulative + r := by
  unfold Curve.add
  split_ifs <;> rfl

theorem Curve.add_peak : (c.add r).peak = max c.peak (c.cumulative + r) := by
  rw [← ite_gt_eq_max]
  simp only [Curve.add]
  split_ifs <;> rfl

theorem Curve.add_maxDd :
    (c.add r).maxDd = max c.maxDd (max c.peak (c.cumulative + r) - (c.cumulative + r)) := by
  rw [← ite_gt_eq_max c.peak, ← ite_gt_eq_max c.maxDd]
  simp only [Curve.add]
  split_ifs <;> rfl

theorem Curve.add_currentLossStreak :
    (c.add r).currentLossStreak = if r < 0 then c.currentLossStreak + 1 else 0 := by
  rcases lt_trichotomy r 0 with h | h | h
  · simp [Curve.add, h]
  · simp [Curve.add, h]
  · simp [Curve.add, h, h.not_gt]

theorem Curve.add_currentWinStreak :
    (c.add r).currentWinStreak = if 0 < r then c.currentWinStreak + 1 else 0 := by
  rcases lt_trichotomy r 0 with h | h | h
  · simp [Curve.add, h, h.not_gt]
  · simp [Curve.add, h]
  · simp [Curve.add, h, h.not_gt]

theorem Curve.add_maxLossStreak : (c.add r).maxLossStreak =
    max c.maxLossStreak (if r < 0 then c.currentLossStreak + 1 else 0) := by
  rcases lt_trichotomy r 0 with h | h | h
  · simp [Curve.add, h]
  · simp [Curve.add, h]
  · simp [Curve.add, h, h.not_gt]

theorem Curve.add_maxWinStreak : (c.add r).maxWinStreak =
    max c.maxWinStreak (if 0 < r then c.currentWinStreak + 1 else 0) := by
  rcases lt_trichotomy r 0 with h | h | h
  · simp [Curve.add, h, h.not_gt]
  · simp [Curve.add, h]
  · simp [Curve.add, h, h.not_gt]

end

/-- The variables after the R multiples `rs`. -/
structure Follows (c : Curve) (rs : List ℚ) : Prop where
  cumulative : c.cumulative = rs.sum
  peak : IsGreatest (partialSums rs) c.peak
  measured : Measured rs c.maxDd c.maxLossStreak c.maxWinStreak
  losing : IsGreatest (endRuns (· < 0) rs) c.currentLossStreak
  winning : IsGreatest (endRuns (0 < ·) rs) c.currentWinStreak

theorem follows_new : Follows {} [] where
  cumulative := rfl
  peak := isGreatest_partialSums_nil
  measured := ⟨isGreatest_falls_nil, isGreatest_runs_nil, isGreatest_runs_nil⟩
  losing := isGreatest_endRuns_nil
  winning := isGreatest_endRuns_nil

theorem Follows.add {c : Curve} {rs : List ℚ} (h : Follows c rs) (r : ℚ) :
    Follows (c.add r) (rs ++ [r]) := by
  have hpeak := isGreatest_partialSums_concat h.peak r
  have hlosing := isGreatest_endRuns_concat (x := r) h.losing
  have hwinning := isGreatest_endRuns_concat (x := r) h.winning
  refine ⟨?_, ?_, ⟨?_, ?_, ?_⟩, ?_, ?_⟩
  · rw [c.add_cumulative, h.cumulative, List.sum_append, List.sum_singleton]
  · rw [c.add_peak, h.cumulative]
    exact hpeak
  · rw [c.add_maxDd, h.cumulative]
    exact isGreatest_falls_concat h.measured.drawdown hpeak
  · rw [c.add_maxLossStreak]
    exact isGreatest_runs_concat h.measured.lossStreak hlosing
  · rw [c.add_maxWinStreak]
    exact isGreatest_runs_concat h.measured.winStreak hwinning
  · rw [c.add_currentLossStreak]
    exact hlosing
  · rw [c.add_currentWinStreak]
    exact hwinning

theorem follows_foldl (rs : List ℚ) : Follows (rs.foldl Curve.add {}) rs := by
  induction rs using List.reverseRecOn with
  | nil => exact follows_new
  | append_singleton rs r ih =>
    rw [List.foldl_append]
    exact ih.add r

/-! ## The loops of `ReplayRunner` -/

/-- The part of the variables that the loop over the equity curve has. -/
def Curve.equityLoop (c : Curve) : EquityLoop := ⟨c.cumulative, c.peak, c.maxDd⟩

/-- The part that the loop over the streaks has. -/
def Curve.streakLoop (c : Curve) : StreakLoop :=
  ⟨c.maxLossStreak, c.maxWinStreak, c.currentLossStreak, c.currentWinStreak⟩

theorem EquityLoop.add_eq (l : EquityLoop) (r : ℚ) : l.add r =
    { equity := l.equity + r
      peakEquity := max l.peakEquity (l.equity + r)
      maxDd := max l.maxDd (max l.peakEquity (l.equity + r) - (l.equity + r)) } := by
  simp only [EquityLoop.add, ite_gt_eq_max]

theorem equityLoop_add (c : Curve) (r : ℚ) : c.equityLoop.add r = (c.add r).equityLoop := by
  simp only [EquityLoop.add_eq, Curve.equityLoop, c.add_cumulative, c.add_peak, c.add_maxDd]

theorem streakLoop_add (c : Curve) (r : ℚ) : c.streakLoop.add r = (c.add r).streakLoop := by
  rcases lt_trichotomy r 0 with h | h | h
  · simp [StreakLoop.add, Curve.add, Curve.streakLoop, h]
  · simp [StreakLoop.add, Curve.add, Curve.streakLoop, h]
  · simp [StreakLoop.add, Curve.add, Curve.streakLoop, h, h.not_gt]

theorem computeDrawdownStreaks_eq (outcomes : List TaggedOutcome) :
    let c := (outcomes.filterMap (·.rMultiple)).foldl Curve.add {}
    computeDrawdownStreaks outcomes = (c.maxDd, c.maxLossStreak, c.maxWinStreak) := by
  unfold computeDrawdownStreaks
  generalize outcomes.filterMap (·.rMultiple) = rs
  have hequity : rs.foldl EquityLoop.add (Curve.equityLoop {}) = (rs.foldl Curve.add {}).equityLoop :=
    List.foldl_hom Curve.equityLoop equityLoop_add
  have hstreaks : rs.foldl StreakLoop.add (Curve.streakLoop {}) = (rs.foldl Curve.add {}).streakLoop :=
    List.foldl_hom Curve.streakLoop streakLoop_add
  by_cases h : rs = []
  · subst h
    rfl
  · simp only [h, ↓reduceIte]
    exact Prod.ext (congrArg EquityLoop.maxDd hequity)
      (Prod.ext (congrArg StreakLoop.maxLossStreak hstreaks)
        (congrArg StreakLoop.maxWinStreak hstreaks))

/-! ## A group -/

/-- **Drawdown and streaks of a group** are those of its R multiples by definition, before the drawdown is
rounded, and what `ReplayRunner` computes for outcomes with the same R multiples. -/
theorem groupMetrics_measured (round : ℚ → ℚ) (signal : ReplaySignal)
    (grouped : List (ReplaySignal × ReplayOutcome)) :
    let m := computeGroupMetrics round signal grouped
    ∃ maxDd, m.maxDrawdownR = round maxDd ∧
      Measured (grouped.filterMap (·.2.rMultiple)) maxDd m.maxLossStreak m.maxWinStreak ∧
      ∀ outcomes : List TaggedOutcome,
        outcomes.map (·.rMultiple) = grouped.map (·.2.rMultiple) →
        computeDrawdownStreaks outcomes = (maxDd, m.maxLossStreak, m.maxWinStreak) := by
  have hrs : ((grouped.map (·.2)).map (·.rMultiple)).filterMap id =
      grouped.filterMap (·.2.rMultiple) := by
    rw [List.map_map, List.filterMap_map]
    rfl
  refine ⟨((grouped.filterMap (·.2.rMultiple)).foldl Curve.add {}).maxDd, ?_, ?_, ?_⟩
  · rw [← hrs]
    rfl
  · have hfollows := (follows_foldl (grouped.filterMap (·.2.rMultiple))).measured
    simp only [computeGroupMetrics, hrs]
    exact hfollows
  · intro outcomes hsame
    have houtcomes : outcomes.filterMap (·.rMultiple) = grouped.filterMap (·.2.rMultiple) := by
      have h := congrArg (List.filterMap id) hsame
      rwa [List.filterMap_map, List.filterMap_map] at h
    rw [computeDrawdownStreaks_eq, houtcomes]
    simp only [computeGroupMetrics, hrs]

/-! ## A rounded drawdown -/

def eurusdSignal : ReplaySignal where
  signalId := "s1"
  timestamp := 0
  symbol := "EURUSD"
  timeframe := "5m"
  direction := "LONG"
  signalType := "sweep"
  entry := 11 / 10
  sl := 107 / 100
  tp := 111 / 100
  session := .string "London"
  metaData := .null

/-- Two trades that lost, and one between them that won a third of the risk. -/
def thirdWon : List (ReplaySignal × ReplayOutcome) :=
  [(Outcome.loss, -1), (.win, 1 / 3), (.loss, -1)].map fun (outcome, r) =>
    (eurusdSignal, {
      signalId := "s1", outcome, rMultiple := some r
      mae := none, mfe := none, exitPrice := none, exitTime := none })

/-- The drawdown is five thirds, and the report has 1.6667. -/
theorem thirdWon_rounded :
    (computeGroupMetrics round4 eurusdSignal thirdWon).maxDrawdownR = 16667 / 10000 ∧
      ¬ IsGreatest (falls (thirdWon.filterMap (·.2.rMultiple)))
        (computeGroupMetrics round4 eurusdSignal thirdWon).maxDrawdownR := by
  have hrounded : (computeGroupMetrics round4 eurusdSignal thirdWon).maxDrawdownR = 16667 / 10000 := by
    decide +kernel
  have hloop : ((thirdWon.filterMap (·.2.rMultiple)).foldl Curve.add {}).maxDd = 5 / 3 := by
    decide +kernel
  have hgreatest := (follows_foldl (thirdWon.filterMap (·.2.rMultiple))).measured.drawdown
  rw [hloop] at hgreatest
  refine ⟨hrounded, fun h => ?_⟩
  rw [hrounded] at h
  exact absurd (h.unique hgreatest) (by norm_num)

end Replay
