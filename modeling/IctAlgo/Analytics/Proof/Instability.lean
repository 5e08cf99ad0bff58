import IctAlgo.Analytics.Confidence
import Mathlib.Analysis.Real.Sqrt

/-!
# The instability across regimes

`winRates`: the win rates of the regimes that have trades. `trueInstability`: their coefficient of
variation, at most one.

* `assessRegimeInstability_performance`: the evaluator asks for `wins`, which the performance does not
  publish, so that every derived win rate is zero.
* `instability_right_iff`: where the answer is that of the real win rates.
-/

set_option autoImplicit false

namespace Analytics

open Lib Lib.Decimal

/-! ## The real win rates -/

section
variable {κ : Type}

def winRate (os : List (Outcome κ)) : ℚ := os.countP (·.outcome = .win) / os.length

/-- The win rate of a regime that has trades. -/
def winRateIn (sqrt : ℚ → ℚ) (outcomes : List (Outcome κ)) (r : Regime) : Option ℚ :=
  let os := classified sqrt outcomes r
  if os.isEmpty then none else some (winRate os)

def winRates (sqrt : ℚ → ℚ) (outcomes : List (Outcome κ)) : List ℚ :=
  Regime.all.filterMap (winRateIn sqrt outcomes)

end

/-- `min(1, standard deviation / mean)` of the rates, with its conventions for few rates and for a
mean of zero. -/
noncomputable def trueInstability (rates : List ℚ) : ℝ :=
  if rates.length < 2 then 0
  else if mean rates = 0 then 1
  else min 1 (√(variance rates : ℝ) / (mean rates : ℝ))

theorem mean_replicate {n : ℕ} (hn : n ≠ 0) (q : ℚ) : mean (List.replicate n q) = q := by
  have hne : (n : ℚ) ≠ 0 := by exact_mod_cast hn
  unfold mean
  rw [List.sum_replicate, List.length_replicate, nsmul_eq_mul, mul_div_cancel_left₀ q hne]

/-- Equal rates have no variance. -/
theorem variance_replicate {n : ℕ} (hn : n ≠ 0) (q : ℚ) : variance (List.replicate n q) = 0 := by
  unfold variance
  rw [mean_replicate hn, List.map_replicate, List.sum_replicate]
  simp

/-- **Regimes with the same positive win rate are stable.** -/
theorem trueInstability_replicate (n : ℕ) {q : ℚ} (hq : 0 < q) :
    trueInstability (List.replicate n q) = 0 := by
  unfold trueInstability
  split
  · rfl
  · rename_i hlen
    rw [List.length_replicate] at hlen
    have hn : n ≠ 0 := by omega
    rw [mean_replicate hn, variance_replicate hn, if_neg hq.ne']
    simp

/-! ## The derived win rates -/

section
variable {κ : Type} (sqrt : ℚ → ℚ) (outcomes : List (Outcome κ))

theorem getD_performance (r : Regime) :
    (regimePolicyPerformance sqrt outcomes).getD r.name Dict.empty =
      regimeStats (classified sqrt outcomes r) := by
  unfold regimePolicyPerformance Regime.all
  cases r with
  | trendingMarket => simp [Regime.name, Dict.ofItems, Dict.getD, Dict.get?_set]
  | rangingMarket => simp [Regime.name, Dict.ofItems, Dict.getD, Dict.get?_set]
  | highVolatility => simp [Regime.name, Dict.ofItems, Dict.getD]

/-- The number of trades is published, the number of wins is not. -/
theorem regimeStats_fields (os : List (Outcome κ)) :
    (regimeStats os).getD "trades_in_regime" 0 = os.length ∧ (regimeStats os).getD "wins" 0 = 0 := by
  unfold regimeStats
  cases os with
  | nil => simp [Dict.ofItems, Dict.getD, Dict.get?_set]
  | cons o os =>
    simp only [List.isEmpty_cons, Bool.false_eq_true, ↓reduceIte, Dict.ofItems, List.foldl_cons,
      List.foldl_nil]
    simp [Dict.getD, Dict.get?_set]

/-- A regime with trades has a win rate of zero for the evaluator. -/
theorem derivedWinRate_performance (r : Regime) :
    derivedWinRate (regimePolicyPerformance sqrt outcomes) r =
      (winRateIn sqrt outcomes r).map fun _ => 0 := by
  unfold derivedWinRate winRateIn
  rw [getD_performance]
  obtain ⟨htrades, hwins⟩ := regimeStats_fields (classified sqrt outcomes r)
  simp only [htrades, hwins]
  cases classified sqrt outcomes r with
  | nil => simp
  | cons o os => simp; positivity

theorem derivedWinRates_performance :
    Regime.all.filterMap (derivedWinRate (regimePolicyPerformance sqrt outcomes)) =
      List.replicate (winRates sqrt outcomes).length 0 := by
  have hderived : derivedWinRate (regimePolicyPerformance sqrt outcomes) =
      fun r => (winRateIn sqrt outcomes r).map fun _ => 0 := by
    funext r
    exact derivedWinRate_performance sqrt outcomes r
  unfold winRates
  rw [hderived, ← List.map_const', List.map_filterMap]

/-- **The answer does not depend on the win rates.** It is one whenever two regimes have trades. -/
theorem assessRegimeInstability_performance (root : ℚ → ℚ) :
    assessRegimeInstability root (regimePolicyPerformance sqrt outcomes) =
      if (winRates sqrt outcomes).length < 2 then 0 else 1 := by
  unfold assessRegimeInstability instability
  rw [derivedWinRates_performance, List.length_replicate]
  split
  · rfl
  · rename_i hlen
    rw [mean_replicate (by omega), if_pos rfl]

end

/-! ## Where the answer is right -/

section
variable {rates : List ℚ}

theorem mean_nonneg (h : ∀ q ∈ rates, 0 ≤ q) : 0 ≤ mean rates := by
  unfold mean
  exact div_nonneg (List.sum_nonneg h) (Nat.cast_nonneg _)

theorem winRates_nonneg {κ : Type} (sqrt : ℚ → ℚ) (outcomes : List (Outcome κ)) :
    ∀ q ∈ winRates sqrt outcomes, 0 ≤ q := by
  intro q hq
  obtain ⟨r, -, hr⟩ := List.mem_filterMap.1 hq
  unfold winRateIn winRate at hr
  simp only at hr
  split at hr
  · cases hr
  · obtain rfl := Option.some.inj hr
    positivity

/-- The coefficient of variation reaches one when the variance reaches the square of the mean. -/
theorem trueInstability_eq_one_iff (hlen : ¬ rates.length < 2) (h : ∀ q ∈ rates, 0 ≤ q) :
    trueInstability rates = 1 ↔ mean rates = 0 ∨ mean rates ^ 2 ≤ variance rates := by
  unfold trueInstability
  rw [if_neg hlen]
  by_cases hmean : mean rates = 0
  · simp [hmean]
  · have hpos : 0 < mean rates := lt_of_le_of_ne (mean_nonneg h) (Ne.symm hmean)
    have hposR : (0 : ℝ) < (mean rates : ℝ) := by exact_mod_cast hpos
    rw [if_neg hmean, min_eq_left_iff, one_le_div hposR, Real.le_sqrt' hposR]
    simp only [hmean, false_or]
    exact_mod_cast Iff.rfl

end

/-- **The answer is that of the real win rates** exactly when fewer than two regimes have trades, or
their rates vary so much that the instability is at its bound. -/
theorem instability_right_iff {κ : Type} (sqrt root : ℚ → ℚ) (outcomes : List (Outcome κ)) :
    (assessRegimeInstability root (regimePolicyPerformance sqrt outcomes) : ℝ) =
        trueInstability (winRates sqrt outcomes) ↔
      (winRates sqrt outcomes).length < 2 ∨ mean (winRates sqrt outcomes) = 0 ∨
        mean (winRates sqrt outcomes) ^ 2 ≤ variance (winRates sqrt outcomes) := by
  rw [assessRegimeInstability_performance]
  by_cases hlen : (winRates sqrt outcomes).length < 2
  · simp [hlen, trueInstability]
  · rw [if_neg hlen, Rat.cast_one, eq_comm,
      trueInstability_eq_one_iff hlen (winRates_nonneg sqrt outcomes)]
    simp [hlen]

/-- Five trades that won: four of 50 are of high volatility, one of 10 ranges. -/
def fiveWinners : List (Outcome String) :=
  [50, 50, 50, 50, 10].map fun pnl => ⟨"fvg", "EURUSD", "1H", .win, some pnl⟩

/-- Both regimes win every trade, and the instability is one. -/
theorem fiveWinners_unstable :
    (assessRegimeInstability (fun _ => 0)
        (regimePolicyPerformance (fun q => if q = 256 then 16 else 0) fiveWinners) : ℝ) ≠
      trueInstability (winRates (fun q => if q = 256 then 16 else 0) fiveWinners) := by
  have hrates : winRates (fun q => if q = 256 then 16 else 0) fiveWinners = List.replicate 2 1 := by
    decide +kernel
  rw [assessRegimeInstability_performance, hrates, trueInstability_replicate 2 one_pos]
  simp

end Analytics
