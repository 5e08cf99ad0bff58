import IctAlgo.Analytics.Confidence
import Mathlib.Algebra.Order.Field.Basic

/-!
# The error rates of a policy

`falsePositiveRate` and `falseNegativeRate`: what the two rates are, on the outcomes and evaluations
themselves. `ReportsErrorRates`: the report on the policy gives them, up to its four digits.

* `policyVetoImpact_counts`: the counters count the vetoed trades.
* `reportsErrorRates_iff`: the evaluator takes `1 - precision` and `1 - recall`, so that a vetoed
  breakeven counts as a vetoed winner, and a ratio without trades is one.
* `fewBreakevens_iff`: when a breakeven cannot hide behind the four digits.
-/

set_option autoImplicit false

namespace Analytics

open Lib Lib.Decimal

section
variable {κ : Type} [DecidableEq κ]

/-! ## The rates -/

/-- An evaluation with the key of the outcome vetoes. -/
def vetoed (evaluations : List (ShadowEvaluation κ)) (o : Outcome κ) : Bool :=
  evaluations.any fun e => e.isVeto && e.key = o.key

/-- The vetoed trades with a result. -/
def vetoedWith (r : TradeResult) (outcomes : List (Outcome κ))
    (evaluations : List (ShadowEvaluation κ)) : ℕ :=
  outcomes.countP fun o => vetoed evaluations o && o.outcome = r

/-- Vetoed winners among the vetoed trades. -/
def falsePositiveRate (outcomes : List (Outcome κ)) (evaluations : List (ShadowEvaluation κ)) : ℚ :=
  ratioOr0 (vetoedWith .win outcomes evaluations) (outcomes.countP (vetoed evaluations))

/-- Losing trades that are not vetoed, among the losing trades. -/
def falseNegativeRate (outcomes : List (Outcome κ)) (evaluations : List (ShadowEvaluation κ)) : ℚ :=
  ratioOr0 (outcomes.countP fun o => o.outcome = .loss && !vetoed evaluations o)
    (outcomes.countP (·.outcome = .loss))

/-- `x` is `q` up to half a unit of the fourth digit. -/
def FourDigits (x q : ℚ) : Prop := |q - x| * 10 ^ 4 ≤ 1 / 2

structure ReportsErrorRates (report : ConfidenceReport) (outcomes : List (Outcome κ))
    (evaluations : List (ShadowEvaluation κ)) : Prop where
  falsePositive : FourDigits report.falsePositiveRate (falsePositiveRate outcomes evaluations)
  falseNegative : FourDigits report.falseNegativeRate (falseNegativeRate outcomes evaluations)

/-! ## The counters -/

variable (outcomes : List (Outcome κ)) (evaluations : List (ShadowEvaluation κ))

/-- The index has the keys of the evaluations that veto. -/
theorem vetoIndex_isSome (o : Outcome κ) :
    ((vetoIndex evaluations).get? o.key).isSome = vetoed evaluations o := by
  unfold vetoIndex vetoed
  rw [Dict.get?_groupBy, Bool.eq_iff_iff]
  split
  · rename_i hnone
    simp only [List.filter_filter, List.filter_eq_nil_iff] at hnone
    simp only [Option.isSome_none, Bool.false_eq_true, List.any_eq_true, false_iff, not_exists,
      not_and]
    intro e he hveto
    refine hnone e he ?_
    simp only [Bool.and_eq_true, decide_eq_true_eq] at hveto ⊢
    exact ⟨hveto.2, hveto.1⟩
  · rename_i hsome
    obtain ⟨e, he⟩ := List.exists_mem_of_ne_nil _ hsome
    simp only [List.mem_filter, decide_eq_true_eq] at he
    simp only [Option.isSome_some, List.any_eq_true, Bool.and_eq_true, decide_eq_true_eq, true_iff]
    exact ⟨e, he.1.1, he.1.2, he.2⟩

/-- One trade moves the counters by what it is. -/
theorem countVeto_eq (c : VetoCounts) (o : Outcome κ) :
    countVeto (vetoIndex evaluations) c o =
      { wouldHaveBeenVetoed := c.wouldHaveBeenVetoed + if vetoed evaluations o then 1 else 0
        vetoedWinners := c.vetoedWinners +
          if vetoed evaluations o && o.outcome = .win then 1 else 0
        vetoedLosers := c.vetoedLosers +
          if vetoed evaluations o && o.outcome = .loss then 1 else 0 } := by
  unfold countVeto
  rw [vetoIndex_isSome]
  cases vetoed evaluations o with
  | false => simp
  | true => cases h : o.outcome <;> simp

theorem foldl_countVeto (c : VetoCounts) :
    outcomes.foldl (countVeto (vetoIndex evaluations)) c =
      { wouldHaveBeenVetoed := c.wouldHaveBeenVetoed + outcomes.countP (vetoed evaluations)
        vetoedWinners := c.vetoedWinners + vetoedWith .win outcomes evaluations
        vetoedLosers := c.vetoedLosers + vetoedWith .loss outcomes evaluations } := by
  unfold vetoedWith
  induction outcomes generalizing c with
  | nil => rfl
  | cons o os ih =>
    rw [List.foldl_cons, ih, countVeto_eq]
    simp only [List.countP_cons, VetoCounts.mk.injEq]
    refine ⟨?_, ?_, ?_⟩ <;> omega

/-- **The published counts are those of the vetoed trades.** -/
theorem policyVetoImpact_counts :
    (policyVetoImpact outcomes evaluations).getD "veto_precision" 1 =
        roundTo 4 (ratioOr0 (vetoedWith .loss outcomes evaluations)
          (outcomes.countP (vetoed evaluations))) ∧
      (policyVetoImpact outcomes evaluations).getD "veto_recall" 1 =
        roundTo 4 (ratioOr0 (vetoedWith .loss outcomes evaluations)
          (outcomes.countP (·.outcome = .loss))) := by
  unfold policyVetoImpact
  rw [foldl_countVeto]
  simp [Dict.ofItems, Dict.getD, Dict.get?_set]

/-- A vetoed trade won, lost or broke even. -/
theorem countP_vetoed :
    outcomes.countP (vetoed evaluations) =
      vetoedWith .win outcomes evaluations + vetoedWith .breakeven outcomes evaluations +
        vetoedWith .loss outcomes evaluations := by
  unfold vetoedWith
  induction outcomes with
  | nil => rfl
  | cons o os ih =>
    simp only [List.countP_cons, ih]
    cases vetoed evaluations o with
    | false => simp
    | true =>
      cases h : o.outcome with
      | win => simp; omega
      | loss => simp; omega
      | breakeven => simp; omega

/-- A losing trade is vetoed or not. -/
theorem countP_loss :
    outcomes.countP (·.outcome = .loss) = vetoedWith .loss outcomes evaluations +
      outcomes.countP fun o => o.outcome = .loss && !vetoed evaluations o := by
  unfold vetoedWith
  induction outcomes with
  | nil => rfl
  | cons o os ih =>
    simp only [List.countP_cons, ih]
    cases vetoed evaluations o with
    | false => simp; omega
    | true => simp; omega

/-! ## The report -/

/-- The complement of a ratio is that of the rest. -/
theorem one_sub_ratioOr0 {m n k : ℕ} (hn : 0 < n) (h : n = k + m) : 1 - ratioOr0 m n = ratioOr0 k n := by
  have hne : (n : ℚ) ≠ 0 := by exact_mod_cast hn.ne'
  have hsum : (n : ℚ) = k + m := by exact_mod_cast h
  unfold ratioOr0
  rw [if_pos hn, if_pos hn, one_sub_div hne, hsum, add_sub_cancel_right]

variable (sqrt : ℚ → ℚ) (ev : Evaluator) (name : String) (regimePerf : Dict String Numbers)

/-- The report on a policy whose analytics were registered. -/
def reportOn : ConfidenceReport :=
  (ev.addPolicyAnalytics name (policyVetoImpact outcomes evaluations) regimePerf).evaluatePolicy
    sqrt name

theorem reportOn_rates :
    (reportOn outcomes evaluations sqrt ev name regimePerf).falsePositiveRate =
        roundTo 4 (1 - ratioOr0 (vetoedWith .loss outcomes evaluations)
          (outcomes.countP (vetoed evaluations))) ∧
      (reportOn outcomes evaluations sqrt ev name regimePerf).falseNegativeRate =
        roundTo 4 (1 - ratioOr0 (vetoedWith .loss outcomes evaluations)
          (outcomes.countP (·.outcome = .loss))) := by
  obtain ⟨hprecision, hrecall⟩ := policyVetoImpact_counts outcomes evaluations
  unfold reportOn Evaluator.evaluatePolicy Evaluator.addPolicyAnalytics
  simp only [Dict.get?_set_self, hprecision, hrecall]
  exact ⟨roundTo_one_sub (by decide) _, roundTo_one_sub (by decide) _⟩

theorem roundTo_zero : roundTo 4 0 = 0 := by
  unfold roundTo
  rw [zero_mul]
  have hzero := roundHalfEven_intCast 0
  rw [Int.cast_zero] at hzero
  rw [hzero]
  simp

theorem roundTo_one : roundTo 4 1 = 1 := by
  have h := roundTo_compl (n := 4) (by decide) 0
  rw [sub_zero, roundTo_zero, sub_zero] at h
  exact h

theorem not_fourDigits_one : ¬FourDigits 1 0 := by
  unfold FourDigits
  norm_num

/-- Among fewer than ten thousand vetoed trades, four digits show every breakeven. -/
theorem fewBreakevens_iff {w b v : ℕ} (hv : 0 < v) (hlt : v < 10000) :
    FourDigits (roundTo 4 (ratioOr0 (w + b) v)) (ratioOr0 w v) ↔ b = 0 := by
  refine ⟨fun h => ?_, fun h => ?_⟩
  · have hpos : (0 : ℚ) < v := by exact_mod_cast hv
    have hdiff : ratioOr0 (w + b) v - ratioOr0 w v = b / v := by
      unfold ratioOr0
      rw [if_pos hv, if_pos hv, ← sub_div]
      push_cast
      rw [add_sub_cancel_left]
    have hround := abs_sub_roundTo 4 (ratioOr0 (w + b) v)
    unfold FourDigits at h
    have hclose := abs_sub_le (ratioOr0 (w + b) v) (roundTo 4 (ratioOr0 (w + b) v)) (ratioOr0 w v)
    rw [abs_sub_comm (roundTo 4 _) (ratioOr0 w v), hdiff, abs_of_nonneg (by positivity)] at hclose
    have hunit : (b : ℚ) / v * 10 ^ 4 ≤ 1 := by linarith
    rw [div_mul_eq_mul_div, div_le_one hpos] at hunit
    have hle : b * 10 ^ 4 ≤ v := by exact_mod_cast hunit
    omega
  · rw [h, Nat.add_zero]
    apply abs_sub_roundTo

end

/-! ## Two winners and nothing vetoed -/

def twoWinners : List (Outcome String) :=
  [⟨"fvg", "EURUSD", "1H", .win, none⟩, ⟨"ob", "EURUSD", "1H", .win, none⟩]

end Analytics
