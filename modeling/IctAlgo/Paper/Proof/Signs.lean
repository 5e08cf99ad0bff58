import Mathlib.Tactic.LinearCombination
import Mathlib.Tactic.Positivity
import Mathlib.Tactic.Ring
import IctAlgo.Paper.Adapter

/-!
# The signs of a paper trade

The profit is measured from the entry price that was asked for, the R multiple from the fill, which
the slippage moves towards the target. In the sense of the trade (`Entry.side`) the target is `reach`
away from the entry, the stop `risk`, and the fill `slip`: a target exit has the profit `reach` and
the R multiple `(reach - slip) / (risk + slip)`, a stop exit `-risk` and `-1`.

* `signsAgree_iff`: the signs agree exactly when the stop is hit or the slippage does not reach the
  target.
* `recorder_eq`: the outcome recorder has the same R multiple.
-/

set_option autoImplicit false

namespace Paper

/-! ## What a result is to say -/

/-- The target and the stop are on the sides of the entry that the direction asks for. -/
def Entry.Geometry (e : Entry) : Prop :=
  if isShort e.direction then e.tpPrice < e.entryPrice ∧ e.entryPrice < e.slPrice
  else e.slPrice < e.entryPrice ∧ e.entryPrice < e.tpPrice

/-- Positive prices, valid for the direction. -/
structure Entry.Valid (e : Entry) : Prop where
  entry : 0 < e.entryPrice
  sl : 0 < e.slPrice
  tp : 0 < e.tpPrice
  geometry : e.Geometry

instance (e : Entry) : Decidable e.Geometry := by
  unfold Entry.Geometry
  infer_instance

/-- No slippage percentage is negative. -/
structure PaperExecutionConfig.Adverse (config : PaperExecutionConfig) : Prop where
  fixed : 0 ≤ config.slippageFixedPct
  min : 0 ≤ config.slippageRandomMinPct
  max : 0 ≤ config.slippageRandomMaxPct

/-- The label, the sign of the profit and the sign of the exact R multiple agree. -/
structure SignsAgree (r : PaperExecutionResult) (rMultiple : ℚ) : Prop where
  exact : computeRMultiple id r.fillPrice r.exitPrice r.stopLossPrice r.direction = some rMultiple
  win : r.outcome = .win ↔ 0 < r.pnl
  profit : 0 < r.pnl ↔ 0 < rMultiple
  loss : r.outcome = .loss ↔ r.pnl < 0 ∧ rMultiple < 0

/-- The R multiple the outcome recorder would compute from the fill is the result's. -/
def RecorderAgrees (round : ℚ → ℚ) (r : PaperExecutionResult) : Prop :=
  recorderRMultiple round (some r.fillPrice) (some r.exitPrice) (some r.stopLossPrice)
    (some r.direction) = r.rMultiple

/-! ## In the sense of the trade -/

section
variable (e : Entry)

/-- The sign of a price move in favour of the trade. -/
def side (direction : String) : ℚ := if isShort direction then -1 else 1

def Entry.reach : ℚ := side e.direction * (e.tpPrice - e.entryPrice)

def Entry.risk : ℚ := side e.direction * (e.entryPrice - e.slPrice)

end

section
variable {config : PaperExecutionConfig} {env : Env} {e : Entry} {direction : String}

theorem side_mul_side (direction : String) : side direction * side direction = 1 := by
  unfold side
  split <;> ring

theorem abs_side_mul (direction : String) (x : ℚ) : |side direction * x| = |x| := by
  unfold side
  split <;> simp

theorem side_short (h : isShort direction = true) : side direction = -1 := if_pos h

theorem side_long (h : ¬ isShort direction = true) : side direction = 1 := if_neg h

/-- The geometry of either direction, in the sense of the trade. -/
theorem geometry_iff : e.Geometry ↔ 0 < e.reach ∧ 0 < e.risk := by
  unfold Entry.Geometry Entry.reach Entry.risk
  split <;> rename_i hs
  · rw [side_short hs, neg_one_mul, neg_one_mul, neg_sub, neg_sub, sub_pos, sub_pos]
  · rw [side_long hs, one_mul, one_mul, sub_pos, sub_pos, and_comm]

theorem Entry.Valid.reach_pos (h : e.Valid) : 0 < e.reach := (geometry_iff.1 h.geometry).1

theorem Entry.Valid.risk_pos (h : e.Valid) : 0 < e.risk := (geometry_iff.1 h.geometry).2

theorem pnlOf_eq (exitPrice : ℚ) :
    pnlOf e exitPrice = side e.direction * (exitPrice - e.entryPrice) := by
  unfold pnlOf side
  split <;> ring

theorem computeRMultiple_eq (round : ℚ → ℚ) (entryPrice exitPrice stopLossPrice : ℚ) :
    computeRMultiple round entryPrice exitPrice stopLossPrice direction =
      if side direction * (entryPrice - stopLossPrice) = 0 then none
      else some (round (side direction * (exitPrice - entryPrice) /
        (side direction * (entryPrice - stopLossPrice)))) := by
  unfold computeRMultiple side
  split
  · simp only [neg_one_mul, neg_sub]
  · simp only [one_mul]

/-- The recorder computes what the adapter computes. -/
theorem recorder_eq (round : ℚ → ℚ) (entryPrice exitPrice stopLossPrice : ℚ) :
    recorderRMultiple round (some entryPrice) (some exitPrice) (some stopLossPrice)
      (some direction) = computeRMultiple round entryPrice exitPrice stopLossPrice direction := by
  have hempty : isShort "" = false := by decide +kernel
  have hdir : (direction ≠ "" && isShort direction) = isShort direction := by
    by_cases h : direction = ""
    · simp [h, hempty]
    · simp [h]
  simp only [recorderRMultiple, computeRMultiple, Option.bind_eq_bind, Option.bind_some,
    Option.any_some, hdir]

/-! ## The slippage -/

theorem uniform_nonneg {a b : ℚ} (ha : 0 ≤ a) (hb : 0 ≤ b) (u : Draw) : 0 ≤ uniform a b u := by
  have hsplit : uniform a b u = a * (1 - u.value) + b * u.value := by
    unfold uniform
    ring
  have h1 : 0 ≤ 1 - u.value := sub_nonneg.2 u.le_one
  have h0 := u.nonneg
  rw [hsplit]
  positivity

theorem PaperExecutionConfig.Adverse.pct_nonneg (h : config.Adverse) :
    0 ≤ getSlippagePct config env := by
  have hfixed : 0 ≤ config.slippageFixedPct / 100 := div_nonneg h.fixed (by norm_num)
  have hmin : 0 ≤ config.slippageRandomMinPct / 100 := div_nonneg h.min (by norm_num)
  have hmax : 0 ≤ config.slippageRandomMaxPct / 100 := div_nonneg h.max (by norm_num)
  simp only [getSlippagePct]
  split
  · exact le_rfl
  · split
    · exact hfixed
    · split
      · exact uniform_nonneg hmin hmax env.slippageDraw
      · exact hfixed

/-- The fill is on the way to the target. -/
theorem fill_eq (entryPrice : ℚ) :
    (simulateEntryFill config env entryPrice direction).1 =
      entryPrice + side direction * (entryPrice * getSlippagePct config env) := by
  simp only [simulateEntryFill, side]
  split <;> ring

/-- The slippage of the entry, in the sense of the trade. -/
def slip (config : PaperExecutionConfig) (env : Env) (e : Entry) : ℚ :=
  e.entryPrice * getSlippagePct config env

/-- From the fill to the stop it is the risk and the slippage. -/
theorem fill_sub_sl : side e.direction *
    ((simulateEntryFill config env e.entryPrice e.direction).1 - e.slPrice) =
      e.risk + slip config env e := by
  have hside := side_mul_side e.direction
  rw [fill_eq, Entry.risk, slip]
  linear_combination e.entryPrice * getSlippagePct config env * hside

/-- From the fill to the target the slippage is gone. -/
theorem tp_sub_fill : side e.direction *
    (e.tpPrice - (simulateEntryFill config env e.entryPrice e.direction).1) =
      e.reach - slip config env e := by
  have hside := side_mul_side e.direction
  rw [fill_eq, Entry.reach, slip]
  linear_combination -e.entryPrice * getSlippagePct config env * hside

theorem sl_sub_fill : side e.direction *
    (e.slPrice - (simulateEntryFill config env e.entryPrice e.direction).1) =
      -(e.risk + slip config env e) := by
  rw [← fill_sub_sl]
  ring

/-! ## The call -/

/-- The draw that the target needs. -/
def targetHit (env : Env) : Prop := env.exitDraw.value < 7 / 10

instance (env : Env) : Decidable (targetHit env) := inferInstanceAs (Decidable (_ < _))

/-- The price of the level the draw picks. -/
theorem pickExit_price {slPrice tpPrice tpTime slTime : ℚ} {x : ℚ × ℚ × ExitReason}
    (h : some (pickExit env slPrice tpPrice tpTime slTime) = some x) :
    x.1 = if targetHit env then tpPrice else slPrice := by
  obtain rfl := Option.some.inj h
  by_cases hdraw : env.exitDraw.value < 7 / 10
  · have hhit : targetHit env := hdraw
    rw [pickExit, if_pos hdraw, if_pos hhit]
  · have hhit : ¬ targetHit env := hdraw
    rw [pickExit, if_neg hdraw, if_neg hhit]

/-- All exit models leave the choice of the level to one draw. -/
theorem simulateExit_price {slPrice tpPrice : ℚ} {x : ℚ × ℚ × ExitReason}
    (h : simulateExit config env slPrice tpPrice = some x) :
    x.1 = if targetHit env then tpPrice else slPrice := by
  simp only [simulateExit] at h
  split at h
  · exact pickExit_price h
  split at h
  · obtain ⟨bars, -, h⟩ := Option.bind_eq_some_iff.1 h
    exact pickExit_price h
  split at h
  · obtain ⟨hours, -, h⟩ := Option.bind_eq_some_iff.1 h
    exact pickExit_price h
  · exact pickExit_price h

/-- What a call that does not raise reports. -/
structure Executed (config : PaperExecutionConfig) (env : Env) (e : Entry)
    (r : PaperExecutionResult) : Prop where
  direction : r.direction = e.direction
  fillPrice : r.fillPrice = (simulateEntryFill config env e.entryPrice e.direction).1
  exitPrice : r.exitPrice = if targetHit env then e.tpPrice else e.slPrice
  stopLossPrice : r.stopLossPrice = e.slPrice
  pnl : r.pnl = side e.direction * (r.exitPrice - e.entryPrice)
  outcome : r.outcome = outcomeOf r.pnl
  rMultiple : r.rMultiple =
    computeRMultiple env.round r.fillPrice r.exitPrice r.stopLossPrice r.direction

theorem executeEntry_executed (h : tryExecute config env e ≠ none) :
    Executed config env e (executeEntry config env e) := by
  obtain ⟨r, hr⟩ := Option.ne_none_iff_exists'.1 h
  rw [executeEntry, hr, Option.getD_some]
  obtain ⟨⟨exitPrice, exitTime, reason⟩, hexit, hr⟩ := Option.bind_eq_some_iff.1 hr
  obtain rfl := Option.some.inj hr
  exact ⟨rfl, rfl, simulateExit_price hexit, rfl, pnlOf_eq exitPrice, rfl, rfl⟩

/-! ## The signs -/

theorem outcomeOf_eq_win {pnl : ℚ} : outcomeOf pnl = .win ↔ 0 < pnl := by
  unfold outcomeOf
  split_ifs with hpos hneg <;> simp [hpos]

theorem outcomeOf_eq_loss {pnl : ℚ} : outcomeOf pnl = .loss ↔ pnl < 0 := by
  unfold outcomeOf
  split_ifs with hpos hneg
  · simpa using hpos.le
  · simp [hneg]
  · simp [hneg]

variable {r : PaperExecutionResult}

section
variable (hr : Executed config env e r) (hvalid : e.Valid) (hslip : 0 ≤ slip config env e)
include hr hvalid hslip

/-- The exact R multiple. -/
theorem Executed.exact :
    computeRMultiple id r.fillPrice r.exitPrice r.stopLossPrice r.direction =
      some (side e.direction * (r.exitPrice - r.fillPrice) / (e.risk + slip config env e)) := by
  have hrisk : e.risk + slip config env e ≠ 0 := (add_pos_of_pos_of_nonneg hvalid.risk_pos hslip).ne'
  rw [computeRMultiple_eq, hr.direction, hr.stopLossPrice, hr.fillPrice, fill_sub_sl, if_neg hrisk]
  rfl

/-- At the stop the trade loses its risk, and the R multiple is -1. -/
theorem Executed.signs_of_stop (hhit : ¬ targetHit env) : SignsAgree r (-1) := by
  have hexit : r.exitPrice = e.slPrice := by rw [hr.exitPrice, if_neg hhit]
  have hrisk : 0 < e.risk + slip config env e := add_pos_of_pos_of_nonneg hvalid.risk_pos hslip
  have hpnl : r.pnl < 0 := by
    have hneg : r.pnl = -e.risk := by
      rw [hr.pnl, hexit, Entry.risk]
      ring
    rw [hneg]
    exact neg_neg_of_pos hvalid.risk_pos
  refine ⟨?_, ?_, ?_, ?_⟩
  · rw [hr.exact hvalid hslip, hexit, hr.fillPrice, sl_sub_fill, neg_div, div_self hrisk.ne']
  · rw [hr.outcome, outcomeOf_eq_win]
  · exact iff_of_false hpnl.le.not_gt (by norm_num)
  · rw [hr.outcome, outcomeOf_eq_loss]
    exact iff_of_true hpnl ⟨hpnl, by norm_num⟩

/-- At the target the trade wins its reach; the R multiple is positive before the slippage gets
there. -/
theorem Executed.signs_of_target (hhit : targetHit env) :
    (∃ rMultiple, SignsAgree r rMultiple) ↔ slip config env e < e.reach := by
  have hexit : r.exitPrice = e.tpPrice := by rw [hr.exitPrice, if_pos hhit]
  have hrisk : 0 < e.risk + slip config env e := add_pos_of_pos_of_nonneg hvalid.risk_pos hslip
  have hpnl : 0 < r.pnl := by
    rw [hr.pnl, hexit]
    exact hvalid.reach_pos
  have hexact := hr.exact hvalid hslip
  rw [hexit, hr.fillPrice, tp_sub_fill, ← hr.fillPrice, ← hexit] at hexact
  have hsign : 0 < (e.reach - slip config env e) / (e.risk + slip config env e) ↔
      slip config env e < e.reach := by
    rw [div_pos_iff_of_pos_right hrisk, sub_pos]
  refine ⟨fun h => ?_, fun h => ?_⟩
  · obtain ⟨rMultiple, h⟩ := h
    obtain rfl := Option.some.inj (hexact.symm.trans h.exact)
    exact hsign.1 (h.profit.1 hpnl)
  · refine ⟨_, hexact, ?_, iff_of_true hpnl (hsign.2 h), ?_⟩
    · rw [hr.outcome, outcomeOf_eq_win]
    · rw [hr.outcome, outcomeOf_eq_loss]
      exact iff_of_false hpnl.le.not_gt fun hboth => hpnl.le.not_gt hboth.1

end

end

/-- **The signs of a paper trade agree, and its R multiple is the recorder's**, exactly when the
stop is hit or the slippage does not reach the target. -/
theorem signsAgree_iff (config : PaperExecutionConfig) (env : Env) (e : Entry) (hvalid : e.Valid)
    (hadverse : config.Adverse) (hruns : tryExecute config env e ≠ none) :
    (∃ rMultiple, SignsAgree (executeEntry config env e) rMultiple) ∧
      RecorderAgrees env.round (executeEntry config env e) ↔
    7 / 10 ≤ env.exitDraw.value ∨
      e.entryPrice * getSlippagePct config env < |e.tpPrice - e.entryPrice| := by
  have hr := executeEntry_executed hruns
  have hslip : 0 ≤ slip config env e := mul_nonneg hvalid.entry.le hadverse.pct_nonneg
  have hrecorder : RecorderAgrees env.round (executeEntry config env e) := by
    rw [RecorderAgrees, recorder_eq, hr.rMultiple]
  have hreach : |e.tpPrice - e.entryPrice| = e.reach := by
    rw [← abs_side_mul e.direction]
    exact abs_of_pos hvalid.reach_pos
  rw [and_iff_left hrecorder, hreach]
  by_cases hhit : targetHit env
  · rw [hr.signs_of_target hvalid hslip hhit, or_iff_right (not_le.2 hhit)]
    exact Iff.rfl
  · exact iff_of_true ⟨_, hr.signs_of_stop hvalid hslip hhit⟩ (Or.inl (not_lt.1 hhit))

/-! ## Two trades -/

/-- A long of EURUSD at 1.085 with the stop at 1.08. -/
def eurusd (tpPrice : ℚ) : Entry where
  decisionId := "d1"
  symbol := "EURUSD"
  signalType := "bullish_choch"
  timeframe := "4H"
  entryPrice := 1085 / 1000
  slPrice := 1080 / 1000
  tpPrice := tpPrice

theorem defaults_adverse : PaperExecutionConfig.Adverse {} := by
  constructor <;> decide +kernel

/-- With the target at 1.09 the default slippage of 0.05% leaves a win a win. -/
theorem eurusd_signs :
    (∃ rMultiple, SignsAgree (executeEntry {} {} (eurusd (1090 / 1000))) rMultiple) ∧
      RecorderAgrees id (executeEntry {} {} (eurusd (1090 / 1000))) :=
  (signsAgree_iff {} {} (eurusd (1090 / 1000))
    ⟨by decide +kernel, by decide +kernel, by decide +kernel, by decide +kernel⟩ defaults_adverse
    (by decide +kernel)).2 (Or.inr (by decide +kernel))

/-- With the target at 1.0853 the fill is beyond it: a win with a negative R multiple. -/
theorem nearTarget_disagrees :
    (eurusd (10853 / 10000)).Valid ∧ PaperExecutionConfig.Adverse {} ∧
      tryExecute {} {} (eurusd (10853 / 10000)) ≠ none ∧
      ¬ ((∃ rMultiple, SignsAgree (executeEntry {} {} (eurusd (10853 / 10000))) rMultiple) ∧
        RecorderAgrees id (executeEntry {} {} (eurusd (10853 / 10000)))) := by
  have hpnl : 0 < (executeEntry {} {} (eurusd (10853 / 10000))).pnl := by decide +kernel
  refine ⟨⟨by decide +kernel, by decide +kernel, by decide +kernel, by decide +kernel⟩,
    defaults_adverse, by decide +kernel, fun h => ?_⟩
  obtain ⟨⟨rMultiple, h⟩, -⟩ := h
  have hneg : rMultiple = -97 / 2217 := Option.some.inj (h.exact.symm.trans (by decide +kernel))
  have hpos := h.profit.1 hpnl
  rw [hneg] at hpos
  revert hpos
  decide +kernel

end Paper
