import Mathlib.Data.Rat.Floor
import Mathlib.Algebra.Order.Field.Rat
import IctAlgo.Replay.Tagger

/-!
# Replay metrics

`compute_expectancy` and the rates of `backtest_replay/metrics.py`; the metrics of a group in
`scripts/run_replay_batch.py`, and the allowlist `scripts/build_allowlist_from_replay.py` makes of
them; the metrics of `ReplayRunner`. The rounding that ends a metric, `round(x, 4)`, is a parameter:
`round4`, or none at all.
-/

set_option autoImplicit false

namespace Replay

open Lib

/-- `round(x, 4)`: a half goes to the even neighbour. -/
def round4 (x : ℚ) : ℚ :=
  let n := ⌊x * 10000⌋
  let rest := x * 10000 - n
  let n := if rest < 1 / 2 ∨ (rest = 1 / 2 ∧ n % 2 = 0) then n else n + 1
  n / 10000

/-- The body of the loop of `compute_expectancy`, on `total` and `count`. -/
def addEvaluable (acc : ℚ × ℕ) (o : ReplayOutcome) : ℚ × ℕ :=
  if o.outcome = .unknown then acc
  else match o.rMultiple with
    | none => acc
    | some r => (acc.1 + r, acc.2 + 1)

/-- `compute_expectancy`. -/
def computeExpectancy (outcomes : List ReplayOutcome) : ℚ :=
  let (total, count) := outcomes.foldl addEvaluable (0, 0)
  if count > 0 then total / count else 0

/-- The body of the loops of the rates, on the outcomes with the label and `total`. -/
def addLabelled (label : Outcome) (acc : ℕ × ℕ) (o : ReplayOutcome) : ℕ × ℕ :=
  if (o.outcome = .win ∨ o.outcome = .loss ∨ o.outcome = .be) ∧ o.rMultiple ≠ none then
    (if o.outcome = label then acc.1 + 1 else acc.1, acc.2 + 1)
  else acc

/-- The fraction of the evaluable outcomes that have the label. -/
def labelRate (label : Outcome) (outcomes : List ReplayOutcome) : ℚ :=
  let (labelled, total) := outcomes.foldl (addLabelled label) (0, 0)
  if total > 0 then labelled / total else 0

/-- `compute_win_rate`. -/
def computeWinRate (outcomes : List ReplayOutcome) : ℚ := labelRate .win outcomes

/-- `compute_break_even_rate`. -/
def computeBreakEvenRate (outcomes : List ReplayOutcome) : ℚ := labelRate .be outcomes

/-! ## Parts of the metrics -/

/-- The R multiples of the outcomes with `o.r_multiple and p(o.r_multiple)`; zero is falsy. -/
def truthyWhere (p : ℚ → Bool) (rMultiples : List (Option ℚ)) : List ℚ :=
  rMultiples.filterMap fun r => r.filter fun r => r ≠ 0 && p r

def rate (count completedTrades : ℕ) : ℚ :=
  if completedTrades > 0 then count / completedTrades else 0

/-- The expectancy of wins and losses, in both scripts. -/
def gapExpectancy (wins losses : List ℚ) (completedTrades : ℕ) : ℚ :=
  if wins.length > 0 ∧ losses.length > 0 then
    (wins.sum / wins.length - (losses.map abs).sum / losses.length) * rate wins.length completedTrades
  else 0

/-- The variables of the loop over the R multiples. -/
structure Curve where
  cumulative : ℚ := 0
  peak : ℚ := 0
  maxDd : ℚ := 0
  maxLossStreak : ℕ := 0
  maxWinStreak : ℕ := 0
  currentLossStreak : ℕ := 0
  currentWinStreak : ℕ := 0

def Curve.add (c : Curve) (r : ℚ) : Curve :=
  let cumulative := c.cumulative + r
  let peak := if cumulative > c.peak then cumulative else c.peak
  let dd := peak - cumulative
  let c := { c with cumulative, peak, maxDd := if dd > c.maxDd then dd else c.maxDd }
  if r < 0 then
    { c with
      currentLossStreak := c.currentLossStreak + 1
      currentWinStreak := 0
      maxLossStreak := max c.maxLossStreak (c.currentLossStreak + 1) }
  else if r > 0 then
    { c with
      currentWinStreak := c.currentWinStreak + 1
      currentLossStreak := 0
      maxWinStreak := max c.maxWinStreak (c.currentWinStreak + 1) }
  else { c with currentLossStreak := 0, currentWinStreak := 0 }

/-! ## The metrics of a group -/

structure GroupMetrics where
  symbol : String
  timeframe : String
  session : JsonValue
  signalType : String
  direction : String
  sampleSize : ℕ
  completedTrades : ℕ
  cancelledTrades : ℕ
  winRate : ℚ
  lossRate : ℚ
  beRate : ℚ
  expectancy : ℚ
  maxDrawdownR : ℚ
  maxLossStreak : ℕ
  maxWinStreak : ℕ

/-- `compute_group_metrics`. -/
def computeGroupMetrics (round : ℚ → ℚ) (signal : ReplaySignal)
    (grouped : List (ReplaySignal × ReplayOutcome)) : GroupMetrics :=
  let outcomes := grouped.map (·.2)
  let completedTrades := outcomes.countP fun o => o.outcome = .win || o.outcome = .loss
  let rMultiples := outcomes.map (·.rMultiple)
  let wins := truthyWhere (· > 0) rMultiples
  let losses := truthyWhere (· < 0) rMultiples
  let bes := truthyWhere (· = 0) rMultiples
  let curve := (rMultiples.filterMap id).foldl Curve.add {}
  { symbol := signal.symbol
    timeframe := signal.timeframe
    session := signal.session
    signalType := signal.signalType
    direction := signal.direction
    sampleSize := grouped.length
    completedTrades
    cancelledTrades := outcomes.countP fun o => o.outcome = .unknown
    winRate := round (rate wins.length completedTrades)
    lossRate := round (rate losses.length completedTrades)
    beRate := round (rate bes.length completedTrades)
    expectancy := round (gapExpectancy wins losses completedTrades)
    maxDrawdownR := round curve.maxDd
    maxLossStreak := curve.maxLossStreak
    maxWinStreak := curve.maxWinStreak }

def groupKey (trade : ReplaySignal × ReplayOutcome) : String :=
  "|".intercalate [trade.1.symbol, trade.1.timeframe, trade.1.session.toText, trade.1.signalType,
    trade.1.direction]

/-- `group_outcomes`. -/
def groupOutcomes (signals : List ReplaySignal) (outcomes : List ReplayOutcome) :
    Dict String (List (ReplaySignal × ReplayOutcome)) :=
  Dict.groupBy groupKey (fun group trade => group ++ [trade]) [] (signals.zip outcomes)

/-- The metrics `run_replay_batch` reports. -/
def replayBatch (signals : List ReplaySignal) (outcomes : List ReplayOutcome) : List GroupMetrics :=
  (groupOutcomes signals outcomes).values.filterMap fun grouped =>
    grouped.head?.map fun trade => computeGroupMetrics round4 trade.1 grouped

/-! ## The allowlist -/

/-- A group of the summary, as it is read back; a key may be missing. -/
structure GroupSummary where
  symbol : Option String
  timeframe : Option String
  session : Option JsonValue
  signalType : Option String
  direction : Option String
  sampleSize : Option ℤ
  expectancy : Option ℚ
  maxDrawdownR : Option ℚ
  maxLossStreak : Option ℤ

/-- The group as the report writes it. -/
def GroupMetrics.summary (m : GroupMetrics) : GroupSummary where
  symbol := m.symbol
  timeframe := m.timeframe
  session := m.session
  signalType := m.signalType
  direction := m.direction
  sampleSize := some m.sampleSize
  expectancy := m.expectancy
  maxDrawdownR := m.maxDrawdownR
  maxLossStreak := some m.maxLossStreak

structure AllowlistEntry where
  symbol : String
  timeframe : String
  session : JsonValue
  signalType : String
  direction : String

def AllowlistEntry.toKey (e : AllowlistEntry) : String :=
  "|".intercalate [e.symbol, e.timeframe, e.session.toText, e.signalType, e.direction]

structure Thresholds where
  minSamples : ℤ := 50
  minExpectancy : ℚ := 20 / 100
  maxDd : ℚ := 10
  maxStreak : ℤ := 7

/-- The thresholds other than that of the expectancy. A missing drawdown or streak is infinite. -/
def Thresholds.admits (t : Thresholds) (g : GroupSummary) : Bool :=
  t.minSamples ≤ g.sampleSize.getD 0 && g.maxDrawdownR.any (· ≤ t.maxDd) &&
    g.maxLossStreak.any (· ≤ t.maxStreak)

def GroupSummary.entry (g : GroupSummary) : AllowlistEntry where
  symbol := g.symbol.getD ""
  timeframe := g.timeframe.getD ""
  session := g.session.getD (.string "")
  signalType := g.signalType.getD ""
  direction := g.direction.getD ""

/-- `filter_groups`. -/
def filterGroups (groups : List GroupSummary) (t : Thresholds) : List AllowlistEntry :=
  let allowed := groups.filter fun g => t.admits g && t.minExpectancy ≤ g.expectancy.getD 0
  (allowed.map (·.entry)).insertionSort fun a b => a.toKey ≤ b.toKey

/-! ## The metrics of a run -/

/-- The fields of a `TaggedOutcome` that `ReplayRunner` reads; the class is not in the repository. -/
structure TaggedOutcome where
  rMultiple : Option ℚ
  exitType : String
  mae : Option ℚ := none
  mfe : Option ℚ := none
  session : Option String := none

/-- `outcome.session or "unknown"`. -/
def TaggedOutcome.sessionKey (o : TaggedOutcome) : String :=
  match o.session with
  | none => "unknown"
  | some s => if s = "" then "unknown" else s

/-- The metrics of a session; `r_values` is taken out again at the end. -/
structure SessionMetrics where
  count : ℕ := 0
  wins : ℕ := 0
  losses : ℕ := 0
  be : ℕ := 0
  winRate : ℚ := 0
  expectancy : ℚ := 0
  rValues : List ℚ := []

namespace SessionMetrics

/-- The body of the loop over the outcomes. -/
def add (data : SessionMetrics) (o : TaggedOutcome) : SessionMetrics :=
  let data := { data with count := data.count + 1 }
  match o.rMultiple with
  | none => data
  | some r =>
    let data := { data with rValues := data.rValues ++ [r] }
    if r > 0 then { data with wins := data.wins + 1 }
    else if r < 0 then { data with losses := data.losses + 1 }
    else { data with be := data.be + 1 }

/-- The body of the loop over the sessions. -/
def finish (round : ℚ → ℚ) (data : SessionMetrics) : SessionMetrics :=
  let rVals := data.rValues
  let totalCompleted := data.wins + data.losses
  { data with
    rValues := []
    winRate := if totalCompleted > 0 then round (data.wins / totalCompleted) else data.winRate
    expectancy :=
      if data.wins > 0 ∧ data.losses > 0 then
        round ((rVals.filter (· > 0)).sum / data.wins * (data.wins / rVals.length) -
          ((rVals.filter (· < 0)).map abs).sum / data.losses * (data.losses / rVals.length))
      else data.expectancy }

end SessionMetrics

/-- The outcomes counted into their sessions. -/
def sessionTallies (outcomes : List TaggedOutcome) : Dict String SessionMetrics :=
  Dict.groupBy TaggedOutcome.sessionKey SessionMetrics.add {} outcomes

/-- `_group_by_session`. -/
def groupBySession (round : ℚ → ℚ) (outcomes : List TaggedOutcome) : Dict String SessionMetrics :=
  (sessionTallies outcomes).mapVals (SessionMetrics.finish round)

/-- `_bucket_r_values`. -/
def bucketOf (r : ℚ) : String :=
  if r < -2 then "loss_gt_2r"
  else if r < -1 then "loss_1r_to_2r"
  else if r < 0 then "loss_0r_to_1r"
  else if r = 0 then "breakeven"
  else if r ≤ 1 then "win_0r_to_1r"
  else if r ≤ 2 then "win_1r_to_2r"
  else "win_gt_2r"

def bucketRValues (rValues : List ℚ) : Dict String ℕ :=
  let buckets := ["loss_gt_2r", "loss_1r_to_2r", "loss_0r_to_1r", "breakeven", "win_0r_to_1r",
    "win_1r_to_2r", "win_gt_2r"].foldl (fun buckets key => buckets.set key 0) Dict.empty
  rValues.foldl (fun buckets r => buckets.set (bucketOf r) (buckets.getD (bucketOf r) 0 + 1)) buckets

/-- `sum(xs) / len(xs) if xs else 0`. -/
def averageOf (xs : List ℚ) : ℚ := if xs = [] then 0 else xs.sum / xs.length

/-- `max(xs) if xs else 0` for `pick` the maximum, and `min`. -/
def extremeOf (pick : ℚ → ℚ → ℚ) : List ℚ → ℚ
  | [] => 0
  | x :: xs => xs.foldl pick x

/-! ### Drawdown and streaks -/

/-- The variables of the loop over the equity curve. -/
structure EquityLoop where
  equity : ℚ := 0
  peakEquity : ℚ := 0
  maxDd : ℚ := 0

def EquityLoop.add (l : EquityLoop) (r : ℚ) : EquityLoop :=
  let equity := l.equity + r
  let peakEquity := if equity > l.peakEquity then equity else l.peakEquity
  let dd := peakEquity - equity
  { equity, peakEquity, maxDd := max l.maxDd dd }

/-- The variables of the loop over the streaks. -/
structure StreakLoop where
  maxLossStreak : ℕ := 0
  maxWinStreak : ℕ := 0
  currentLossStreak : ℕ := 0
  currentWinStreak : ℕ := 0

def StreakLoop.add (l : StreakLoop) (r : ℚ) : StreakLoop :=
  if r < 0 then
    { l with
      currentLossStreak := l.currentLossStreak + 1
      maxLossStreak := max l.maxLossStreak (l.currentLossStreak + 1)
      currentWinStreak := 0 }
  else if r > 0 then
    { l with
      currentWinStreak := l.currentWinStreak + 1
      maxWinStreak := max l.maxWinStreak (l.currentWinStreak + 1)
      currentLossStreak := 0 }
  else { l with currentLossStreak := 0, currentWinStreak := 0 }

/-- `_compute_drawdown_streaks`. -/
def computeDrawdownStreaks (outcomes : List TaggedOutcome) : ℚ × ℕ × ℕ :=
  let rValues := outcomes.filterMap (·.rMultiple)
  if rValues = [] then (0, 0, 0)
  else
    let equity := rValues.foldl EquityLoop.add {}
    let streaks := rValues.foldl StreakLoop.add {}
    (equity.maxDd, streaks.maxLossStreak, streaks.maxWinStreak)

structure ReplayMetrics where
  sampleSize : ℕ
  completedTrades : ℕ
  cancelledTrades : ℕ
  winCount : ℕ
  lossCount : ℕ
  beCount : ℕ
  winRate : ℚ
  lossRate : ℚ
  beRate : ℚ
  expectancy : ℚ
  profitFactor : ℚ
  maxR : ℚ
  minR : ℚ
  averageR : ℚ
  maxDrawdownR : ℚ
  maxLossStreak : ℕ
  maxWinStreak : ℕ
  averageMae : ℚ
  averageMfe : ℚ
  rDistribution : Dict String ℕ
  groupedBySession : Dict String SessionMetrics

/-- `_compute_metrics`. -/
def computeMetrics (round : ℚ → ℚ) (outcomes : List TaggedOutcome) : ReplayMetrics :=
  let completedTrades := outcomes.countP fun o => o.exitType = "tp" || o.exitType = "sl"
  let rMultiples := outcomes.map (·.rMultiple)
  let wins := truthyWhere (· > 0) rMultiples
  let losses := truthyWhere (· < 0) rMultiples
  let bes := truthyWhere (· = 0) rMultiples
  let lossAmt := (losses.map abs).sum
  let rValues := rMultiples.filterMap id
  let (maxDd, maxLossStreak, maxWinStreak) := computeDrawdownStreaks outcomes
  { sampleSize := outcomes.length
    completedTrades
    cancelledTrades := outcomes.countP fun o => o.exitType = "cancelled"
    winCount := wins.length
    lossCount := losses.length
    beCount := bes.length
    winRate := round (rate wins.length completedTrades)
    lossRate := round (rate losses.length completedTrades)
    beRate := round (rate bes.length completedTrades)
    expectancy := round (gapExpectancy wins losses completedTrades)
    profitFactor := round (if lossAmt > 0 then wins.sum / lossAmt else 0)
    maxR := round (extremeOf max rValues)
    minR := round (extremeOf min rValues)
    averageR := round (averageOf rValues)
    maxDrawdownR := round maxDd
    maxLossStreak
    maxWinStreak
    averageMae := round (averageOf (outcomes.filterMap (·.mae)))
    averageMfe := round (averageOf (outcomes.filterMap (·.mfe)))
    rDistribution := bucketRValues rValues
    groupedBySession := groupBySession round outcomes }

end Replay
