import IctAlgo.Lib.Decimal
import IctAlgo.Memory.Fusion

/-!
# Analytics of windows

`_compute_trend_acceleration_from_alerts` and `_compute_volatility_index_from_alerts` of
`memory_service.py`, their use in `fuse` and their public wrappers. Prices are exact numbers; the
hyperbolic tangent is a parameter. A window is newest first.
-/

set_option autoImplicit false

namespace Memory

open Lib Lib.Decimal

/-! ## Trend acceleration -/

/-- `statistics.mean`, of some numbers. -/
def mean (xs : List ℚ) : ℚ := xs.sum / xs.length

/-- `[xs[i + 1] - xs[i] for i in range(len(xs) - 1)]`. -/
def differences (xs : List ℚ) : List ℚ := List.zipWith (fun x next => next - x) xs xs.tail

/-- The mean second difference of the closes, relative to their mean. -/
def acceleration (closes : List ℚ) : ℚ :=
  if closes.length < 3 then 0
  else mean (differences (differences closes)) / (if mean closes = 0 then 1 else mean closes)

abbrev PriceAlert := Alert (Fusion.Body ℚ)

/-- `_compute_trend_acceleration_from_alerts`: the window is reversed, and then cut. -/
def trendAcceleration (alerts : List PriceAlert) (lookback : ℕ) : ℚ :=
  if alerts.length < 3 then 0
  else acceleration ((alerts.reverse.take lookback).map (·.body.close))

/-! ## Volatility index -/

/-- `WEIGHTS`. -/
def weights : List (String × ℚ) :=
  [("D", 3), ("H4", 2), ("H1", 3 / 2), ("M15", 1), ("M5", 4 / 5), ("M3", 3 / 5)]

/-- `WEIGHTS.get(tf, 1.0)`. -/
def weight (tf : String) : ℚ := (weights.lookup tf).getD 1

/-- The distances between neighbours among the first 20 closes. -/
def ranges (closes : List ℚ) : List ℚ :=
  (List.zipWith (fun x next => |x - next|) closes closes.tail).take 19

/-- `p95`: the entry before the 95th percentile of the sorted ranges; of a single one, itself. -/
def rangePercentile (ranges : List ℚ) : ℚ :=
  if 2 ≤ ranges.length then (ranges.insertionSort (· ≤ ·)).getD (95 * ranges.length / 100 - 1) 0
  else mean ranges

/-- `vals`: the percentile of each window that has a range. -/
def percentiles (windows : Fusion.Windows ℚ) : List (String × ℚ) :=
  windows.filterMap fun w =>
    let ranges := ranges (w.2.map (·.body.close))
    if ranges.isEmpty then none else some (w.1, rangePercentile ranges)

/-- `_compute_volatility_index_from_alerts`. -/
def volatilityIndex (tanh : ℚ → ℚ) (windows : Fusion.Windows ℚ) : ℚ :=
  let vals := percentiles windows
  if vals.isEmpty then 0
  else
    let weighted := (vals.map fun v => weight v.1 * v.2).sum
    let weightSum := (vals.map fun v => weight v.1).sum
    let raw := if weightSum = 0 then 0 else weighted / weightSum
    roundTo 4 (tanh (raw / 10))

/-! ## In a snapshot -/

/-- The `analytics` of a snapshot. -/
structure Analytics where
  volatilityIndex : ℚ
  accelM5 : ℚ
  deriving DecidableEq

/-- `alerts_by_tf.get(tf, [])`. -/
def windowOf (windows : Fusion.Windows ℚ) (tf : String) : List PriceAlert :=
  (windows.lookup tf).getD []

/-- The analytics `fuse` computes from the windows it fetched. -/
def fusedAnalytics (tanh : ℚ → ℚ) (windows : Fusion.Windows ℚ) : Analytics where
  volatilityIndex := volatilityIndex tanh windows
  accelM5 := trendAcceleration (windowOf windows "M5") 20

/-- The computations of `fuse`, of which only the analytics are kept. -/
def analyticsOnly (tanh : ℚ → ℚ) : Fusion.Floats ℚ Unit Analytics where
  windowStats _ _ := ()
  scores _ windows := fusedAnalytics tanh windows

/-! ## Public wrappers -/

namespace Server

variable (s : Server (Fusion.Body ℚ)) (now : ℤ) (symbol : String)

/-- What `fuse` fetches. -/
def windows : Fusion.Windows ℚ := Fusion.tfOrder.map fun tf => (tf, s.fetchWindow now symbol tf none)

/-- `compute_trend_acceleration`. -/
def computeTrendAcceleration (tf : String) (lookback : ℕ) : ℚ :=
  trendAcceleration (s.fetchWindow now symbol tf (some lookback)) lookback

/-- `compute_volatility_index`. -/
def computeVolatilityIndex (tanh : ℚ → ℚ) : ℚ :=
  volatilityIndex tanh (Fusion.tfOrder.map fun tf => (tf, s.fetchWindow now symbol tf (some 20)))

end Server

end Memory
