import IctAlgo.Lib.Dict
import IctAlgo.Lib.PyVal
import IctAlgo.Lib.Strptime
import Mathlib.Data.List.Sort

/-!
# Candles of ticks

`convert_truefx_to_m1` of `scripts/convert_truefx_ticks_to_m1.py`, over the rows that `csv.reader`
reads. What `float` reads from a text is a parameter. The candles are those that are written, before
their prices are formatted.
-/

set_option autoImplicit false

namespace Candles

open Lib

/-- `max(a, b)`. -/
def maxFloat (a b : PyFloat) : PyFloat := if a.lt b then b else a

/-- `min(a, b)`. -/
def minFloat (a b : PyFloat) : PyFloat := if b.lt a then b else a

/-! ## `M1Candle` -/

structure M1Candle where
  timestamp : ℕ
  openPrice : PyFloat
  high : PyFloat
  low : PyFloat
  close : PyFloat
  volume : ℕ
  deriving DecidableEq

namespace M1Candle

/-- `__init__`. -/
def new (timestamp : ℕ) (openPrice : PyFloat) : M1Candle :=
  ⟨timestamp, openPrice, openPrice, openPrice, openPrice, 1⟩

def update (c : M1Candle) (bid : PyFloat) : M1Candle :=
  { c with
    high := maxFloat c.high bid
    low := minFloat c.low bid
    close := bid
    volume := c.volume + 1 }

end M1Candle

/-! ## Ticks -/

open Strptime in
/-- `%Y%m%d %H:%M:%S.%f`. -/
def truefxFormat : List Item :=
  [.field .year, .field .month, .field .day, .blanks, .field .hour, .char ':', .field .minute,
    .char ':', .field .second, .char '.', .field .fraction]

/-- `parse_truefx_timestamp`, in whole seconds. -/
def parseTruefxTimestamp (text : String) : Option ℕ := Strptime.strptime? truefxFormat text.toList

/-- `get_minute_bucket`. -/
def getMinuteBucket (dt : ℕ) : ℕ := dt / 60 * 60

example : (parseTruefxTimestamp "20260101 18:02:25.204").map getMinuteBucket =
    parseTruefxTimestamp "20260101 18:02:0.0" := by decide +kernel

section
variable (floatText : String → Option PyFloat)

/-- The minute and the bid price of a row; a row that is skipped has none. -/
def tick? : List String → Option (ℕ × PyFloat)
  | _symbol :: timestampStr :: bidStr :: _askStr :: _ => do
    let dt ← parseTruefxTimestamp timestampStr
    let bid ← floatText bidStr
    return (getMinuteBucket dt, bid)
  | _ => none

/-- The variables of the loop over the rows. -/
structure TickLoop where
  candles : Dict ℕ M1Candle := .empty
  linesRead : ℕ := 0
  linesSkipped : ℕ := 0

/-- The candle of a minute with one more tick. -/
def addTick (candles : Dict ℕ M1Candle) (bucket : ℕ) (bid : PyFloat) : Dict ℕ M1Candle :=
  match candles.get? bucket with
  | none => candles.set bucket (.new bucket bid)
  | some candle => candles.set bucket (candle.update bid)

/-- The body of the loop. -/
def TickLoop.step (s : TickLoop) (row : List String) : TickLoop :=
  let s := { s with linesRead := s.linesRead + 1 }
  match tick? floatText row with
  | none => { s with linesSkipped := s.linesSkipped + 1 }
  | some (bucket, bid) => { s with candles := addTick s.candles bucket bid }

/-- The loop. -/
def readTicks (rows : List (List String)) : TickLoop := rows.foldl (TickLoop.step floatText) {}

/-- `convert_truefx_to_m1`: the candles in the order in which they are written. -/
def convertTruefxToM1 (rows : List (List String)) : List M1Candle :=
  let candles := (readTicks floatText rows).candles
  let sortedBuckets := (candles.items.map Prod.fst).insertionSort (· ≤ ·)
  sortedBuckets.filterMap candles.get?

end

end Candles
