import IctAlgo.Replay.Signal

/-!
# The candle tagger

`tag_from_candles` of `backtest_replay/outcome_tagger.py`, and the two scripts that feed it with the
loaded signals: `run_historical_replay` with its filters, `run_replay_batch` with none.
-/

set_option autoImplicit false

namespace Replay

/-! ## Data -/

/-- `Outcome`. -/
inductive Outcome
  | win | loss | be | unknown
  deriving DecidableEq, Repr

structure ReplayOutcome where
  signalId : String
  outcome : Outcome
  rMultiple : Option ℚ
  mae : Option ℚ
  mfe : Option ℚ
  exitPrice : Option ℚ
  exitTime : Option ℚ
  notes : Option String := none
  deriving DecidableEq

/-- A candle, with the keys the tagger reads. -/
structure Candle where
  timestamp : ℚ
  high : ℚ
  low : ℚ
  deriving DecidableEq

/-- `tie_break_on`. -/
inductive TieBreak
  | loss | win
  deriving DecidableEq

/-! ## The scan -/

/-- The variables of the loop over the candles. -/
structure Scan where
  mae : ℚ := 0
  mfe : ℚ := 0
  exitPrice : Option ℚ := none
  exitTime : Option ℚ := none
  rMultiple : Option ℚ := none
  outcome : Outcome := .unknown
  deriving DecidableEq

/-- `if v > m: m = v`. -/
def raise (m v : ℚ) : ℚ := if v > m then v else m

namespace ReplaySignal

variable (s : ReplaySignal)

/-- `risk`, 1 when it is not positive. -/
def risk : ℚ :=
  let risk := if s.direction = "LONG" then s.entry - s.sl else s.sl - s.entry
  if risk ≤ 0 then 1 else risk

/-- The update of `mae` and `mfe` at a candle. -/
def excursions (c : Candle) (t : Scan) : Scan :=
  if s.direction = "LONG" then
    { t with
      mae := if c.low < s.entry then raise t.mae ((s.entry - c.low) / s.risk) else t.mae
      mfe := if c.high > s.entry then raise t.mfe ((c.high - s.entry) / s.risk) else t.mfe }
  else
    { t with
      mae := if c.high > s.entry then raise t.mae ((c.high - s.entry) / s.risk) else t.mae
      mfe := if c.low < s.entry then raise t.mfe ((s.entry - c.low) / s.risk) else t.mfe }

def slHit (c : Candle) : Bool :=
  if s.direction = "LONG" then c.low ≤ s.sl else c.high ≥ s.sl

def tpHit (c : Candle) : Bool :=
  if s.direction = "LONG" then c.high ≥ s.tp else c.low ≤ s.tp

/-- The exit of a trade that ends at `price`. -/
def exitAt (c : Candle) (t : Scan) (price : ℚ) (outcome : Outcome) (rMultiple : ℚ) : Scan :=
  { t with
    exitPrice := some price
    exitTime := some c.timestamp
    outcome
    rMultiple := some rMultiple }

/-- The loop over the candles. The branch of a candle that hits both levels does not ask
`tie_break_on`. -/
def scan (t : Scan) : List Candle → Scan
  | [] => t
  | c :: cs =>
    if c.timestamp ≤ s.timestamp then scan t cs
    else
      let t := s.excursions c t
      if s.slHit c && s.tpHit c then exitAt c t s.sl .loss (-1)
      else if s.slHit c then exitAt c t s.sl .loss (-1)
      else if s.tpHit c then
        exitAt c t s.tp .win
          (if s.direction = "LONG" then (s.tp - s.entry) / s.risk else (s.entry - s.tp) / s.risk)
      else scan t cs

/-- The outcome the loop's variables are turned into. -/
def outcomeOf (t : Scan) : ReplayOutcome where
  signalId := s.signalId
  outcome := t.outcome
  rMultiple := t.rMultiple
  mae := if t.mae > 0 then some t.mae else none
  mfe := if t.mfe > 0 then some t.mfe else none
  exitPrice := t.exitPrice
  exitTime := t.exitTime

/-- The body of the loop over the signals. -/
def tag (candles : List Candle) : ReplayOutcome :=
  s.outcomeOf (s.scan {} candles)

end ReplaySignal

/-- `sorted(candles, key=lambda c: c["timestamp"])`. -/
def sortCandles (candles : List Candle) : List Candle :=
  candles.insertionSort fun a b => a.timestamp ≤ b.timestamp

/-- `tag_from_candles`. -/
def tagFromCandles (signals : List ReplaySignal) (candles : List Candle)
    (_tieBreakOn : TieBreak := .loss) : List ReplayOutcome :=
  signals.map fun s => s.tag (sortCandles candles)

/-! ## The scripts -/

/-- The filters of `run_historical_replay`; an empty text is no filter. -/
structure ReplayArgs where
  symbol : Option String := none
  signalType : Option String := none
  fromDate : Option ℚ := none
  toDate : Option ℚ := none

/-- `if args.f: … == args.f`. -/
def ReplayArgs.admits (arg : Option String) (text : String) : Bool :=
  match arg with
  | none => true
  | some a => a = "" || text = a

/-- The signal passes the filters. -/
def ReplayArgs.keeps (args : ReplayArgs) (s : ReplaySignal) : Bool :=
  ReplayArgs.admits args.symbol s.symbol && ReplayArgs.admits args.signalType s.signalType &&
    args.fromDate.all (· ≤ s.timestamp) && args.toDate.all (s.timestamp ≤ ·)

/-- The signals of a replay of a file with their outcomes. `run_replay_batch` is the one without
filters. -/
def Parsers.replay (P : Parsers) (args : ReplayArgs) (path fmt : String)
    (file : Option (List String)) (candles : List Candle) :
    Except LoadError (List (ReplaySignal × ReplayOutcome)) := do
  let signals := (← P.loadJsonl path fmt file).filter args.keeps
  return signals.zip (tagFromCandles signals candles)

end Replay
