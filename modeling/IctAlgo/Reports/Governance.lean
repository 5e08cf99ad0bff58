import IctAlgo.Lib.Calendar
import IctAlgo.Lib.FloatSum
import IctAlgo.Orchestrator.Decision

/-!
# Governance

`TradeGovernanceService` of `reasoner_service/trade_governance_service.py`. What it reads from a
timestamp and how it writes numbers and times are a parameter (`Texts`). Every helper that raises
gives its default.
-/

set_option autoImplicit false

namespace Reports

open Lib Orchestrator

/-- What Python reads from a timestamp, and writes for a number or a time. -/
structure Texts where
  /-- The `datetime` of an ISO text, in which `Z` stands for UTC, or of a value that is one, naive or with
  a fixed offset. -/
  datetime? : Value → Option Datetime
  /-- A number with this many decimal places. -/
  fixed : ℕ → PyFloat → String
  /-- `strftime('%H:%M %Z')`. -/
  clock : Datetime → String
  display : Value → String

structure GovernanceConfig where
  maxTradesPerDay : ℤ := 5
  maxDailyLoss : ℚ := 500
  killzoneHours : List (ℤ × ℤ) := []
  cooldownMinutesAfterLoss : ℤ := 30
  maxTradesPerSymbol : ℤ := 3
  maxTradesPerTimeframe : ℤ := 4
  minTradeSpacingMinutes : ℤ := 5

/-- The service with its registered outcomes. -/
structure Governance where
  config : GovernanceConfig := {}
  outcomes : List Payload := []

/-- `add_outcomes` with a list. -/
def Governance.addOutcomes (g : Governance) (outcomes : List Payload) : Governance :=
  { g with outcomes }

/-- `x + y`, exactly. -/
def addFloat : PyFloat → PyFloat → PyFloat
  | .fin p, .fin q => .fin (p + q)
  | .nan, _ | _, .nan | .inf, .negInf | .negInf, .inf => .nan
  | .inf, _ | _, .inf => .inf
  | .negInf, _ | _, .negInf => .negInf

/-- `-x`. -/
def negFloat : PyFloat → PyFloat
  | .fin q => .fin (-q)
  | .inf => .negInf
  | .negInf => .inf
  | .nan => .nan

/-- `abs(x)`. -/
def absFloat : PyFloat → PyFloat
  | .fin q => .fin |q|
  | .negInf => .inf
  | x => x

namespace Governance

section
variable (tx : Texts) (cv : Conv) (g : Governance)

/-! ## The helpers -/

/-- The outcomes, if each of them is a dictionary. -/
def dicts? : List Payload → Option (List Fields)
  | [] => some []
  | .dict d :: ps => (dicts? ps).map (d :: ·)
  | .other _ :: _ => none

/-- `_parse_timestamp(outcome.get("timestamp"))`. -/
def outcomeTime (o : Fields) : Option Datetime := tx.datetime? (val o "timestamp")

/-- The outcome is of the day of the reference. -/
def sameDay (reference : Datetime) (o : Fields) : Bool :=
  (outcomeTime tx o).any (·.date = reference.date)

/-- The loops that count outcomes of the day; `reference` may be no `datetime`. -/
def countDaily (p : Fields → Bool) (reference : Option Datetime) : ℕ :=
  match reference, dicts? g.outcomes with
  | some t, some os => os.countP fun o => sameDay tx t o && p o
  | _, _ => 0

/-- `_count_daily_trades`. -/
def countDailyTrades (reference : Option Datetime) : ℕ := g.countDaily tx (fun _ => true) reference

/-- `_count_daily_symbol_trades`. -/
def countDailySymbolTrades (symbol : Value) (reference : Option Datetime) : ℕ :=
  g.countDaily tx (fun o => o.getD "symbol" (.str "") = symbol) reference

/-- `_count_daily_timeframe_trades`. -/
def countDailyTimeframeTrades (timeframe : Value) (reference : Option Datetime) : ℕ :=
  g.countDaily tx (fun o => o.getD "timeframe" (.str "") = timeframe) reference

/-- `float(outcome.get("pnl", 0.0))`, which raises for an integer that is too large. -/
def outcomePnl? (o : Fields) : Option PyFloat :=
  match o.getD "pnl" (.float (.fin 0)) with
  | .int n => Binary64.floatOfInt? n
  | v => cv.float? v

/-- The sum of the results of the day; `none` when one of them is no number. -/
def dailyPnl? (reference : Datetime) (pnl : PyFloat) : List Fields → Option PyFloat
  | [] => some pnl
  | o :: os =>
    if sameDay tx reference o then do
      let x ← outcomePnl? cv o
      dailyPnl? reference (Binary64.add pnl x) os
    else dailyPnl? reference pnl os

/-- `_calculate_daily_loss`. -/
def calculateDailyLoss (reference : Option Datetime) : PyFloat :=
  (do dailyPnl? tx cv (← reference) (.fin 0) (← dicts? g.outcomes)).getD (.fin 0)

/-- An hour is in the range, which may wrap around midnight. -/
def inKillzone (hour : ℤ) (range : ℤ × ℤ) : Bool :=
  if range.1 ≤ range.2 then range.1 ≤ hour && hour < range.2 else range.1 ≤ hour || hour < range.2

/-- `_is_in_killzone`. -/
def isInKillzone (tradeTime : Option Datetime) : Bool :=
  tradeTime.any fun t => g.config.killzoneHours.any (inKillzone t.hour)

/-- The later one of the best candidate so far and a time. -/
def latest? (best : Option Datetime) (t : Datetime) : Option (Option Datetime) :=
  match best with
  | none => some (some t)
  | some b => (b.lt? t).map fun later => some (if later then t else b)

/-- The loops that look for the last time before the reference, of the outcomes that `counts?` counts;
`none` when a comparison raises. -/
def lastTime? (counts? : Fields → Option Bool) (reference : Datetime) (best : Option Datetime) :
    List Fields → Option (Option Datetime)
  | [] => some best
  | o :: os =>
    match outcomeTime tx o with
    | none => lastTime? counts? reference best os
    | some t => do
      if ← t.lt? reference then
        if ← counts? o then lastTime? counts? reference (← latest? best t) os
        else lastTime? counts? reference best os
      else lastTime? counts? reference best os

/-- The loop over the outcomes for a trade time that is no `datetime`: it raises at the first time. -/
def lastTime (counts? : Fields → Option Bool) (reference : Option Datetime) : Option Datetime :=
  (do lastTime? tx counts? (← reference) none (← dicts? g.outcomes)).getD none

/-- `pnl < 0`, which raises for a value that is no number. -/
def isLoss? (o : Fields) : Option Bool :=
  match o.getD "pnl" (.float (.fin 0)) with
  | .int n => some (n < 0)
  | .bool _ => some false
  | .float x => some (x.lt (.fin 0))
  | _ => none

/-- `_find_last_loss_time`. -/
def findLastLossTime (reference : Option Datetime) : Option Datetime :=
  g.lastTime tx isLoss? reference

/-- `_find_last_trade_time`. -/
def findLastTradeTime (reference : Option Datetime) : Option Datetime :=
  g.lastTime tx (fun _ => some true) reference

/-! ## `evaluate_trade` -/

/-- The seven rules, in the order in which they are checked. -/
inductive Rule
  | dailyTrades | dailyLoss | killzone | cooldown | symbolTrades | timeframeTrades | spacing
  deriving DecidableEq, Repr

def Rule.all : List Rule :=
  [.dailyTrades, .dailyLoss, .killzone, .cooldown, .symbolTrades, .timeframeTrades, .spacing]

/-- A trade as it is evaluated; a time that is no `datetime` is `none`. -/
structure Trade where
  symbol : Value
  timeframe : Value
  time : Option Datetime

/-- The time left of the cooldown in microseconds, if a loss was found. The addition may raise. -/
def cooldownLeft? (t : Trade) : Option (Option ℤ) :=
  match t.time, g.findLastLossTime tx t.time with
  | some time, some loss => do
    let cooldownEnd ← loss.addMinutes? g.config.cooldownMinutesAfterLoss
    return cooldownEnd.sub? time
  | _, _ => some none

/-- The time since the last trade in microseconds, if one was found. -/
def sinceLastTrade (t : Trade) : Option ℤ := do
  (← t.time).sub? (← g.findLastTradeTime tx t.time)

/-- The trade breaks the rule. -/
def breaks (t : Trade) : Rule → Bool
  | .dailyTrades => g.config.maxTradesPerDay ≤ g.countDailyTrades tx t.time
  | .dailyLoss => (g.calculateDailyLoss tx cv t.time).le (.fin (-g.config.maxDailyLoss))
  | .killzone => g.isInKillzone t.time
  | .cooldown => (g.cooldownLeft? tx t).any fun left => left.any (0 < ·)
  | .symbolTrades => g.config.maxTradesPerSymbol ≤ g.countDailySymbolTrades tx t.symbol t.time
  | .timeframeTrades =>
    g.config.maxTradesPerTimeframe ≤ g.countDailyTimeframeTrades tx t.timeframe t.time
  | .spacing => (g.sinceLastTrade tx t).any fun since =>
    (since : ℚ) / Datetime.microsPerMinute < g.config.minTradeSpacingMinutes

/-- The text of a violation. -/
def message (t : Trade) : Rule → String
  | .dailyTrades =>
    let count := g.countDailyTrades tx t.time
    s!"Daily trade limit reached: {count} trades already executed today"
  | .dailyLoss =>
    let loss := tx.fixed 2 (absFloat (g.calculateDailyLoss tx cv t.time))
    s!"Daily loss limit exceeded: ${loss} loss already accrued today"
  | .killzone =>
    let clock := (t.time.map tx.clock).getD ""
    s!"Trade attempted during killzone: {clock}"
  | .cooldown =>
    let left := ((g.cooldownLeft? tx t).getD none).getD 0
    let minutes := left.tdiv Datetime.microsPerMinute
    s!"Cooldown period active: {minutes} minutes remaining after last loss"
  | .symbolTrades =>
    let count := g.countDailySymbolTrades tx t.symbol t.time
    let symbol := tx.display t.symbol
    s!"Symbol trade limit reached: {count} trades on {symbol} today"
  | .timeframeTrades =>
    let count := g.countDailyTimeframeTrades tx t.timeframe t.time
    let timeframe := tx.display t.timeframe
    s!"Timeframe trade limit reached: {count} trades on {timeframe} today"
  | .spacing =>
    let since := ((g.sinceLastTrade tx t).getD 0 : ℚ) / Datetime.microsPerMinute
    let minutes := tx.fixed 1 (.fin since)
    let least := g.config.minTradeSpacingMinutes
    s!"Trade spacing violation: only {minutes}m since last trade (min {least}m)"

/-- What `evaluate_trade` answers, without its texts for people. -/
structure Evaluation where
  allowed : Bool
  violations : List String

/-- `_create_error_report`. -/
def createErrorReport (errorMessage : String) : Evaluation := ⟨false, [errorMessage]⟩

/-- The rules on a trade, once its time is known. -/
def evaluateRules (t : Trade) : Evaluation :=
  if (g.cooldownLeft? tx t).isNone then
    createErrorReport "Evaluation error: date value out of range"
  else
    let violations := (Rule.all.filter (g.breaks tx cv t)).map (g.message tx cv t)
    ⟨violations.isEmpty, violations⟩

/-- `evaluate_trade`. -/
def evaluateTrade (tradeContext : Fields) : Evaluation :=
  if tradeContext.items.isEmpty then createErrorReport "Trade context is empty. Cannot evaluate."
  else
    let symbol := tradeContext.getD "symbol" (.str "UNKNOWN")
    let timeframe := tradeContext.getD "timeframe" (.str "UNKNOWN")
    let timestamp := val tradeContext "timestamp"
    if !timestamp.truthy then
      createErrorReport "Trade timestamp is missing. Cannot evaluate timing rules."
    else
      match timestamp, tx.datetime? timestamp with
      | .str text, none =>
        let iso := text.replace "Z" "+00:00"
        createErrorReport s!"Invalid timestamp format: Invalid isoformat string: '{iso}'"
      | _, time => g.evaluateRules tx cv ⟨symbol, timeframe, time⟩

end

end Governance

end Reports
