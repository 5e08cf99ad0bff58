import Mathlib.Algebra.Order.Ring.Rat
import IctAlgo.Lib.Calendar
import IctAlgo.Lib.Dict
import IctAlgo.Lib.FloatSum

/-!
# Outcome statistics

`OutcomeStatsService` of `reasoner_service/outcome_stats.py`, over the rows of the table of outcomes.
The numbers are exact (`ℚ`) or those of the code, which are rounded (`PyFloat`). Rows that closed at the
same time come in the order of the table.
-/

set_option autoImplicit false

namespace OutcomeStats

open Lib

/-- The arithmetic of the statistics. -/
class Numeric (α : Type) where
  ofRat : ℚ → α
  divNat : α → ℕ → α

instance : Numeric ℚ where
  ofRat := id
  divNat x n := x / n

instance : Zero PyFloat := ⟨.fin 0⟩

instance : Add PyFloat := ⟨Binary64.add⟩

instance : Numeric PyFloat where
  ofRat := Binary64.nearest
  divNat x n := Binary64.div x n

/-- The columns of `DecisionOutcome` that are read. -/
structure DecisionOutcome where
  symbol : String
  timeframe : String
  signalType : String
  outcome : String
  pnl : ℚ
  closedAt : ℤ
  deriving DecidableEq

/-! ## `_get_filtered_outcomes` -/

structure Window where
  lastNTrades : Option ℕ := none
  lastNDays : Option ℤ := none

/-- The arguments of `_get_filtered_outcomes`. -/
structure Filters extends Window where
  symbol : Option String := none
  timeframe : Option String := none
  signalType : Option String := none

/-- A filter that is empty takes every text. -/
def accepts (filter : Option String) (column : String) : Bool :=
  filter.all fun text => text = "" || column = text

/-- The conditions of the query. -/
def Filters.selects (f : Filters) (now : ℤ) (o : DecisionOutcome) : Bool :=
  accepts f.symbol o.symbol && accepts f.timeframe o.timeframe && accepts f.signalType o.signalType &&
    f.lastNDays.all fun days => days = 0 || now - days * Datetime.microsPerDay ≤ o.closedAt

/-- The order of the query. -/
def latestFirst (a b : DecisionOutcome) : Bool := b.closedAt ≤ a.closedAt

section
variable (rows : List DecisionOutcome) (now : ℤ)

/-- `_get_filtered_outcomes`. -/
def getFilteredOutcomes (f : Filters) : List DecisionOutcome :=
  let outcomes := (rows.filter (f.selects now)).mergeSort latestFirst
  match f.lastNTrades with
  | none | some 0 => outcomes
  | some n => outcomes.take n

/-! ## Win rate and average -/

/-- The sum of a loop over the outcomes. -/
def totalPnl {α : Type} [Zero α] [Add α] [Numeric α] (outcomes : List DecisionOutcome) : α :=
  outcomes.foldl (fun total o => total + Numeric.ofRat o.pnl) 0

def DecisionOutcome.isWin (o : DecisionOutcome) : Bool := o.outcome = "win"

def DecisionOutcome.isLoss (o : DecisionOutcome) : Bool := o.outcome = "loss"

/-- `get_win_rate`. -/
def getWinRate {α : Type} [Numeric α] (f : Filters) : Option α :=
  match getFilteredOutcomes rows now f with
  | [] => none
  | outcomes => some (Numeric.ofRat (outcomes.countP (·.isWin) / outcomes.length))

/-- `get_avg_pnl`. -/
def getAvgPnl {α : Type} [Zero α] [Add α] [Numeric α] (f : Filters) : Option α :=
  match getFilteredOutcomes rows now f with
  | [] => none
  | outcomes => some (Numeric.divNat (totalPnl outcomes) outcomes.length)

/-! ## Streaks -/

/-- The variables of the first loop of `get_loss_streak`. -/
structure StreakLoop where
  currentStreak : ℕ := 0
  maxStreak : ℕ := 0

/-- The body of the loop. -/
def StreakLoop.add (l : StreakLoop) (o : DecisionOutcome) : StreakLoop :=
  if o.isLoss then ⟨l.currentStreak + 1, max l.maxStreak (l.currentStreak + 1)⟩
  else { l with currentStreak := 0 }

/-- The second loop, which ends at the first outcome that is no loss. -/
def currentStreak : List DecisionOutcome → ℕ
  | [] => 0
  | o :: os => if o.isLoss then currentStreak os + 1 else 0

structure Streaks where
  current : ℕ
  max : ℕ
  deriving DecidableEq

/-- `get_loss_streak`. -/
def getLossStreak (symbol timeframe signalType : Option String) : Option Streaks :=
  match getFilteredOutcomes rows now { symbol, timeframe, signalType } with
  | [] => none
  | outcomes =>
    let outcomes := outcomes.reverse
    let maxStreak := (outcomes.foldl StreakLoop.add {}).maxStreak
    let outcomes := outcomes.reverse
    some ⟨currentStreak outcomes, maxStreak⟩

/-! ## Aggregations -/

variable {α : Type} [Zero α] [Add α] [Numeric α]

/-- The entry of a group. -/
@[ext] structure GroupStats (α : Type) [Zero α] where
  count : ℕ := 0
  wins : ℕ := 0
  losses : ℕ := 0
  breakevens : ℕ := 0
  totalPnl : α := 0

/-- The body of the loop over the outcomes. -/
def GroupStats.add (g : GroupStats α) (o : DecisionOutcome) : GroupStats α :=
  let g := { g with count := g.count + 1, totalPnl := g.totalPnl + Numeric.ofRat o.pnl }
  if o.isWin then { g with wins := g.wins + 1 }
  else if o.isLoss then { g with losses := g.losses + 1 }
  else { g with breakevens := g.breakevens + 1 }

/-- An entry with the rates that are computed at the end. -/
structure GroupMetrics (α : Type) [Zero α] extends GroupStats α where
  winRate : α
  avgPnl : α

def GroupStats.metrics (g : GroupStats α) : GroupMetrics α :=
  { g with
    winRate := if 0 < g.count then Numeric.ofRat (g.wins / g.count) else 0
    avgPnl := if 0 < g.count then Numeric.divNat g.totalPnl g.count else 0 }

/-- The three aggregations: they differ in the key of a group and in the filters they have. -/
def aggregateBy (key : DecisionOutcome → String) (f : Filters) :
    Option (Dict String (GroupMetrics α)) :=
  match getFilteredOutcomes rows now f with
  | [] => none
  | outcomes => some ((Dict.groupBy key GroupStats.add {} outcomes).mapVals GroupStats.metrics)

/-- `aggregate_by_signal_type`. -/
def aggregateBySignalType (symbol timeframe : Option String) (w : Window) :
    Option (Dict String (GroupMetrics α)) :=
  aggregateBy rows now (·.signalType) { w with symbol, timeframe }

/-- `aggregate_by_symbol`. -/
def aggregateBySymbol (timeframe signalType : Option String) (w : Window) :
    Option (Dict String (GroupMetrics α)) :=
  aggregateBy rows now (·.symbol) { w with timeframe, signalType }

/-- `aggregate_by_timeframe`. -/
def aggregateByTimeframe (symbol signalType : Option String) (w : Window) :
    Option (Dict String (GroupMetrics α)) :=
  aggregateBy rows now (·.timeframe) { w with symbol, signalType }

end

end OutcomeStats
