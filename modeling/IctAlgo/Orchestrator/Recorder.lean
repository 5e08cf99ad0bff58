import IctAlgo.Analytics.Stats
import IctAlgo.Lib.Decimal
import IctAlgo.Lib.Runs
import IctAlgo.Orchestrator.Policy
import IctAlgo.Paper.Adapter

/-!
# Recording outcomes

`DecisionOutcomeRecorder` of `reasoner_service/outcome_recorder.py` over `insert_decision_outcome` of
`reasoner_service/storage.py`. A row has the columns that the policies and the statistics read, and
the others of the table. Prices are exact; the id of a row is its place in the table.
-/

set_option autoImplicit false

namespace Recorder

open Lib Lib.Decimal Orchestrator

/-! ## Calls -/

/-- The arguments of `record_trade_outcome`. -/
structure Trade where
  decisionId : String
  symbol : String
  timeframe : String
  signalType : String
  entryPrice : ℚ
  exitPrice : ℚ
  pnl : ℚ
  exitReason : String := "manual"
  closedAt : Option ℤ := none
  model : Option String := none
  sessionId : Option String := none
  direction : Option String := none
  stopLossPrice : Option ℚ := none
  rMultiple : Option ℚ := none

/-- A row of `decision_outcomes`. -/
structure Row extends DecisionOutcome where
  decisionId : String
  timeframe : String
  entryPrice : ℚ
  exitPrice : ℚ
  exitReason : String

/-- What the statistics read of a row. -/
def Row.stats (r : Row) : OutcomeStats.DecisionOutcome where
  symbol := r.symbol
  timeframe := r.timeframe
  signalType := r.signalType
  outcome := r.outcome
  pnl := r.pnl
  closedAt := r.closedAt

def validOutcomes : List String := ["win", "loss", "breakeven"]

def validExitReasons : List String := ["tp", "sl", "manual", "timeout"]

/-- The texts of the errors of `insert_decision_outcome`. -/
def invalidOutcome (outcome : String) : String :=
  s!"Invalid outcome '{outcome}'; must be 'win', 'loss', or 'breakeven'"

def invalidExitReason (reason : String) : String :=
  s!"Invalid exit_reason '{reason}'; must be 'tp', 'sl', 'manual', or 'timeout'"

/-- The text of the check of `record_trade_outcome`. -/
def rejectedExitReason (reason : String) : String :=
  s!"Invalid exit_reason '{reason}'; must be one of ('tp', 'sl', 'manual', 'timeout')"

namespace Trade

variable (t : Trade)

/-- The outcome from the profit. -/
def outcome : String := if 0 < t.pnl then "win" else if t.pnl < 0 then "loss" else "breakeven"

/-- The multiple that is given, or computed from a stop. -/
def multiple : Option ℚ :=
  match t.rMultiple, t.stopLossPrice with
  | some r, _ => some r
  | none, some stop =>
    Paper.recorderRMultiple (roundTo 4) (some t.entryPrice) (some t.exitPrice) (some stop) t.direction
  | none, none => none

/-- The row of a trade, in place `id` of the table. -/
def row (now : ℤ) (id : ℕ) : Row where
  id := id
  symbol := t.symbol
  signalType := t.signalType
  model := t.model
  session := t.sessionId
  direction := t.direction
  pnl := t.pnl
  rMultiple := t.multiple
  outcome := t.outcome
  closedAt := t.closedAt.getD now
  decisionId := t.decisionId
  timeframe := t.timeframe
  entryPrice := t.entryPrice
  exitPrice := t.exitPrice
  exitReason := t.exitReason

end Trade

/-! ## Storing -/

/-- What `insert_decision_outcome` raises. -/
inductive InsertError
  | value (message : String)
  | database

/-- `insert_decision_outcome`: the id, and the table after it. -/
def insertDecisionOutcome (databaseOk : Bool) (row : Row) (table : List Row) :
    Except InsertError ℕ × List Row :=
  if row.outcome ∉ validOutcomes then (.error (.value (invalidOutcome row.outcome)), table)
  else if row.exitReason ∉ validExitReasons then
    (.error (.value (invalidExitReason row.exitReason)), table)
  else if databaseOk then (.ok row.id, table ++ [row])
  else (.error .database, table)

/-- A call: its arguments, `datetime.now`, and whether the database takes the row. -/
structure Call where
  trade : Trade
  now : ℤ
  databaseOk : Bool

/-- `record_trade_outcome`: `error` for a `ValueError`, `none` for an error of the database. -/
def recordTradeOutcome (c : Call) (table : List Row) : Except String (Option ℕ) × List Row :=
  if c.trade.exitReason ∉ validExitReasons then
    (.error (rejectedExitReason c.trade.exitReason), table)
  else
    let inserted := insertDecisionOutcome c.databaseOk (c.trade.row c.now table.length) table
    match inserted.1 with
    | .ok id => (.ok (some id), inserted.2)
    | .error (.value message) => (.error message, inserted.2)
    | .error .database => (.ok none, inserted.2)

/-- The table, and what the calls have returned. -/
structure Book where
  table : List Row := []
  returned : List (Except String (Option ℕ)) := []

def step (b : Book) (c : Call) : Book :=
  let r := recordTradeOutcome c b.table
  ⟨r.2, b.returned ++ [r.1]⟩

/-- The book after some calls. -/
def book (calls : List Call) : Book := Runs.run step {} calls

/-- The rows the policies see. -/
def outcomes (b : Book) : List DecisionOutcome := b.table.map (·.toDecisionOutcome)

end Recorder
