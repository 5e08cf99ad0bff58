import Mathlib.Algebra.Order.Field.Rat

/-!
# The paper execution adapter

`BrokerSimulatorAdapter` of `reasoner_service/paper_execution_adapter.py`, and the R multiple of
`reasoner_service/outcome_recorder.py`. Prices are rationals, times are seconds, and the draws and
clock readings of a call are its arguments (`Env`). `lower` is needed on ASCII letters only: no other
character has one of the letters of the model names and of `short` as its lower case.
-/

set_option autoImplicit false

namespace Paper

/-! ## Data -/

/-- `PaperExecutionConfig`, with its defaults. -/
structure PaperExecutionConfig where
  slippageModel : String := "fixed_percent"
  slippageFixedPct : ℚ := 5 / 100
  slippageRandomMinPct : ℚ := 0
  slippageRandomMaxPct : ℚ := 1 / 10
  tpslModel : String := "random_bars"
  tpslRandomBarsMin : ℤ := 5
  tpslRandomBarsMax : ℤ := 100
  tpslRandomHoursMin : ℤ := 1
  tpslRandomHoursMax : ℤ := 24
  assumeFillOnSignal : Bool := true
  fillDelaySeconds : ℤ := 2

/-- `outcome`. -/
inductive Outcome
  | win | loss | breakeven
  deriving DecidableEq, Repr

/-- `exit_reason`, as the adapter sets it. -/
inductive ExitReason
  | tp | sl | manual
  deriving DecidableEq, Repr

structure PaperExecutionResult where
  decisionId : String
  symbol : String
  signalType : String
  timeframe : String
  direction : String
  entryPrice : ℚ
  fillPrice : ℚ
  slippageAmount : ℚ
  fillTime : ℚ
  exitPrice : ℚ
  exitTime : ℚ
  exitReason : ExitReason
  pnl : ℚ
  outcome : Outcome
  rMultiple : Option ℚ
  stopLossPrice : ℚ
  takeProfitPrice : ℚ
  model : Option String
  session : Option String
  createdAt : ℚ
  deriving DecidableEq

/-- The arguments of `execute_entry`. -/
structure Entry where
  decisionId : String
  symbol : String
  signalType : String
  timeframe : String
  entryPrice : ℚ
  slPrice : ℚ
  tpPrice : ℚ
  direction : String := "long"
  model : Option String := none
  session : Option String := none

/-- What `random.random()` may return; with the upper bound, which `random.uniform` may round to. -/
structure Draw where
  value : ℚ
  nonneg : 0 ≤ value := by decide
  le_one : value ≤ 1 := by decide

/-- What a call meets. -/
structure Env where
  /-- `round(x, 4)`. -/
  round : ℚ → ℚ := id
  slippageDraw : Draw := ⟨0, le_rfl, zero_le_one⟩
  countDraw : ℕ := 0
  exitDraw : Draw := ⟨0, le_rfl, zero_le_one⟩
  fillNow : ℚ := 0
  exitNow : ℚ := 0
  createdNow : ℚ := 0
  /-- The clock in the exception handler. -/
  failedNow : ℚ := 0

/-- `random.uniform(a, b)`. -/
def uniform (a b : ℚ) (u : Draw) : ℚ := a + (b - a) * u.value

/-- `random.randint(a, b)`, which raises on an empty range. -/
def randint (a b : ℤ) (n : ℕ) : Option ℤ := if b < a then none else some (a + n % (b - a + 1))

def isShort (direction : String) : Bool := direction.toLower = "short"

/-! ## The entry -/

section
variable (config : PaperExecutionConfig) (env : Env)

/-- `_get_slippage_pct`; an unknown model is taken for `fixed_percent`. -/
def getSlippagePct : ℚ :=
  let model := config.slippageModel.toLower
  if model = "zero" then 0
  else if model = "fixed_percent" then config.slippageFixedPct / 100
  else if model = "random_bounded" then
    uniform (config.slippageRandomMinPct / 100) (config.slippageRandomMaxPct / 100) env.slippageDraw
  else config.slippageFixedPct / 100

/-- `_simulate_entry_fill`: the fill price and the signed slippage. -/
def simulateEntryFill (entryPrice : ℚ) (direction : String) : ℚ × ℚ :=
  let slippagePct := getSlippagePct config env
  let slippageAmount :=
    if isShort direction then -entryPrice * slippagePct else entryPrice * slippagePct
  (entryPrice + slippageAmount, slippageAmount)

def getFillTime : ℚ :=
  if config.assumeFillOnSignal then env.fillNow else env.fillNow + config.fillDelaySeconds

/-! ## The exit -/

/-- The target with probability 0.7, else the stop, at the given times. -/
def pickExit (slPrice tpPrice tpTime slTime : ℚ) : ℚ × ℚ × ExitReason :=
  if env.exitDraw.value < 7 / 10 then (tpPrice, tpTime, .tp) else (slPrice, slTime, .sl)

/-- `_simulate_exit`; an unknown model is taken for `instant`. -/
def simulateExit (slPrice tpPrice : ℚ) : Option (ℚ × ℚ × ExitReason) :=
  let model := config.tpslModel.toLower
  let instant := pickExit env slPrice tpPrice (env.exitNow + 3600) (env.exitNow + 1800)
  if model = "instant" then some instant
  else if model = "random_bars" then do
    let bars ← randint config.tpslRandomBarsMin config.tpslRandomBarsMax env.countDraw
    let exitTime := env.exitNow + 3600 * bars
    return pickExit env slPrice tpPrice exitTime exitTime
  else if model = "random_hours" then do
    let hours ← randint config.tpslRandomHoursMin config.tpslRandomHoursMax env.countDraw
    let exitTime := env.exitNow + 3600 * hours
    return pickExit env slPrice tpPrice exitTime exitTime
  else some instant

end

/-! ## The outcome -/

/-- `_compute_r_multiple` of the adapter. -/
def computeRMultiple (round : ℚ → ℚ) (entryPrice exitPrice stopLossPrice : ℚ) (direction : String) :
    Option ℚ :=
  if isShort direction then
    let risk := stopLossPrice - entryPrice
    if risk = 0 then none
    else
      let reward := entryPrice - exitPrice
      some (round (reward / risk))
  else
    let risk := entryPrice - stopLossPrice
    if risk = 0 then none
    else
      let reward := exitPrice - entryPrice
      some (round (reward / risk))

/-- `_compute_r_multiple` of the outcome recorder. A `None` among the prices, or a zero risk, gives
no R multiple; no direction is a long. -/
def recorderRMultiple (round : ℚ → ℚ) (entryPrice exitPrice stopLossPrice : Option ℚ)
    (direction : Option String) : Option ℚ := do
  let entryPrice ← entryPrice
  let exitPrice ← exitPrice
  let stopLossPrice ← stopLossPrice
  if direction.any fun d => d ≠ "" && isShort d then
    let risk := stopLossPrice - entryPrice
    if risk = 0 then none
    else
      let reward := entryPrice - exitPrice
      some (round (reward / risk))
  else
    let risk := entryPrice - stopLossPrice
    if risk = 0 then none
    else
      let reward := exitPrice - entryPrice
      some (round (reward / risk))

section
variable (config : PaperExecutionConfig) (env : Env) (e : Entry)

/-- Step 3, the profit: from the entry price that was asked for. -/
def pnlOf (exitPrice : ℚ) : ℚ :=
  if isShort e.direction then e.entryPrice - exitPrice else exitPrice - e.entryPrice

def outcomeOf (pnl : ℚ) : Outcome :=
  if pnl > 0 then .win else if pnl < 0 then .loss else .breakeven

/-- The `try` block of `execute_entry`; `none` when it raises. -/
def tryExecute : Option PaperExecutionResult := do
  let (fillPrice, slippageAmount) := simulateEntryFill config env e.entryPrice e.direction
  let fillTime := getFillTime config env
  let (exitPrice, exitTime, exitReason) ← simulateExit config env e.slPrice e.tpPrice
  let pnl := pnlOf e exitPrice
  return {
    decisionId := e.decisionId
    symbol := e.symbol
    signalType := e.signalType
    timeframe := e.timeframe
    direction := e.direction
    entryPrice := e.entryPrice
    fillPrice, slippageAmount, fillTime, exitPrice, exitTime, exitReason, pnl
    outcome := outcomeOf pnl
    rMultiple := computeRMultiple env.round fillPrice exitPrice e.slPrice e.direction
    stopLossPrice := e.slPrice
    takeProfitPrice := e.tpPrice
    model := e.model
    session := e.session
    createdAt := env.createdNow }

/-- What the handler returns: the worst case. -/
def failOpen : PaperExecutionResult where
  decisionId := e.decisionId
  symbol := e.symbol
  signalType := e.signalType
  timeframe := e.timeframe
  direction := e.direction
  entryPrice := e.entryPrice
  fillPrice := e.entryPrice
  slippageAmount := 0
  fillTime := env.failedNow
  exitPrice := e.slPrice
  exitTime := env.failedNow + 3600
  exitReason := .manual
  pnl := -|e.entryPrice - e.slPrice|
  outcome := .loss
  rMultiple := some (-1)
  stopLossPrice := e.slPrice
  takeProfitPrice := e.tpPrice
  model := e.model
  session := e.session
  createdAt := env.createdNow

/-- `execute_entry`. -/
def executeEntry : PaperExecutionResult := (tryExecute config env e).getD (failOpen env e)

end

end Paper
