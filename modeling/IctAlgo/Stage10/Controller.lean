import IctAlgo.Execution.Engine

/-!
# The Stage 10 controller

`Stage10Controller` of `reasoner_service/stage10_controller.py`: the guardrails before the execution
engine and the daily counters after it. A program is a `ControllerM`; the engine it calls is the
one of `Execution.Engine`, with the same clock. The audit entry of the current call is `audit`;
`submitTrade` appends it to `auditLogs` on each of its ways out.
-/

set_option autoImplicit false

namespace Stage10

open Lib Execution

/-! ## Data -/

/-- `GuardrailStatus`. -/
inductive GuardrailStatus
  | pass | fail
  deriving DecidableEq, Repr

/-- `TradeAction`. -/
inductive TradeAction
  | forwarded | aborted | paperExecution
  deriving DecidableEq, Repr

/-- `severity` of a check. -/
inductive Severity
  | info | warning | error
  deriving DecidableEq, Repr

/-- The `reason` of a check, with the values its text shows. -/
inductive Reason
  | brokerDisconnected
  | brokerConnected
  | healthCheckFailed (text : String)
  | globalKillSwitch (active : Bool)
  | symbolKillSwitch (active : Bool) (symbol : String)
  | dailyMaxTrades (reached : Bool) (executed : ℕ) (limit : ℚ)
  | symbolMaxTrades (reached : Bool) (symbol : String) (executed : ℕ) (limit : ℚ)
  | dailyMaxLoss (exceeded : Bool) (current potential : PyFloat) (limit : ℚ)
  | mode (paper : Bool)
  deriving DecidableEq

structure GuardrailCheckResult where
  name : String
  status : GuardrailStatus
  reason : Reason
  severity : Severity := .info
  deriving DecidableEq

/-- `Stage8TradeIntent`, as the controller reads it: `accountRiskUsd`, `htfBias` and `ltfStructure`
are entries of its dictionaries, which may be missing. -/
structure TradeIntent where
  intentId : String
  symbol : String
  direction : String
  proposedEntry : ℚ
  proposedSl : ℚ
  proposedTp : ℚ
  accountRiskUsd : Option ℚ := none
  htfBias : Option String := none
  ltfStructure : Option String := none
  deriving DecidableEq

/-- `risk.get("account_risk_usd", 1.0)`. -/
def TradeIntent.size (intent : TradeIntent) : ℚ := intent.accountRiskUsd.getD 1

structure DailyCounters where
  tradesExecuted : ℕ := 0
  totalLossUsd : PyFloat := .fin 0
  perSymbolTrades : Dict String ℕ := .empty
  lastReset : ℚ

/-- `Stage10AuditLog`. -/
structure AuditLog where
  timestamp : ℚ
  intentId : String
  symbol : String
  direction : String
  guardrailChecks : List GuardrailCheckResult := []
  finalAction : TradeAction := .aborted
  executionResult : Option ExecutionResult := none
  errorMessage : Option ErrorMessage := none
  deriving DecidableEq

/-- The configuration the guardrails read, with its defaults. -/
structure Config where
  dailyMaxTrades : ℚ := 10
  dailyMaxLossUsd : ℚ := 100
  perSymbolMaxTrades : ℚ := 3
  paperMode : Bool := false

structure Controller where
  config : Config
  engine : Engine
  dailyCounters : DailyCounters
  auditLogs : List AuditLog := []
  audit : AuditLog

abbrev ControllerM := EStateM String Controller

/-- What `is_connected` of the broker adapter does in a call: `none` when it has no such method. -/
abbrev Health := Option (Except String Bool)

namespace Controller

/-- The engine's programs, the clock included. -/
def withEngine {α : Type} (m : EngineM α) : ControllerM α :=
  Exn.zoom Controller.engine (fun c e => { c with engine := e }) m

/-- A new controller; its counters start at the clock reading. -/
def new (config : Config) (engine : Engine) : Controller where
  config := config
  engine := { engine with world := engine.world.tick }
  dailyCounters := { lastReset := engine.world.nextTime }
  audit := { timestamp := engine.world.nextTime, intentId := "", symbol := "", direction := "" }

def setAudit (f : AuditLog → AuditLog) : ControllerM Unit :=
  modify fun c => { c with audit := f c.audit }

def appendAudit : ControllerM Unit :=
  modify fun c => { c with auditLogs := c.auditLogs ++ [c.audit] }

/-! ## Daily counters -/

/-- `reset`, at the time `t`. -/
def reset (counters : DailyCounters) (t : ℚ) : DailyCounters :=
  { tradesExecuted := 0, totalLossUsd := .fin 0, perSymbolTrades := counters.perSymbolTrades.clear
    lastReset := t }

/-- `is_stale`, at the time `t`. -/
def isStale (counters : DailyCounters) (t : ℚ) : Bool := t - counters.lastReset > 24 * 3600

/-- Step 1: reset stale counters. -/
def dailyReset : ControllerM Unit := do
  let t ← withEngine Engine.now
  if isStale (← get).dailyCounters t then
    let t ← withEngine Engine.now
    modify fun c => { c with dailyCounters := reset c.dailyCounters t }

/-! ## Guardrail checks -/

/-- `abs(price - sl) * size`. -/
def lossAt (price : ℚ) (sl : PyFloat) (size : ℚ) : PyFloat :=
  Binary64.mul (Binary64.abs (Binary64.sub (.fin price) sl)) (.fin size)

section
variable (c : Controller) (intent : TradeIntent)

def checkBrokerHealth (health : Health) : GuardrailCheckResult :=
  match health with
  | some (.error err) => ⟨"broker_health", .fail, .healthCheckFailed err, .error⟩
  | some (.ok false) => ⟨"broker_health", .fail, .brokerDisconnected, .error⟩
  | _ => ⟨"broker_health", .pass, .brokerConnected, .info⟩

def checkGlobalKillSwitch : GuardrailCheckResult :=
  if c.engine.killSwitchManager.isActive then
    ⟨"global_kill_switch", .fail, .globalKillSwitch true, .error⟩
  else ⟨"global_kill_switch", .pass, .globalKillSwitch false, .info⟩

def checkSymbolKillSwitch : GuardrailCheckResult :=
  if c.engine.killSwitchManager.isActive (some intent.symbol) then
    ⟨"symbol_kill_switch", .fail, .symbolKillSwitch true intent.symbol, .error⟩
  else ⟨"symbol_kill_switch", .pass, .symbolKillSwitch false intent.symbol, .info⟩

def checkDailyMaxTrades : GuardrailCheckResult :=
  let n := c.dailyCounters.tradesExecuted
  if (n : ℚ) ≥ c.config.dailyMaxTrades then
    ⟨"daily_max_trades", .fail, .dailyMaxTrades true n c.config.dailyMaxTrades, .warning⟩
  else ⟨"daily_max_trades", .pass, .dailyMaxTrades false n c.config.dailyMaxTrades, .info⟩

def checkPerSymbolMaxTrades : GuardrailCheckResult :=
  let n := c.dailyCounters.perSymbolTrades.getD intent.symbol 0
  let limit := c.config.perSymbolMaxTrades
  if (n : ℚ) ≥ limit then
    ⟨"per_symbol_max_trades", .fail, .symbolMaxTrades true intent.symbol n limit, .warning⟩
  else ⟨"per_symbol_max_trades", .pass, .symbolMaxTrades false intent.symbol n limit, .info⟩

/-- The loss at the stop, as the check estimates it. -/
def potentialLoss : PyFloat :=
  lossAt intent.proposedEntry (.fin intent.proposedSl) intent.size

def checkDailyMaxLoss : GuardrailCheckResult :=
  let current := c.dailyCounters.totalLossUsd
  let limit := c.config.dailyMaxLossUsd
  if PyFloat.lt (.fin limit) (Binary64.add current (potentialLoss intent)) then
    ⟨"daily_max_loss", .fail, .dailyMaxLoss true current (potentialLoss intent) limit, .warning⟩
  else ⟨"daily_max_loss", .pass, .dailyMaxLoss false current (potentialLoss intent) limit, .info⟩

def checkPaperLiveMode : GuardrailCheckResult :=
  ⟨"paper_live_mode", .pass, .mode c.config.paperMode, .info⟩

/-- `_run_guardrail_checks`. -/
def runGuardrailChecks (health : Health) : List GuardrailCheckResult :=
  [checkBrokerHealth health, c.checkGlobalKillSwitch, c.checkSymbolKillSwitch intent,
    c.checkDailyMaxTrades, c.checkPerSymbolMaxTrades intent, c.checkDailyMaxLoss intent,
    c.checkPaperLiveMode]

/-- The checks that failed. -/
def failedChecks (health : Health) : List GuardrailCheckResult :=
  (c.runGuardrailChecks intent health).filter (·.status = .fail)

end

/-! ## `submit_trade` -/

/-- `(price - entry) / entry`. -/
def offsetOf (price entry : ℚ) : PyFloat :=
  Binary64.div (Binary64.sub (.fin price) (.fin entry)) entry

/-- The snapshot of an intent, valid until `expiration`. -/
def snapshotOf (intent : TradeIntent) (expiration : ℚ) : FrozenSnapshot where
  advisoryId := intent.intentId
  htfBias := intent.htfBias.getD "NEUTRAL"
  reasoningMode := intent.ltfStructure.getD "UNKNOWN"
  referencePrice := intent.proposedEntry
  slOffsetPct := offsetOf intent.proposedSl intent.proposedEntry
  tpOffsetPct := offsetOf intent.proposedTp intent.proposedEntry
  positionSize := intent.size
  symbol := intent.symbol
  expirationTimestamp := expiration

/-- `_create_frozen_snapshot`: valid for five minutes; a zero entry raises. -/
def createFrozenSnapshot (intent : TradeIntent) : ControllerM FrozenSnapshot :=
  if intent.proposedEntry = 0 then throw "float division by zero"
  else do
    let t ← withEngine Engine.now
    pure (snapshotOf intent (t + 300))

/-- The statuses that count as executed. -/
def isExecuted (status : ExecutionStage) : Bool := status = .filled ∨ status = .executedFullLate

/-- Step 5, the loss: the distance to the stop times the size, when both prices are truthy. A fill
without a size raises the `TypeError` of `float * None`. -/
def trackLoss (r : ExecutionResult) : ControllerM Unit :=
  match r.finalFillPrice, r.finalSl with
  | some p, some sl =>
    if p = 0 ∨ sl = .fin 0 then pure ()
    else match r.finalPositionSize with
      | none => throw "unsupported operand type(s) for *: 'float' and 'NoneType'"
      | some size => modify fun c => { c with dailyCounters := { c.dailyCounters with
          totalLossUsd := Binary64.add c.dailyCounters.totalLossUsd (lossAt p sl size) } }
  | _, _ => pure ()

/-- Step 5, for an executed trade. -/
def countTrade (symbol : String) (r : ExecutionResult) : ControllerM Unit := do
  modify fun c => { c with dailyCounters := { c.dailyCounters with
    tradesExecuted := c.dailyCounters.tradesExecuted + 1
    perSymbolTrades := c.dailyCounters.perSymbolTrades.set symbol
      (c.dailyCounters.perSymbolTrades.getD symbol 0 + 1) } }
  trackLoss r

/-- Steps 3 to 5: forward the trade to the engine and count it. -/
def forward (intent : TradeIntent) (polls : ℕ := Engine.pollLimit) :
    ControllerM ExecutionResult := do
  let snapshot ← createFrozenSnapshot intent
  let r ← withEngine (Engine.execute snapshot polls)
  setAudit fun a => { a with executionResult := some r }
  if isExecuted r.status then countTrade intent.symbol r
  setAudit fun a => { a with finalAction := .forwarded }
  appendAudit
  pure r

/-- A trade the guardrails reject. -/
def reject (intent : TradeIntent) (failed : List GuardrailCheckResult) :
    ControllerM ExecutionResult := do
  let reason := ErrorMessage.guardrails (failed.map (·.name))
  setAudit fun a => { a with finalAction := .aborted, errorMessage := some reason }
  appendAudit
  pure { advisoryId := intent.intentId, status := .rejected, errorMessage := some reason }

/-- The `try` block of `submit_trade`. -/
def submitBody (intent : TradeIntent) (health : Health) (polls : ℕ := Engine.pollLimit) :
    ControllerM ExecutionResult := do
  dailyReset
  let c ← get
  setAudit fun a => { a with guardrailChecks := c.runGuardrailChecks intent health }
  if c.failedChecks intent health = [] then forward intent polls
  else reject intent (c.failedChecks intent health)

/-- `submit_trade`: any exception makes the result `FAILED`. -/
def submitTrade (intent : TradeIntent) (health : Health) (polls : ℕ := Engine.pollLimit) :
    ControllerM ExecutionResult := do
  let t ← withEngine Engine.now
  setAudit fun _ => {
    timestamp := t, intentId := intent.intentId
    symbol := intent.symbol, direction := intent.direction }
  tryCatch (submitBody intent health polls) fun err => do
    setAudit fun a => { a with finalAction := .aborted, errorMessage := some (.raised err) }
    appendAudit
    pure { advisoryId := intent.intentId, status := .failed, errorMessage := some (.raised err) }

/-- The arguments of a `submit_trade` call, with what the health check finds in it and the polls of
its order that are followed. -/
structure Call where
  intent : TradeIntent
  health : Health := none
  polls : ℕ := Engine.pollLimit

/-- The controller after a call. -/
def step (c : Controller) (call : Call) : Controller :=
  Exn.exec (submitTrade call.intent call.health call.polls) c

end Controller

end Stage10
