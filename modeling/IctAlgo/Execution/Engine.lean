import IctAlgo.Execution.Broker
import IctAlgo.Execution.KillSwitch
import IctAlgo.Lib.Float64

/-!
# The execution engine

`ExecutionEngine` of `reasoner_service/execution_engine.py`, with its `TimeoutController`,
`ReconciliationService` and `ExecutionLogger`. A program of the engine is an `EngineM`: it changes
the engine, calls the broker and reads the clock of its `World`, and may raise, in which case what
it changed before stays changed. `execute` is split at the step comments of the source.

The poll loop is followed for `polls` polls: as many as a run makes, or more, give that run. On a
clock that is never set back `pollLimit` polls outlast the 30 seconds (`World.exists_firstStop`).

Prices and sizes that come in are finite numbers; what is computed from them is rounded, and may be
infinite or NaN.
-/

set_option autoImplicit false

namespace Execution

open Lib

/-! ## Data -/

/-- `ExecutionStage`. -/
inductive ExecutionStage
  | submitted | pending | partiallyFilled | filled | cancelled | failed | failedTimeout
  | executedFullLate | rejected
  deriving DecidableEq, Repr

/-- `ReconciliationStatus`. -/
inductive ReconciliationStatus
  | matched | mismatch | phantomPosition | missingPosition | missingSlTp
  deriving DecidableEq, Repr

structure FrozenSnapshot where
  advisoryId : String
  htfBias : String := "NEUTRAL"
  reasoningMode : String := "UNKNOWN"
  referencePrice : ℚ
  slOffsetPct : PyFloat
  tpOffsetPct : PyFloat
  positionSize : ℚ
  symbol : String
  expirationTimestamp : ℚ
  deriving DecidableEq

/-- An approved long on EURUSD, valid for five minutes. -/
def FrozenSnapshot.eurusdLong : FrozenSnapshot where
  advisoryId := "adv-1"
  referencePrice := Binary64.literal (11 / 10)
  slOffsetPct := Binary64.nearest (-1 / 50)
  tpOffsetPct := Binary64.nearest (3 / 100)
  positionSize := 1
  symbol := "EURUSD"
  expirationTimestamp := 300

structure ExecutionAttempt where
  advisoryId : String
  timestampSubmit : Option ℚ := none
  timestampFill : Option ℚ := none
  orderId : Option String := none
  fillPrice : Option ℚ := none
  filledSize : Option ℚ := none
  stage : ExecutionStage := .submitted
  slippagePct : Option PyFloat := none
  calculatedSl : Option PyFloat := none
  calculatedTp : Option PyFloat := none
  deriving DecidableEq

/-- A `mismatches` text, by what it reports. -/
inductive Mismatch
  | noPosition (expected : ℚ)
  | positionSize (expected broker : ℚ)
  | slTpMissing
  deriving DecidableEq

structure ReconciliationReport where
  advisoryId : String
  timestamp : ℚ
  brokerOrderId : Option String := none
  brokerOrderState : Option OrderState := none
  brokerFillPrice : Option ℚ := none
  brokerFilledSize : Option ℚ := none
  brokerPositionSize : Option ℚ := none
  brokerSl : Option ℚ := none
  brokerTp : Option ℚ := none
  internalOrderId : Option String := none
  internalFillPrice : Option ℚ := none
  internalPositionSize : Option ℚ := none
  internalSl : Option PyFloat := none
  internalTp : Option PyFloat := none
  status : ReconciliationStatus := .matched
  mismatches : List Mismatch := []
  requiresManualResolution : Bool := false
  deriving DecidableEq

/-- What `_validate_preconditions` reports, with the value its text shows. -/
inductive PreconditionError
  | expired (expiration : ℚ)
  | missingAdvisoryId
  | invalidPositionSize (size : ℚ)
  | slOffsetNotNegative (offset : PyFloat)
  | tpOffsetNotPositive (offset : PyFloat)
  deriving DecidableEq

/-- An `error_message`: a failed precondition, a kill switch ("Kill switch active for EURUSD"), the
text of an exception, or the guardrails that failed before the engine was called. -/
inductive ErrorMessage
  | precondition (e : PreconditionError)
  | killSwitchActive (symbol : String)
  | raised (text : String)
  | guardrails (failed : List String)
  deriving DecidableEq

structure ExecutionResult where
  advisoryId : String
  status : ExecutionStage := .submitted
  finalOrderId : Option String := none
  finalFillPrice : Option ℚ := none
  finalPositionSize : Option ℚ := none
  finalSl : Option PyFloat := none
  finalTp : Option PyFloat := none
  slippagePct : Option PyFloat := none
  totalDurationSeconds : Option ℚ := none
  killSwitchState : KillSwitchState := .off
  attempts : List ExecutionAttempt := []
  reconciliationReport : Option ReconciliationReport := none
  errorMessage : Option ErrorMessage := none
  deriving DecidableEq

/-- The reason of a `kill_switch_abort` entry: a failed precondition, or "Kill switch active at
submission time". -/
inductive AbortReason
  | precondition (e : PreconditionError)
  | activeAtSubmission
  deriving DecidableEq

/-- An entry of `execution_logs`. -/
inductive LogEntry
  | executionStart (timestamp : ℚ) (snapshot : FrozenSnapshot) (killSwitchState : KillSwitchState)
  | orderSubmitted (timestamp : ℚ) (advisoryId : String) (orderId : Option String)
      (symbol : String) (quantity : ℚ)
  | orderFilled (timestamp : ℚ) (advisoryId : String) (orderId : Option String)
      (fillPrice : Option ℚ) (filledSize : Option ℚ)
      (calculatedSl calculatedTp slippagePct : PyFloat)
  | timeout (timestamp : ℚ) (advisoryId : String) (elapsedSeconds : ℚ)
  | killSwitchAbort (timestamp : ℚ) (advisoryId : String) (killSwitchState : KillSwitchState)
      (reason : AbortReason)
  | executionResult (timestamp : ℚ) (result : ExecutionResult)
  deriving DecidableEq

structure TimeoutController where
  startTime : Option ℚ := none
  timeoutTriggered : Bool := false
  deriving DecidableEq

/-- The engine, its environment, and the `ExecutionResult` the current call fills in. -/
structure Engine where
  killSwitchManager : KillSwitchManager
  timeoutController : TimeoutController := {}
  reconciliations : List ReconciliationReport := []
  /-- How often `reconcile` was called, also when it raised; nothing reads it. -/
  reconcileCalls : ℕ := 0
  executionLogs : List LogEntry := []
  world : World
  result : ExecutionResult := { advisoryId := "" }

abbrev EngineM := EStateM String Engine

namespace Engine

/-- A new engine. -/
def new (broker : Broker) (clock : Clock) : Engine :=
  { killSwitchManager := .new, world := { broker := broker, clock := clock } }

/-- A broker call or a clock reading. -/
def io {α : Type} (m : WorldM α) : EngineM α := Exn.zoom Engine.world (fun e w => { e with world := w }) m

def now : EngineM ℚ := io World.now

def log (entry : ℚ → LogEntry) : EngineM Unit := do
  let t ← now
  modify fun e => { e with executionLogs := e.executionLogs ++ [entry t] }

def setResult (f : ExecutionResult → ExecutionResult) : EngineM Unit :=
  modify fun e => { e with result := f e.result }

/-- Write to the attempt of this call; there is one, as nothing is retried. -/
def setAttempt (f : ExecutionAttempt → ExecutionAttempt) : EngineM Unit :=
  setResult fun r => { r with attempts := r.attempts.map f }

/-! ## Timeout controller -/

/-- `HARD_TIMEOUT_SECONDS`. -/
def hardTimeoutSeconds : ℚ := 30

/-- `timeout_controller.start()`. -/
def startTimeout : EngineM Unit := do
  let t ← now
  modify fun e => { e with timeoutController := { e.timeoutController with startTime := some t } }

/-- `timeout_controller.is_expired()`: false, without a reading, before the start. -/
def isExpired : EngineM Bool := do
  match (← get).timeoutController.startTime with
  | none => pure false
  | some start => do
    let t ← now
    let expired := decide (hardTimeoutSeconds < t - start)
    modify fun e => { e with timeoutController := { e.timeoutController with
      timeoutTriggered := e.timeoutController.timeoutTriggered || expired } }
    pure expired

/-- `timeout_controller.elapsed_seconds()`. -/
def elapsedSeconds : EngineM ℚ := do
  match (← get).timeoutController.startTime with
  | none => pure 0
  | some start => do
    let t ← now
    pure (t - start)

/-! ## Reconciliation -/

/-- The truth value of an order id: `None` and the empty string are falsy. -/
def hasOrderId (orderId : Option String) : Bool := orderId ≠ none && orderId ≠ some ""

/-- The order status and the first position copied into a report. -/
def fillReport (report : ReconciliationReport) (orderId : Option String)
    (status : Option OrderStatus) (positions : List Position)
    (expectedSize : Option ℚ) (expectedSl expectedTp : Option PyFloat) : ReconciliationReport :=
  let report := match status with
    | none => report
    | some st => { report with
        brokerOrderId := orderId, brokerOrderState := some st.state
        brokerFillPrice := st.fillPrice, brokerFilledSize := st.filledSize
        internalOrderId := orderId, internalFillPrice := st.fillPrice }
  match positions with
  | [] => report
  | pos :: _ => { report with
      brokerPositionSize := pos.size, brokerSl := pos.sl, brokerTp := pos.tp
      internalPositionSize := expectedSize, internalSl := expectedSl, internalTp := expectedTp }

/-- `abs(size - expected) > 0.001`. -/
def sizesDiffer (size expected : ℚ) : Bool :=
  (Binary64.nearest (1 / 1000)).lt (Binary64.abs (Binary64.sub (.fin size) (.fin expected)))

/-- The position size against the expected one. -/
def checkSize (report : ReconciliationReport) (expectedSize : Option ℚ) : ReconciliationReport :=
  match expectedSize, report.brokerPositionSize with
  | none, _ => report
  | some expected, none => { report with
      status := .missingPosition, requiresManualResolution := true
      mismatches := report.mismatches ++ [.noPosition expected] }
  | some expected, some size =>
    if sizesDiffer size expected then { report with
      status := .mismatch, requiresManualResolution := true
      mismatches := report.mismatches ++ [.positionSize expected size] }
    else report

/-- The stop of the broker's position; the target is not looked at. -/
def checkSlTp (report : ReconciliationReport) (expectedSl : Option PyFloat) :
    ReconciliationReport :=
  if expectedSl ≠ none ∧ report.brokerSl = none then { report with
    status := .missingSlTp, requiresManualResolution := true
    mismatches := report.mismatches ++ [.slTpMissing] }
  else report

/-- The order status `reconcile` asks for, if there is an order id. -/
def queryStatus (orderId : Option String) : EngineM (Option OrderStatus) := do
  if hasOrderId orderId then
    let st ← io (World.getOrderStatus orderId)
    pure (some st)
  else pure none

/-- `reconciliation_service.reconcile`. -/
def reconcile (advisoryId : String) (orderId : Option String)
    (expectedSize : Option ℚ := none) (expectedSl expectedTp : Option PyFloat := none) :
    EngineM ReconciliationReport := do
  modify fun e => { e with reconcileCalls := e.reconcileCalls + 1 }
  let t ← now
  let status ← queryStatus orderId
  let positions ← io World.getPositions
  let report := fillReport { advisoryId := advisoryId, timestamp := t } orderId status positions
    expectedSize expectedSl expectedTp
  let report := checkSlTp (checkSize report expectedSize) expectedSl
  modify fun e => { e with reconciliations := e.reconciliations ++ [report] }
  pure report

/-! ## Helpers of `execute` -/

/-- `_validate_preconditions`, at the time `now`. -/
def preconditionError (now : ℚ) (s : FrozenSnapshot) : Option PreconditionError :=
  if s.expirationTimestamp < now then some (.expired s.expirationTimestamp)
  else if s.advisoryId = "" then some .missingAdvisoryId
  else if s.positionSize ≤ 0 then some (.invalidPositionSize s.positionSize)
  else if PyFloat.le (.fin 0) s.slOffsetPct then some (.slOffsetNotNegative s.slOffsetPct)
  else if s.tpOffsetPct.le (.fin 0) then some (.tpOffsetNotPositive s.tpOffsetPct)
  else none

def validatePreconditions (s : FrozenSnapshot) : EngineM (Option PreconditionError) := do
  let t ← now
  pure (preconditionError t s)

/-- The dict `_wait_for_fill` returns. -/
structure FillInfo where
  fillPrice : Option ℚ
  filledSize : Option ℚ
  deriving DecidableEq

/-- `poll_interval_ms / 1000`. -/
def pollInterval : ℚ := 1 / 10

/-- More polls than fit into the timeout. -/
def pollLimit : ℕ := 302

/-- `_wait_for_fill`: poll until a fill or the timeout. -/
def waitForFill (orderId : Option String) : ℕ → EngineM (Option FillInfo)
  | 0 => pure none
  | fuel + 1 => do
    if ← isExpired then pure none
    else
      let st ← io (World.getOrderStatus orderId)
      if st.state = .filled then pure (some ⟨st.fillPrice, st.filledSize⟩)
      else
        io (World.sleep pollInterval)
        waitForFill orderId fuel

/-- `price * (1 + offset)`. -/
def atOffset (price : ℚ) (offset : PyFloat) : PyFloat :=
  Binary64.mul (.fin price) (Binary64.add (.fin 1) offset)

/-- `_calculate_sl` and `_calculate_tp`: the price at an offset from the fill. A fill without a
price raises the `TypeError` of `None * float`. -/
def priceAtOffset (fillPrice : Option ℚ) (offsetPct : PyFloat) : EngineM PyFloat :=
  match fillPrice with
  | none => throw "unsupported operand type(s) for *: 'NoneType' and 'float'"
  | some p => pure (atOffset p offsetPct)

def calculateSl (fillPrice : Option ℚ) (slOffsetPct : PyFloat) : EngineM PyFloat :=
  priceAtOffset fillPrice slOffsetPct

def calculateTp (fillPrice : Option ℚ) (tpOffsetPct : PyFloat) : EngineM PyFloat :=
  priceAtOffset fillPrice tpOffsetPct

/-- The slippage of a fill, in percent of the reference price. -/
def slippage (fillPrice : Option ℚ) (referencePrice : ℚ) : EngineM PyFloat :=
  match fillPrice with
  | none => throw "unsupported operand type(s) for -: 'NoneType' and 'float'"
  | some p =>
    if referencePrice = 0 then throw "float division by zero"
    else
      let difference := Binary64.sub (.fin p) (.fin referencePrice)
      pure (Binary64.mul (Binary64.div difference referencePrice) (.fin 100))

/-! ## `execute` -/

/-- Steps 1 to 3: the start entry, the preconditions and the kill switch. `true` when the call is
rejected. -/
def precheck (s : FrozenSnapshot) : EngineM Bool := do
  let killSwitchState := (← get).killSwitchManager.getState
  log (.executionStart · s killSwitchState)
  match ← validatePreconditions s with
  | some err => do
    setResult fun r => { r with status := .rejected, errorMessage := some (.precondition err) }
    log (.killSwitchAbort · s.advisoryId killSwitchState (.precondition err))
    pure true
  | none => do
    let m := (← get).killSwitchManager
    if m.isActive (some s.symbol) then do
      setResult fun r => { r with
        status := .rejected, errorMessage := some (.killSwitchActive s.symbol) }
      log (.killSwitchAbort · s.advisoryId (m.getState (some s.symbol)) .activeAtSubmission)
      pure true
    else pure false

/-- Step 4: submit the order. -/
def submit (s : FrozenSnapshot) : EngineM (Option String) := do
  startTimeout
  let orderId ← io (World.submitOrder s.symbol s.positionSize)
  let t ← now
  setResult fun r => { r with
    attempts := r.attempts ++
      [{ advisoryId := s.advisoryId, timestampSubmit := some t, orderId := orderId }]
    finalOrderId := orderId }
  log (.orderSubmitted · s.advisoryId orderId s.symbol s.positionSize)
  pure orderId

/-- Step 5, no fill: cancel (a failed cancel is only logged) and reconcile. -/
def onTimeout (s : FrozenSnapshot) (orderId : Option String) : EngineM Unit := do
  setResult fun r => { r with status := .failedTimeout }
  setAttempt fun a => { a with stage := .failedTimeout }
  let elapsed ← elapsedSeconds
  log (.timeout · s.advisoryId elapsed)
  tryCatch (do let _ ← io (World.cancelOrder orderId); pure ()) fun _ => pure ()
  let recon ← reconcile s.advisoryId orderId
  setResult fun r => { r with reconciliationReport := some recon }

/-- Step 5, a fill: stop and target from the fill price, then reconcile. -/
def onFill (s : FrozenSnapshot) (orderId : Option String) (fill : FillInfo) : EngineM Unit := do
  let calculatedSl ← calculateSl fill.fillPrice s.slOffsetPct
  let calculatedTp ← calculateTp fill.fillPrice s.tpOffsetPct
  let slippagePct ← slippage fill.fillPrice s.referencePrice
  let t ← now
  setAttempt fun a => { a with
    timestampFill := some t, fillPrice := fill.fillPrice, filledSize := fill.filledSize
    calculatedSl := some calculatedSl, calculatedTp := some calculatedTp
    slippagePct := some slippagePct }
  let stage := if ← isExpired then ExecutionStage.executedFullLate else .filled
  setResult fun r => { r with
    status := stage
    finalFillPrice := fill.fillPrice, finalPositionSize := fill.filledSize
    finalSl := some calculatedSl, finalTp := some calculatedTp, slippagePct := some slippagePct }
  setAttempt fun a => { a with stage := stage }
  log (.orderFilled · s.advisoryId orderId fill.fillPrice fill.filledSize calculatedSl calculatedTp
    slippagePct)
  let recon ← reconcile s.advisoryId orderId fill.filledSize (some calculatedSl) (some calculatedTp)
  setResult fun r => { r with reconciliationReport := some recon }

/-- Steps 5 to 7, for a submitted order. -/
def settleOrder (s : FrozenSnapshot) (orderId : Option String) (polls : ℕ := pollLimit) :
    EngineM Unit := do
  let fillInfo ← waitForFill orderId polls
  let expired ← isExpired
  match fillInfo with
  | none => if expired then onTimeout s orderId else pure ()
  | some fill => onFill s orderId fill
  let m := (← get).killSwitchManager
  setResult fun r => { r with killSwitchState := m.getState (some s.symbol) }
  let elapsed ← elapsedSeconds
  setResult fun r => { r with totalDurationSeconds := some elapsed }

/-- The `try` block of `execute`; `true` when it returned from inside. -/
def executeBody (s : FrozenSnapshot) (polls : ℕ := pollLimit) : EngineM Bool := do
  if ← precheck s then pure true
  else
    let orderId ← submit s
    settleOrder s orderId polls
    pure false

/-- `execute`: any exception makes the result `FAILED`; a rejected call returns before the final
log entry. -/
def execute (s : FrozenSnapshot) (polls : ℕ := pollLimit) : EngineM ExecutionResult := do
  setResult fun _ => { advisoryId := s.advisoryId }
  let returned ← tryCatch (executeBody s polls) fun err => do
    setResult fun r => { r with status := .failed, errorMessage := some (.raised err) }
    pure false
  if returned then pure (← get).result
  else
    let r := (← get).result
    log (.executionResult · r)
    pure r

end Engine

end Execution
