import IctAlgo.Boundary.Guards
import IctAlgo.Lib.Runs
import IctAlgo.Lib.Text

/-!
# The kill-switch controller

`KillSwitchController` of `execution_boundary/kill_switch_controller.py` over the methods of
`KillSwitchState`. A call reads the clock twice, when it changes the state and when it logs the
change; both readings are arguments. The text of a date is a parameter (`iso`).
-/

set_option autoImplicit false

namespace Boundary

open Lib Orchestrator

namespace KillSwitchState

variable (k : KillSwitchState)

/-- `activate_manual_kill`, at the time `now`. -/
def activateManualKill (activatedBy reason : String) (now : ℚ) : KillSwitchState := { k with
  manualKillActive := true, manualKillActivatedBy := some activatedBy
  manualKillActivatedAt := some ⟨now, true⟩, manualKillReason := reason }

def deactivateManualKill : KillSwitchState := { k with manualKillActive := false }

/-- `activate_circuit_breaker`, at the time `now`. -/
def activateCircuitBreaker (reason : String) (now : ℚ) : KillSwitchState := { k with
  circuitBreakerActive := true, circuitBreakerTriggerAt := some ⟨now, true⟩
  circuitBreakerReason := reason }

def deactivateCircuitBreaker : KillSwitchState := { k with circuitBreakerActive := false }

/-- `activate_timeout`, at the time `now`. -/
def activateTimeout (durationSeconds : ℤ) (now : ℚ) : KillSwitchState := { k with
  timeoutActive := true, timeoutTriggeredAt := some ⟨now, true⟩
  timeoutDurationSeconds := durationSeconds }

def deactivateTimeout : KillSwitchState := { k with timeoutActive := false }

/-- `to_dict`. -/
def toDict (iso : Timestamp → String) : Fields := fieldsOf [
  ("manual_kill_active", .bool k.manualKillActive),
  ("manual_kill_activated_by", orNull .str k.manualKillActivatedBy),
  ("manual_kill_activated_at", orNull (fun t => .str (iso t)) k.manualKillActivatedAt),
  ("manual_kill_reason", .str k.manualKillReason),
  ("circuit_breaker_active", .bool k.circuitBreakerActive),
  ("circuit_breaker_trigger_at", orNull (fun t => .str (iso t)) k.circuitBreakerTriggerAt),
  ("circuit_breaker_reason", .str k.circuitBreakerReason),
  ("timeout_active", .bool k.timeoutActive),
  ("timeout_triggered_at", orNull (fun t => .str (iso t)) k.timeoutTriggeredAt),
  ("timeout_duration_seconds", .int k.timeoutDurationSeconds),
  ("is_halted", .bool k.isHalted)]

end KillSwitchState

/-- A record of the controller's history. -/
structure SwitchRecord where
  timestamp : String
  eventType : String
  reason : String
  actor : String
  severity : String
  stateSnapshot : Fields

structure KillSwitchController where
  state : KillSwitchState := {}
  history : List SwitchRecord := []

/-- The clock when a call changes the state and when it logs the change. -/
structure SwitchReadings where
  changed : ℚ
  logged : ℚ

namespace KillSwitchController

section
variable (iso : Timestamp → String) (c : KillSwitchController)

/-- `_log_state_change`, at the time `now`. -/
def logStateChange (eventType reason actor severity : String) (now : ℚ) : KillSwitchController :=
  { c with history := c.history ++ [{
      timestamp := iso ⟨now, true⟩, eventType := eventType, reason := reason, actor := actor
      severity := severity, stateSnapshot := c.state.toDict iso }] }

/-- A new controller. -/
def new (now : ℚ) : KillSwitchController :=
  logStateChange iso {} "INIT" "Controller initialized" "system" "INFO" now

def activateManualKill (activatedBy reason : String) (t : SwitchReadings) :
    Bool × KillSwitchController :=
  if activatedBy = "" ∨ reason = "" then (false, c)
  else (true, logStateChange iso
    { c with state := c.state.activateManualKill activatedBy reason t.changed }
    "MANUAL_KILL_ACTIVATED" reason activatedBy "INFO" t.logged)

def deactivateManualKill (deactivatedBy reason : String) (t : SwitchReadings) :
    Bool × KillSwitchController :=
  if deactivatedBy = "" ∨ reason = "" then (false, c)
  else (true, logStateChange iso { c with state := c.state.deactivateManualKill }
    "MANUAL_KILL_DEACTIVATED" reason deactivatedBy "INFO" t.logged)

def activateCircuitBreaker (reason : String) (t : SwitchReadings) : Bool × KillSwitchController :=
  if reason = "" then (false, c)
  else (true, logStateChange iso
    { c with state := c.state.activateCircuitBreaker reason t.changed }
    "CIRCUIT_BREAKER_ACTIVATED" reason "system" "CRITICAL" t.logged)

def deactivateCircuitBreaker (deactivatedBy reason : String) (t : SwitchReadings) :
    Bool × KillSwitchController :=
  if deactivatedBy = "" ∨ reason = "" then (false, c)
  else (true, logStateChange iso { c with state := c.state.deactivateCircuitBreaker }
    "CIRCUIT_BREAKER_DEACTIVATED" reason deactivatedBy "INFO" t.logged)

/-- The reason in the record of an activated timeout. -/
def timeoutReason (reason : String) (durationSeconds : ℤ) : String :=
  reason ++ " (duration: " ++ toString durationSeconds ++ "s)"

def activateTimeout (reason : String) (durationSeconds : ℤ) (t : SwitchReadings) :
    Bool × KillSwitchController :=
  if reason = "" ∨ durationSeconds ≤ 0 then (false, c)
  else (true, logStateChange iso
    { c with state := c.state.activateTimeout durationSeconds t.changed }
    "TIMEOUT_ACTIVATED" (timeoutReason reason durationSeconds) "system" "WARNING" t.logged)

def deactivateTimeout (deactivatedBy reason : String) (t : SwitchReadings) :
    Bool × KillSwitchController :=
  if deactivatedBy = "" ∨ reason = "" then (false, c)
  else (true, logStateChange iso { c with state := c.state.deactivateTimeout }
    "TIMEOUT_DEACTIVATED" reason deactivatedBy "INFO" t.logged)

def isHalted : Bool := c.state.isHalted

def getHaltReason : Option String :=
  if c.state.manualKillActive then some ("MANUAL: " ++ c.state.manualKillReason)
  else if c.state.circuitBreakerActive then
    some ("CIRCUIT_BREAKER: " ++ c.state.circuitBreakerReason)
  else if c.state.timeoutActive then
    some ("TIMEOUT: " ++ toString c.state.timeoutDurationSeconds ++ "s")
  else none

end

/-! ## Calls -/

inductive Call
  | activateManualKill (activatedBy reason : String) (t : SwitchReadings)
  | deactivateManualKill (deactivatedBy reason : String) (t : SwitchReadings)
  | activateCircuitBreaker (reason : String) (t : SwitchReadings)
  | deactivateCircuitBreaker (deactivatedBy reason : String) (t : SwitchReadings)
  | activateTimeout (reason : String) (durationSeconds : ℤ) (t : SwitchReadings)
  | deactivateTimeout (deactivatedBy reason : String) (t : SwitchReadings)

/-- What a call answers, and the controller after it. -/
def call (iso : Timestamp → String) (c : KillSwitchController) : Call → Bool × KillSwitchController
  | .activateManualKill activatedBy reason t => c.activateManualKill iso activatedBy reason t
  | .deactivateManualKill deactivatedBy reason t => c.deactivateManualKill iso deactivatedBy reason t
  | .activateCircuitBreaker reason t => c.activateCircuitBreaker iso reason t
  | .deactivateCircuitBreaker deactivatedBy reason t =>
    c.deactivateCircuitBreaker iso deactivatedBy reason t
  | .activateTimeout reason durationSeconds t => c.activateTimeout iso reason durationSeconds t
  | .deactivateTimeout deactivatedBy reason t => c.deactivateTimeout iso deactivatedBy reason t

/-- The controller after a call. -/
def step (iso : Timestamp → String) (c : KillSwitchController) (a : Call) : KillSwitchController :=
  (c.call iso a).2

/-! ## Replay of a history -/

/-- The last record of one of these event types. -/
def lastEvent (history : List SwitchRecord) (eventTypes : List String) : Option SwitchRecord :=
  History.lastOf (fun r => r.eventType ∈ eventTypes) history

/-- Flags, reasons and the duration of the timeout. -/
structure Switches where
  manualKillActive : Bool
  manualKillReason : String
  circuitBreakerActive : Bool
  circuitBreakerReason : String
  timeoutActive : Bool
  timeoutDurationSeconds : ℤ
  deriving DecidableEq

/-- The last event that set or cleared a switch set it. -/
def lastActivates (history : List SwitchRecord) (activated deactivated : String) : Bool :=
  (lastEvent history [activated, deactivated]).any (·.eventType = activated)

/-- The duration in a reason written by `timeoutReason`. -/
def durationOf (reason : String) : ℤ := Text.trailingNat reason.toList.dropLast.dropLast

/-- What the records say: each switch is as its last event left it, with the reason of its last
activation. -/
def replay (history : List SwitchRecord) : Switches where
  manualKillActive := lastActivates history "MANUAL_KILL_ACTIVATED" "MANUAL_KILL_DEACTIVATED"
  manualKillReason := ((lastEvent history ["MANUAL_KILL_ACTIVATED"]).map (·.reason)).getD ""
  circuitBreakerActive :=
    lastActivates history "CIRCUIT_BREAKER_ACTIVATED" "CIRCUIT_BREAKER_DEACTIVATED"
  circuitBreakerReason := ((lastEvent history ["CIRCUIT_BREAKER_ACTIVATED"]).map (·.reason)).getD ""
  timeoutActive := lastActivates history "TIMEOUT_ACTIVATED" "TIMEOUT_DEACTIVATED"
  timeoutDurationSeconds :=
    ((lastEvent history ["TIMEOUT_ACTIVATED"]).map fun r => durationOf r.reason).getD 300

end KillSwitchController

/-- The switches of a state. -/
def KillSwitchState.switches (k : KillSwitchState) : KillSwitchController.Switches where
  manualKillActive := k.manualKillActive
  manualKillReason := k.manualKillReason
  circuitBreakerActive := k.circuitBreakerActive
  circuitBreakerReason := k.circuitBreakerReason
  timeoutActive := k.timeoutActive
  timeoutDurationSeconds := k.timeoutDurationSeconds

end Boundary
