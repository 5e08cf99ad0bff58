import IctAlgo.Orchestrator.Decision

/-!
# The safety guards of the execution boundary

`SafetyGuards` of `execution_boundary/safety_guards.py`, over the records of `execution_models.py`
and the events `ExecutionAuditLogger` writes. The text Python writes for a float is a parameter
(`showFloat`), and so is that of a date (`iso`); the clock readings of a check are its arguments.
-/

set_option autoImplicit false

namespace Boundary

open Lib Orchestrator

/-! ## Records -/

inductive ExecutionIntentType
  | openPosition | closePosition | modifyPosition | haltAllTrading | resumeTrading | manualOverride
  deriving DecidableEq, Repr

def ExecutionIntentType.value : ExecutionIntentType → String
  | .openPosition => "open_position"
  | .closePosition => "close_position"
  | .modifyPosition => "modify_position"
  | .haltAllTrading => "halt_all_trading"
  | .resumeTrading => "resume_trading"
  | .manualOverride => "manual_override"

inductive IntentStatus
  | pendingApproval | approved | rejected | executed | cancelled | failed
  deriving DecidableEq, Repr

def IntentStatus.value : IntentStatus → String
  | .pendingApproval => "pending_approval"
  | .approved => "approved"
  | .rejected => "rejected"
  | .executed => "executed"
  | .cancelled => "cancelled"
  | .failed => "failed"

inductive ApprovalAuthority
  | humanTrader | riskOfficer | systemAdmin
  deriving DecidableEq, Repr

def ApprovalAuthority.value : ApprovalAuthority → String
  | .humanTrader => "human_trader"
  | .riskOfficer => "risk_officer"
  | .systemAdmin => "system_admin"

/-- An `ExecutionIntent`. Its fields can be set after `__post_init__` has checked them. -/
structure ExecutionIntent where
  intentId : String
  intentType : ExecutionIntentType := .openPosition
  status : IntentStatus := .pendingApproval
  createdAt : Timestamp
  symbol : Option String := none
  quantity : Option PyFloat := none
  price : Option PyFloat := none
  orderType : Option String := none
  timeInForce : Option String := none
  humanRationale : String := ""
  maxLoss : Option PyFloat := none
  maxPositionSize : Option PyFloat := none
  requiredProfitMargin : Option PyFloat := none
  expiresAt : Option Timestamp := none
  metadata : Fields := Dict.empty

structure HumanExecutionApproval where
  approvalId : String
  intentId : String := ""
  approved : Bool := false
  authorityLevel : ApprovalAuthority := .humanTrader
  approvedBy : String := ""
  approvedAt : Timestamp
  approvalRationale : String := ""
  conditionalApproval : Bool := false
  approvalConditions : List String := []
  expiresAt : Option Timestamp := none

structure KillSwitchState where
  manualKillActive : Bool := false
  manualKillActivatedBy : Option String := none
  manualKillActivatedAt : Option Timestamp := none
  manualKillReason : String := ""
  circuitBreakerActive : Bool := false
  circuitBreakerTriggerAt : Option Timestamp := none
  circuitBreakerReason : String := ""
  timeoutActive : Bool := false
  timeoutTriggeredAt : Option Timestamp := none
  timeoutDurationSeconds : ℤ := 300

def KillSwitchState.isHalted (k : KillSwitchState) : Bool :=
  k.manualKillActive || k.circuitBreakerActive || k.timeoutActive

/-- `is_valid`, at the time `now`. -/
def HumanExecutionApproval.isValid (a : HumanExecutionApproval) (now : ℚ) : Except String Bool :=
  match a.expiresAt with
  | none => .ok true
  | some t => Timestamp.lt? ⟨now, true⟩ t

/-! ## The audit log -/

/-- A value, or `None`. -/
def orNull {α : Type} (f : α → Value) : Option α → Value
  | none => .null
  | some a => f a

def fieldsOf (items : List (String × Value)) : Fields :=
  items.foldl (fun d item => d.set item.1 item.2) .empty

section
variable (iso : Timestamp → String)

def ExecutionIntent.toDict (i : ExecutionIntent) : Fields := fieldsOf [
  ("intent_id", .str i.intentId), ("intent_type", .str i.intentType.value),
  ("status", .str i.status.value), ("created_at", .str (iso i.createdAt)),
  ("symbol", orNull .str i.symbol), ("quantity", orNull .float i.quantity),
  ("price", orNull .float i.price), ("order_type", orNull .str i.orderType),
  ("time_in_force", orNull .str i.timeInForce), ("human_rationale", .str i.humanRationale),
  ("max_loss", orNull .float i.maxLoss), ("max_position_size", orNull .float i.maxPositionSize),
  ("required_profit_margin", orNull .float i.requiredProfitMargin),
  ("expires_at", orNull (fun t => .str (iso t)) i.expiresAt), ("metadata", .dict i.metadata.items)]

def HumanExecutionApproval.toDict (a : HumanExecutionApproval) : Fields := fieldsOf [
  ("approval_id", .str a.approvalId), ("intent_id", .str a.intentId), ("approved", .bool a.approved),
  ("authority_level", .str a.authorityLevel.value), ("approved_by", .str a.approvedBy),
  ("approved_at", .str (iso a.approvedAt)), ("approval_rationale", .str a.approvalRationale),
  ("conditional_approval", .bool a.conditionalApproval),
  ("approval_conditions", .list (a.approvalConditions.map .str)),
  ("expires_at", orNull (fun t => .str (iso t)) a.expiresAt)]

/-- An `ExecutionAuditRecord`. -/
structure ExecutionAuditRecord where
  recordId : String
  timestamp : Timestamp
  eventType : String
  intentId : String
  approvalId : Option String := none
  status : String
  eventData : Fields
  humanNote : String
  actor : String
  severity : String := "INFO"

/-- `__post_init__`. -/
def ExecutionAuditRecord.postInit (r : ExecutionAuditRecord) : Except String ExecutionAuditRecord :=
  if r.eventType = "" then .error "event_type is required"
  else if r.intentId = "" then .error "intent_id is required"
  else if r.actor = "" then .error "actor is required"
  else .ok r

def ExecutionAuditRecord.toDict (r : ExecutionAuditRecord) : Fields := fieldsOf [
  ("record_id", .str r.recordId), ("timestamp", .str (iso r.timestamp)),
  ("event_type", .str r.eventType), ("intent_id", .str r.intentId),
  ("approval_id", orNull .str r.approvalId), ("status", .str r.status),
  ("event_data", .dict r.eventData.items), ("human_note", .str r.humanNote),
  ("actor", .str r.actor), ("severity", .str r.severity)]

/-- The id and the time a new record gets. -/
structure Stamp where
  recordId : String
  timestamp : Timestamp

/-- `_append_record` of a record, if it can be made: the log of the events in memory. -/
def appendRecord (log : List Fields) (r : ExecutionAuditRecord) : Except String (List Fields) := do
  let r ← r.postInit
  return log ++ [r.toDict iso]

def logIntentCreated (log : List Fields) (intent : ExecutionIntent) (actor note : String)
    (stamp : Stamp) : Except String (List Fields) :=
  appendRecord iso log {
    recordId := stamp.recordId, timestamp := stamp.timestamp
    eventType := "intent_created", intentId := intent.intentId, status := intent.status.value
    eventData := intent.toDict iso, humanNote := note, actor := actor }

def logApprovalRejected (log : List Fields) (intentId : String) (approval : HumanExecutionApproval)
    (actor note : String) (stamp : Stamp) : Except String (List Fields) :=
  appendRecord iso log {
    recordId := stamp.recordId, timestamp := stamp.timestamp
    eventType := "approval_rejected", intentId := intentId, approvalId := some approval.approvalId
    status := "rejected", eventData := approval.toDict iso, humanNote := note, actor := actor
    severity := "WARNING" }

end

/-! ## Checks -/

/-- The result of a check, with its reason. -/
structure Check where
  ok : Bool
  reason : String
  deriving DecidableEq

def checkExplicitApproval (intent : ExecutionIntent) (approval : Option HumanExecutionApproval)
    (now : ℚ) : Except String Check :=
  match approval with
  | none => .ok ⟨false, "No explicit human approval found. Execution blocked."⟩
  | some a =>
    if a.intentId ≠ intent.intentId then
      .ok ⟨false, "Approval intent_id " ++ a.intentId ++ " does not match execution intent_id " ++
        intent.intentId⟩
    else if !a.approved then .ok ⟨false, "Approval explicitly rejected (approved=False)"⟩
    else do
      if !(← a.isValid now) then return ⟨false, "Approval has expired"⟩
      if a.approvalRationale = "" then return ⟨false, "Approval missing required rationale"⟩
      return ⟨true, "Explicit human approval is valid"⟩

def checkKillSwitch (k : KillSwitchState) : Check :=
  if k.manualKillActive then ⟨false, "Manual kill switch is ACTIVE. Reason: " ++ k.manualKillReason⟩
  else if k.circuitBreakerActive then
    ⟨false, "Circuit breaker is ACTIVE. Reason: " ++ k.circuitBreakerReason⟩
  else if k.timeoutActive then
    ⟨false, "Timeout halt is ACTIVE. Duration: " ++ toString k.timeoutDurationSeconds ++ "s"⟩
  else ⟨true, "All kill switches are inactive"⟩

section
variable (showFloat : PyFloat → String)

/-- `check_intent_constraints`, at the time `now`. A NaN fails no comparison. -/
def checkIntentConstraints (intent : ExecutionIntent) (now : ℚ) : Except String Check := do
  if intent.humanRationale = "" then return ⟨false, "Intent missing required human_rationale"⟩
  if let some x := intent.maxLoss then
    if x.lt (.fin 0) then return ⟨false, "max_loss must be non-negative, got " ++ showFloat x⟩
  if let some x := intent.maxPositionSize then
    if x.le (.fin 0) then return ⟨false, "max_position_size must be positive, got " ++ showFloat x⟩
  if let some t := intent.expiresAt then
    if ← t.lt? ⟨now, true⟩ then return ⟨false, "Intent has expired"⟩
  return ⟨true, "Intent constraints are satisfied"⟩

def checkApprovalConditions (a : HumanExecutionApproval) : Check :=
  if a.conditionalApproval then
    if a.approvalConditions = [] then
      ⟨false, "Conditional approval requires non-empty approval_conditions list"⟩
    else if a.approvalConditions.length = 0 then
      ⟨false, "Conditional approval requires at least one condition"⟩
    else
      ⟨true, "Conditional approval has " ++ toString a.approvalConditions.length ++
        " conditions (conditions must be verified by domain-specific logic)"⟩
  else ⟨true, "No conditional constraints"⟩

def checkApprovalAuthority (a : HumanExecutionApproval) (intentType : String) : Check :=
  match a.authorityLevel with
  | .systemAdmin => ⟨true, "System admin approval is valid for all intent types"⟩
  | .riskOfficer =>
    if intentType = "manual_override" then
      ⟨false, "Risk officer cannot approve emergency manual overrides. " ++
        "Requires system admin approval."⟩
    else ⟨true, "Risk officer approval is valid for this intent type"⟩
  | .humanTrader =>
    if intentType ∈ ["open_position", "close_position", "modify_position"] then
      ⟨true, "Human trader approval is valid for this intent type"⟩
    else
      ⟨false, "Human trader cannot approve " ++ intentType ++
        ". Requires risk officer or system admin approval."⟩

def checkAuditTrail (intentId approvalId : String) (auditLog : List Fields) : Check :=
  if auditLog = [] then ⟨false, "No audit trail present"⟩
  else
    let intentCreatedEvents := auditLog.filter fun e =>
      val e "event_type" = .str "intent_created" ∧ val e "intent_id" = .str intentId
    if intentCreatedEvents = [] then
      ⟨false, "No 'intent_created' event in audit trail for " ++ intentId⟩
    else
      -- Any event with the id of the approval counts.
      let approvalEvents := auditLog.filter fun e => val e "approval_id" = .str approvalId
      if approvalEvents = [] then ⟨false, "No approval event in audit trail for " ++ approvalId⟩
      else
        ⟨true, "Audit trail is continuous (" ++ toString auditLog.length ++ " events recorded)"⟩

/-! ## All checks -/

/-- The clock when the approval and when the intent is checked. -/
structure Readings where
  approval : ℚ
  intent : ℚ

structure Report where
  allPassed : Bool
  summary : String
  checks : List String

/-- The report of named results. -/
def report (results : List (String × Check)) : Report :=
  let allPassed := results.all (·.2.ok)
  { allPassed := allPassed
    summary :=
      if allPassed then "✅ ALL CHECKS PASSED - Execution may proceed"
      else "❌ SAFETY CHECK FAILED - Execution blocked"
    checks := results.map fun (name, c) =>
      name ++ ": " ++ (if c.ok then "✅ PASS" else "❌ FAIL") ++ " - " ++ c.reason }

/-- `execute_all_checks`; a check that raises lets none pass. -/
def executeAllChecks (intent : ExecutionIntent) (approval : Option HumanExecutionApproval)
    (killSwitch : KillSwitchState) (auditLog : List Fields) (now : Readings) :
    Except String Report := do
  let explicitApproval ← checkExplicitApproval intent approval now.approval
  let constraints ← checkIntentConstraints showFloat intent now.intent
  let ofApproval := match approval with
    | none => []
    | some a => [
      ("Approval Conditions", checkApprovalConditions a),
      ("Approval Authority", checkApprovalAuthority a intent.intentType.value),
      ("Audit Trail", checkAuditTrail intent.intentId a.approvalId auditLog)]
  return report ([("Explicit Approval", explicitApproval), ("Kill Switch", checkKillSwitch killSwitch),
    ("Intent Constraints", constraints)] ++ ofApproval)

end

end Boundary
