import IctAlgo.Lib.Exn
import IctAlgo.Orchestrator.Decision

/-!
# The approval manager

`HumanApprovalManager` of `reasoner_service/human_approval_manager.py`. A program is a `ManagerM`:
it changes the manager, and may raise. The clock readings of an operation are arguments.
-/

set_option autoImplicit false

namespace Approval

open Lib

/-! ## Data -/

/-- `ApprovalOutcome`. -/
inductive ApprovalOutcome
  | approved | rejected | expired | invalidated | pending
  deriving DecidableEq, Repr

structure AdvisorySnapshot where
  advisoryId : String
  htfBias : String
  reasoningMode : String
  price : ℚ
  expirationTimestamp : Option Timestamp
  createdAt : Timestamp
  reasoningContext : Orchestrator.Fields := Dict.empty
  deriving DecidableEq

structure AuditLogEntry where
  advisoryId : String
  userId : String
  timestampRequest : ℚ
  timestampReceived : ℚ
  stateSnapshot : AdvisorySnapshot
  outcome : ApprovalOutcome
  reason : Option String := none
  requestDurationMs : Option ℚ := none
  deriving DecidableEq

structure Manager where
  approvals : Dict String AdvisorySnapshot := .empty
  approvalOutcomes : Dict String ApprovalOutcome := .empty
  auditLog : List AuditLogEntry := []

abbrev ManagerM := EStateM String Manager

/-- The readings of the clock in `approve_advisory`. -/
structure Readings where
  request : ℚ
  check : ℚ
  received : ℚ

/-! ## Checks -/

/-- The first critical field that is missing, as the `ValueError` says it. -/
def missingField? (s : AdvisorySnapshot) : Option String :=
  if s.advisoryId = "" then some "snapshot advisory_id is required"
  else if s.htfBias = "" then some "snapshot htf_bias is required"
  else if s.reasoningMode = "" then some "snapshot reasoning_mode is required"
  else if s.expirationTimestamp = none then some "snapshot expiration_timestamp is required"
  else none

/-- `_stage7_expiration_check`, at the time `now`. The candle duration is looked up and not used; a
timeframe that cannot be hashed raises, and so does a naive expiration. -/
def stage7ExpirationCheck (s : AdvisorySnapshot) (now : ℚ) : Except String Bool :=
  let timeframe := s.reasoningContext.getD "timeframe" (.str "4H")
  if !timeframe.hashable then .error "unhashable type"
  else match s.expirationTimestamp with
    | none => .error "'>' not supported between instances of 'datetime.datetime' and 'NoneType'"
    | some t => t.lt? ⟨now, true⟩

namespace Manager

/-- A check whose exception goes on to the caller. -/
def orRaise {α : Type} (r : Except String α) : ManagerM α :=
  match r with
  | .ok a => pure a
  | .error err => throw err

def logAuditEntry (entry : AuditLogEntry) : ManagerM Unit :=
  modify fun m => { m with auditLog := m.auditLog ++ [entry] }

/-! ## Operations -/

/-- `approve_advisory`. -/
def approveAdvisory (s : AdvisorySnapshot) (userId : String) (approve : Bool)
    (reason : Option String) (t : Readings) : ManagerM ApprovalOutcome := do
  if let some err := missingField? s then throw err
  let isExpired ← orRaise (stage7ExpirationCheck s t.check)
  if isExpired then
    logAuditEntry {
      advisoryId := s.advisoryId, userId := userId
      timestampRequest := t.request, timestampReceived := t.received
      stateSnapshot := s, outcome := .expired
      reason := some "Advisory expired per Stage 7 expiration rules" }
    pure .expired
  else
    let outcome := if approve then ApprovalOutcome.approved else .rejected
    if approve then
      modify fun m => { m with approvals := m.approvals.set s.advisoryId s }
    modify fun m => { m with approvalOutcomes := m.approvalOutcomes.set s.advisoryId outcome }
    logAuditEntry {
      advisoryId := s.advisoryId, userId := userId
      timestampRequest := t.request, timestampReceived := t.received
      stateSnapshot := s, outcome := outcome, reason := reason
      requestDurationMs := some ((t.received - t.request) * 1000) }
    pure outcome

/-- The frozen snapshot of an advisory whose outcome is `APPROVED`. -/
def approvedSnapshot? (m : Manager) (advisoryId : String) : Option AdvisorySnapshot :=
  match m.approvalOutcomes.get? advisoryId with
  | some .approved => m.approvals.get? advisoryId
  | _ => none

/-- `is_approval_valid`. -/
def isApprovalValid (advisoryId : String) (now : ℚ) : ManagerM Bool := do
  let m ← get
  if m.approvalOutcomes.get? advisoryId ≠ some .approved then pure false
  else match m.approvals.get? advisoryId with
    | none => pure false
    | some snapshot =>
      let isExpired ← orRaise (stage7ExpirationCheck snapshot now)
      pure !isExpired

/-- `execute_if_approved`. -/
def executeIfApproved (advisoryId : String) (now : ℚ) : ManagerM Bool := do
  let m ← get
  match m.approvalOutcomes.get? advisoryId with
  | none => pure false
  | some outcome =>
    if outcome ≠ .approved then pure false
    else match m.approvals.get? advisoryId with
      | none => pure false
      | some snapshot =>
        let isExpired ← orRaise (stage7ExpirationCheck snapshot now)
        if isExpired then pure false else pure true

/-- `get_audit_trail`. -/
def getAuditTrail (advisoryId : Option String) : ManagerM (List AuditLogEntry) := do
  let m ← get
  match advisoryId with
  | none => pure m.auditLog
  | some advisoryId => pure (m.auditLog.filter (·.advisoryId = advisoryId))

/-- An operation, with its clock readings. -/
inductive Op
  | approve (snapshot : AdvisorySnapshot) (userId : String) (approve : Bool)
      (reason : Option String) (t : Readings)
  | execute (advisoryId : String) (now : ℚ)
  | isValid (advisoryId : String) (now : ℚ)
  | expirationCheck (snapshot : AdvisorySnapshot) (now : ℚ)
  | auditTrail (advisoryId : Option String)

/-- The manager after an operation, which may have raised. -/
def step (m : Manager) : Op → Manager
  | .approve s userId approve reason t => Exn.exec (approveAdvisory s userId approve reason t) m
  | .execute advisoryId now => Exn.exec (executeIfApproved advisoryId now) m
  | .isValid advisoryId now => Exn.exec (isApprovalValid advisoryId now) m
  | .expirationCheck s now => Exn.exec (orRaise (stage7ExpirationCheck s now)) m
  | .auditTrail advisoryId => Exn.exec (getAuditTrail advisoryId) m

end Manager

end Approval
