import IctAlgo.PlanExec.Schema

/-!
# Validation

`_validate_plan` and `_validate_context` of `PlanExecutor`. Every rule is a `check` with its code and
message. A value that cannot be hashed raises a `TypeError` where it is looked up in a set.
-/

set_option autoImplicit false

namespace PlanExec

open Lib

/-- `if not ok: raise ExecutionValidationError(...)`, always fatal. -/
def check (ok : Bool) (errorCode : ErrorCode) (message : List Part) : Except Exc Unit :=
  if ok then .ok () else
    .error (.validation { errorCode, message, severity := .fatal, recoverable := false })

/-! ## The rules for one value -/

/-- An `int` of at least `n`. -/
def intFrom (n : ℤ) (v : PyVal) : Bool := v.int?.any (n ≤ ·)

/-- A non-empty `str` of at most `n` characters. -/
def textTo (n : ℕ) (v : PyVal) : Bool := v.str?.any fun s => 0 < s.length && s.length ≤ n

/-- `None` or a positive `int`. -/
def optPositive : PyVal → Bool
  | .null => true
  | v => intFrom 1 v

/-- A number that is not less than 1. -/
def multiplierOk : PyVal → Bool
  | .float x => match x with
    | .fin q => 1 ≤ q
    | .inf | .nan => true
    | .negInf => false
  | v => intFrom 1 v

/-- What a message shows for a length: of a text, or the word for another value. -/
def lengthPart (v : PyVal) : Part :=
  match v.str? with
  | some s => .num s.length
  | none => .text "non-string"

/-- `None` or a `str`. -/
def optStr : PyVal → Bool
  | .null => true
  | v => v.str?.isSome

/-! ## Steps -/

/-- The modes of `on_failure`. -/
def failureModes : List String := ["halt", "skip", "retry"]

/-- The body of the loop over the steps; the result is the id of the step. -/
def validateStep (ids : List String) (idx : ℕ) : StepItem → Except Exc String
  | .other _ => do
    check false .invalidPayload
      [.text "plan.steps[", .num idx, .text "] is not instance of PlanStep dataclass"]
    return ""
  | .step s => do
    let field (name : String) (rule : List Part) : List Part :=
      [.text "plan.steps[", .num idx, .text ("]." ++ name)] ++ rule
    check s.id.isUuid .invalidPayload (field "id is not valid UUID v4: " [.val s.id])
    let id := s.id.str?.getD ""
    check (!ids.contains id) .invalidPayload [.text "Duplicate step.id: ", .val s.id]
    check (textTo 100 s.action) .invalidPayload
      (field "action must be non-empty string ≤ 100 chars, got length " [lengthPart s.action])
    check s.payload.isDict .invalidPayload
      (field "payload must be dict, got " [.text s.payload.typeName])
    check (s.onFailure.str?.any failureModes.contains) .invalidPayload
      (field "on_failure must be one of (halt, skip, retry), got " [.val s.onFailure])
    check s.dependsOn.list?.isSome .invalidPayload
      (field "depends_on must be list, got " [.text s.dependsOn.typeName])
    -- the loop that looks every dependency up and does nothing else
    orTypeError (if PyVal.allHashable (s.dependsOn.list?.getD []) then some () else none)
    check (optPositive s.timeoutMs) .invalidPayload
      (field "timeout_ms must be None or positive int, got " [.val s.timeoutMs])
    return id

/-- The loop over the steps from `idx` on, with the ids before; the result is all ids. -/
def validateSteps : ℕ → List String → List StepItem → Except Exc (List String)
  | _, ids, [] => .ok ids
  | idx, ids, item :: items => do
    let id ← validateStep ids idx item
    validateSteps (idx + 1) (ids ++ [id]) items

/-- The checks of one dependency of the step `idx`. -/
def validateDependency (ids : List String) (idx : ℕ) (id : PyVal) (dep : PyVal) :
    Except Exc Unit := do
  let known := dep.str?.any ids.contains
  check known .dependencyUnresolved
    [.text "plan.steps[", .num idx, .text "].depends_on references non-existent step: ", .val dep]
  check (!dep.eq id) .invalidPayload
    [.text "plan.steps[", .num idx, .text "] has self-dependency: ", .val dep]
  let depIndex := ids.idxOf (dep.str?.getD "")
  check (depIndex ≤ idx) .dependencyUnresolved
    [.text "plan.steps[", .num idx, .text "] has forward dependency on later step: ", .val dep,
      .text " at index ", .num depIndex]

/-- The second loop over the steps. -/
def validateDependencies (ids : List String) : ℕ → List StepItem → Except Exc Unit
  | _, [] => .ok ()
  | idx, .other _ :: items => validateDependencies ids (idx + 1) items
  | idx, .step s :: items => do
    (s.dependsOn.list?.getD []).forM (validateDependency ids idx s.id)
    validateDependencies ids (idx + 1) items

/-! ## Plans -/

/-- The checks of `retry_policy`. -/
def validateRetryPolicy : RetryField → Except Exc Unit
  | .other .null => .ok ()
  | .other _ => check false .invalidPayload
      [.text "plan.retry_policy is not instance of RetryPolicy"]
  | .policy p => do
    let field (name : String) (part : Part) : List Part :=
      [.text ("plan.retry_policy." ++ name ++ ", got "), part]
    check (intFrom 1 p.maxAttempts) .invalidPayload
      (field "max_attempts must be ≥ 1" (.val p.maxAttempts))
    check (intFrom 0 p.backoffMs) .invalidPayload
      (field "backoff_ms must be ≥ 0" (.val p.backoffMs))
    check (multiplierOk p.backoffMultiplier) .invalidPayload
      (field "backoff_multiplier must be ≥ 1.0" (.val p.backoffMultiplier))
    check (intFrom 0 p.maxBackoffMs) .invalidPayload
      (field "max_backoff_ms must be ≥ 0" (.val p.maxBackoffMs))
    check p.retryableErrorCodes.list?.isSome .invalidPayload
      (field "retryable_error_codes must be list" (.text p.retryableErrorCodes.typeName))

/-- What a message shows for the number of steps. -/
def Steps.countPart : Steps → Part
  | .list items => .num items.length
  | .other _ => .text "non-list"

/-- The elements of `steps`, if it is a list. -/
def Steps.items : Steps → List StepItem
  | .list items => items
  | .other _ => []

/-- `_validate_plan`. -/
def validatePlan (plan : Plan) : Except Exc Unit := do
  check plan.id.isUuid .invalidPayload [.text "plan.id is not valid UUID v4: ", .val plan.id]
  check (intFrom 1 plan.version) .invalidPayload
    [.text "plan.version must be ≥ 1, got ", .val plan.version]
  check (intFrom 1 plan.createdAt) .invalidPayload
    [.text "plan.created_at must be positive Unix ms timestamp, got ", .val plan.createdAt]
  check (textTo 255 plan.name) .invalidPayload
    [.text "plan.name must be non-empty string ≤ 255 chars, got length ", lengthPart plan.name]
  check (plan.contextRequirements.list?.any (· matches _ :: _)) .invalidPayload
    [.text "plan.context_requirements must be non-empty list"]
  let items := plan.steps.items
  check (0 < items.length && items.length ≤ 1024) .invalidPayload
    [.text "plan.steps must be non-empty list ≤ 1024 items, got ", plan.steps.countPart]
  let ids ← validateSteps 0 [] items
  validateDependencies ids 0 items
  validateRetryPolicy plan.retryPolicy
  check plan.priority.int?.isSome .invalidPayload
    [.text ("plan.priority must be int, got " ++ plan.priority.typeName)]
  check (intFrom 1 plan.timeoutMs) .invalidPayload
    [.text "plan.timeout_ms must be positive int, got ", .val plan.timeoutMs]
  check plan.metaData.isDict .invalidPayload
    [.text ("plan.metadata must be dict, got " ++ plan.metaData.typeName)]
  check plan.tags.list?.isSome .invalidPayload
    [.text ("plan.tags must be list, got " ++ plan.tags.typeName)]
  check (optPositive plan.estimatedDurationMs) .invalidPayload
    [.text "plan.estimated_duration_ms must be None or positive int, got ",
      .val plan.estimatedDurationMs]

/-! ## Contexts -/

/-- The loop over the context keys a plan requires. -/
def checkRequirements (environment : List PyVal) : List PyVal → Except Exc Unit
  | [] => .ok ()
  | key :: keys => do
    let known ← orTypeError (key.mem? environment)
    check known .contextMissing [.text "Required context key not provided: ", .val key]
    checkRequirements environment keys

/-- The argument of `_validate_context`, which takes one besides `self`. -/
inductive Arg
  | plan (p : Plan)
  | context (c : ExecutionContext)

/-- The keys of the environment, if it is a dictionary. -/
def environmentKeys : PyVal → List PyVal
  | .dict keys => keys
  | _ => []

/-- `_validate_context`. -/
def validateContext : Arg → Except Exc Unit
  | .plan _ => check false .invalidPayload
      [.text "ExecutionContext is not instance of ExecutionContext dataclass"]
  | .context ctx => do
    match ctx.plan with
    | .other _ => check false .invalidPayload [.text "ctx.plan is not instance of Plan dataclass"]
    | .plan plan =>
      check ctx.executionId.isUuid .invalidPayload
        [.text "ctx.execution_id is not valid UUID v4: ", .val ctx.executionId]
      check (intFrom 1 ctx.startedAt) .invalidPayload
        [.text "ctx.started_at must be positive Unix ms timestamp, got ", .val ctx.startedAt]
      check (intFrom 1 ctx.deadlineMs) .invalidPayload
        [.text "ctx.deadline_ms must be positive Unix ms timestamp, got ", .val ctx.deadlineMs]
      let started := ctx.startedAt.int?.getD 0
      let deadline := ctx.deadlineMs.int?.getD 0
      check (started < deadline) .deadlineExceeded
        [.text "ctx.deadline_ms (", .val ctx.deadlineMs, .text ") must be > ctx.started_at (",
          .val ctx.startedAt, .text ")"]
      let short ← orTypeError (PyVal.lt? (deadline - started) plan.timeoutMs)
      check (!short) .deadlineExceeded
        [.text "Execution window (", .num (deadline - started),
          .text "ms) insufficient for plan timeout (", .val plan.timeoutMs, .text "ms)"]
      check ctx.environment.isDict .invalidPayload
        [.text ("ctx.environment must be dict, got " ++ ctx.environment.typeName)]
      let required ← orTypeError plan.contextRequirements.iter?
      checkRequirements (environmentKeys ctx.environment) required
      check (optStr ctx.parentExecutionId) .invalidPayload
        [.text ("ctx.parent_execution_id must be str or None, got " ++
          ctx.parentExecutionId.typeName)]
      check (ctx.parentExecutionId matches .null || ctx.parentExecutionId.isUuid) .invalidPayload
        [.text "ctx.parent_execution_id is not valid UUID v4: ", .val ctx.parentExecutionId]
      check (optStr ctx.userId) .invalidPayload
        [.text ("ctx.user_id must be str or None, got " ++ ctx.userId.typeName)]
      check (optStr ctx.requestId) .invalidPayload
        [.text ("ctx.request_id must be str or None, got " ++ ctx.requestId.typeName)]
      check (ctx.correlationContext matches .null || ctx.correlationContext.isDict) .invalidPayload
        [.text ("ctx.correlation_context must be dict or None, got " ++
          ctx.correlationContext.typeName)]

end PlanExec
