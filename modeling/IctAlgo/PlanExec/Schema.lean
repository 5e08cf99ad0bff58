import IctAlgo.Lib.PyVal

/-!
# Plans, contexts and results

The data of `reasoner_service/plan_execution_schemas.py`. The dataclasses check no types, so that a
field holds any value; what a field may hold besides values, an instance of one of these classes, is
a case of its own. Code that may raise is an `Except Exc`.
-/

set_option autoImplicit false

namespace PlanExec

open Lib

/-! ## Errors -/

/-- `ErrorSeverity`. -/
inductive ErrorSeverity
  | warn | error | fatal
  deriving DecidableEq, Repr

/-- `ErrorCode`. -/
inductive ErrorCode
  | contextMissing | invalidPayload | stepTimeout | planTimeout | deadlineExceeded
  | dependencyUnresolved | actionNotFound | resourceExhausted | executionHalted | stepSkipped
  | unknownError
  deriving DecidableEq, Repr

/-- A piece of a message: a text, or a value the text shows. -/
inductive Part
  | text (s : String)
  | val (v : PyVal)
  | num (n : ℤ)

/-- `ExecutionError`; `cause` and `context` keep their defaults in all the code here. -/
structure ExecutionError where
  errorCode : ErrorCode
  message : List Part
  stepId : Option PyVal := none
  severity : ErrorSeverity := .fatal
  recoverable : Bool := false

/-- What the code raises: an `ExecutionValidationError`, or an exception of Python's own. -/
inductive Exc
  | validation (e : ExecutionError)
  | typeError
  | attributeError

/-- The value, or a `TypeError`. -/
def orTypeError {α : Type} : Option α → Except Exc α
  | some a => .ok a
  | none => .error .typeError

/-! ## Plans -/

structure RetryPolicy where
  maxAttempts : PyVal := .int 1
  backoffMs : PyVal := .int 0
  backoffMultiplier : PyVal := .float (.fin 1)
  maxBackoffMs : PyVal := .int 60000
  retryableErrorCodes : PyVal := .list []

structure PlanStep where
  id : PyVal
  action : PyVal
  payload : PyVal
  dependsOn : PyVal := .list []
  onFailure : PyVal := .str "halt"
  timeoutMs : PyVal := .null

/-- An element of `steps`. -/
inductive StepItem
  | step (s : PlanStep)
  | other (v : PyVal)

/-- The field `steps`. -/
inductive Steps
  | list (items : List StepItem)
  | other (v : PyVal)

/-- The field `retry_policy`. -/
inductive RetryField
  | policy (p : RetryPolicy)
  | other (v : PyVal)

structure Plan where
  id : PyVal
  version : PyVal
  createdAt : PyVal
  steps : Steps
  name : PyVal
  contextRequirements : PyVal
  priority : PyVal := .int 0
  timeoutMs : PyVal := .int 300000
  retryPolicy : RetryField := .other .null
  metaData : PyVal := .dict []
  tags : PyVal := .list []
  estimatedDurationMs : PyVal := .null

/-- `len(plan.steps)`. -/
def Steps.len? : Steps → Option ℕ
  | .list items => some items.length
  | .other v => v.len?

/-! ## Contexts -/

/-- The field `plan` of a context. -/
inductive PlanField
  | plan (p : Plan)
  | other (v : PyVal)

structure ExecutionContext where
  plan : PlanField
  executionId : PyVal
  startedAt : PyVal
  deadlineMs : PyVal
  environment : PyVal
  parentExecutionId : PyVal := .null
  userId : PyVal := .null
  requestId : PyVal := .null
  correlationContext : PyVal := .null

/-! ## Results -/

/-- `status`. -/
inductive Status
  | success | partialSuccess | failure
  deriving DecidableEq, Repr

/-- `PlanResult`; `result_payload` is always empty. -/
structure PlanResult where
  planId : PyVal
  executionId : PyVal
  status : Status
  completedAt : ℤ
  durationMs : PyVal
  stepsExecuted : ℕ
  stepsTotal : ℕ
  error : Option ExecutionError

end PlanExec
