import IctAlgo.PlanExec.Execute

/-!
# The boundary of the plan executor

`execute_plan_if_enabled` of `reasoner_service/orchestrator.py`: it builds a plan and a context of
dictionaries, hands the context to `execute_plan` of the executor, and catches what that raises.
`asdict` is the plain form of plans and contexts. The executor is a parameter; `executePlan` is the one
of the repository.
-/

set_option autoImplicit false

namespace PlanExec

open Lib

/-! ## Values of a dictionary -/

/-- What a dictionary or list may hold: a value, one of these again, or an object of the schema. -/
inductive Raw where
  | val (v : PyVal)
  | list (xs : List Raw)
  | dict (items : List (String × Raw))
  | retryPolicy (p : RetryPolicy)
  | step (s : PlanStep)
  | plan (p : Plan)
  | context (c : ExecutionContext)

mutual

/-- What a field that holds the value shows of it. -/
def Raw.toVal : Raw → PyVal
  | .val v => v
  | .list xs => .list (toVals xs)
  | .dict items => .dict (items.map fun item => .str item.1)
  | .retryPolicy _ => .object "RetryPolicy" 0
  | .step _ => .object "PlanStep" 0
  | .plan _ => .object "Plan" 0
  | .context _ => .object "ExecutionContext" 0

def Raw.toVals : List Raw → List PyVal
  | [] => []
  | x :: xs => Raw.toVal x :: toVals xs

end

/-! ## Objects of dictionaries -/

/-- The keys of the dictionary are parameters of the class, and each required one is there. -/
def fieldsOk (required optional : List String) (items : List (String × Raw)) : Bool :=
  required.all ((items.map (·.1)).contains ·) && (items.map (·.1)).all ((required ++ optional).contains ·)

def fieldVal (items : List (String × Raw)) (key : String) (default : PyVal) : PyVal :=
  ((items.lookup key).map Raw.toVal).getD default

def stepItemOf : Raw → StepItem
  | .step s => .step s
  | r => .other r.toVal

def stepsOf : Raw → Steps
  | .list xs => .list (xs.map stepItemOf)
  | r => .other r.toVal

def retryFieldOf : Raw → RetryField
  | .retryPolicy p => .policy p
  | r => .other r.toVal

def planFieldOf : Raw → PlanField
  | .plan p => .plan p
  | r => .other r.toVal

def planRequired : List String :=
  ["id", "version", "created_at", "steps", "name", "context_requirements"]

def planOptional : List String :=
  ["priority", "timeout_ms", "retry_policy", "metadata", "tags", "estimated_duration_ms"]

/-- `Plan(**items)`. -/
def planOf (items : List (String × Raw)) : Except Exc Plan :=
  if fieldsOk planRequired planOptional items then
    .ok {
      id := fieldVal items "id" .null
      version := fieldVal items "version" .null
      createdAt := fieldVal items "created_at" .null
      steps := stepsOf ((items.lookup "steps").getD (.val .null))
      name := fieldVal items "name" .null
      contextRequirements := fieldVal items "context_requirements" .null
      priority := fieldVal items "priority" (.int 0)
      timeoutMs := fieldVal items "timeout_ms" (.int 300000)
      retryPolicy := retryFieldOf ((items.lookup "retry_policy").getD (.val .null))
      metaData := fieldVal items "metadata" (.dict [])
      tags := fieldVal items "tags" (.list [])
      estimatedDurationMs := fieldVal items "estimated_duration_ms" .null }
  else .error .typeError

def contextRequired : List String :=
  ["plan", "execution_id", "started_at", "deadline_ms", "environment"]

def contextOptional : List String :=
  ["parent_execution_id", "user_id", "request_id", "correlation_context"]

/-- `ExecutionContext(**items)`. -/
def contextOf (items : List (String × Raw)) : Except Exc ExecutionContext :=
  if fieldsOk contextRequired contextOptional items then
    .ok {
      plan := planFieldOf ((items.lookup "plan").getD (.val .null))
      executionId := fieldVal items "execution_id" .null
      startedAt := fieldVal items "started_at" .null
      deadlineMs := fieldVal items "deadline_ms" .null
      environment := fieldVal items "environment" .null
      parentExecutionId := fieldVal items "parent_execution_id" .null
      userId := fieldVal items "user_id" .null
      requestId := fieldVal items "request_id" .null
      correlationContext := fieldVal items "correlation_context" .null }
  else .error .typeError

/-- `Plan(**plan)` of a dictionary; another argument is taken as it is. -/
def buildPlan : Raw → Except Exc Raw
  | .dict items => (planOf items).map .plan
  | r => .ok r

/-- `ExecutionContext(**execution_ctx)` of a dictionary; another argument is taken as it is. -/
def buildContext : Raw → Except Exc Raw
  | .dict items => (contextOf items).map .context
  | r => .ok r

/-! ## Dictionaries of objects -/

def PlanStep.asdict (s : PlanStep) : Raw :=
  .dict [("id", .val s.id), ("action", .val s.action), ("payload", .val s.payload),
    ("depends_on", .val s.dependsOn), ("on_failure", .val s.onFailure),
    ("timeout_ms", .val s.timeoutMs)]

def RetryPolicy.asdict (p : RetryPolicy) : Raw :=
  .dict [("max_attempts", .val p.maxAttempts), ("backoff_ms", .val p.backoffMs),
    ("backoff_multiplier", .val p.backoffMultiplier), ("max_backoff_ms", .val p.maxBackoffMs),
    ("retryable_error_codes", .val p.retryableErrorCodes)]

def StepItem.asdict : StepItem → Raw
  | .step s => s.asdict
  | .other v => .val v

def Steps.asdict : Steps → Raw
  | .list items => .list (items.map StepItem.asdict)
  | .other v => .val v

def RetryField.asdict : RetryField → Raw
  | .policy p => p.asdict
  | .other v => .val v

def Plan.items (p : Plan) : List (String × Raw) :=
  [("id", .val p.id), ("version", .val p.version), ("created_at", .val p.createdAt),
    ("steps", p.steps.asdict), ("name", .val p.name),
    ("context_requirements", .val p.contextRequirements), ("priority", .val p.priority),
    ("timeout_ms", .val p.timeoutMs), ("retry_policy", p.retryPolicy.asdict),
    ("metadata", .val p.metaData), ("tags", .val p.tags),
    ("estimated_duration_ms", .val p.estimatedDurationMs)]

/-- The plan as a plain dictionary. -/
def Plan.asdict (p : Plan) : Raw := .dict p.items

def PlanField.asdict : PlanField → Raw
  | .plan p => p.asdict
  | .other v => .val v

def ExecutionContext.items (c : ExecutionContext) : List (String × Raw) :=
  [("plan", c.plan.asdict), ("execution_id", .val c.executionId),
    ("started_at", .val c.startedAt), ("deadline_ms", .val c.deadlineMs),
    ("environment", .val c.environment), ("parent_execution_id", .val c.parentExecutionId),
    ("user_id", .val c.userId), ("request_id", .val c.requestId),
    ("correlation_context", .val c.correlationContext)]

/-- The context as a plain dictionary, with its plan as one. -/
def ExecutionContext.asdict (c : ExecutionContext) : Raw := .dict c.items

/-! ## The executor of the repository -/

/-- What an executor raises: `NotImplementedError`, or another exception. -/
inductive ExecutorExc where
  | notImplemented
  | raised (e : Exc)

/-- `execute` of a plan that is none: it is rejected, and the result of that has no plan to read its id
from. -/
def executeUntyped (ctx : ExecutionContext) (now : ℤ) : Except Exc PlanResult := do
  let _ ← orTypeError (PyVal.subFrom? now ctx.startedAt)
  throw .attributeError

/-- `execute_plan`; only a context has a plan. -/
def executePlan (now : ℤ) : Raw → Except ExecutorExc PlanResult
  | .context ctx =>
    match ctx.plan with
    | .plan plan => (execute plan ctx now).mapError .raised
    | .other _ => (executeUntyped ctx now).mapError .raised
  | _ => .error (.raised .attributeError)

/-! ## `execute_plan_if_enabled` -/

/-- What it returns: the empty dictionary, or that of a result, field by field. -/
inductive Reply where
  | empty
  | result (r : PlanResult)

/-- The plan and the context of the arguments, and the result of the executor for the context. -/
def delegatePlan (executor : Raw → Except ExecutorExc PlanResult) (plan executionCtx : Raw) :
    Except ExecutorExc PlanResult := do
  let _ ← (buildPlan plan).mapError ExecutorExc.raised
  let ctx ← (buildContext executionCtx).mapError ExecutorExc.raised
  executor ctx

def executePlanIfEnabled (enabled : Bool) (executor : Raw → Except ExecutorExc PlanResult)
    (plan executionCtx : Raw) : Except ExecutorExc Reply :=
  if enabled then
    match delegatePlan executor plan executionCtx with
    | .ok result => .ok (.result result)
    | .error .notImplemented => .error .notImplemented
    | .error (.raised _) => .ok .empty
  else .ok .empty

end PlanExec
