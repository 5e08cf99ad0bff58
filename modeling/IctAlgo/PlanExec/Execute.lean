import IctAlgo.PlanExec.Validate

/-!
# The executor

`_execute_steps`, `_build_plan_result` and `execute` of `PlanExecutor`. `now` is the completion time
in milliseconds, the one clock reading of a call.
-/

set_option autoImplicit false

namespace PlanExec

open Lib

/-! ## Steps -/

def unresolved (s : PlanStep) (dep : PyVal) : ExecutionError where
  errorCode := .dependencyUnresolved
  message := [.text "Step ", .val s.id, .text " dependency ", .val dep, .text " not completed"]
  stepId := some s.id
  severity := .error

def skipped (s : PlanStep) : ExecutionError where
  errorCode := .stepSkipped
  message := [.text "Step ", .val s.id, .text " skipped due to dependency failure"]
  stepId := some s.id
  severity := .warn

def retryMissing (s : PlanStep) : ExecutionError where
  errorCode := .executionHalted
  message := [.text "Step ", .val s.id, .text " retry policy not implemented"]
  stepId := some s.id
  severity := .fatal

/-- Where the loop over the dependencies of a step ends. -/
structure DepCheck where
  satisfied : Bool
  halted : Bool
  firstError : Option ExecutionError

/-- The loop over the dependencies. An `on_failure` that is none of the modes goes on. -/
def checkDeps (s : PlanStep) (completed : List PyVal) (c : DepCheck) :
    List PyVal → Except Exc DepCheck
  | [] => .ok c
  | dep :: deps => do
    if ← orTypeError (dep.mem? completed) then checkDeps s completed c deps
    else match s.onFailure with
      | .str "halt" => return ⟨false, true, some (unresolved s dep)⟩
      | .str "skip" => return ⟨false, false, some (skipped s)⟩
      | .str "retry" => return ⟨false, true, some (retryMissing s)⟩
      | _ => checkDeps s completed ⟨false, false, some (unresolved s dep)⟩ deps

/-- The variables of the loop over the steps. -/
structure Progress where
  stepsExecuted : ℕ := 0
  firstError : Option ExecutionError := none
  completed : List PyVal := []

/-- A run of the loop over the steps: its variables before each step that it comes to, and at its
end. -/
structure Run where
  before : List Progress
  last : Progress

def Run.states (run : Run) : List Progress := run.before ++ [run.last]

/-- The run that comes to one step more, before the others. -/
def Run.from (p : Progress) (run : Run) : Run := { run with before := p :: run.before }

/-- The loop over the steps. -/
def runSteps (p : Progress) : List StepItem → Except Exc Run
  | [] => .ok ⟨[], p⟩
  | .other _ :: _ => .error .attributeError
  | .step s :: items => do
    let deps ← orTypeError s.dependsOn.iter?
    let c ← checkDeps s p.completed ⟨true, false, p.firstError⟩ deps
    if c.halted then return ⟨[p], { p with firstError := c.firstError }⟩
    else if c.satisfied then
      orTypeError (if s.id.hashable then some () else none)
      let run ← runSteps { p with
        stepsExecuted := p.stepsExecuted + 1
        completed := p.completed ++ [s.id] } items
      return run.from p
    else
      let run ← runSteps { p with firstError := c.firstError } items
      return run.from p

/-- `_execute_steps`, which returns the first two variables of the end of its run. No value but a list
holds steps. -/
def executeSteps (plan : Plan) : Except Exc Run :=
  match plan.steps with
  | .list items => runSteps {} items
  | .other v => do
    match ← orTypeError v.iter? with
    | [] => return ⟨[], {}⟩
    | _ :: _ => .error .attributeError

/-! ## Results -/

/-- The status of a result. -/
def statusOf (stepsExecuted stepsTotal : ℕ) : Option ExecutionError → Status
  | none => if stepsExecuted = stepsTotal then .success else .partialSuccess
  | some e => if e.severity ≠ .fatal ∧ stepsExecuted > 0 then .partialSuccess else .failure

/-- `_build_plan_result`. -/
def buildPlanResult (plan : Plan) (ctx : ExecutionContext) (now : ℤ) (stepsExecuted : ℕ)
    (error : Option ExecutionError) : Except Exc PlanResult := do
  let durationMs ← orTypeError (PyVal.subFrom? now ctx.startedAt)
  let stepsTotal ← orTypeError plan.steps.len?
  return {
    planId := plan.id
    executionId := ctx.executionId
    status := statusOf stepsExecuted stepsTotal error
    completedAt := now
    durationMs, stepsExecuted, stepsTotal, error }

/-- The call of `_validate_context` with these arguments. -/
def callValidateContext : List Arg → Except Exc Unit
  | [arg] => validateContext arg
  | _ => .error .typeError

/-- `execute`. It hands the plan and the context to `_validate_context`. -/
def execute (plan : Plan) (ctx : ExecutionContext) (now : ℤ) : Except Exc PlanResult :=
  match validatePlan plan with
  | .error (.validation e) => buildPlanResult plan ctx now 0 (some e)
  | .error e => .error e
  | .ok () =>
    match callValidateContext [.plan plan, .context ctx] with
    | .error (.validation e) => buildPlanResult plan ctx now 0 (some e)
    | .error e => .error e
    | .ok () => do
      let run ← executeSteps plan
      buildPlanResult plan ctx now run.last.stepsExecuted run.last.firstError

end PlanExec
