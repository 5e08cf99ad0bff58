import Mathlib.Data.Rat.Init
import IctAlgo.Lib.Dict

/-!
# Plans as step graphs

`PlanExecutor.run_plan` of `reasoner_service/plan_executor.py`. A plan is known by what the run reads
of it; `_run_step` by its replies, one for each call. `V` is the type of the results and of the
signal and the decision, which the run only hands on. The loop over the steps is bounded by nothing
in the code: `runLoop` has fuel and gives `none` when it is used up. The semaphore never stops a
single run, and the waits between attempts only let time pass.
-/

set_option autoImplicit false

namespace PlanRun

open Lib

/-! ## Data -/

/-- A step. An error is the exception that the conversion of the value raises. -/
structure PlanStep where
  /-- `int(step.get("retries", 1))`. -/
  retries : Except String ℤ := .ok 1
  onSuccess : Option String := none
  onFailure : Option String := none
  /-- `float(step.get("retry_delay_s", 0))`. -/
  retryDelayS : Except String ℚ := .ok 0

/-- A plan; an entry is missing when it is absent or of the wrong type. -/
structure Plan where
  start : Option String
  steps : Option (Dict String PlanStep)

structure ExecutionContext (V : Type) where
  signal : V
  decision : V
  corrId : String
  results : Dict String V := .empty

/-- What a failed plan publishes. -/
structure DlqPayload (V : Type) where
  corrId : String
  signal : V
  decision : V
  failedStep : PlanStep
  error : String

/-- The orchestrator. -/
structure Orch (V : Type) where
  /-- What the call of `_run_step` with this number returns or raises. -/
  reply : ℕ → Except String V
  /-- `publish_to_dlq` can be called. What it raises is not passed on. -/
  publishes : Bool := true

/-- A run, with the number of calls of `_run_step` and of `publish_to_dlq`. -/
structure Run (V : Type) where
  ctx : ExecutionContext V
  calls : ℕ := 0
  published : List (DlqPayload V) := []

variable {V : Type}

/-- The step id, if the value is truthy. -/
def truthy (current : Option String) : Option String := current.filter (· ≠ "")

def Run.called (run : Run V) : Run V := { run with calls := run.calls + 1 }

def Run.store (run : Run V) (stepId : String) (result : V) : Run V :=
  { run with ctx := { run.ctx with results := run.ctx.results.set stepId result } }

/-- `_handle_failure_to_dlq`. -/
def handleFailureToDlq (orch : Orch V) (step : PlanStep) (exc : String) (run : Run V) : Run V :=
  if orch.publishes then { run with published := run.published ++ [{
    corrId := run.ctx.corrId
    signal := run.ctx.signal
    decision := run.ctx.decision
    failedStep := step
    error := exc }] }
  else run

/-! ## The loops -/

/-- How the loop over the attempts ends: with the cursor and `succeeded`, or with the plan. -/
inductive Turn
  | moved (current : Option String) (succeeded : Bool)
  | returned
  | raised (exc : String)

/-- The loop over the attempts at a step, with `left` of them left. -/
def attempts (orch : Orch V) (stepId : String) (step : PlanStep) : ℕ → Run V → Run V × Turn
  -- no attempt is made, and the cursor stays where it is
  | 0, run => (run, .moved (some stepId) false)
  | left + 1, run =>
    match orch.reply run.calls with
    | .ok result => (run.called.store stepId result, .moved step.onSuccess true)
    | .error exc =>
      if left = 0 then
        match truthy step.onFailure with
        | some failNext => (run.called, .moved (some failNext) false)
        | none => (handleFailureToDlq orch step exc run.called, .returned)
      else match step.retryDelayS with
        | .ok _ => attempts orch stepId step left run.called
        | .error e => (run.called, .raised e)

/-- The loop over the steps. -/
def runLoop (orch : Orch V) (steps : Dict String PlanStep) :
    ℕ → Run V → Option String → Option (Run V × Except String Unit)
  | 0, _, _ => none
  | fuel + 1, run, current =>
    match truthy current with
    | none => some (run, .ok ())
    | some stepId =>
      match steps.get? stepId with
      | none => some (run, .ok ())
      | some step =>
        match step.retries with
        | .error e => some (run, .error e)
        | .ok maxRetries =>
          match attempts orch stepId step maxRetries.toNat run with
          | (run, .moved current succeeded) =>
            if !succeeded && truthy current = none then some (run, .ok ())
            else runLoop orch steps fuel run current
          | (run, .returned) => some (run, .ok ())
          | (run, .raised e) => some (run, .error e)

/-- `run_plan`, with the fuel of its loop; the results are those of the context. -/
def runPlan (orch : Orch V) (plan : Plan) (ctx : ExecutionContext V) (fuel : ℕ) :
    Option (Run V × Except String Unit) :=
  match plan.start with
  | none => some ({ ctx }, .error "plan must contain a 'start' string")
  | some start =>
    match plan.steps with
    | none => some ({ ctx }, .error "plan must contain a 'steps' dict mapping step_id -> step")
    | some steps => runLoop orch steps fuel { ctx } (some start)

end PlanRun
