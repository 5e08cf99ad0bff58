import IctAlgo.Orchestrator.Process
import IctAlgo.PlanExec.Boundary

/-!
# Events that ask for a plan

`handle_event` with the plan executor enabled: the plan and the context of the payload go through
`execute_plan_if_enabled`, and its reply is what the orchestrator sees of the plan.
-/

set_option autoImplicit false

namespace PlanExec

open Lib Orchestrator

section
variable (objects : ℕ → Raw)

mutual

/-- A value of a payload; an object is what it refers to. -/
def rawOf : Value → Raw
  | .null => .val .null
  | .bool b => .val (.bool b)
  | .int n => .val (.int n)
  | .float x => .val (.float x)
  | .str s => .val (.str s)
  | .list xs => .list (rawsOf xs)
  | .dict items => .dict (rawItems items)
  | .object _ _ ref => objects ref

def rawsOf : List Value → List Raw
  | [] => []
  | x :: xs => rawOf x :: rawsOf xs

def rawItems : List (String × Value) → List (String × Raw)
  | [] => []
  | (k, v) :: items => (k, rawOf v) :: rawItems items

end

end

def Status.text : Status → String
  | .success => "success"
  | .partialSuccess => "partial"
  | .failure => "failure"

/-- The dictionary of a reply, as far as `handle_event` looks at it. -/
def Reply.payload : Reply → Payload
  | .empty => .dict Dict.empty
  | .result r => .dict (Dict.ofItems [("status", .str r.status.text)])

/-- The call of `execute_plan_if_enabled`, which raises only `NotImplementedError`. -/
def planReply (executor : Raw → Except ExecutorExc PlanResult) (plan executionCtx : Raw) :
    Except String Payload :=
  match executePlanIfEnabled true executor plan executionCtx with
  | .ok reply => .ok reply.payload
  | .error _ => .error "Plan execution logic not yet implemented"

/-- What the event meets, with the executor behind the boundary. -/
def withExecutor (executor : Raw → Except ExecutorExc PlanResult) (objects : ℕ → Raw) (env : EventEnv)
    (event : Event) : EventEnv :=
  match event.payload with
  | .dict d =>
    { env with
      plan := planReply executor (rawOf objects (val d "plan"))
        (rawOf objects (val d "execution_context")) }
  | .other _ => env

end PlanExec
