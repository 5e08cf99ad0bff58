import IctAlgo.Signals.Screening

/-!
# The signal worker

`signal_worker` of `services/signal_processor.py`. What the session, the analysis, the orchestrator, the
memory and the messenger do for an item is a parameter (`Env`); each call may raise. An item is marked
by `task_done`; the worker goes on unless an exception leaves the body of its loop.
-/

set_option autoImplicit false

namespace Signals

open Lib Orchestrator

/-- The calls that the worker makes for an item. -/
structure Env where
  openSession : Except Raised Unit
  closeSession : Except Raised Unit
  rollback : Except Raised Unit
  /-- The line in the log with the data of a dropped signal. -/
  logDropped : String → Value → Except Raised Unit
  newSignal : Value → Except Raised Unit
  addSignal : Except Raised Unit
  commitSignal : Except Raised Unit
  refreshSignal : Except Raised Unit
  analyzeSignal : Value → Except Raised Value
  importOrchestrator : Except Raised Unit
  newOrchestrator : Except Raised Unit
  /-- `db_signal.id`. -/
  signalId : Except Raised ℤ
  /-- `db_signal.confidence`. -/
  signalConfidence : Except Raised Value
  executePlan : Value → Except Raised Value
  /-- `str(v)`. -/
  str : Value → Except Raised String
  newAnalysis : ℤ → Value → Value → Value → Except Raised Unit
  addAnalysis : Except Raised Unit
  commitAnalysis : Except Raised Unit
  addToMemory : Value → Value → Except Raised Unit
  formatAlert : Value → Value → Except Raised String
  sendTelegramAlert : String → Except Raised Unit

/-- How the block of a session is left: by a `continue` after the item was marked, or at its end. -/
inductive Exit
  | continued
  | finished
  deriving DecidableEq

/-- `SQLAlchemyError`. -/
def sqlAlchemyError : ExceptionClass := .other "SQLAlchemyError"

section
variable (py : Py) (env : Env)

/-- The plan of an analysis is executed; what is raised there is dropped. -/
def executePlanOf (aiResult : Value) : Except Raised Value :=
  catching (do
    env.importOrchestrator
    match aiResult with
    | .dict items =>
      match items.lookup "plan" with
      | some (.dict plan) => do
        env.newOrchestrator
        let _ ← env.signalId
        catching (do
          let planResults ← env.executePlan (.dict plan)
          if planResults.truthy then
            return .dict (Dict.setItems items "plan_results" planResults)
          else return aiResult)
          fun _ => .ok aiResult
      | _ => return aiResult
    | _ => return aiResult)
    fun _ => .ok aiResult

/-- `v.get`, which is looked up before its arguments are evaluated. -/
def lookupGet (v : Value) : Except Raised Unit :=
  match v with
  | .dict _ | .object .. => .ok ()
  | _ => .error (.shown (.other "AttributeError") "object has no attribute 'get'")

/-- The row of an analysis is made; the text of the analysis. -/
def analysisOf (aiResult : Value) : Except Raised Value := do
  let gptAnalysis ←
    if ← py.contains aiResult "content" then py.item aiResult "content"
    else (env.str aiResult).map Value.str
  let signalId ← env.signalId
  lookupGet aiResult
  let confidence ← env.signalConfidence
  let score ← py.get aiResult "score" confidence
  let recommendation ← py.get aiResult "explanation" (.str "")
  env.newAnalysis signalId gptAnalysis score recommendation
  return gptAnalysis

/-- The part of the `try` after the screening. -/
def process (signalData : Value) : Except Raised Unit := do
  env.newSignal signalData
  env.addSignal
  env.commitSignal
  env.refreshSignal
  let aiResult ← env.analyzeSignal signalData
  let aiResult ← executePlanOf env aiResult
  let gptAnalysis ← analysisOf py env aiResult
  env.addAnalysis
  env.commitAnalysis
  catching (env.addToMemory signalData gptAnalysis) fun e => do
    let _ ← e.str
    return ()
  let alertMsg ← env.formatAlert signalData aiResult
  env.sendTelegramAlert alertMsg

/-- The body of the `try`. -/
def attempt (signalData : Value) : Except Raised Exit := do
  match ← screen py signalData with
  | .dropped log =>
    env.logDropped log signalData
    return .continued
  | .accepted signalData =>
    process py env signalData
    return .finished

/-- The handlers of the `try`; both write the exception. -/
def handle (e : Raised) : Except Raised Exit := do
  if e.cls = sqlAlchemyError then
    let _ ← e.str
    env.rollback
    return .finished
  else if e.isException then
    let _ ← e.str
    return .finished
  else .error e

/-- The `try` with its handlers. -/
def guarded (signalData : Value) : Except Raised Exit :=
  match attempt py env signalData with
  | .ok exit => .ok exit
  | .error e => handle env e

/-- What has happened to an item when the worker is done with it. -/
structure Outcome where
  /-- The calls of `task_done`. -/
  marks : ℕ
  goesOn : Bool
  deriving DecidableEq

/-- The body of the loop, for an item that was taken. -/
def work (signalData : Value) : Outcome :=
  match env.openSession with
  | .error _ => ⟨0, false⟩
  | .ok () =>
    match guarded py env signalData, env.closeSession with
    | .error _, _ => ⟨0, false⟩
    | .ok .continued, .ok () => ⟨1, true⟩
    | .ok .continued, .error _ => ⟨1, false⟩
    | .ok .finished, .ok () => ⟨1, true⟩
    | .ok .finished, .error _ => ⟨0, false⟩

/-- `signal_worker`, for items as they are taken from the queue. -/
def signalWorker : List (Value × Env) → List Outcome
  | [] => []
  | (signalData, env) :: items =>
    let outcome := work py env signalData
    if outcome.goesOn then outcome :: signalWorker items else [outcome]

end

end Signals
