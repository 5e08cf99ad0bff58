import IctAlgo.Lib.Raising
import IctAlgo.Lib.FloatSum
import IctAlgo.Orchestrator.Policy

/-!
# The reasoning manager

`reasoner_service/reasoning_manager.py`. What is called may raise: the reasoning function, `float()` and
`str()` of an object, the truth value of the logger and its methods. A parameter says what each does.
-/

set_option autoImplicit false

namespace Reasoning

open Lib Orchestrator

/-! ## Data -/

structure AdvisorySignal where
  decisionId : String
  signalType : String
  payload : List (String × Value)
  planId : Value := .null
  confidence : Option PyFloat := none
  reasoningMode : String := "default"
  timestamp : ℤ
  error : Option String := none
  metadata : Value := .dict []

/-- What a reasoning function does within the timeout. -/
inductive Reply
  | returned (raw : Value)
  | raised (e : Raised)
  | timeout

abbrev ReasoningFunction := Fields → Fields → ℤ → Reply

/-- A logger is asked for its truth value after the signals were made, and in the handler. -/
structure Logger where
  truth : Except Raised Bool
  truthOnError : Except Raised Bool
  logReasoningEvent : String → String → ℕ → ℤ → Except Raised Unit
  logReasoningError : String → String → String → Except Raised Unit

structure ReasoningManager where
  modes : Dict String ReasoningFunction
  timeoutMs : ℤ := 5000
  logger : Option Logger := none

/-- What Python reads from a text, and what `__float__` of an object does. -/
structure Floats where
  text : String → Option PyFloat
  object : Value → Except Raised PyFloat

/-- Times in milliseconds: when a call began and ended, and when a signal was made. -/
structure Clock where
  start : ℤ
  stop : ℤ
  made : ℕ → ℤ

/-- The arguments of `reason`. -/
structure Request where
  decisionId : String
  eventPayload : Payload
  executionContext : Option Fields := none
  reasoningMode : String := "default"
  planId : Option String := none

/-- `float(v)`. -/
def Floats.float (fl : Floats) : Value → Except Raised PyFloat
  | .bool b => .ok (.fin (if b then 1 else 0))
  | .int n =>
    match Binary64.floatOfInt? n with
    | some x => .ok x
    | none => .error (.shown (.other "OverflowError") "int too large to convert to float")
  | .float x => .ok x
  | .str s =>
    match fl.text s with
    | some x => .ok x
    | none => .error (.shown .valueError s!"could not convert string to float: '{s}'")
  | .object cls truth ref => fl.object (.object cls truth ref)
  | _ => .error (.shown .typeError "float() argument must be a string or a real number")

/-! ## Signals -/

section
variable (fl : Floats) (clock : Clock) (r : Request)

/-- The plan of the request, as an argument. -/
def Request.plan : Value := (r.planId.map Value.str).getD .null

def Request.errorSignal (payload : List (String × Value)) (error : String) (timestamp : ℤ) :
    AdvisorySignal where
  decisionId := r.decisionId
  signalType := "error"
  payload := payload
  planId := r.plan
  reasoningMode := r.reasoningMode
  timestamp := timestamp
  error := some error

/-- The signal type of a raw signal; one that is no text is `unknown`. -/
def signalTypeOf (items : List (String × Value)) : String :=
  match getKey items "signal_type" (.str "unknown") with
  | .str text => text
  | _ => "unknown"

/-- The payload of a raw signal; one that is no dictionary is empty. -/
def payloadOf (items : List (String × Value)) : List (String × Value) :=
  match getKey items "payload" (.dict []) with
  | .dict payload => payload
  | _ => []

/-- `0.0 <= confidence <= 1.0`. -/
def inUnit (x : PyFloat) : Bool := (PyFloat.fin 0).le x && x.le (.fin 1)

/-- The confidence of a raw signal: `ValueError` and `TypeError` are caught. -/
def confidence (v : Value) : Except Raised (Option PyFloat) :=
  if v = .null then .ok none
  else
    match fl.float v with
    | .ok x => .ok (if inUnit x then some x else none)
    | .error e => if e.cls = .valueError ∨ e.cls = .typeError then .ok none else .error e

/-- The body of the loop, inside its `try`. -/
def convert (idx : ℕ) : Value → Except Raised AdvisorySignal
  | .dict items => do
    let signalType := signalTypeOf items
    let payload := payloadOf items
    let confidence ← confidence fl (getKey items "confidence" .null)
    return {
      decisionId := r.decisionId
      signalType := signalType
      payload := payload
      planId := if r.plan.truthy then r.plan else getKey items "plan_id" .null
      confidence := confidence
      reasoningMode := r.reasoningMode
      timestamp := clock.made idx
      metadata := getKey items "metadata" (.dict []) }
  | _ => .ok (r.errorSignal [("index", .int idx)] "invalid_signal_type_in_list" (clock.made idx))

/-- The body of the loop. -/
def signalOf (idx : ℕ) (raw : Value) : Except Raised AdvisorySignal :=
  catching (convert fl clock r idx raw) fun e => do
    let detail ← e.str
    return r.errorSignal [("index", .int idx), ("error_detail", .str detail)]
      "signal_construction_failed" (clock.made idx)

/-- The loop over the raw signals. -/
def signalsFrom (idx : ℕ) : List Value → Except Raised (List AdvisorySignal)
  | [] => .ok []
  | raw :: raws => do
    let signal ← signalOf fl clock r idx raw
    let signals ← signalsFrom (idx + 1) raws
    return signal :: signals

end

namespace ReasoningManager

variable (m : ReasoningManager) (fl : Floats) (clock : Clock) (r : Request)

/-- The log entry after the loop; what its call raises is dropped. -/
def logCompletion (signalCount : ℕ) : Except Raised Unit :=
  match m.logger with
  | none => .ok ()
  | some logger => do
    if ← logger.truth then
      catching
        (logger.logReasoningEvent r.decisionId r.reasoningMode signalCount (clock.stop - clock.start))
        fun _ => .ok ()

/-- The body of the outer `try`, from the call of the reasoning function on. -/
def attempt : Reply → Except Raised (List AdvisorySignal)
  | .timeout => .ok [{
      decisionId := r.decisionId
      signalType := "timeout"
      payload := [("timeout_ms", .int m.timeoutMs)]
      planId := r.plan
      reasoningMode := r.reasoningMode
      timestamp := clock.stop
      error := some "reasoning_timeout_exceeded" }]
  | .raised e => .error e
  | .returned (.list raws) => do
    let signals ← signalsFrom fl clock r 0 raws
    m.logCompletion clock r signals.length
    return signals
  | .returned _ => .ok [r.errorSignal [] "invalid_reasoning_output_type" clock.stop]

/-- The log entry of the handler; what it raises is dropped. -/
def logFailure (e : Raised) : Except Raised Unit :=
  catching
    (match m.logger with
      | none => .ok ()
      | some logger => do
        if ← logger.truthOnError then
          let text ← e.str
          logger.logReasoningError r.decisionId r.reasoningMode text)
    fun _ => .ok ()

/-- The outer handler. -/
def handle (e : Raised) : Except Raised (List AdvisorySignal) := do
  m.logFailure r e
  let text ← e.str
  return [r.errorSignal [] s!"reasoning_exception: {text}" clock.stop]

/-- `reason`. -/
def reason : Except Raised (List AdvisorySignal) :=
  let executionContext := r.executionContext.getD .empty
  match r.eventPayload with
  | .other _ => .ok [r.errorSignal [] "invalid_event_payload_type" clock.stop]
  | .dict eventPayload =>
    match m.modes.get? r.reasoningMode with
    | none => .ok [r.errorSignal [] s!"unknown_reasoning_mode: {r.reasoningMode}" clock.stop]
    | some reasoningFn =>
      catching
        (m.attempt fl clock r (reasoningFn eventPayload executionContext m.timeoutMs))
        (m.handle clock r)

end ReasoningManager

end Reasoning
