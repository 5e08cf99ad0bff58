import Mathlib.Data.List.Infix
import IctAlgo.Lib.Raising
import IctAlgo.Lib.Isoformat
import IctAlgo.Orchestrator.Decision

/-!
# Screening signals

What `services/signal_processor.py` decides about a signal before it is stored: `validate_signal`,
`passes_confluence`, `is_in_killzone` and `score_signal`. A queued item is any value; what an object
does, and what Python reads from a text in other notations, is a parameter (`Py`).
-/

set_option autoImplicit false

namespace Signals

open Lib Lib.Isoformat Orchestrator

structure Py where
  /-- Texts that `fromisoformat` reads from Python 3.11 on. -/
  laterIso : List Char → Option Datetime
  /-- `float(text)` of a text that is no decimal number. -/
  otherFloat : List Char → Option PyFloat
  intText : String → Option ℤ
  /-- `utcfromtimestamp(ts // 1000)` of what is neither a text nor an integer. -/
  otherTimestamp : Value → Except Raised Datetime
  objectContains : Value → String → Except Raised Bool
  objectItem : Value → String → Except Raised Value
  objectSetItem : Value → String → Value → Except Raised Value
  objectGet : Value → String → Value → Except Raised Value
  objectLen : Value → Except Raised ℤ
  objectInt : Value → Except Raised ℤ
  objectLess : Value → ℤ → Except Raised Bool

/-- `needle in text`. -/
def hasText (needle text : String) : Bool := decide (needle.toList <:+: text.toList)

namespace Py

variable (py : Py)

def typeError {α : Type} (text : String) : Except Raised α := .error (.shown .typeError text)

/-- `key in v`. -/
def contains (v : Value) (key : String) : Except Raised Bool :=
  match v with
  | .dict items => .ok (items.lookup key).isSome
  | .list xs => .ok (xs.contains (.str key))
  | .str text => .ok (hasText key text)
  | .object cls truth ref => py.objectContains (.object cls truth ref) key
  | _ => typeError "argument is not iterable"

/-- `v[key]`. -/
def item (v : Value) (key : String) : Except Raised Value :=
  match v with
  | .dict items =>
    match items.lookup key with
    | some w => .ok w
    | none => .error (.shown (.other "KeyError") s!"'{key}'")
  | .object cls truth ref => py.objectItem (.object cls truth ref) key
  | _ => typeError "object is not subscriptable by a text"

/-- `v[key] = w`. -/
def setItem (v : Value) (key : String) (w : Value) : Except Raised Value :=
  match v with
  | .dict items => .ok (.dict (Dict.setItems items key w))
  | .object cls truth ref => py.objectSetItem (.object cls truth ref) key w
  | _ => typeError "object does not support item assignment"

/-- `v.get(key, default)`. -/
def get (v : Value) (key : String) (default : Value) : Except Raised Value :=
  match v with
  | .dict items => .ok ((items.lookup key).getD default)
  | .object cls truth ref => py.objectGet (.object cls truth ref) key default
  | _ => .error (.shown (.other "AttributeError") "object has no attribute 'get'")

/-- `len(v)`. -/
def len (v : Value) : Except Raised ℤ :=
  match v with
  | .dict items => .ok items.length
  | .list xs => .ok xs.length
  | .str text => .ok text.length
  | .object cls truth ref => py.objectLen (.object cls truth ref)
  | _ => typeError "object has no len()"

/-- `int(v)`. -/
def int (v : Value) : Except Raised ℤ :=
  match v with
  | .int n => .ok n
  | .bool b => .ok (if b then 1 else 0)
  | .float x =>
    match x.toInt? with
    | some n => .ok n
    | none => .error (.shown (.other "OverflowError") "cannot convert float to integer")
  | .str text =>
    match py.intText text with
    | some n => .ok n
    | none => .error (.shown .valueError "invalid literal for int()")
  | .object cls truth ref => py.objectInt (.object cls truth ref)
  | _ => typeError "int() argument must be a string or a number"

/-- `v < n`. -/
def less (v : Value) (n : ℤ) : Except Raised Bool :=
  match v with
  | .int m => .ok (m < n)
  | .bool b => .ok ((if b then 1 else 0) < n)
  | .float x => .ok (x.lt (.fin n))
  | .object cls truth ref => py.objectLess (.object cls truth ref) n
  | _ => typeError "'<' not supported"

/-- `datetime.fromisoformat(text)`. -/
def fromisoformat (cs : List Char) : Option Datetime := (isoformat? cs).or (py.laterIso cs)

/-- `float(text)`. -/
def float (cs : List Char) : Option PyFloat :=
  match decimal? cs with
  | some q => some (Binary64.nearest q)
  | none => py.otherFloat cs

end Py

/-! ## Validation -/

def requiredFields : List String :=
  ["symbol", "timeframe", "signal_type", "confidence", "timestamp", "price_data", "sl", "tp",
    "multi_tf", "confluences"]

def priceFields : List String := ["open", "high", "low", "close"]

section
variable (py : Py)

/-- The loops of `validate_signal`: the first key that is not in the container. -/
def firstMissing (container : Except Raised Value) : List String → Except Raised (Option String)
  | [] => .ok none
  | key :: keys => do
    let v ← container
    if ← py.contains v key then firstMissing container keys else return some key

/-- The check of the confidence, inside its `try`. -/
def confidenceError (signalData : Value) : Except Raised (Option String) := do
  let confidence ← py.item signalData "confidence"
  let conf ← py.int confidence
  return if 0 ≤ conf ∧ conf ≤ 100 then none else some "Confidence out of range"

/-- `validate_signal`; `none` when the signal is valid. -/
def validateSignal (signalData : Value) : Except Raised (Option String) := do
  match ← firstMissing py (.ok signalData) requiredFields with
  | some field => return some s!"Missing required field: {field}"
  | none =>
    match ← firstMissing py (py.item signalData "price_data") priceFields with
    | some k => return some s!"Missing price_data field: {k}"
    | none =>
      catching (confidenceError py signalData) fun _ => .ok (some "Invalid confidence value")

/-! ## Killzones -/

/-- The windows of the sessions that a text names, in hours. -/
def inWindow (session : String) (hour : ℤ) : Bool :=
  (hasText "london" session && (7 ≤ hour && hour < 10)) ||
    (hasText "ny" session && (12 ≤ hour && hour < 15))

def stripZ (cs : List Char) : List Char := if cs.getLast? = some 'Z' then cs.dropLast else cs

/-- `utcfromtimestamp` of a number of seconds. -/
def utcfromtimestamp (seconds : ℤ) : Except Raised Datetime :=
  match utcOfMicros? (seconds * 1000000) with
  | some dt => .ok dt
  | none => .error (.shown .valueError "year is out of range")

/-- The time of a timestamp; `none` for a text that is none. -/
def parseTimestamp (ts : Value) : Except Raised (Option Datetime) :=
  match ts with
  | .str text =>
    let ts := stripZ text.toList
    .ok ((py.fromisoformat ts).or ((py.float ts).bind utcfromtimestamp?))
  | .int ms => (utcfromtimestamp (ms / 1000)).map some
  | .bool _ => (utcfromtimestamp 0).map some
  | ts => (py.otherTimestamp ts).map some

/-- `is_in_killzone`. -/
def isInKillzone (ts : Value) (session : String) : Except Raised Bool := do
  match ← parseTimestamp py ts with
  | none => return false
  | some dt => return inWindow session dt.hour

/-! ## Scores -/

def defaultSession : String := "london,ny"

/-- `passes_confluence`. -/
def passesConfluence (signalData : Value) (minConfluences : ℤ) : Except Raised Bool := do
  let conf ← py.get signalData "confluences" (.list [])
  let n ← py.len conf
  return minConfluences ≤ n

/-- `score_signal`. -/
def scoreSignal (signalData : Value) : Except Raised ℤ := do
  let conf ← py.get signalData "confluences" (.list [])
  let n ← py.len conf
  let timestamp ← py.item signalData "timestamp"
  let sessionBonus := if ← isInKillzone py timestamp defaultSession then 10 else 0
  let signalType ← py.item signalData "signal_type"
  let typeBonus := if signalType = .str "CHoCH" ∨ signalType = .str "BoS" then 10 else 0
  return min 100 (60 + n * 10 + sessionBonus + typeBonus)

/-- What the worker decides about a signal. -/
inductive Screened
  /-- The signal is dropped, with a line in the log. -/
  | dropped (log : String)
  | accepted (signalData : Value)

def Screened.isAccepted : Screened → Bool
  | .dropped _ => false
  | .accepted _ => true

/-- The part of `signal_worker` before a signal is saved. -/
def screen (signalData : Value) : Except Raised Screened := do
  match ← validateSignal py signalData with
  | some err => return .dropped s!"Invalid signal: {err}"
  | none =>
    if ← passesConfluence py signalData 2 then
      let timestamp ← py.item signalData "timestamp"
      if ← isInKillzone py timestamp defaultSession then
        let score ← scoreSignal py signalData
        let signalData ← py.setItem signalData "confidence" (.int score)
        let confidence ← py.item signalData "confidence"
        if ← py.less confidence 75 then return .dropped "Signal dropped: low confidence"
        else return .accepted signalData
      else return .dropped "Signal dropped: not in killzone"
    else return .dropped "Signal dropped: insufficient confluences"

end

end Signals
