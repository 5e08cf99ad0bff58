import IctAlgo.Lib.Format
import IctAlgo.PlanRun.Executor

/-!
# Notifications of a plan

`flatten_results` and the step `notify` of `_run_step`, of `reasoner_service/plan_executor.py`. A result
is nested dictionaries over values that are none, of the type `L`. What Python's objects answer is a
parameter (`Python`), but for the items of a dictionary.
-/

set_option autoImplicit false

namespace PlanRun

open Lib Lib.Format

/-- A result of a step. -/
inductive Result (L : Type)
  | leaf (v : L)
  | dict (items : List (String × Result L))

/-- What Python's objects answer. -/
structure Python (L : Type) where
  unicode : Unicode
  /-- `repr(text)`. -/
  quote : String → String
  getattr : Result L → String → Except Raised (Result L)
  /-- `v[key]` of a value that is no dictionary. -/
  leafItem : L → Key → Except Raised (Result L)
  str : Result L → Except Raised (Result L)
  repr : Result L → Except Raised (Result L)
  ascii : Result L → Except Raised (Result L)
  /-- `format(v, spec)`. -/
  format : Result L → String → Except Raised String
  ofBool : Bool → L

section
variable {L : Type} (py : Python L)

/-- `v[key]`. -/
def Python.getitem (v : Result L) (key : Key) : Except Raised (Result L) :=
  match v, key with
  | .leaf v, key => py.leafItem v key
  | .dict items, .text key =>
    match items.lookup key with
    | some w => .ok w
    | none => .error (.shown (.other "KeyError") (py.quote key))
  -- the keys are texts
  | .dict _, .index n => .error (.shown (.other "KeyError") (toString n))

def Python.objects : Objects (Result L) where
  unicode := py.unicode
  quote := py.quote
  getattr := py.getattr
  getitem := py.getitem
  str := py.str
  repr := py.repr
  ascii := py.ascii
  format := py.format

/-! ## Flat results -/

/-- `key_dot.startswith('results')`. -/
def startsWithResults (keyDot : String) : Bool := "results".toList.isPrefixOf keyDot.toList

/-- `key_dot.replace('.', '][')`. -/
def bracketed (keyDot : String) : String :=
  String.ofList (keyDot.toList.flatMap fun c => if c = '.' then [']', '['] else [c])

/-- Both keys of a value that is no dictionary. -/
def setLeaf (flat : Dict String (Result L)) (keyDot : String) (v : L) : Dict String (Result L) :=
  let flatKey1 := if startsWithResults keyDot then keyDot else s!"results.{keyDot}"
  (flat.set flatKey1 (.leaf v)).set s!"results[{bracketed keyDot}]" (.leaf v)

mutual

/-- `_recurse`; `keyDot` is its `prefix`. -/
def recurse (keyDot : String) : Result L → Dict String (Result L) → Dict String (Result L)
  | .leaf v, flat => setLeaf flat keyDot v
  | .dict items, flat => recurseItems keyDot items flat

def recurseItems (keyDot : String) :
    List (String × Result L) → Dict String (Result L) → Dict String (Result L)
  | [], flat => flat
  | (k, v) :: items, flat =>
    recurseItems keyDot items (recurse (if keyDot = "" then k else s!"{keyDot}.{k}") v flat)

end

/-- `flatten_results`. -/
def flattenResults (results : Dict String (Result L)) : Dict String (Result L) :=
  (results.items.foldl (fun flat item => recurse item.1 item.2 flat) .empty).set "results"
    (.dict results.items)

/-! ## The step -/

/-- The specification of a step `notify`. -/
structure NotifySpec where
  channel : Option String
  payload : Option String

/-- `spec[key]`. -/
def NotifySpec.item (key : String) (entry : Option String) : Except Raised String :=
  match entry with
  | some text => .ok text
  | none => .error (.shown (.other "KeyError") s!"'{key}'")

/-- The payload, rendered with the flat results. -/
def renderPayload (payloadTemplate : String) (results : Dict String (Result L)) :
    Except Raised String :=
  let flat := flattenResults results
  catching (format py.objects flat.get? payloadTemplate.toList) fun e => do
    let text ← e.str
    .error (.shown (.other "RuntimeError") s!"failed to render payload: {text}")

/-- What `notify` of the orchestrator does with a channel and a text. -/
abbrev Notify (L : Type) := String → String → ExecutionContext (Result L) → Except Raised Unit

/-- `{"ok": True}`. -/
def notified : Result L := .dict [("ok", .leaf (py.ofBool true))]

/-- `_run_step`, of a step `notify`. -/
def runNotify (notify : Notify L) (spec : NotifySpec) (ctx : ExecutionContext (Result L)) :
    Except Raised (Result L) := do
  let channel ← NotifySpec.item "channel" spec.channel
  let payloadTemplate ← NotifySpec.item "payload" spec.payload
  let rendered ← renderPayload py payloadTemplate ctx.results
  notify channel rendered ctx
  return notified py

end

end PlanRun
