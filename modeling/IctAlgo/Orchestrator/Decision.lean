import IctAlgo.Lib.Dict
import IctAlgo.Lib.PyVal

/-!
# Decisions

A decision is a dictionary with string keys and nested values. `_normalize_decision` and
`_get_routing_for_decision` of `reasoner_service/orchestrator.py`; what Python reads from a text and
writes for a value is a parameter (`Conv`).
-/

set_option autoImplicit false

namespace Orchestrator

open Lib

/-! ## Values -/

/-- A value of a decision. An object that is no JSON is known by its class, truth and identity. -/
inductive Value
  | null
  | bool (b : Bool)
  | int (n : ℤ)
  | float (x : PyFloat)
  | str (s : String)
  | list (xs : List Value)
  | dict (items : List (String × Value))
  | object (cls : String) (truth : Bool) (ref : ℕ)

namespace Value

mutual

def beq : Value → Value → Bool
  | .null, .null => true
  | .bool b, .bool c => b = c
  | .int m, .int n => m = n
  | .float x, .float y => x = y
  | .str s, .str t => s = t
  | .list xs, .list ys => beqList xs ys
  | .dict kvs, .dict kws => beqItems kvs kws
  | .object cls truth ref, .object cls' truth' ref' => cls = cls' ∧ truth = truth' ∧ ref = ref'
  | _, _ => false

def beqList : List Value → List Value → Bool
  | [], [] => true
  | x :: xs, y :: ys => beq x y && beqList xs ys
  | _, _ => false

def beqItems : List (String × Value) → List (String × Value) → Bool
  | [], [] => true
  | (k, v) :: kvs, (l, w) :: kws => (k = l && beq v w) && beqItems kvs kws
  | _, _ => false

end

mutual

theorem beq_iff : ∀ v w : Value, beq v w = true ↔ v = w
  | .list xs, w => by
    cases w with
    | list ys => simp [beq, beqList_iff xs ys]
    | _ => simp [beq]
  | .dict kvs, w => by
    cases w with
    | dict kws => simp [beq, beqItems_iff kvs kws]
    | _ => simp [beq]
  | .null, w | .bool _, w | .int _, w | .float _, w | .str _, w | .object .., w => by
    cases w <;> simp [beq]

theorem beqList_iff : ∀ xs ys : List Value, beqList xs ys = true ↔ xs = ys
  | [], ys => by cases ys <;> simp [beqList]
  | x :: xs, [] => by simp [beqList]
  | x :: xs, y :: ys => by simp [beqList, beq_iff x y, beqList_iff xs ys]

theorem beqItems_iff : ∀ kvs kws : List (String × Value), beqItems kvs kws = true ↔ kvs = kws
  | [], kws => by cases kws <;> simp [beqItems]
  | (k, v) :: kvs, [] => by simp [beqItems]
  | (k, v) :: kvs, (l, w) :: kws => by
    simp [beqItems, beq_iff v w, beqItems_iff kvs kws]

end

instance : DecidableEq Value := fun v w => decidable_of_iff _ (beq_iff v w)

/-- `bool(v)`. -/
def truthy : Value → Bool
  | .null => false
  | .bool b => b
  | .int n => n ≠ 0
  | .float x => x ≠ .fin 0
  | .str s => s ≠ ""
  | .list xs => !xs.isEmpty
  | .dict items => !items.isEmpty
  | .object _ truth _ => truth

/-- `hash(v)` does not raise. -/
def hashable : Value → Bool
  | .list _ | .dict _ => false
  | _ => true

def isNull : Value → Bool
  | .null => true
  | _ => false

end Value

/-- A dictionary with string keys. -/
abbrev Fields := Dict String Value

/-- `d.get(key)`. -/
def val (d : Fields) (key : String) : Value := d.getD key .null

/-- `s.strip()`, of ASCII white space. -/
def strip (s : String) : String := String.ofList (stripChars isSpace s.toList)

/-- What an entry point is given: a dictionary, or anything else. -/
inductive Payload
  | dict (d : Fields)
  | other (v : Value)
  deriving DecidableEq

/-- A moment, as `isoformat` shows it and in milliseconds. -/
structure Instant where
  iso : String
  ms : ℤ
  deriving DecidableEq

/-- What Python reads from a text, and writes for a value. -/
structure Conv where
  intText : String → Option ℤ
  floatText : String → Option PyFloat
  isoText : String → Option Instant
  upper : String → String
  /-- `str(v)` of a value that is no text. -/
  display : Value → String
  /-- `list(v)` of an object that can be iterated. -/
  objectItems : Value → Option (List Value)
  /-- `dict(v)` of a value that is no dictionary. -/
  dictOf : Value → Option Fields

/-- Reads decimal integers and ASCII letters only. -/
def Conv.plain : Conv where
  intText := String.toInt?
  floatText s := s.toInt?.map fun n => .fin n
  isoText _ := none
  upper := String.toUpper
  display _ := ""
  objectItems _ := none
  dictOf _ := none

namespace Conv

variable (cv : Conv)

/-- `str(v)`. -/
def text : Value → String
  | .str s => s
  | v => cv.display v

/-- `int(v)`; `none` when it raises. -/
def int? : Value → Option ℤ
  | .int n => some n
  | .bool b => some (if b then 1 else 0)
  | .float x => x.toInt?
  | .str s => cv.intText s
  | _ => none

/-- `float(v)`; `none` when it raises. -/
def float? : Value → Option PyFloat
  | .int n => some (.fin n)
  | .bool b => some (.fin (if b then 1 else 0))
  | .float x => some x
  | .str s => cv.floatText s
  | _ => none

/-- `int(v or 0)`. -/
def intOr0? (v : Value) : Option ℤ := if v.truthy then cv.int? v else some 0

/-- `float(v or 0)`. -/
def floatOr0? (v : Value) : Option PyFloat := if v.truthy then cv.float? v else some (.fin 0)

/-- `list(v)`; `none` when it raises. -/
def items? : Value → Option (List Value)
  | .str s => some (s.toList.map fun c => .str c.toString)
  | .list xs => some xs
  | .dict items => some (items.map fun kv => .str kv.1)
  | .object cls truth ref => cv.objectItems (.object cls truth ref)
  | _ => none

/-! ## `_normalize_decision` -/

/-- `d.setdefault(key, v)`. -/
def setDefault (d : Fields) (key : String) (v : Value) : Fields :=
  if (d.get? key).isSome then d else d.set key v

/-- `max(0.0, min(1.0, conf))`; a NaN becomes 1. -/
def clampConfidence (conf : PyFloat) : PyFloat :=
  let m := if conf.lt (.fin 1) then conf else .fin 1
  if (PyFloat.fin 0).lt m then m else .fin 0

/-- The moment of a decision: of its timestamp if that is a text that parses, else now. -/
def instantOf (now : Instant) : Value → Instant
  | .str s => if s = "" then now else (cv.isoText s).getD now
  | _ => now

/-- The items of `tags.split(",")` that are not blank, stripped. -/
def splitTags (s : String) : List Value :=
  (((s.splitOn ",").map strip).filter (· ≠ "")).map .str

/-- The list of tags; `none` when `list` raises. -/
def tagsOf (tags : Value) : Option (List Value) :=
  if !tags.truthy then some []
  else match tags with
    | .str s => some (splitTags s)
    | v => cv.items? v

/-- `_normalize_decision`; `none` when it raises. -/
def normalizeDecision (now : Instant) (decision : Payload) : Option Fields := do
  let d ← match decision with
    | .dict d => some d
    | .other v => cv.dictOf v
  let symbol := val d "symbol"
  let d := d.set "symbol" (.str (if symbol.truthy then cv.upper (cv.text symbol) else "UNKNOWN"))
  let conf := (cv.float? (d.getD "confidence" (.float (.fin 0)))).getD (.fin 0)
  let d := d.set "confidence" (.float (clampConfidence conf))
  let ts := if (val d "timestamp").truthy then val d "timestamp" else val d "timestamp_iso"
  let t := cv.instantOf now ts
  let d := (d.set "timestamp" (.str t.iso)).set "timestamp_ms" (.int t.ms)
  let d := setDefault d "bias" (.str "neutral")
  let d := setDefault d "recommendation" (.str "do_nothing")
  let durationMs ← cv.intOr0? (val d "duration_ms")
  let d := setDefault d "duration_ms" (.int durationMs)
  let d := setDefault d "summary" (.str (cv.text (d.getD "summary" (.str ""))))
  let d := setDefault d "repair_used" (.bool (val d "repair_used").truthy)
  let d := setDefault d "fallback_used" (.bool (val d "fallback_used").truthy)
  let tags ← cv.tagsOf (val d "tags")
  return d.set "tags" (.list tags)

end Conv

/-! ## `_get_routing_for_decision` -/

/-- A time-based override of the routing. -/
structure RoutingOverride where
  symbol : String
  start : String
  stop : String
  channels : List String

structure Routing where
  overrides : List RoutingOverride := []
  /-- The rules, in the order of the dictionary. -/
  rules : List (String × List String) := []

/-- The tags a rule asks for. -/
def requiredTags (key : String) : List String :=
  ((key.splitOn "|").map strip).filter (· ≠ "")

namespace Routing

variable (rt : Routing)

/-- The channels of the rules whose tags the decision has. -/
def tagged (tags : List Value) : List String :=
  rt.rules.flatMap fun (key, chs) =>
    if key.contains '|' && requiredTags key ≠ [] &&
        (requiredTags key).all (fun p => tags.contains (.str p)) then chs
    else []

/-- `_get_routing_for_decision`; `none` when `set(tags)` raises. -/
def channelsFor (inWindow : RoutingOverride → Bool) (decision : Fields) : Option (List String) := do
  let .str symbol := val decision "symbol" | none
  let .list tags := val decision "tags" | none
  guard (tags.all Value.hashable)
  match rt.overrides.find? fun ov => ov.symbol = symbol && inWindow ov && ov.channels ≠ [] with
  | some ov => return ov.channels
  | none =>
    match rt.rules.lookup symbol with
    | some chs => return chs
    | none =>
      match (rt.tagged tags).eraseDups with
      | ch :: chs => return ch :: chs
      | [] =>
        match rt.rules.find? fun (key, _) =>
          key.endsWith "*" && symbol.startsWith (key.dropEnd 1).toString with
        | some (_, chs) => return chs
        | none => return ["slack", "discord", "telegram"]

end Routing

end Orchestrator
