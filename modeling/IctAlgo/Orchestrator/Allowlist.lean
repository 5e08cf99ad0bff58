import Mathlib.Data.List.Sort
import IctAlgo.Orchestrator.Policy

/-!
# The allowlist file

`build_allowlist` of `scripts/build_allowlist_from_replay.py`, over any JSON value as the summary, and
`AllowlistLoader` of `reasoner_service/allowlist_loader.py`. The file between them is the value that
`json.load` reads of what `json.dump` wrote (`written`).
-/

set_option autoImplicit false

namespace Orchestrator

open Lib

/-! ## Comparisons -/

/-- A number, or a `bool` as one. -/
def Value.num? : Value → Option PyFloat
  | .int n => some (.fin n)
  | .bool b => some (.fin (if b then 1 else 0))
  | .float x => some x
  | _ => none

/-- `v >= bound`; `none` when it raises. -/
def Value.atLeast? (v : Value) (bound : PyFloat) : Option Bool := v.num?.map (bound.le ·)

/-- `v <= bound`; `none` when it raises. -/
def Value.atMost? (v : Value) (bound : PyFloat) : Option Bool := v.num?.map (·.le bound)

/-- `a and b`, where `b` is looked at only if `a` holds. -/
def andThen (a b : Option Bool) : Option Bool :=
  match a with
  | some true => b
  | a => a

/-! ## The builder -/

structure GroupThresholds where
  minSamples : ℤ := 50
  minExpectancy : PyFloat := .fin (1 / 5)
  maxDd : PyFloat := .fin 10
  maxStreak : ℤ := 7

/-- All four thresholds; `none` when a comparison raises. -/
def GroupThresholds.admits? (t : GroupThresholds) (group : List (String × Value)) : Option Bool :=
  andThen ((getKey group "sample_size" (.int 0)).atLeast? (.fin t.minSamples)) <|
  andThen ((getKey group "expectancy" (.float (.fin 0))).atLeast? t.minExpectancy) <|
  andThen ((getKey group "max_drawdown_r" (.float .inf)).atMost? t.maxDd) <|
  (getKey group "max_loss_streak" (.float .inf)).atMost? (.fin t.maxStreak)

/-- An entry of the allowlist. -/
structure AllowlistEntry where
  symbol : Value
  timeframe : Value
  session : Value
  signalType : Value
  direction : Value

namespace AllowlistEntry

def ofGroup (group : List (String × Value)) : AllowlistEntry where
  symbol := getKey group "symbol" (.str "")
  timeframe := getKey group "timeframe" (.str "")
  session := getKey group "session" (.str "")
  signalType := getKey group "signal_type" (.str "")
  direction := getKey group "direction" (.str "")

def toDict (e : AllowlistEntry) : Value :=
  .dict [("symbol", e.symbol), ("timeframe", e.timeframe), ("session", e.session),
    ("signal_type", e.signalType), ("direction", e.direction)]

def toKey (cv : Conv) (e : AllowlistEntry) : String :=
  "|".intercalate ([e.symbol, e.timeframe, e.session, e.signalType, e.direction].map cv.text)

end AllowlistEntry

section
variable (cv : Conv) (t : GroupThresholds)

/-- The loop of `filter_groups`; `none` when it raises. -/
def allowedGroups : List Value → Option (List AllowlistEntry)
  | [] => some []
  | .dict group :: groups => do
    let admitted ← t.admits? group
    let allowed ← allowedGroups groups
    return if admitted then .ofGroup group :: allowed else allowed
  | _ :: _ => none

def filterGroups (groups : List Value) : Option (List AllowlistEntry) :=
  (allowedGroups t groups).map fun allowed =>
    allowed.insertionSort fun e e' => e.toKey cv ≤ e'.toKey cv

/-- The groups of a summary; `none` when it has no `get` or they cannot be iterated. -/
def summaryGroups : Value → Option (List Value)
  | .dict summary => cv.items? (getKey summary "groups" (.list []))
  | _ => none

/-- `build_allowlist`; `none` when it raises. `utcnow` is the time in the ISO format. -/
def buildAllowlist (utcnow : String) (summary : Value) : Option (List (String × Value)) := do
  let groups ← summaryGroups cv summary
  let allowed ← filterGroups cv t groups
  let source := match summary with
    | .dict summary => getKey summary "timestamp" (.str "")
    | _ => .str ""
  return [("timestamp", .str (utcnow ++ "Z")), ("source_replay_summary", source),
    ("thresholds", .dict [("min_samples", .int t.minSamples),
      ("min_expectancy", .float t.minExpectancy), ("max_drawdown_r", .float t.maxDd),
      ("max_loss_streak", .int t.maxStreak)]),
    ("total_allowed", .int allowed.length), ("total_groups_evaluated", .int groups.length),
    ("allowed_groups", .list (allowed.map AllowlistEntry.toDict))]

/-! ## The file -/

mutual

/-- What `json.load` reads of what `json.dump(v, default=str)` wrote. -/
def written : Value → Value
  | .list vs => .list (writtenList vs)
  | .dict items => .dict (writtenItems items)
  | .object cls truth ref => .str (cv.display (.object cls truth ref))
  | v => v

def writtenList : List Value → List Value
  | [] => []
  | v :: vs => written v :: writtenList vs

def writtenItems : List (String × Value) → List (String × Value)
  | [] => []
  | (key, v) :: items => (key, written v) :: writtenItems items

end

/-! ## The loader -/

/-- `_make_key`. -/
def makeKey (symbol timeframe session signalType direction : Value) : Option String :=
  let parts := [symbol, timeframe, session, signalType, direction]
  if parts.all Value.truthy then some ("|".intercalate (parts.map cv.text)) else none

/-- The key of a group in the file. -/
def fileKey (group : List (String × Value)) : Option String :=
  makeKey cv (getKey group "symbol" .null) (getKey group "timeframe" .null)
    (getKey group "session" .null) (getKey group "signal_type" .null)
    (getKey group "direction" .null)

structure AllowlistLoader where
  allowedKeys : List String := []
  loaded : Bool := false
  thresholds : Value := .dict []
  metaData : List (String × Value) := []

/-- The loop of `load`: the keys up to a group that is no dictionary, and whether there is none. -/
def loadKeys : List Value → List String × Bool
  | [] => ([], true)
  | .dict group :: groups =>
    let (keys, ok) := loadKeys groups
    ((fileKey cv group).toList ++ keys, ok)
  | _ :: _ => ([], false)

namespace AllowlistLoader

/-- `load`; `none` for a file that is not there or does not parse. -/
def load (l : AllowlistLoader) : Option Value → Bool × AllowlistLoader
  | some (.dict data) =>
    match cv.items? (getKey data "allowed_groups" (.list [])) with
    | none => (false, { l with allowedKeys := [], loaded := false })
    | some groups =>
      let (keys, ok) := loadKeys cv groups
      if ok then
        (true,
          { allowedKeys := keys
            loaded := true
            thresholds := getKey data "thresholds" (.dict [])
            metaData := ["timestamp", "source_replay_summary", "total_allowed",
              "total_groups_evaluated"].map fun key => (key, getKey data key .null) })
      else (false, { l with allowedKeys := keys, loaded := false })
  | _ => (false, { l with loaded := false })

/-- `is_allowed`. -/
def isAllowed (l : AllowlistLoader) (groupKey : Option String) : Bool :=
  groupKey.any (l.allowedKeys.contains ·)

/-- What the policy gate has of the loader: the keys, if it is enabled. -/
def enabledKeys (l : AllowlistLoader) : Option (List String) :=
  if l.loaded then some l.allowedKeys else none

end AllowlistLoader

end

end Orchestrator
