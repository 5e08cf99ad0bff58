import IctAlgo.Lib.FloatSum
import IctAlgo.Orchestrator.Decision
import IctAlgo.Orchestrator.Dlq
import Mathlib.Data.List.Sort

/-!
# The policy gate

`pre_reasoning_policy_check` and `post_reasoning_policy_check` of
`reasoner_service/orchestrator.py`, with the `PolicyStore` and its default backends,
`policy/outcome_policy.py`, `policy/memory_policy.py` and the loading of the allowlist. A check of
the gate is a function to `Option`: `none` when it lets the decision through or raises, which the
gate catches.

Last are `DecisionOutcome` and `get_outcomes_by_signal_type` of `reasoner_service/storage.py`. The
database is SQLite, the default of the storage, where a negative limit is none. A column is compared
with a text; what it is for another value is not said here.
-/

set_option autoImplicit false

namespace Orchestrator

open Lib Lib.Binary64

/-! ## The policy store -/

/-- `get_policy(name, context)`; it may raise. An answer without a `get` counts as raising. -/
abbrev Backend := String → Fields → Except Unit Fields

/-- `PolicyStore.get_policy`: the first answer that is not empty. -/
def getPolicy (backends : List Backend) : Backend := fun name context =>
  .ok ((backends.findSome? fun backend => match backend name context with
    | .ok result => if result.items.isEmpty then none else some result
    | .error () => none).getD Dict.empty)

/-- `OrchestratorConfigBackend`. -/
def configBackend (policyConfig : List (String × Fields)) : Backend := fun name _ =>
  .ok ((policyConfig.lookup name).getD Dict.empty)

/-- `DefaultPolicyBackend`: the markers of the context. -/
def defaultBackend (cv : Conv) : Backend := fun name context =>
  match name with
  | "killzone" => .ok (Dict.empty.set "active" (.bool (val context "killzone").truthy))
  | "regime" => .ok (Dict.empty.set "regime" (val context "regime"))
  | "cooldown" =>
    match cv.intOr0? (val context "cooldown_until") with
    | some c => .ok (Dict.empty.set "cooldown_until" (.int c))
    | none => .error ()
  | "exposure" =>
    match cv.floatOr0? (val context "exposure"), cv.floatOr0? (val context "max_exposure") with
    | some e, some m => .ok ((Dict.empty.set "exposure" (.float e)).set "max_exposure" (.float m))
    | _, _ => .error ()
  | "confidence_threshold" => .ok (Dict.empty.set "min_confidence" (.float (.fin (1 / 2))))
  | _ => .ok Dict.empty

/-! ## Results -/

/-- The recent performance that the recall of outcomes reports. -/
structure Recall where
  expectancy : PyFloat
  winRate : PyFloat
  sampleSize : ℕ
  /-- The thresholds for the expectancy and the win rate, if outcomes were recalled. -/
  thresholds : Option (PyFloat × PyFloat) := none
  deriving DecidableEq

inductive Veto
  | notInAllowlist (groupKey : String)
  | killzone
  | regimeRestricted
  | riskLimitExceeded (exposure maxExposure : PyFloat)
  | outcomeUnderperformance (count : ℤ) (expectancy winRate : PyFloat)
  | memoryUnderperformance (expectancy : PyFloat) (sampleSize : ℕ)
  | recalledUnderperformance (details : Recall)
  | lowConfidence (confidence : PyFloat)
  deriving DecidableEq

def Veto.reason : Veto → String
  | .notInAllowlist _ => "not_in_allowlist"
  | .killzone => "killzone"
  | .regimeRestricted => "regime_restricted"
  | .riskLimitExceeded .. => "risk_limit_exceeded"
  | .outcomeUnderperformance .. => "outcome_underperformance"
  | .memoryUnderperformance .. => "memory_underperformance"
  | .recalledUnderperformance _ => "memory_underperformance"
  | .lowConfidence _ => "low_confidence"

/-- The result of a policy check; a `defer` is a cooldown until `nextAttemptTs`. -/
inductive GateResult
  | pass (details : Option Recall)
  | veto (v : Veto)
  | defer (nextAttemptTs : ℤ)
  deriving DecidableEq

/-- The gate says not to go on with the decision. -/
def GateResult.stops : GateResult → Bool
  | .pass _ => false
  | _ => true

/-! ## State -/

structure PolicyCounters where
  pass : ℕ := 0
  veto : ℕ := 0
  defer : ℕ := 0
  deriving DecidableEq

/-- An entry of `_policy_audit`; those of the checks of past outcomes have no `ts`. -/
structure AuditEntry where
  ts : Option ℤ
  result : GateResult
  id : Value
  deriving DecidableEq

/-- The orchestrator, as far as policies and dead letters are concerned. -/
structure Orch where
  counters : PolicyCounters := {}
  audit : List AuditEntry := []
  /-- The keys of the allowlist, once it is loaded. -/
  allowlist : Option (List String) := none
  dlq : Dlq Fields := {}

namespace Orch

variable (s : Orch)

def passed : Orch := { s with counters := { s.counters with pass := s.counters.pass + 1 } }

def vetoed (v : Veto) (ts : Option ℤ) (id : Value) : Orch :=
  { s with
    counters := { s.counters with veto := s.counters.veto + 1 }
    audit := s.audit ++ [⟨ts, .veto v, id⟩] }

/-- A defer also enqueues the snapshot, for an attempt at `cooldown`. -/
def deferred (cooldown : ℤ) (ts : ℤ) (d : Fields) : Orch :=
  { s with
    counters := { s.counters with defer := s.counters.defer + 1 }
    audit := s.audit ++ [⟨some ts, .defer cooldown, val d "id"⟩]
    dlq := s.dlq.append ⟨d, "policy_defer", ts, 0, cooldown⟩ }

end Orch

/-! ## The environment of a check -/

/-- The arguments of `get_outcomes_by_signal_type`. -/
structure OutcomeQuery where
  symbol : Value
  signalType : Value
  limit : ℤ
  model : Value := .null
  session : Value := .null
  direction : Value := .null

/-- What a check reads of a row; a number stands for the float nearest to it. -/
structure OutcomeRow where
  outcome : Option String
  pnl : Option ℚ
  rMultiple : Option ℚ

structure GateConfig where
  permissive : Bool
  /-- `_constraints`. -/
  constraints : Fields := Dict.empty
  /-- The rows by symbol, model and session. -/
  metricsSnapshot : List ((Value × Value × Value) × Fields) := []
  hasSessionmaker : Bool := false

/-- What a call of the gate meets. -/
structure GateEnv where
  store : Backend
  /-- The clock of the cooldown check. -/
  nowMs : ℤ
  /-- The clock when an entry is written. -/
  ts : ℤ
  /-- The group keys in the file at a path, if it can be read. -/
  readAllowlist : Value → Option (List String) := fun _ => none
  /-- The database; it may raise. -/
  outcomes : OutcomeQuery → Except Unit (List OutcomeRow) := fun _ => .ok []

/-- A call with the default policy store and no database. -/
def defaultPolicies (cv : Conv) (nowMs : ℤ) : GateEnv where
  store := getPolicy [configBackend [], defaultBackend cv]
  nowMs := nowMs
  ts := nowMs

/-- `self._constraints.get(name, {})`, if it is a dictionary. -/
def GateConfig.section? (cfg : GateConfig) (name : String) : Option (List (String × Value)) :=
  match cfg.constraints.getD name (.dict []) with
  | .dict items => some items
  | _ => none

/-- `items.get(key, default)`. -/
def getKey (items : List (String × Value)) (key : String) (default : Value) : Value :=
  (items.lookup key).getD default

section Checks

variable (cv : Conv) (cfg : GateConfig) (env : GateEnv)

/-! ## The checks of the gate -/

/-- `make_key_from_snapshot`. -/
def groupKey? (d : Fields) : Option String :=
  let parts := ["symbol", "timeframe", "session", "signal_type", "direction"].map (val d)
  if parts.all Value.truthy then some ("|".intercalate (parts.map cv.text)) else none

def allowlistEnabled : Bool :=
  (cfg.section? "allowlist").any fun items => (getKey items "enabled" (.bool false)).truthy

/-- `load`, unless the allowlist is loaded already. -/
def Orch.loadAllowlist (s : Orch) : Orch :=
  match cfg.section? "allowlist" with
  | some items =>
    let path := getKey items "path" .null
    if allowlistEnabled cfg && path.truthy && s.allowlist.isNone then
      { s with allowlist := env.readAllowlist path }
    else s
  | none => s

def allowlistVeto? (allowlist : Option (List String)) (d : Fields) : Option Veto := do
  guard (allowlistEnabled cfg)
  let keys ← allowlist
  let key ← groupKey? cv d
  if key ∈ keys then none else some (.notInAllowlist key)

def killzoneVeto? (d : Fields) : Option Veto :=
  let active := match env.store "killzone" d with
    | .ok policy => val policy "active"
    | .error () => val d "killzone"
  if active.truthy then some .killzone else none

def regimeVeto? (d : Fields) : Option Veto :=
  let regime := match env.store "regime" d with
    | .ok policy => val policy "regime"
    | .error () => val d "regime"
  if regime = .str "restricted" then some .regimeRestricted else none

/-- The cooldown of the policy, or of the marker if the policy raises; it counts when it is later
than now. -/
def cooldown? (d : Fields) : Option ℤ :=
  let policy := (env.store "cooldown" d).toOption.bind fun p => cv.intOr0? (val p "cooldown_until")
  let marker := cv.intOr0? (val d "cooldown_until")
  (policy <|> marker).filter fun cooldown => cooldown ≠ 0 ∧ cooldown > env.nowMs

/-- The exposure and its limit. -/
def limits? (d : Fields) : Option (PyFloat × PyFloat) := do
  let exposure ← cv.floatOr0? (val d "exposure")
  let maxExposure ← cv.floatOr0? (val d "max_exposure")
  return (exposure, maxExposure)

def exposureVeto? (d : Fields) : Option Veto := do
  let (exposure, maxExposure) ← (env.store "exposure" d).toOption.bind (limits? cv) <|> limits? cv d
  if maxExposure ≠ .fin 0 ∧ maxExposure.lt exposure then
    some (.riskLimitExceeded exposure maxExposure)
  else none

/-- `outcome_policy.check_performance`. -/
def performanceVeto? (d : Fields) : Option Veto := do
  let items ← cfg.section? "outcome_veto"
  let minSampleSize ← cv.int? (getKey items "min_sample_size" (.int 20))
  let expectancyThreshold ← cv.float? (getKey items "expectancy_threshold" (.float (nearest (-1 / 20))))
  let winRateThreshold ← cv.float? (getKey items "win_rate_threshold" (.float (nearest (9 / 20))))
  let stats ← cfg.metricsSnapshot.lookup (val d "symbol", val d "model", val d "session")
  guard (!stats.items.isEmpty)
  let count ← cv.intOr0? (val stats "count")
  let expectancy ← cv.floatOr0? (val stats "expectancy")
  let winRate ← cv.floatOr0? (val stats "win_rate")
  if count ≥ minSampleSize ∧
      (expectancy.lt expectancyThreshold ∨ winRate.lt winRateThreshold) then
    some (.outcomeUnderperformance count expectancy winRate)
  else none

/-- A row of `_lookup_similar_signals` as a multiple of the risk; `none` when it raises. -/
def OutcomeRow.similar? (o : OutcomeRow) : Option PyFloat := do
  let outcome ← o.outcome
  if outcome.toLower = "win" then
    let r := div (nearest (← o.pnl)) 10
    return if PyFloat.lt (.fin 1) r then r else .fin 1
  else if outcome.toLower = "loss" then
    let r := div (nearest (← o.pnl)) 10
    return if r.lt (.fin (-1)) then r else .fin (-1)
  else return .fin 0

/-- `_lookup_similar_signals`. The second field of its key is the model. -/
def lookupSimilarSignals (d : Fields) (topN : ℤ) : List PyFloat :=
  if cfg.hasSessionmaker then
    match env.outcomes { symbol := val d "symbol", signalType := val d "model", limit := topN } with
    | .ok rows => (rows.mapM OutcomeRow.similar?).getD []
    | .error () => []
  else []

inductive Similarity
  | veto (v : Veto)
  | promote

/-- `memory_policy.check_similarity`. -/
def similarity? (d : Fields) : Option Similarity := do
  let items ← cfg.section? "memory_veto"
  let topN ← cv.int? (getKey items "memory_top_n" (.int 10))
  let negativeThreshold ← cv.float? (getKey items "negative_threshold" (.float (nearest (-1 / 20))))
  let positiveThreshold ← cv.float? (getKey items "positive_threshold" (.float (nearest (1 / 10))))
  let valid := lookupSimilarSignals cfg env d topN
  guard (!valid.isEmpty)
  let expectancy := mean valid
  if expectancy.lt negativeThreshold then
    some (.veto (.memoryUnderperformance expectancy valid.length))
  else if positiveThreshold.lt expectancy then some .promote
  else none

/-- `snapshot.setdefault("context", {})["memory_promoted"] = True`. -/
def promoted (d : Fields) : Fields :=
  match d.get? "context" with
  | none => d.set "context" (.dict [("memory_promoted", .bool true)])
  | some (.dict items) =>
    d.set "context" (.dict (Dict.setItems items "memory_promoted" (.bool true)))
  | some _ => d

/-- `_compute_expectancy_and_win_rate` of the rows with a multiple; `none` when it raises. -/
def recallOf (rows : List OutcomeRow) (thresholds : PyFloat × PyFloat) : Option Recall := do
  guard (rows.all fun o => o.outcome.isSome)
  let valid := rows.filterMap fun o => o.rMultiple.map fun r => (nearest r, o.outcome.getD "")
  if valid.isEmpty then return ⟨.fin 0, .fin 0, 0, some thresholds⟩
  let wins := valid.countP fun o => o.2.toLower = "win"
  return ⟨mean (valid.map Prod.fst), nearest (wins / valid.length), valid.length, some thresholds⟩

/-- The recall of recent outcomes of the same signal, and whether they are poor. -/
def recalled? (d : Fields) : Option (Recall × Bool) := do
  let items ← cfg.section? "outcome_adaptation"
  guard (getKey items "enabled" (.bool false)).truthy
  guard ((val d "symbol").truthy && (val d "signal_type").truthy && cfg.hasSessionmaker)
  let windowN ← cv.int? (getKey items "window_last_n_trades" (.int 50))
  let minSample ← cv.int? (getKey items "min_sample_size" (.int 20))
  let .dict suppressIf := getKey items "suppress_if" (.dict []) | none
  let suppressExpectancy ← cv.float? (getKey suppressIf "expectancy_r" (.float (nearest (-1 / 20))))
  let suppressWinRate ← cv.float? (getKey suppressIf "win_rate" (.float (nearest (9 / 20))))
  let rows ← (env.outcomes {
    symbol := val d "symbol", signalType := val d "signal_type", limit := windowN,
    model := val d "model", session := val d "session", direction := val d "direction" }).toOption
  guard (!rows.isEmpty)
  let details ← recallOf rows (suppressExpectancy, suppressWinRate)
  return (details, (details.sampleSize : ℤ) ≥ minSample ∧
    (details.expectancy.lt suppressExpectancy ∨ details.winRate.lt suppressWinRate))

/-! ## `pre_reasoning_policy_check` -/

/-- The vetoes before the cooldown. -/
def earlyVeto? (allowlist : Option (List String)) (d : Fields) : Option Veto :=
  allowlistVeto? cv cfg allowlist d <|> killzoneVeto? env d <|> regimeVeto? env d

/-- The checks after the exposure: past outcomes in the metrics, in memory and in the database. -/
def checkOutcomes (d : Fields) (s : Orch) : GateResult × Fields × Orch :=
  match performanceVeto? cv cfg d with
  | some v => (.veto v, d, s.vetoed v none (val d "id"))
  | none =>
    match similarity? cv cfg env d with
    | some (.veto v) => (.veto v, d, s.vetoed v none (val d "id"))
    | similarity =>
      let d := if similarity.isSome then promoted d else d
      match recalled? cv cfg env d with
      | some (details, true) =>
        let v := .recalledUnderperformance details
        (.veto v, d, s.vetoed v none (val d "id"))
      -- This pass is not counted.
      | some (details, false) => (.pass (some details), d, s)
      | none => (.pass (some ⟨.fin 0, .fin 0, 0, none⟩), d, s.passed)

/-- The checks of a dictionary, with the allowlist loaded. -/
def checkSnapshot (d : Fields) (s : Orch) : GateResult × Fields × Orch :=
  match earlyVeto? cv cfg env s.allowlist d with
  | some v => (.veto v, d, s.vetoed v (some env.ts) (val d "id"))
  | none =>
    match cooldown? cv env d with
    | some cooldown => (.defer cooldown, d, s.deferred cooldown env.ts d)
    | none =>
      match exposureVeto? cv env d with
      | some v => (.veto v, d, s.vetoed v (some env.ts) (val d "id"))
      | none => checkOutcomes cv cfg env d s

/-- The gate: its result, the snapshot it may have changed, and the orchestrator after it. -/
def preReasoningPolicyCheck (snapshot : Payload) (s : Orch) : GateResult × Payload × Orch :=
  if cfg.permissive then (.pass none, snapshot, s)
  else match snapshot with
    | .other _ => (.pass none, snapshot, s)
    | .dict d =>
      let (result, d, s) := checkSnapshot cv cfg env d (s.loadAllowlist cfg env)
      (result, .dict d, s)

/-! ## `post_reasoning_policy_check` -/

def lowConfidence? (d : Fields) : Option Veto :=
  let recommendation := (cv.text (d.getD "recommendation" (.str ""))).toLower
  let confidence := (cv.floatOr0? (val d "confidence")).getD (.fin 0)
  let minConf := ((env.store "confidence_threshold" d).toOption.bind fun p =>
    let minConf := p.getD "min_confidence" (.float (.fin (1 / 2)))
    if minConf.truthy then cv.float? minConf else some (.fin (1 / 2))).getD (.fin (1 / 2))
  if recommendation = "enter" ∧ confidence.lt minConf then some (.lowConfidence confidence) else none

/-- The check of a reasoning output that is a dictionary. -/
def postReasoningPolicyCheck (d : Fields) (s : Orch) : GateResult × Orch :=
  if cfg.permissive then (.pass none, s)
  else match lowConfidence? cv env d with
    | some v => (.veto v, s.vetoed v (some env.ts) (val d "id"))
    | none => (.pass none, s.passed)

end Checks

/-! ## The outcomes table -/

/-- A row of `decision_outcomes`, as far as a policy reads it; the time is that of the close, and a
number stands for the float nearest to it. -/
structure DecisionOutcome where
  id : ℕ
  symbol : String
  signalType : String
  model : Option String := none
  session : Option String := none
  direction : Option String := none
  pnl : ℚ
  rMultiple : Option ℚ := none
  outcome : String
  closedAt : ℤ
  deriving DecidableEq

/-- What the policies get of a row. -/
def DecisionOutcome.row (o : DecisionOutcome) : OutcomeRow := ⟨some o.outcome, some o.pnl, o.rMultiple⟩

/-- `column == v`. -/
def columnIs (column : Option String) : Value → Bool
  | .str s => column = some s
  | _ => false

/-- The filters of a query; those of the optional columns are only there for a value. -/
def OutcomeQuery.selects (q : OutcomeQuery) (o : DecisionOutcome) : Bool :=
  columnIs (some o.symbol) q.symbol && columnIs (some o.signalType) q.signalType &&
    (q.model.isNull || columnIs o.model q.model) &&
    (q.session.isNull || columnIs o.session q.session) &&
    (q.direction.isNull || columnIs o.direction q.direction)

/-- The latest rows, at most `limit`. -/
def mostRecent (limit : ℤ) (rows : List DecisionOutcome) : List DecisionOutcome :=
  let ordered := rows.insertionSort fun o o' => o'.closedAt ≤ o.closedAt
  if limit < 0 then ordered else ordered.take limit.toNat

/-- `get_outcomes_by_signal_type`. -/
def getOutcomesBySignalType (table : List DecisionOutcome) (q : OutcomeQuery) :
    List DecisionOutcome :=
  mostRecent q.limit (table.filter q.selects)

end Orchestrator
