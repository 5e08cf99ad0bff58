import IctAlgo.Analytics.Policy

/-!
# Outcome policies in shadow mode

`create_policy_evaluator` of `reasoner_service/outcome_policy_evaluator.py` and
`PolicyShadowModeManager` of `reasoner_service/policy_shadow_mode.py`, one call after another. The rows
an evaluation sees come with it. A decision that is no dictionary raises where it is read.
-/

set_option autoImplicit false

namespace ShadowMode

open Lib OutcomeStats OutcomePolicy

/-! ## The evaluator -/

/-- The values of the configuration. -/
structure Config where
  winRateThreshold : ℚ := Binary64.literal (45 / 100)
  minWinRateTrades : ℤ := 10
  maxLossStreak : ℤ := 5
  minAvgPnl : ℚ := 0
  minAvgPnlTrades : ℤ := 10
  symbolMaxDrawdown : ℚ := -500
  minDrawdownTrades : ℤ := 5

section
variable (str : ℚ → String)

/-- `add_rule`, with its error. -/
def addRule (e : OutcomePolicyEvaluator) (rule : PolicyRule) : Except String OutcomePolicyEvaluator :=
  match e.addRule rule with
  | some e => .ok e
  | none => .error s!"Rule with name '{rule.name}' already exists"

def winRateRule (c : Config) : Except String PolicyRule :=
  if h : 0 ≤ c.winRateThreshold ∧ c.winRateThreshold ≤ 1 then
    .ok (.winRate {
      minWinRate := c.winRateThreshold, minTrades := c.minWinRateTrades, nonneg := h.1, le_one := h.2 })
  else .error s!"min_win_rate must be 0.0-1.0, got {str c.winRateThreshold}"

def lossStreakRule (c : Config) : Except String PolicyRule :=
  if h : 1 ≤ c.maxLossStreak then .ok (.lossStreak { maxStreak := c.maxLossStreak, one_le := h })
  else .error s!"max_streak must be >= 1, got {c.maxLossStreak}"

/-- `create_policy_evaluator`. -/
def createPolicyEvaluator (c : Config) : Except String OutcomePolicyEvaluator := do
  let e ← addRule {} (← winRateRule str c)
  let e ← addRule e (← lossStreakRule c)
  let e ← addRule e (.avgPnl { minAvgPnl := c.minAvgPnl, minTrades := c.minAvgPnlTrades })
  addRule e (.drawdown { maxDrawdown := c.symbolMaxDrawdown, minTrades := c.minDrawdownTrades })

end

/-! ## The manager -/

/-- What is read of a decision. -/
structure Decision where
  signalType : Option String := none
  symbol : Option String := none
  timeframe : Option String := none
  id : Option String := none
  recommendation : Option String := none
  confidence : Option ℚ := none

structure AuditEntry where
  timestamp : ℤ
  decision : PolicyDecision
  ruleName : Option String := none
  reason : Option String := none
  signalType : Option String
  symbol : Option String
  timeframe : Option String
  decisionId : Option String
  recommendation : Option String
  confidence : Option ℚ

/-- What `evaluate_decision` returns. -/
structure Evaluated where
  evaluated : Bool := false
  decision : Option PolicyDecision := none
  ruleName : Option String := none
  reason : Option String := none
  metricsSnapshot : Option MetricsSnapshot := none
  timestamp : ℤ
  error : Option String := none
  auditEntry : Option AuditEntry := none

structure Manager where
  evaluator : Option OutcomePolicyEvaluator := none
  auditTrail : List AuditEntry := []
  initialized : Bool := false
  initError : Option String := none

namespace Manager

/-- `initialize`. -/
def initializeManager (str : ℚ → String) (c : Config) (m : Manager) : Bool × Manager :=
  if m.initialized then (m.evaluator.isSome, m)
  else match createPolicyEvaluator str c with
    | .ok e => (true, { m with evaluator := some e, initialized := true })
    | .error text => (false, { m with initError := some text, initialized := true })

/-- An evaluation: the rows and the clocks it sees, the decision or what reading it raises, and the
arguments. -/
structure Call where
  rows : List DecisionOutcome
  now : ℤ
  evaluatedAt : ℤ
  decision : Except String Decision
  args : Query

/-- `arg or decision.get(key)`. -/
def orField (arg : Option String) (decision : Except String Decision)
    (field : Decision → Option String) : Except String (Option String) :=
  if arg.any (· ≠ "") then .ok arg else decision.map field

/-- The metadata of the signal. -/
def Call.query (c : Call) : Except String Query := do
  let signalType ← orField c.args.signalType c.decision (·.signalType)
  let symbol ← orField c.args.symbol c.decision (·.symbol)
  let timeframe ← orField c.args.timeframe c.decision (·.timeframe)
  return { signalType, symbol, timeframe }

/-- What is known of a call when its audit entry is written. -/
def Call.answer (c : Call) : Option PolicyEvaluation → Evaluated
  | some result =>
    { evaluated := true
      decision := some result.decision
      ruleName := some result.ruleName
      reason := some result.reason
      metricsSnapshot := result.metricsSnapshot
      timestamp := result.timestamp }
  | none => { evaluated := true, decision := some .allow, timestamp := c.now }

/-- The audit entry of an answer. -/
def auditEntry (r : Evaluated) (decision : PolicyDecision) (q : Query) (d : Decision) : AuditEntry where
  timestamp := r.timestamp
  decision := decision
  ruleName := r.ruleName
  reason := r.reason
  signalType := q.signalType
  symbol := q.symbol
  timeframe := q.timeframe
  decisionId := d.id
  recommendation := d.recommendation
  confidence := d.confidence

/-- `evaluate_decision`. -/
def evaluateDecision (tx : Texts) (c : Call) (m : Manager) : Evaluated × Manager :=
  match m.evaluator with
  | none => ({ timestamp := c.now, error := some "evaluator_not_initialized" }, m)
  | some e =>
    match c.query with
    | .error text => ({ timestamp := c.now, error := some text }, m)
    | .ok q =>
      let found := e.evaluate tx c.rows c.evaluatedAt q
      let m := { m with evaluator := some found.2 }
      let r := c.answer found.1
      match c.decision with
      -- The answer is there, but the entry reads the decision.
      | .error text => ({ r with error := some text, evaluated := false }, m)
      | .ok d =>
        let entry := auditEntry r (r.decision.getD .allow) q d
        ({ r with auditEntry := some entry }, { m with auditTrail := m.auditTrail ++ [entry] })

/-- `clear_audit_trail`. -/
def clearAuditTrail (m : Manager) : ℕ × Manager := (m.auditTrail.length, { m with auditTrail := [] })

/-- `xs[-limit:]`. -/
def lastOnes {α : Type} (xs : List α) (limit : ℤ) : List α :=
  if 0 < limit then xs.drop (xs.length - limit.toNat) else xs.drop (-limit).toNat

/-- `get_audit_trail`. -/
def getAuditTrail (m : Manager) : Option ℤ → List AuditEntry
  | none => m.auditTrail.reverse
  | some limit => (lastOnes m.auditTrail limit).reverse

/-- What `get_stats` returns; without entries it leaves the rate out. -/
structure Stats where
  totalEvaluations : ℕ
  allowCount : ℕ
  vetoCount : ℕ
  vetoByRule : Dict String ℕ
  vetoBySignalType : Dict (Option String) ℕ
  vetoRate : Option ℚ

def AuditEntry.isVeto (entry : AuditEntry) : Bool := entry.decision = .veto

/-- `get_stats`. -/
def getStats (m : Manager) : Stats :=
  if m.auditTrail = [] then ⟨0, 0, 0, .empty, .empty, none⟩
  else
    let vetoes := m.auditTrail.filter AuditEntry.isVeto
    let total := m.auditTrail.length
    { totalEvaluations := total
      allowCount := total - vetoes.length
      vetoCount := vetoes.length
      vetoByRule := Dict.groupBy (·.ruleName.getD "unknown") (fun n _ => n + 1) 0 vetoes
      vetoBySignalType := Dict.groupBy (·.signalType) (fun n _ => n + 1) 0 vetoes
      vetoRate := some (vetoes.length / total) }

end Manager

/-! ## Runs -/

inductive Op
  | start (c : Config)
  | evaluate (c : Manager.Call)
  | clear

/-- The manager, what its evaluations have returned, and how many of them there were when the trail was
cleared last. -/
structure Shadow where
  manager : Manager := {}
  results : List Evaluated := []
  cleared : ℕ := 0

def step (str : ℚ → String) (tx : Texts) (s : Shadow) : Op → Shadow
  | .start c => { s with manager := (s.manager.initializeManager str c).2 }
  | .evaluate c =>
    let r := s.manager.evaluateDecision tx c
    { s with manager := r.2, results := s.results ++ [r.1] }
  | .clear => { s with manager := s.manager.clearAuditTrail.2, cleared := s.results.length }

end ShadowMode
