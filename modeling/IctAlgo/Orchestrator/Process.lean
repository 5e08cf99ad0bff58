import IctAlgo.Orchestrator.Policy

/-!
# The entry points of the orchestrator

`process_decision`, one item of `run_from_queue`, and `handle_event` of
`reasoner_service/orchestrator.py`, with `_execute_paper_trade_if_enabled`. Each gives the list of
what it does to the outside (`Effect`), with the answers of the policy gate in between. The replies of
the database, of Redis, of the plan executor and of the mode selection are the environment's; a
notifier that raises was called all the same.

Last are `_is_quiet_hours` and `_in_override_window`. A time of the day is in microseconds since
midnight; what `int` reads from a text is a parameter.
-/

set_option autoImplicit false

namespace Orchestrator

open Lib

/-- What an entry point does for a decision, and what the gate answered it. -/
inductive Effect
  | gate (result : GateResult)
  | paperEntry
  | inserted (id : ℕ)
  | notified (channel : String)
  deriving DecidableEq

structure ProcessConfig where
  gate : GateConfig
  dlq : DlqSettings := {}
  dedupEnabled : Bool := true
  redisDedupEnabled : Bool := false
  routing : Routing := {}
  /-- The channels with a notifier. -/
  notifiers : List String := []

/-- What a call of `process_decision` meets. -/
structure ProcessEnv where
  gate : GateEnv
  now : Instant
  /-- The policies of the check after the reasoning. -/
  post : GateEnv
  shadow : Option Value := none
  /-- The reply of `SET NX`; `none` without a client or when it fails. -/
  setnx : Option Bool := none
  insert : Except String ℕ
  /-- The clock when a dead letter is written. -/
  ts : ℤ := 0
  redisConnected : Bool := false
  rpush : RedisReply := .ok
  quietHours : Bool := false
  inWindow : RoutingOverride → Bool := fun _ => false
  notify : String → Except String Value := fun _ => .ok .null

inductive NotifyResult
  | reply (v : Value)
  | error (text : String)
  | skipped (reason : Option String)
  deriving DecidableEq

structure ProcessResult where
  id : Option ℕ
  skipped : Bool
  notifyResults : Dict String NotifyResult

section

variable (cv : Conv) (cfg : ProcessConfig)

/-! ## `_execute_paper_trade_if_enabled` -/

/-- `v or w`. -/
def Value.orElse (v w : Value) : Value := if v.truthy then v else w

/-- The fields a paper trade needs. -/
def paperFields (d : Fields) : List Value :=
  [val d "symbol", val d "signal_type", val d "timeframe", val d "entry_price",
    (val d "stop_loss_price").orElse (val d "sl_price"),
    (val d "take_profit_price").orElse (val d "tp_price"), val d "id"]

/-- `random.seed` takes the value. -/
def seedOk : Value → Bool
  | .list _ | .dict _ => false
  | _ => true

/-- The configuration of the adapter converts. -/
def paperConfigOk (items : List (String × Value)) : Bool :=
  [("slippage_fixed_pct", 1 / 20), ("slippage_random_min_pct", 0),
      ("slippage_random_max_pct", 1 / 10)].all
    (fun (key, default) => (cv.float? (getKey items key (.float (.fin default)))).isSome) &&
  [("tpsl_random_bars_min", 5), ("tpsl_random_bars_max", 100), ("tpsl_random_hours_min", 1),
      ("tpsl_random_hours_max", 24), ("fill_delay_seconds", 2)].all
    (fun (key, default) => (cv.int? (getKey items key (.int default))).isSome) &&
  seedOk (getKey items "seed" .null)

/-- The adapter is called to enter the trade. -/
def entersPaper (d : Fields) : Bool :=
  (cfg.gate.section? "paper_execution_adapter").any fun items =>
    (getKey items "enabled" (.bool false)).truthy && (paperFields d).all Value.truthy &&
      paperConfigOk cv items

/-! ## `process_decision` -/

variable (env : ProcessEnv)

/-- The decision is a duplicate for Redis. -/
def skips : Bool := cfg.dedupEnabled && cfg.redisDedupEnabled && env.setnx = some false

/-- Persist the decision, or enqueue it if that fails. -/
def persistDecision (d : Fields) (s : Orch) : List Effect × Option ℕ × Orch :=
  match env.insert with
  | .ok id => ([.inserted id], some id, s)
  | .error err =>
    ([], none, { s with
      dlq := s.dlq.enqueue cfg.dlq env.redisConnected env.rpush ⟨d, err, env.ts, 0, 0⟩ })

/-- The channels of a decision; `none` when the routing raises. -/
def channelsOf (channels : Option (List String)) (d : Fields) : Option (List String) :=
  match channels with
  | some chs => some chs
  | none => cfg.routing.channelsFor env.inWindow d

/-- Quiet hours, unless the decision is urgent. -/
def quietFor (d : Fields) : Bool := env.quietHours && !(val d "urgent").truthy

/-- The channels that are notified. -/
def recipients (d : Fields) (routed : List String) : List String :=
  if quietFor env d || skips cfg env then [] else routed.filter cfg.notifiers.contains

def NotifyResult.ofReply : Except String Value → NotifyResult
  | .ok v => .reply v
  | .error text => .error text

/-- The results by channel. The replies are paired with the routed channels, of which those without
a notifier have none. -/
def notifyResults (d : Fields) (routed : List String) : Dict String NotifyResult :=
  let sent := recipients cfg env d routed
  let results :=
    if quietFor env d then routed.map fun ch => (ch, NotifyResult.skipped (some "quiet_hours"))
    else if sent.isEmpty then routed.map fun ch => (ch, NotifyResult.skipped none)
    else routed.zip (sent.map fun ch => .ofReply (env.notify ch))
  results.foldl (fun acc (ch, r) => acc.set ch r) Dict.empty

/-- The decision with the result of the shadow mode, which nothing reads. -/
def withShadow (d : Fields) : Fields :=
  match env.shadow with
  | some v => if v.truthy then d.set "_shadow_policy_result" v else d
  | none => d

/-- The decision that `process_decision` stores and sends: normalized, with the result of the shadow
mode; `none` when it raises before. -/
def processed? (decision : Payload) (s : Orch) : Option Fields :=
  (cv.normalizeDecision env.now (preReasoningPolicyCheck cv cfg.gate env.gate decision s).2.1).map
    (withShadow env)

/-- `process_decision` from the normalized decision on; no result when it raises. -/
def processNormalized (persist : Bool) (channels : Option (List String)) (d : Fields) (s : Orch) :
    List Effect × Option ProcessResult × Orch :=
  let s := (postReasoningPolicyCheck cv cfg.gate env.post d s).2
  let paper := if entersPaper cv cfg d then [Effect.paperEntry] else []
  let d := withShadow env d
  let (stored, id, s) := if persist then persistDecision cfg env d s else ([], none, s)
  match channelsOf cfg env channels d with
  | none => (paper ++ stored, none, s)
  | some routed =>
    (paper ++ stored ++ (recipients cfg env d routed).map .notified,
      some ⟨id, skips cfg env, notifyResults cfg env d routed⟩, s)

/-- `process_decision`. The answer of the gate is not looked at. -/
def processDecision (persist : Bool) (channels : Option (List String)) (decision : Payload)
    (s : Orch) : List Effect × Option ProcessResult × Orch :=
  let (result, decision, s) := preReasoningPolicyCheck cv cfg.gate env.gate decision s
  match cv.normalizeDecision env.now decision with
  | none => ([.gate result], none, s)
  | some d =>
    let (effects, reply, s) := processNormalized cv cfg env persist channels d s
    (.gate result :: effects, reply, s)

end

/-! ## `run_from_queue` -/

/-- What an item of the queue meets. -/
structure QueueEnv where
  gate : GateEnv
  /-- `execute_plan_if_enabled`; it may raise. -/
  plan : Except String Payload := .ok (.dict Dict.empty)
  post : GateEnv
  /-- What `publish_to_dlq` meets. -/
  ts : ℤ := 0
  redisConnected : Bool := false
  pushed : Bool := true
  process : ProcessEnv

def Payload.toValue : Payload → Value
  | .dict d => .dict d.items
  | .other v => v

section

variable (cv : Conv) (cfg : ProcessConfig)

/-- The item has a plan. -/
def hasPlan (decision : Fields) : Bool := !(val decision "plan").isNull

/-- `publish_to_dlq`. -/
def publishToDlq (env : QueueEnv) (d : Fields) (s : Orch) : Orch :=
  { s with
    dlq := s.dlq.enqueue cfg.dlq env.redisConnected (if env.pushed then .ok else .failed)
      ⟨d, "published_via_adapter", env.ts, 0, 0⟩ }

/-- The plan of an item: its result goes into the decision; if it raises, the decision is published
to the dead letters and Slack is notified. -/
def runPlan (env : QueueEnv) (decision : Payload) (s : Orch) : List Effect × Payload × Orch :=
  match decision with
  | .other _ => ([], decision, s)
  | .dict d =>
    if hasPlan d then
      match env.plan with
      | .ok result =>
        let s := match result with
          | .dict r => (postReasoningPolicyCheck cv cfg.gate env.post r s).2
          | .other _ => s
        ([], .dict (d.set "_plan_result" result.toValue), s)
      | .error _ =>
        let notified := if "slack" ∈ cfg.notifiers then [Effect.notified "slack"] else []
        (notified, decision, publishToDlq cfg env d s)
    else ([], decision, s)

/-- An item of the queue in `run_from_queue`, which catches what it raises. -/
def runFromQueueItem (env : QueueEnv) (decision : Payload) (s : Orch) : List Effect × Orch :=
  let (result, decision, s) := preReasoningPolicyCheck cv cfg.gate env.gate decision s
  let (planned, decision, s) := runPlan cv cfg env decision s
  let (effects, _, s) := processDecision cv cfg env.process true none decision s
  (.gate result :: planned ++ effects, s)

/-! ## `handle_event` -/

structure Event where
  eventType : String
  payload : Payload
  correlationId : String

inductive EventStatus
  | accepted | rejected | deferred | error
  deriving DecidableEq, Repr

/-- The result of an event; a reason without the text of an exception. -/
structure EventResult where
  status : EventStatus
  reason : Option String := none
  decisionId : Option Value := none
  deriving DecidableEq

/-- What an event meets. -/
structure EventEnv where
  globalCooldownUntil : Option ℤ := none
  nowMs : ℤ := 0
  quietHours : Bool := false
  gate : GateEnv
  /-- The result of a mode selection that fails. -/
  modeFailure : Option EventResult := none
  plan : Except String Payload := .ok (.dict Dict.empty)
  process : ProcessEnv

/-- The plan of an event ran and failed. -/
def planFails (plan : Except String Payload) : Bool :=
  match plan with
  | .ok (.dict r) => val r "status" = .str "failure"
  | _ => false

/-- The event is not looked at. -/
def refuses (env : EventEnv) (event : Event) : Option EventResult :=
  match event.payload with
  | .other _ => some ⟨.error, "malformed_event", none⟩
  | .dict _ =>
    if event.eventType = "" then some ⟨.error, "malformed_event", none⟩
    else if env.globalCooldownUntil.any (· > env.nowMs) then
      some ⟨.deferred, "global_cooldown_active", none⟩
    else if env.quietHours then some ⟨.deferred, "quiet_hours_active", none⟩
    else none

def GateResult.eventResult : GateResult → Option EventResult
  | .pass _ => none
  | .veto v => some ⟨.rejected, v.reason, none⟩
  | .defer _ => some ⟨.deferred, "cooldown", none⟩

/-- A plan with its context, as an event carries it. -/
def carriesPlan (d : Fields) : Bool :=
  (d.get? "plan").isSome && (d.get? "execution_context").isSome

/-- A decision event behind the gate, up to `process_decision`. -/
def beforeProcess (env : EventEnv) (d : Fields) : Option EventResult :=
  match env.modeFailure with
  | some result => some result
  | none =>
    if carriesPlan d && planFails env.plan then some ⟨.rejected, "plan_execution_failed", none⟩
    else none

/-- A decision event. -/
def handleDecision (env : EventEnv) (d : Fields) (correlationId : String) (s : Orch) :
    List Effect × EventResult × Orch :=
  let (result, decision, s) := preReasoningPolicyCheck cv cfg.gate env.gate (.dict d) s
  match result.eventResult with
  | some refusal => ([.gate result], refusal, s)
  | none =>
    match beforeProcess env d with
    | some refusal => ([.gate result], refusal, s)
    | none =>
      let (effects, reply, s) := processDecision cv cfg env.process true none decision s
      let answer := match reply with
        | some _ => ⟨.accepted, none, some ((val d "id").orElse (.str correlationId))⟩
        | none => ⟨.error, "decision_processing_error", none⟩
      (.gate result :: effects, answer, s)

/-- An event that asks for a plan. -/
def handlePlan (env : EventEnv) (d : Fields) (correlationId : String) : EventResult :=
  if carriesPlan d then
    match env.plan with
    | .error _ => ⟨.error, "plan_execution_error", none⟩
    | .ok _ =>
      if planFails env.plan then ⟨.rejected, "plan_execution_failed", none⟩
      else ⟨.accepted, none, some (.str correlationId)⟩
  else ⟨.error, "missing_plan_or_context", none⟩

/-- `handle_event`. -/
def handleEvent (env : EventEnv) (event : Event) (s : Orch) : List Effect × EventResult × Orch :=
  match refuses env event, event.payload with
  | some refusal, _ => ([], refusal, s)
  | none, .other _ => ([], ⟨.error, "malformed_event", none⟩, s)
  | none, .dict d =>
    if event.eventType = "decision" then handleDecision cv cfg env d event.correlationId s
    else if event.eventType = "plan_execution" then ([], handlePlan env d event.correlationId, s)
    else ([], ⟨.rejected, "unsupported_event_type", none⟩, s)

end

/-! ## Quiet hours and override windows -/

/-- `datetime.time(hour, minute)`; `none` when it raises. -/
def dtTime? (hour minute : ℤ) : Option ℤ :=
  if 0 ≤ hour ∧ hour < 24 ∧ 0 ≤ minute ∧ minute < 60 then some ((hour * 60 + minute) * 60000000)
  else none

/-- The test of the two windows, which may cross midnight. -/
def inClockWindow (startT endT t : ℤ) : Bool :=
  if startT < endT then startT ≤ t && t ≤ endT else startT ≤ t || t ≤ endT

section
variable (cv : Conv)

/-- `dt_time(*map(int, text.split(":")))`, of two parts. -/
def clock? (text : String) : Option ℤ :=
  match text.splitOn ":" with
  | [hour, minute] => do dtTime? (← cv.intText hour) (← cv.intText minute)
  | _ => none

/-- The window of two texts; one that does not convert is never active. -/
def windowActive (start stop : String) (t : ℤ) : Bool :=
  match clock? cv start, clock? cv stop with
  | some startT, some endT => inClockWindow startT endT t
  | _, _ => false

/-- `_is_quiet_hours`; what follows a second dash is not looked at. -/
def isQuietHours (q : String) (t : ℤ) : Bool :=
  if q = "" then false
  else match q.splitOn "-" with
    | start :: stop :: _ => windowActive cv (strip start) (strip stop) t
    | _ => false

/-- `_in_override_window`. -/
def inOverrideWindow (override : RoutingOverride) (t : ℤ) : Bool :=
  if override.start = "" || override.stop = "" then false
  else windowActive cv override.start override.stop t

/-- A call of `process_decision` at a time of the day, with the setting `QUIET_HOURS`. -/
def ProcessEnv.atTime (env : ProcessEnv) (q : String) (t : ℤ) : ProcessEnv :=
  { env with
    quietHours := isQuietHours cv q t
    inWindow := fun override => inOverrideWindow cv override t }

/-- An event at that time. -/
def EventEnv.atTime (env : EventEnv) (q : String) (t : ℤ) : EventEnv :=
  { env with quietHours := isQuietHours cv q t, process := env.process.atTime cv q t }

end

end Orchestrator
