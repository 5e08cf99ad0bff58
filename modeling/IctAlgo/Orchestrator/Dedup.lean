import IctAlgo.Lib.Keyspace
import IctAlgo.Orchestrator.Process

/-!
# Deduplication

`_compute_dedup_key` and the `SET NX` of `process_decision` in `reasoner_service/orchestrator.py`,
over the keys of a Redis server. A call of `redis_op` makes up to two attempts; whether they arrive
and whether their answers do is the environment's. Nothing else keeps the keys that were seen.
-/

set_option autoImplicit false

namespace Orchestrator

open Lib

/-- What the keys take from Python besides `Conv`. -/
structure KeyConv where
  lower : String → String
  /-- `int(round(x * 100))`; `none` when it raises. -/
  percent : PyFloat → Option ℤ

/-- ASCII letters and whole percentages only. -/
def KeyConv.plain : KeyConv where
  lower := String.toLower
  percent
    | .fin q => if (q * 100).den = 1 then some (q * 100).num else none
    | _ => none

structure DedupConfig where
  dedupWindowSeconds : ℤ := 60
  redisDedupPrefix : String := "dedup:"
  redisDedupTtlSeconds : ℤ := 60

/-- How the `SET NX` of a call goes. -/
inductive SetNx
  /-- There is no client, or no attempt arrives. -/
  | unavailable
  /-- An attempt arrives and is answered. -/
  | answered
  /-- An attempt arrives, and no answer comes back. -/
  | unanswered
  /-- The first attempt arrives without an answer, and the second one is answered. -/
  | repeated
  deriving DecidableEq, Repr

section
variable (cv : Conv) (kc : KeyConv)

/-- `_compute_dedup_key`, at the time `nowMs`; `none` when it raises. -/
def computeDedupKey (dc : DedupConfig) (nowMs : ℤ) (d : Fields) : Option String :=
  let idem := ((val d "idempotency_key").orElse (val d "idempotency")).orElse (val d "idempotencyKey")
  let sig := (val d "signal_id").orElse (val d "signalId")
  if idem.truthy then some ("idem:" ++ cv.text idem)
  else if sig.truthy then some ("sig:" ++ cv.text sig)
  else do
    let symbol := cv.upper (cv.text (d.getD "symbol" (.str "UNKNOWN")))
    let recommendation := kc.lower (cv.text (d.getD "recommendation" (.str "")))
    let conf := ((cv.float? (d.getD "confidence" (.float (.fin 0)))).bind kc.percent).getD 0
    let tsMs ← cv.int? (d.getD "timestamp_ms" (.int nowMs))
    let bucket := max 1 dc.dedupWindowSeconds
    return "norm:" ++ symbol ++ ":" ++ recommendation ++ ":" ++ toString conf ++ ":" ++
      toString (tsMs / 1000 / bucket)

end

/-- The reply to `SET key "1" NX EX ttl`, if there is one, and the keys after it. A `ttl` that is not
positive is an error. -/
def setNxReply (ks : Keyspace String) (now : ℤ) (key : String) (ttlSeconds : ℤ) :
    SetNx → Option Bool × Keyspace String
  | how =>
    let set (ks : Keyspace String) := ks.setNx now key "1" (some (now + ttlSeconds * 1000))
    if ttlSeconds ≤ 0 then (none, ks)
    else match how with
      | .unavailable => (none, ks)
      | .answered => (some (set ks).1, (set ks).2)
      | .unanswered => (none, (set ks).2)
      | .repeated => (some (set (set ks).2).1, (set (set ks).2).2)

/-- The orchestrator and its Redis server, with the keys of the decisions it has processed; nothing
reads these. -/
structure DedupState where
  orch : Orch := {}
  redis : Keyspace String := .empty
  seen : List String := []

/-- A call of `process_decision`; its `env.setnx` is what the server answers. -/
structure DedupCall where
  env : ProcessEnv
  persist : Bool := true
  channels : Option (List String) := none
  decision : Payload
  setNx : SetNx
  /-- The clock of the Redis server. -/
  serverMs : ℤ
  /-- The clock when the key is computed. -/
  nowMs : ℤ

namespace DedupState

section
variable (cv : Conv) (kc : KeyConv) (cfg : ProcessConfig) (dc : DedupConfig) (s : DedupState)
  (call : DedupCall)

/-- The decision whose key is computed. -/
def decision? : Option Fields := processed? cv cfg call.env call.decision s.orch

def dedupKey? : Option String :=
  (decision? cv cfg s call).bind (computeDedupKey cv kc dc call.nowMs)

/-- The reply of Redis to the call, if it is asked and answers, and the keys after it. -/
def askRedis : Option Bool × Keyspace String :=
  match dedupKey? cv kc cfg dc s call with
  | none => (none, s.redis)
  | some key =>
    if cfg.dedupEnabled && cfg.redisDedupEnabled then
      setNxReply s.redis call.serverMs (dc.redisDedupPrefix ++ key) dc.redisDedupTtlSeconds call.setNx
    else (none, s.redis)

/-- `process_decision` with this reply. -/
def process : List Effect × Option ProcessResult × Orch :=
  processDecision cv cfg { call.env with setnx := (askRedis cv kc cfg dc s call).1 } call.persist
    call.channels call.decision s.orch

/-- The state after a call. -/
def step : DedupState where
  orch := (process cv kc cfg dc s call).2.2
  redis := (askRedis cv kc cfg dc s call).2
  seen := (dedupKey? cv kc cfg dc s call).toList ++ s.seen

end

end DedupState

end Orchestrator
