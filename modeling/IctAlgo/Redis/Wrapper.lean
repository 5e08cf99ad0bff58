import Mathlib.Algebra.Order.Ring.Rat

/-!
# The Redis wrapper

`redis_op` of `utils/redis_wrapper.py` and `_ensure_redis` of `reasoner_service/orchestrator.py`. The
replies of Redis and the clock readings of a call are its arguments; the waits between attempts only
let time pass. A client is known by whether there is one.
-/

set_option autoImplicit false

namespace Redis

/-- The fields of the orchestrator that the wrapper reads and writes. -/
structure Ctx where
  /-- There is a client in `_redis`. -/
  redis : Bool := false
  failureCount : ℕ := 0
  /-- `_redis_circuit_open_until`. -/
  openUntil : ℚ := 0
  /-- The attempts to connect so far; nothing reads it. -/
  reconnects : ℕ := 0
  deriving DecidableEq

/-- `REDIS_RECONNECT_MAX_ATTEMPTS` and `REDIS_CIRCUIT_COOLDOWN_SECONDS`. -/
structure Config where
  maxAttempts : ℕ := 5
  cooldown : ℚ := 60

/-! ## `_ensure_redis` -/

/-- How an attempt to connect goes: `from_url` raises, or the ping of the new client raises, answers
with a falsy value, or answers. -/
inductive Ping
  | noClient | failed | falsy | pong
  deriving DecidableEq, Repr

/-- What a call of `_ensure_redis` meets. After the last of `pings` every ping fails. -/
structure EnsureEnv where
  /-- `redis.asyncio` can be imported. -/
  hasModule : Bool := true
  /-- The clock when the deadline is checked. -/
  now : ℚ
  pings : List Ping := []
  /-- The clock when the attempts are used up. -/
  later : ℚ

/-- The loop of the attempts, of which `left` are left; true when one connects. -/
def connect : ℕ → List Ping → Ctx → Bool × Ctx
  | 0, _, c => (false, c)
  | left + 1, pings, c =>
    -- An attempt with a falsy answer is made again, and not counted.
    match pings.dropWhile (· = .falsy) with
    | .pong :: _ =>
      (true, { redis := true, failureCount := 0, openUntil := 0, reconnects := c.reconnects + 1 })
    | .noClient :: pings =>
      connect left pings { c with
        failureCount := c.failureCount + 1, reconnects := c.reconnects + 1 }
    | _ :: pings =>
      connect left pings { c with
        redis := false, failureCount := c.failureCount + 1, reconnects := c.reconnects + 1 }
    | [] =>
      connect left [] { c with
        redis := false, failureCount := c.failureCount + 1, reconnects := c.reconnects + 1 }

def ensureRedis (cfg : Config) (env : EnsureEnv) (c : Ctx) : Ctx :=
  if !env.hasModule then { c with redis := false }
  else if c.openUntil ≠ 0 ∧ env.now < c.openUntil then { c with redis := false }
  else match connect cfg.maxAttempts env.pings c with
    | (true, c) => c
    | (false, c) => { c with redis := false, openUntil := env.later + cfg.cooldown }

/-! ## `redis_op` -/

/-- The message of a `RedisUnavailable`. -/
inductive Unavailable
  | circuitOpen | afterEnsure | afterReconnect
  deriving DecidableEq, Repr

inductive OpError
  | unavailable (why : Unavailable)
  | opFailed (text : String)
  deriving DecidableEq

/-- A call of `redis_op`: `now` is its time, `op n` what the operation does at attempt `n`, and
`ensure n` what `_ensure_redis` meets after that attempt, or before the first one. -/
structure OpCall (α : Type) where
  now : ℚ
  retries : ℕ := 1
  op : ℕ → Except String α
  ensure : ℕ → EnsureEnv

section
variable {α : Type} (cfg : Config) (call : OpCall α)

/-- The attempts from attempt `n` on, of which `left + 1` are left. -/
def attempts : ℕ → ℕ → Ctx → Except OpError α × Ctx
  | left, n, c =>
    match call.op n with
    | .ok value => (.ok value, c)
    | .error err =>
      match left with
      | 0 => (.error (.opFailed err), c)
      | left + 1 =>
        let c := ensureRedis cfg (call.ensure n) c
        if c.redis then attempts left (n + 1) c
        else (.error (.unavailable .afterReconnect), c)

def redisOp (c : Ctx) : Except OpError α × Ctx :=
  if 0 < c.openUntil then (.error (.unavailable .circuitOpen), c)
  else
    let c := if c.redis then c else ensureRedis cfg (call.ensure 0) c
    if c.redis then attempts cfg call call.retries 1 c
    else (.error (.unavailable .afterEnsure), c)

/-- The fields after a call. -/
def step (c : Ctx) : Ctx := (redisOp cfg call c).2

end

end Redis
