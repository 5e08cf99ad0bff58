import IctAlgo.Lib.Runs
import IctAlgo.Redis.Wrapper

/-!
# The circuit of the Redis wrapper

`_ensure_redis` opens the circuit until a deadline. `redis_op` refuses every call while the deadline
is set, without looking at the clock, and never gets to the `_ensure_redis` that would close it.

* `redisOp_open`: a call on an open circuit is refused and changes nothing.
* `closesAgain_iff`: so a call is treated as it should be unless the deadline is over.
* `circuit_closes_iff`: the same for runs.
-/

set_option autoImplicit false

namespace Redis

open Lib

variable {α : Type} {cfg : Config} {call : OpCall α} {c : Ctx}

/-! ## `_ensure_redis` -/

/-- Connecting closes the circuit. -/
theorem connect_closes {left : ℕ} {pings : List Ping} {c : Ctx}
    (h : (connect left pings c).1 = true) : (connect left pings c).2.openUntil = 0 := by
  induction left generalizing pings c with
  | zero => cases h
  | succ left ih =>
    unfold connect at h ⊢
    split
    · rfl
    all_goals
      rename_i heq
      simp only [heq] at h
      exact ih h

/-- **A successful reconnection leaves the circuit closed.** -/
theorem ensureRedis_closes (cfg : Config) (env : EnsureEnv) (c : Ctx)
    (h : (ensureRedis cfg env c).redis = true) : (ensureRedis cfg env c).openUntil = 0 := by
  unfold ensureRedis at h ⊢
  split at h
  · cases h
  rename_i hmodule
  rw [if_neg hmodule]
  split at h
  · cases h
  rename_i hdeadline
  rw [if_neg hdeadline]
  have hconnect : (connect cfg.maxAttempts env.pings c).1 = true →
      (connect cfg.maxAttempts env.pings c).2.openUntil = 0 := connect_closes
  rcases hc : connect cfg.maxAttempts env.pings c with ⟨connected, c'⟩
  rw [hc] at h hconnect
  cases connected with
  | true => exact hconnect rfl
  | false => cases h

/-! ## `redis_op` -/

theorem redisOp_open (h : 0 < c.openUntil) :
    redisOp cfg call c = (.error (.unavailable .circuitOpen), c) := if_pos h

theorem attempts_not_open (left n : ℕ) (c : Ctx) :
    (attempts cfg call left n c).1 ≠ .error (.unavailable .circuitOpen) := by
  induction left generalizing n c with
  | zero =>
    unfold attempts
    split
    · simp
    · simp
  | succ left ih =>
    unfold attempts
    split
    · simp
    · dsimp only
      split
      · exact ih _ _
      · simp

/-- Only an open circuit refuses a call as open. -/
theorem redisOp_refuses_iff :
    (redisOp cfg call c).1 = .error (.unavailable .circuitOpen) ↔ 0 < c.openUntil := by
  refine ⟨fun h => ?_, fun h => ?_⟩
  · by_contra hclosed
    unfold redisOp at h
    rw [if_neg hclosed] at h
    generalize (if c.redis then c else ensureRedis cfg (call.ensure 0) c) = c' at h
    dsimp only at h
    split at h
    · exact attempts_not_open _ _ _ h
    · cases h
  · rw [redisOp_open h]

/-- The call is refused for an open circuit only before its deadline, and after the deadline there
is an attempt to connect. -/
structure ClosesAgain (cfg : Config) (c : Ctx) (call : OpCall α) : Prop where
  refused : (redisOp cfg call c).1 = .error (.unavailable .circuitOpen) → call.now < c.openUntil
  reconnects : 0 < c.openUntil → c.openUntil < call.now →
    c.reconnects < (step cfg call c).reconnects

/-- The circuit is closed, or the deadline is not over. -/
def BeforeDeadline (c : Ctx) (call : OpCall α) : Prop := c.openUntil ≤ 0 ∨ call.now < c.openUntil

theorem closesAgain_iff : ClosesAgain cfg c call ↔ BeforeDeadline c call := by
  refine ⟨fun h => ?_, fun h' => ?_⟩
  · rcases lt_or_ge 0 c.openUntil with hopen | hclosed
    · exact Or.inr (h.refused (redisOp_refuses_iff.2 hopen))
    · exact Or.inl hclosed
  · obtain hclosed | hbefore := h'
    · exact ⟨fun h => absurd (redisOp_refuses_iff.1 h) (not_lt.2 hclosed),
        fun h => absurd h (not_lt.2 hclosed)⟩
    · exact ⟨fun _ => hbefore, fun _ hlate => absurd hlate (not_lt.2 hbefore.le)⟩

/-! ## Runs -/

/-- **An open circuit stays open**, whatever is called and whenever. -/
theorem run_open (calls : List (OpCall α)) (h : 0 < c.openUntil) :
    Runs.run (fun c call => step cfg call c) c calls = c :=
  Runs.run_inv (I := (· = c)) calls rfl fun c' call hc' => by
    rw [hc', step, redisOp_open h]

/-- **The circuit closes again** in the runs without a call after the deadline of an open circuit,
and in no others; an open circuit stays open, and a successful reconnection would close it. -/
theorem circuit_closes_iff (cfg : Config) (c : Ctx) (calls : List (OpCall α)) :
    (Runs.Within (fun c call => step cfg call c) (ClosesAgain cfg) c calls ↔
      Runs.Within (fun c call => step cfg call c) BeforeDeadline c calls) ∧
    (0 < c.openUntil → Runs.run (fun c call => step cfg call c) c calls = c) ∧
    ∀ env c, (ensureRedis cfg env c).redis = true → (ensureRedis cfg env c).openUntil = 0 :=
  ⟨Runs.within_congr fun _ _ => closesAgain_iff, run_open calls, ensureRedis_closes cfg⟩

/-- Redis is down at the time 1000, and back at 2000. -/
def outage : List (OpCall Unit) :=
  [{ now := 1000, op := fun _ => .ok (), ensure := fun _ => { now := 1000, later := 1010 } },
    { now := 2000, op := fun _ => .ok ()
      ensure := fun _ => { now := 2000, pings := [.pong], later := 2000 } }]

/-- The call at 2000 is refused without an attempt to connect; the deadline was 1070. -/
theorem outage_stuck :
    (Runs.run (fun c call => step {} call c) {} (outage.take 1)).openUntil = 1070 ∧
    ¬ Runs.Within (fun c call => step {} call c) (ClosesAgain {}) {} outage := by
  have hopen : (Runs.run (fun c call => step {} call c) {} (outage.take 1)).openUntil = 1070 := by
    decide +kernel
  refine ⟨hopen, fun h => ?_⟩
  obtain ⟨-, hlate, -⟩ := h
  have hrefused := hlate.refused (redisOp_refuses_iff.2 (by decide +kernel))
  revert hrefused
  decide +kernel

end Redis
