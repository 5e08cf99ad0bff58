import Mathlib.Data.Rat.Floor
import IctAlgo.Lib.Runs
import IctAlgo.Stage10.Proof.Submit

/-!
# The daily trade counters

* `CountersOk`: the total is the sum over the symbols, and both stay within the limits of the
  configuration (rounded up; zero for a negative limit).
* `counters_run`: it holds after every sequence of calls, each of which appends one audit entry.
  The counters change in a call the engine executed a trade in, or go to zero in the daily reset.
-/

set_option autoImplicit false

namespace Stage10.Controller

open Lib Execution

/-! ## Checks that passed -/

section
variable {c : Controller} {intent : TradeIntent} {health : Health}

/-- No check failed. -/
theorem status_of_passed (h : c.failedChecks intent health = []) {r : GuardrailCheckResult}
    (hr : r ∈ c.runGuardrailChecks intent health) : r.status ≠ .fail := by
  have hall := List.filter_eq_nil_iff.1 h r hr
  simpa using hall

theorem trades_lt_of_passed (h : c.failedChecks intent health = []) :
    (c.dailyCounters.tradesExecuted : ℚ) < c.config.dailyMaxTrades := by
  have hs := status_of_passed h (r := c.checkDailyMaxTrades) (by simp [runGuardrailChecks])
  by_contra hn
  have hge : (c.dailyCounters.tradesExecuted : ℚ) ≥ c.config.dailyMaxTrades := not_lt.1 hn
  simp [checkDailyMaxTrades, hge] at hs

theorem symbol_lt_of_passed (h : c.failedChecks intent health = []) :
    (c.dailyCounters.perSymbolTrades.getD intent.symbol 0 : ℚ) < c.config.perSymbolMaxTrades := by
  have hs := status_of_passed h (r := c.checkPerSymbolMaxTrades intent)
    (by simp [runGuardrailChecks])
  by_contra hn
  have hge : (c.dailyCounters.perSymbolTrades.getD intent.symbol 0 : ℚ) ≥
    c.config.perSymbolMaxTrades := not_lt.1 hn
  simp [checkPerSymbolMaxTrades, hge] at hs

theorem loss_le_of_passed (h : c.failedChecks intent health = []) :
    PyFloat.lt (.fin c.config.dailyMaxLossUsd)
      (Binary64.add c.dailyCounters.totalLossUsd (potentialLoss intent)) = false := by
  have hs := status_of_passed h (r := c.checkDailyMaxLoss intent) (by simp [runGuardrailChecks])
  by_contra hn
  have hgt : PyFloat.lt (.fin c.config.dailyMaxLossUsd)
      (Binary64.add c.dailyCounters.totalLossUsd (potentialLoss intent)) = true := by
    simpa using hn
  simp [checkDailyMaxLoss, hgt] at hs

end

/-! ## The invariant -/

/-- The trade counters agree with each other and with the limits. -/
structure CountersOk (config : Config) (counters : DailyCounters) : Prop where
  sum : counters.tradesExecuted = counters.perSymbolTrades.values.sum
  trades : counters.tradesExecuted ≤ ⌈config.dailyMaxTrades⌉₊
  symbol : ∀ symbol, counters.perSymbolTrades.getD symbol 0 ≤ ⌈config.perSymbolMaxTrades⌉₊

theorem countersOk_zero (config : Config) (t : ℚ) : CountersOk config { lastReset := t } :=
  ⟨rfl, Nat.zero_le _, fun _ => Nat.zero_le _⟩

theorem CountersOk.reset {config : Config} (counters : DailyCounters) (t : ℚ) :
    CountersOk config (Controller.reset counters t) :=
  ⟨rfl, Nat.zero_le _, fun _ => Nat.zero_le _⟩

/-- One more trade, below both limits. -/
theorem CountersOk.counted {config : Config} {counters : DailyCounters} {symbol : String}
    (h : CountersOk config counters) (r : ExecutionResult)
    (ht : (counters.tradesExecuted : ℚ) < config.dailyMaxTrades)
    (hs : (counters.perSymbolTrades.getD symbol 0 : ℚ) < config.perSymbolMaxTrades) :
    CountersOk config (Controller.counted counters symbol r) where
  sum := by
    have hset := counters.perSymbolTrades.sum_set symbol (counters.perSymbolTrades.getD symbol 0 + 1)
    have hsum := h.sum
    simp only [Controller.counted]
    omega
  trades := Nat.lt_ceil.2 ht
  symbol s := by
    simp only [Controller.counted]
    by_cases heq : s = symbol
    · subst heq
      rw [Dict.getD_set_self]
      exact Nat.lt_ceil.2 hs
    · rw [Dict.getD_set_ne _ _ _ heq]
      exact h.symbol s

theorem CountersOk.refresh {c : Controller} (h : CountersOk c.config c.dailyCounters) :
    CountersOk c.config c.refresh.dailyCounters := by
  simp only [Controller.refresh]
  split
  · exact .reset _ _
  · exact h

/-- **Every call keeps the counters consistent and within the limits.** -/
theorem CountersOk.step {c : Controller} (h : CountersOk c.config c.dailyCounters) (call : Call) :
    CountersOk (c.step call).config (c.step call).dailyCounters := by
  have hchecks : CountersOk c.config (c.atChecks call.intent).dailyCounters :=
    CountersOk.refresh (c := c.opened call.intent) h
  have hconfig : (c.atChecks call.intent).config = c.config := refresh_config _
  rcases submitted_step c call with ⟨hc, -, hd, -⟩ | ⟨hc, -, ⟨hp, -⟩, -, -, -, hd⟩
  · rw [hc, hd]
    exact hchecks
  · rw [hc, hd]
    refine hchecks.counted _ ?_ ?_
    · have := trades_lt_of_passed hp
      rwa [hconfig] at this
    · have := symbol_lt_of_passed hp
      rwa [hconfig] at this

/-- How the counters move in a call that leaves `c'` and appends `entry`: they stay, the daily reset
zeroes them, or the engine executed the trade. -/
def CountersMove (c c' : Controller) (entry : AuditLog) : Prop :=
  c'.dailyCounters = c.dailyCounters ∨
  (isStale c.dailyCounters c.engine.world.tick.nextTime = true ∧
    c'.dailyCounters = reset c.dailyCounters c.engine.world.tick.tick.nextTime) ∨
  ∃ r, entry.executionResult = some r ∧ isExecuted r.status = true

theorem countersMove_step (c : Controller) (call : Call) :
    ∃ entry, (c.step call).auditLogs = c.auditLogs ++ [entry] ∧
      CountersMove c (c.step call) entry := by
  rcases submitted_step c call with ⟨-, ha, hd, -⟩ | ⟨-, ha, -, -, hr, hx, -⟩
  · refine ⟨_, ha, ?_⟩
    rw [CountersMove, hd]
    simp only [atChecks, refresh]
    by_cases hst : isStale c.dailyCounters c.engine.world.tick.nextTime = true
    · refine Or.inr (Or.inl ⟨hst, ?_⟩)
      rw [if_pos (by exact hst)]
      rfl
    · refine Or.inl ?_
      rw [if_neg (by exact hst)]
      rfl
  · exact ⟨_, ha, Or.inr (Or.inr ⟨_, hr, hx⟩)⟩

theorem length_auditLogs_run (c : Controller) (calls : List Call) :
    (Runs.run step c calls).auditLogs.length = c.auditLogs.length + calls.length := by
  induction calls generalizing c with
  | nil => rfl
  | cons call calls ih =>
    obtain ⟨entry, ha, -⟩ := countersMove_step c call
    rw [Runs.run_cons, ih, ha]
    simp only [List.length_append, List.length_cons, List.length_nil]
    omega

/-- **The trade counters over every sequence of calls.** -/
theorem counters_run (config : Config) (engine : Engine) (calls : List Call) :
    CountersOk config (Runs.run step (new config engine) calls).dailyCounters ∧
    (Runs.run step (new config engine) calls).auditLogs.length = calls.length ∧
    ∀ call, ∃ entry, (Runs.run step (new config engine) (calls ++ [call])).auditLogs =
        (Runs.run step (new config engine) calls).auditLogs ++ [entry] ∧
      CountersMove (Runs.run step (new config engine) calls)
        (Runs.run step (new config engine) (calls ++ [call])) entry := by
  have hinv : (Runs.run step (new config engine) calls).config = config ∧
      CountersOk (Runs.run step (new config engine) calls).config
        (Runs.run step (new config engine) calls).dailyCounters := by
    refine Runs.run_inv
      (I := fun c : Controller => c.config = config ∧ CountersOk c.config c.dailyCounters) calls
      ⟨rfl, countersOk_zero _ _⟩ fun c call h => ⟨?_, h.2.step call⟩
    exact (submitted_step c call).config.trans h.1
  refine ⟨?_, ?_, fun call => ?_⟩
  · have hok := hinv.2
    rwa [hinv.1] at hok
  · rw [length_auditLogs_run]
    exact Nat.zero_add _
  · rw [Runs.run_append]
    exact countersMove_step _ call

/-- An intent to buy EURUSD, risking 0.022 of the account currency. -/
def eurusdIntent : TradeIntent where
  intentId := "intent-1"
  symbol := "EURUSD"
  direction := "long"
  proposedEntry := Binary64.literal (11 / 10)
  proposedSl := Binary64.literal (1078 / 1000)
  proposedTp := Binary64.literal (1133 / 1000)

/-- An engine whose broker fills every order at 1.1, in the size `size`; the clock passes 25 hours
before the 17th reading, the first of the second call. -/
def fillingEngine (size : ℚ) : Engine :=
  .new (.filling (Binary64.literal (11 / 10)) size) { elapse := fun n => if n = 17 then 90000 else 0 }

/-- A rejected call after the 24 hours sets the counters back; a negative limit is exceeded by no
trade at all, and a limit of one half by the first. -/
theorem counters_reset_by_rejected :
    (let c := Runs.run step (new {} (fillingEngine 1)) [{ intent := eurusdIntent }]
     let c' := c.step { intent := eurusdIntent, health := some (.ok false) }
     c.dailyCounters.tradesExecuted = 1 ∧ c'.dailyCounters.tradesExecuted = 0 ∧
       (c'.auditLogs.getLast?.bind (·.executionResult)) = none) ∧
    ¬ (((new { dailyMaxTrades := -1 } (fillingEngine 1)).dailyCounters.tradesExecuted : ℚ) ≤ -1) ∧
    ¬ (((new { dailyMaxTrades := 1 / 2 } (fillingEngine 1)).step
      { intent := eurusdIntent }).dailyCounters.tradesExecuted : ℚ) ≤ 1 / 2 := by
  decide +kernel

end Stage10.Controller
