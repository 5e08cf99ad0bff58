import Mathlib.Data.List.TakeWhile
import IctAlgo.Execution.Proof.FillStatus
import IctAlgo.Stage10.Proof.Counters

/-!
# The counted trades and the filled orders

`filledOrders`: the orders a list of broker calls reports filled. `tally` keeps their number, since
the last daily reset, beside the controller.

* `step_counts_iff`: a call counts what the broker reported exactly when the poll that stops its
  loop is handled (`Engine.FillsHandled`).
* `tradesExecuted_eq_filled_iff`: the same for runs; then the limit of the day bounds the orders
  filled in it.
-/

set_option autoImplicit false

namespace Stage10

open Lib Execution

/-- The orders these calls report filled: the submissions with a fill before the next one. -/
def filledOrders : List BrokerEvent → ℕ
  | [] => 0
  | ev :: evs =>
    (if ev.isSubmit && (firstFill (evs.takeWhile fun ev => !ev.isSubmit)).isSome then 1 else 0) +
      filledOrders evs

section
variable {evs : List BrokerEvent}

theorem filledOrders_of_later (h : ∀ ev ∈ evs, ev.isSubmit = false) : filledOrders evs = 0 := by
  induction evs with
  | nil => rfl
  | cons ev evs ih =>
    obtain ⟨hev, h⟩ := List.forall_mem_cons.1 h
    simp [filledOrders, hev, ih h]

/-- One order and later calls. -/
theorem filledOrders_order {symbol : String} {quantity : ℚ} {reply : Except String (Option String)}
    (h : ∀ ev ∈ evs, ev.isSubmit = false) :
    filledOrders (.submitOrder symbol quantity reply :: evs) =
      if (firstFill (.submitOrder symbol quantity reply :: evs)).isSome then 1 else 0 := by
  have hall : (evs.takeWhile fun ev => !ev.isSubmit) = evs :=
    List.takeWhile_eq_self_iff.2 fun ev hev => by simp [h ev hev]
  rw [filledOrders, hall, filledOrders_of_later h, Nat.add_zero]
  rfl

end

/-- The one order of an `execute`. -/
theorem filledOrders_of_called {s : FrozenSnapshot} {e e' : Engine} {r : ExecutionResult}
    (h : Engine.Called s e r e') :
    filledOrders (e'.world.trace.drop e.world.trace.length) =
      if (firstFill (e'.world.trace.drop e.world.trace.length)).isSome then 1 else 0 := by
  cases h with
  | rejected _ htr =>
    rw [htr, List.drop_length]
    rfl
  | ordered _ _ htr hlater =>
    rw [htr, List.drop_left]
    refine filledOrders_order fun ev hev => ?_
    obtain ⟨_, -, h⟩ := hlater ev hev
    exact h.not_submit

namespace Controller

/-! ## One call -/

/-- The poll that stops the loop of this call, if it submits an order, is handled. -/
def FillReported (c : Controller) (call : Call) : Prop :=
  let s := (c.atChecks call.intent).sentSnapshot call.intent
  let e := (c.atChecks call.intent).sentEngine
  (c.atChecks call.intent).Sends call → ¬ e.Blocked s → Engine.FillsHandled s e.world.tick.tick

/-- The polls of this call, if it submits an order, are followed to the end of the loop. -/
def Followed (c : Controller) (call : Call) : Prop :=
  let s := (c.atChecks call.intent).sentSnapshot call.intent
  let e := (c.atChecks call.intent).sentEngine
  (c.atChecks call.intent).Sends call → ¬ e.Blocked s →
    Engine.LoopStops s call.polls e.world.tick.tick

/-- The broker calls the controller `c'` has made since `c`. -/
def callsSince (c c' : Controller) : List BrokerEvent :=
  c'.engine.world.trace.drop c.engine.world.trace.length

variable {c c' : Controller} {call : Call}

theorem sentEngine_trace (c : Controller) (intent : TradeIntent) :
    (c.atChecks intent).sentEngine.world.trace = c.engine.world.trace := by
  simp only [sentEngine, World.tick_trace, atChecks, refresh]
  split <;> rfl

/-- The status of a trade is that of its order exactly when the stop of its loop is handled. -/
theorem Ran.status_iff {r : ExecutionResult} (h : (c.atChecks call.intent).Ran call r c')
    (hsends : (c.atChecks call.intent).Sends call) (hf : c.Followed call) :
    (isExecuted r.status = true ↔ firstFill (callsSince c c') ≠ none) ↔ c.FillReported call := by
  have hstatus := h.executed.agrees_iff_status
  rw [sentEngine_trace] at hstatus
  have hx : isExecuted r.status = true ↔ r.status = .filled ∨ r.status = .executedFullLate := by
    simp [isExecuted]
  rw [hx]
  refine hstatus.symm.trans ?_
  by_cases hb : (c.atChecks call.intent).sentEngine.Blocked
      ((c.atChecks call.intent).sentSnapshot call.intent)
  · refine iff_of_true (hstatus.2 ?_) fun _ hfree => absurd hb hfree
    cases h.executed with
    | rejected _ hst _ htr =>
      rw [htr, sentEngine_trace, List.drop_length]
      simp [hst, firstFill]
    | ordered hfree => exact absurd hb hfree
  · rw [FillReported, ← sentEngine_trace c call.intent, h.executed.agrees_iff hb (hf hsends hb)]
    exact ⟨fun h _ _ => h, fun h => h hsends hb⟩

/-- **What a call counts.** -/
theorem step_counts_iff (hf : c.Followed call) :
    (c.step call).dailyCounters.tradesExecuted =
      (c.atChecks call.intent).dailyCounters.tradesExecuted +
        filledOrders (callsSince c (c.step call)) ↔ c.FillReported call := by
  have hran {r : ExecutionResult} (h : (c.atChecks call.intent).Ran call r (c.step call)) :
      filledOrders (callsSince c (c.step call)) =
        if (firstFill (callsSince c (c.step call))).isSome then 1 else 0 := by
    have hone := filledOrders_of_called h.called
    rwa [sentEngine_trace] at hone
  rcases submitted_step c call with ⟨-, -, hd, hn⟩ | ⟨-, -, hsends, h, -, hx, hd⟩
  · rcases hn with ⟨hnot, htr⟩ | ⟨hsends, r, h, hx⟩
    · have hempty : callsSince c (c.step call) = [] := by
        rw [callsSince, htr, ← sentEngine_trace c call.intent]
        exact List.drop_length
      rw [hd, hempty]
      exact iff_of_true rfl fun h => absurd h hnot
    · rw [← h.status_iff hsends hf, hd, hran h, hx]
      rcases firstFill (callsSince c (c.step call)) with _ | st
      · simp
      · simp
  · rw [← h.status_iff hsends hf, hd, hran h, hx]
    rcases firstFill (callsSince c (c.step call)) with _ | st
    · simp [counted]
    · simp [counted]

/-! ## Runs -/

/-- A controller with the number of orders reported filled since its counters were last reset. -/
structure Tallied where
  controller : Controller
  filled : ℕ := 0

/-- The counters are reset in the call that follows. -/
def stale (c : Controller) : Bool :=
  isStale c.dailyCounters c.engine.world.tick.nextTime

/-- A call, with the orders it reports filled. -/
def tally (t : Tallied) (call : Call) : Tallied where
  controller := t.controller.step call
  filled := (if t.controller.stale then 0 else t.filled) +
    filledOrders (callsSince t.controller (t.controller.step call))

theorem atChecks_tradesExecuted (c : Controller) (intent : TradeIntent) :
    (c.atChecks intent).dailyCounters.tradesExecuted =
      if c.stale then 0 else c.dailyCounters.tradesExecuted := by
  cases hst : c.stale with
  | false =>
    have hfresh : ¬ isStale (c.opened intent).dailyCounters
        (c.opened intent).engine.world.nextTime = true := fun h => by cases hst.symm.trans h
    rw [atChecks, refresh, if_neg hfresh]
    rfl
  | true =>
    rw [atChecks, refresh, if_pos (by exact hst)]
    rfl

/-- The counter is the number of filled orders. -/
def CountsFills (t : Tallied) : Prop := t.controller.dailyCounters.tradesExecuted = t.filled

instance : DecidablePred CountsFills := fun t => inferInstanceAs (Decidable (_ = t.filled))

theorem countsFills_tally_iff {t : Tallied} (ht : CountsFills t) (hf : t.controller.Followed call) :
    CountsFills (tally t call) ↔ t.controller.FillReported call := by
  rw [← step_counts_iff hf, atChecks_tradesExecuted, ht]
  rfl

/-- **The counted trades are the filled orders** in the runs whose stops are handled, and in no
others; and in those the limit of the day bounds the filled orders. -/
theorem tradesExecuted_eq_filled_iff (config : Config) (engine : Engine) (calls : List Call)
    (hf : Runs.Within tally (fun t call => t.controller.Followed call) ⟨new config engine, 0⟩
      calls) :
    (Runs.Always tally CountsFills ⟨new config engine, 0⟩ calls ↔
      Runs.Within tally (fun t call => t.controller.FillReported call) ⟨new config engine, 0⟩
        calls) ∧
    (Runs.Within tally (fun t call => t.controller.FillReported call) ⟨new config engine, 0⟩
        calls →
      Runs.Always tally (fun t => t.filled ≤ ⌈config.dailyMaxTrades⌉₊) ⟨new config engine, 0⟩
        calls) := by
  constructor
  · exact Runs.always_iff_within_of (I := CountsFills) hf rfl
      (fun t call ht hf => (countsFills_tally_iff ht hf).2)
      (fun _ => id) fun t call ht hf hnot h => hnot ((countsFills_tally_iff ht hf).1 h)
  · intro hw
    refine (Runs.within_and.2 ⟨hf, hw⟩).always (I := fun t : Tallied => CountsFills t ∧
      t.controller.config = config ∧ CountersOk t.controller.config t.controller.dailyCounters)
      ⟨rfl, rfl, countersOk_zero _ _⟩ (fun t call h hc => ?_) fun t h => ?_
    · obtain ⟨ht, hconfig, hok⟩ := h
      refine ⟨(countsFills_tally_iff ht hc.1).2 hc.2, Eq.trans ?_ hconfig, hok.step call⟩
      exact (submitted_step t.controller call).config
    · obtain ⟨ht, hconfig, hok⟩ := h
      have hle := hok.trades
      rwa [ht, hconfig] at hle

/-- On a clock that is never set back the default number of polls is followed to the end. -/
theorem followed_of_monotone (hclock : c.engine.world.clock.Monotone)
    (hpolls : call.polls = Engine.pollLimit) : c.Followed call := by
  intro _ _
  rw [hpolls]
  refine Engine.loopStops_of_monotone _ ?_
  simp only [World.tick_clock, sentEngine, atChecks, refresh]
  split
  · exact hclock
  · exact hclock

/-- A broker that fills the order at once. -/
theorem tradesExecuted_filling :
    Runs.Always tally (fun t => t.filled ≤ ⌈(10 : ℚ)⌉₊) ⟨new {} (fillingEngine 1), 0⟩
      [{ intent := eurusdIntent }] := by
  have hclock : (fillingEngine 1).world.clock.Monotone := by
    intro n
    simp only [fillingEngine, Engine.new]
    split
    · decide
    · decide
  have hiff := tradesExecuted_eq_filled_iff {} (fillingEngine 1) [{ intent := eurusdIntent }]
    ⟨followed_of_monotone hclock rfl, trivial⟩
  exact hiff.2 (hiff.1.1 (Runs.always_cons.2 ⟨rfl, Runs.always_nil.2 (by decide +kernel)⟩))

/-- A broker that fills every order at once, and a clock that jumps by 31 seconds before the first
check of the timeout in each of two calls. -/
def lateFills : Engine :=
  .new (.filling (Binary64.literal (11 / 10)) 1)
    { elapse := fun n => if n = 9 ∨ n = 22 then 31 else 0 }

/-- The day of these two calls, under a limit of one trade. -/
def lateDay : Tallied :=
  Runs.run tally ⟨new { dailyMaxTrades := 1 } lateFills, 0⟩
    [{ intent := eurusdIntent }, { intent := eurusdIntent }]

/-- Two orders are filled under a limit of one trade, and none is counted. -/
theorem lateFills_uncounted :
    lateFills.world.clock.Monotone ∧
    lateDay.controller.dailyCounters.tradesExecuted = 0 ∧ lateDay.filled = 2 ∧
    ¬ Runs.Always tally CountsFills ⟨new { dailyMaxTrades := 1 } lateFills, 0⟩
      [{ intent := eurusdIntent }, { intent := eurusdIntent }] := by
  have hcounted : lateDay.controller.dailyCounters.tradesExecuted = 0 := by decide +kernel
  have hfilled : lateDay.filled = 2 := by decide +kernel
  refine ⟨fun n => ?_, hcounted, hfilled, fun h => ?_⟩
  · simp only [lateFills, Engine.new]
    split
    · decide
    · decide
  · have hlast : CountsFills lateDay := h.last
    rw [CountsFills, hcounted, hfilled] at hlast
    cases hlast

end Controller

end Stage10
