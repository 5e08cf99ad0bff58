import IctAlgo.Execution.Proof.Calls

/-!
# The stages of `execute`

What each stage leaves behind, as far as the results about `execute` read it: the result's status
and prices, and the calls of the broker.

* `precheck_spec`: a blocked call returns `REJECTED` and calls nothing.
* `wp_submit`: the order is the first call of the broker.
* `onTimeout_spec`, `onFill_spec`: the two ends of the poll loop; `Settled`: how an order ends.
* `execute_spec`: `execute` returns, in one of the ways of `Executed`; on a clock that is never set
  back the poll loop of an order ends at a first stop (`loopStops_of_monotone`).
-/

set_option autoImplicit false

namespace Execution

open Lib

namespace Engine

/-! ## Before the order -/

/-- The call is rejected: a precondition fails at the second reading, or a switch is on under the
key of the symbol. -/
def Blocked (e : Engine) (s : FrozenSnapshot) : Prop :=
  preconditionError e.world.tick.nextTime s ≠ none ∨ e.killSwitchManager.isActive (some s.symbol)

instance (e : Engine) (s : FrozenSnapshot) : Decidable (Blocked e s) :=
  inferInstanceAs (Decidable (_ ∨ _))

/-- What `precheck` leaves of the engine `e`. -/
structure Prechecked (e : Engine) (s : FrozenSnapshot) (r : Bool) (e' : Engine) : Prop where
  iff : r = true ↔ Blocked e s
  trace : e'.world.trace = e.world.trace
  reconcileCalls : e'.reconcileCalls = e.reconcileCalls
  rejected : r = true → e'.result.status = .rejected ∧ e'.result = { e.result with
    status := .rejected, errorMessage := e'.result.errorMessage }
  passed : r = false → e'.world = e.world.tick.tick ∧ e'.result = e.result

theorem precheck_spec (e : Engine) (s : FrozenSnapshot) :
    Exn.Ensures (precheck s) (Prechecked e s) e := by
  simp only [precheck, Exn.Ensures, Exn.wp_bind, Exn.wp_get, wp_log, wp_validatePreconditions]
  cases hp : preconditionError e.world.tick.nextTime s with
  | none =>
    cases hk : e.killSwitchManager.isActive (some s.symbol) with
    | false =>
      simp only [Exn.wp_bind, Exn.wp_get, hk, Bool.false_eq_true, ↓reduceIte, Exn.wp_pure]
      exact ⟨by simp [Blocked, hp, hk], rfl, rfl, by simp, fun _ => ⟨rfl, rfl⟩⟩
    | true =>
      simp only [Exn.wp_bind, Exn.wp_get, hk, ↓reduceIte, Exn.wp_pure, wp_setResult, wp_log]
      exact ⟨by simp [Blocked, hk], rfl, rfl, fun _ => ⟨rfl, rfl⟩, by simp⟩
  | some err =>
    simp only [Exn.wp_bind, Exn.wp_pure, wp_setResult, wp_log]
    exact ⟨by simp [Blocked, hp], rfl, rfl, fun _ => ⟨rfl, rfl⟩, by simp⟩

/-- The world after the `submit_order` call. -/
def submitted (s : FrozenSnapshot) (w : World) : World :=
  w.tick.called (.submitOrder s.symbol s.positionSize (w.broker.submitOrder w.calls))

/-- The world at the first poll. -/
def orderPlaced (s : FrozenSnapshot) (w : World) : World := (submitted s w).tick.tick

/-- The attempt of an order submitted at the time `t`. -/
def submittedAttempt (s : FrozenSnapshot) (t : ℚ) (orderId : Option String) : ExecutionAttempt :=
  { advisoryId := s.advisoryId, timestampSubmit := some t, orderId := orderId }

/-- The engine after a submission the broker answers with `orderId`. -/
def afterSubmit (e : Engine) (s : FrozenSnapshot) (orderId : Option String) : Engine := { e with
  timeoutController := { e.timeoutController with startTime := some e.world.nextTime }
  world := orderPlaced s e.world
  result := { e.result with
    attempts := e.result.attempts ++ [submittedAttempt s (submitted s e.world).nextTime orderId]
    finalOrderId := orderId }
  executionLogs := e.executionLogs ++ [.orderSubmitted (submitted s e.world).tick.nextTime
    s.advisoryId orderId s.symbol s.positionSize] }

theorem wp_submit (e : Engine) (s : FrozenSnapshot) {Q : Option String → Engine → Prop}
    {E : String → Engine → Prop} :
    Exn.wp (submit s) Q E e ↔ match e.world.broker.submitOrder e.world.calls with
      | .ok orderId => Q orderId (e.afterSubmit s orderId)
      | .error err => E err { e with
          timeoutController := { e.timeoutController with startTime := some e.world.nextTime }
          world := submitted s e.world } := by
  have hb : e.world.tick.broker.submitOrder e.world.tick.calls =
    e.world.broker.submitOrder e.world.calls := rfl
  simp only [submit, Exn.wp_bind, wp_startTimeout, wp_io, World.submitOrder, World.wp_call, hb]
  cases hr : e.world.broker.submitOrder e.world.calls with
  | error err => simp [submitted, hr]
  | ok orderId => simp [submitted, hr, afterSubmit, submittedAttempt, orderPlaced]

/-! ## Prices -/

/-- Nothing was computed from a fill. -/
structure Unpriced (r : ExecutionResult) : Prop where
  fillPrice : r.finalFillPrice = none
  sl : r.finalSl = none
  tp : r.finalTp = none
  attempts : ∀ a ∈ r.attempts, a.calculatedSl = none ∧ a.calculatedTp = none

/-- The stop and the target, in the result and in its attempts, are those of a fill at `p`. -/
structure PricedAt (s : FrozenSnapshot) (p : ℚ) (r : ExecutionResult) : Prop where
  fillPrice : r.finalFillPrice = some p
  sl : r.finalSl = some (atOffset p s.slOffsetPct)
  tp : r.finalTp = some (atOffset p s.tpOffsetPct)
  attempts : ∀ a ∈ r.attempts, a.calculatedSl = some (atOffset p s.slOffsetPct) ∧
    a.calculatedTp = some (atOffset p s.tpOffsetPct)

theorem unpriced_new (advisoryId : String) : Unpriced { advisoryId := advisoryId } :=
  ⟨rfl, rfl, rfl, fun _ h => by cases h⟩

theorem Unpriced.afterSubmit {e : Engine} (h : Unpriced e.result) (s : FrozenSnapshot)
    (orderId : Option String) : Unpriced (e.afterSubmit s orderId).result := by
  refine ⟨h.fillPrice, h.sl, h.tp, fun a ha => ?_⟩
  rcases List.mem_append.1 ha with ha | ha
  · exact h.attempts a ha
  · rw [List.mem_singleton.1 ha]
    exact ⟨rfl, rfl⟩

/-- What was computed, if anything, was computed from `fillPrice`. -/
def PricedBy (s : FrozenSnapshot) (fillPrice : Option ℚ) (r : ExecutionResult) : Prop :=
  Unpriced r ∨ ∃ p, fillPrice = some p ∧ PricedAt s p r

/-! ## After the poll loop -/

end Engine

namespace Broker

variable (b : Broker) (orderId : Option String) (n : ℕ)

/-- The reply to `reconcile`'s status query when it starts at call `n`; it asks only with an order
id. -/
def reconStatus : Except String (Option OrderStatus) :=
  if Engine.hasOrderId orderId then (b.getOrderStatus n).map some else .ok none

/-- The reply to its query for the positions. -/
def reconPositions : Except String (List Position) :=
  b.getPositions (if Engine.hasOrderId orderId then n + 1 else n)

/-- Both queries answer. -/
def ReconAnswers : Prop :=
  (∃ st, b.reconStatus orderId n = .ok st) ∧ ∃ ps, b.reconPositions orderId n = .ok ps

/-- The fill the status query reports. -/
def reconFill : Option OrderStatus :=
  match b.reconStatus orderId n with
  | .ok (some st) => if st.state = .filled then some st else none
  | _ => none

end Broker

namespace Engine

variable {n : ℕ} {e : Engine} {s : FrozenSnapshot} {orderId : Option String}

/-- The world after the status query of `reconcile`. -/
def statusQueried (orderId : Option String) (w : World) : World :=
  if hasOrderId orderId then w.called (.getOrderStatus orderId w.nextStatus) else w

theorem wp_queryStatus {Q : Option OrderStatus → Engine → Prop} {E : String → Engine → Prop} :
    Exn.wp (queryStatus orderId) Q E e ↔
      match e.world.broker.reconStatus orderId e.world.calls with
      | .ok st => Q st { e with world := statusQueried orderId e.world }
      | .error err => E err { e with world := statusQueried orderId e.world } := by
  simp only [queryStatus, statusQueried, Broker.reconStatus, World.nextStatus]
  cases hasOrderId orderId with
  | false => simp
  | true =>
    simp only [↓reduceIte, Exn.wp_bind, wp_io, World.getOrderStatus, World.wp_call, Exn.wp_pure]
    cases e.world.broker.getOrderStatus e.world.calls <;> rfl

theorem le_length_statusQueried (orderId : Option String) {w : World} (hn : n ≤ w.trace.length) :
    n ≤ (statusQueried orderId w).trace.length := by
  unfold statusQueried
  split
  · exact World.le_length_called hn _
  · exact hn

theorem fillSince_statusQueried (orderId : Option String) {w : World} (hn : n ≤ w.trace.length) :
    (statusQueried orderId w).fillSince n =
      (w.fillSince n).or (w.broker.reconFill orderId w.calls) := by
  unfold statusQueried Broker.reconFill Broker.reconStatus
  cases hasOrderId orderId with
  | false => simp
  | true =>
    rw [if_pos rfl, if_pos rfl, World.fillSince_called hn, World.nextStatus]
    cases w.broker.getOrderStatus w.calls <;> rfl

theorem getPositions_statusQueried (orderId : Option String) (w : World) :
    (statusQueried orderId w).broker.getPositions (statusQueried orderId w).calls =
      w.broker.reconPositions orderId w.calls := by
  unfold statusQueried Broker.reconPositions
  cases hasOrderId orderId <;> rfl

/-- What `reconcile` leaves; `returned` says whether it did. -/
structure Reconciled (e : Engine) (n : ℕ) (orderId : Option String) (returned : Prop)
    (e' : Engine) : Prop where
  answers : e.world.broker.ReconAnswers orderId e.world.calls ↔ returned
  result : e'.result = e.result
  startTime : e'.timeoutController.startTime = e.timeoutController.startTime
  fill : e'.world.fillSince n =
    (e.world.fillSince n).or (e.world.broker.reconFill orderId e.world.calls)

theorem reconcile_spec (advisoryId : String) (orderId : Option String)
    (expectedSize : Option ℚ)
    (expectedSl expectedTp : Option PyFloat)
    (hn : n ≤ e.world.trace.length) :
    Exn.wp (reconcile advisoryId orderId expectedSize expectedSl expectedTp)
      (fun _ => Reconciled e n orderId True) (fun _ => Reconciled e n orderId False) e := by
  have hq := fillSince_statusQueried orderId (w := e.world.tick) hn
  have hl := le_length_statusQueried orderId (w := e.world.tick) hn
  have hp := getPositions_statusQueried orderId e.world.tick
  simp only [World.tick_broker, World.tick_calls, World.fillSince_tick] at hq hp
  simp only [reconcile, Exn.wp_bind, Exn.wp_modify, wp_now, wp_queryStatus, World.tick_broker,
    World.tick_calls]
  cases hst : e.world.broker.reconStatus orderId e.world.calls with
  | error err =>
    refine ⟨iff_of_false (fun h => ?_) id, rfl, rfl, hq⟩
    obtain ⟨⟨st, h⟩, -⟩ := h
    cases hst.symm.trans h
  | ok st =>
    simp only [wp_io, World.getPositions, World.wp_call, hp, Exn.wp_pure]
    cases hps : e.world.broker.reconPositions orderId e.world.calls with
    | error err =>
      refine ⟨iff_of_false (fun h => ?_) id, rfl, rfl, ?_⟩
      · obtain ⟨-, ps, h⟩ := h
        cases hps.symm.trans h
      · rw [World.fillSince_called hl, hq]
        simp [BrokerEvent.fill?]
    | ok ps =>
      refine ⟨iff_of_true ⟨⟨st, hst⟩, ps, hps⟩ trivial, rfl, rfl, ?_⟩
      rw [World.fillSince_called hl, hq]
      simp [BrokerEvent.fill?]

/-! ### No fill -/

/-- What `onTimeout` leaves, also when it raises. -/
structure TimedOut (e : Engine) (n : ℕ) (orderId : Option String) (e' : Engine) : Prop where
  unpriced : Unpriced e.result → Unpriced e'.result
  fill : e'.world.fillSince n =
    (e.world.fillSince n).or (e.world.broker.reconFill orderId (e.world.calls + 1))
  calls : ∃ r evs, e'.world.trace = e.world.trace ++ .cancelOrder orderId r :: evs ∧
    ∀ ev ∈ evs, ev.IsQuery orderId

theorem TimedOut.reported {e' : Engine} (h : TimedOut e n orderId e') (report : ReconciliationReport) :
    TimedOut e n orderId
      { e' with result := { e'.result with reconciliationReport := some report } } where
  unpriced hu := ⟨(h.unpriced hu).fillPrice, (h.unpriced hu).sl, (h.unpriced hu).tp,
    (h.unpriced hu).attempts⟩
  fill := h.fill
  calls := h.calls

/-- The engine when the timeout is reconciled, after the reply `r` to the cancellation. -/
def cancelled (e : Engine) (s : FrozenSnapshot) (orderId : Option String) (start : ℚ)
    (r : Except String Bool) : Engine := { e with
  result := { e.result with
    status := .failedTimeout
    attempts := e.result.attempts.map fun a => { a with stage := .failedTimeout } }
  executionLogs := e.executionLogs ++
    [.timeout e.world.tick.nextTime s.advisoryId (e.world.nextTime - start)]
  world := e.world.tick.tick.called (.cancelOrder orderId r) }

theorem onTimeout_spec {start : ℚ} (hs : e.timeoutController.startTime = some start)
    (hn : n ≤ e.world.trace.length) :
    Exn.wp (onTimeout s orderId)
      (fun _ e' => TimedOut e n orderId e' ∧ e'.result.status = .failedTimeout ∧
        e'.timeoutController.startTime = some start)
      (fun _ => TimedOut e n orderId) e := by
  have hrecon (r : Except String Bool) := reconcile_spec s.advisoryId orderId none none
    none (e := cancelled e s orderId start r) (World.le_length_called hn _)
  have hfill (r : Except String Bool) :
      (cancelled e s orderId start r).world.fillSince n = e.world.fillSince n :=
    (World.fillSince_called (w := e.world.tick.tick) hn _).trans (by simp [BrokerEvent.fill?])
  have hend (r : Except String Bool) {p : Prop} {e' : Engine}
      (h : Reconciled (cancelled e s orderId start r) n orderId p e')
      (hm : Made (·.IsQuery orderId) 1 (cancelled e s orderId start r) e') :
      TimedOut e n orderId e' := by
    obtain ⟨evs, htr, hevs⟩ := hm.calls
    refine ⟨fun hu => ?_, by rw [h.fill, hfill]; rfl, r, evs, ?_, hevs⟩
    · rw [h.result]
      exact ⟨hu.fillPrice, hu.sl, hu.tp, by simpa [cancelled] using hu.attempts⟩
    · rw [htr, cancelled, World.called, List.append_assoc]
      rfl
  have htail (r : Except String Bool) := Exn.wp_mono
    (Exn.wp_and (hrecon r) (Makes.of_reconcile s.advisoryId none none none _))
    (fun _ e' h => And.intro (hend r h.1 h.2)
      (And.intro (congrArg ExecutionResult.status h.1.result) (h.1.startTime.trans hs)))
    (fun _ e' h => hend r h.1 h.2)
  simp only [onTimeout, Exn.wp_bind, wp_setResult, wp_setAttempt, wp_elapsedSeconds, hs, wp_log,
    Exn.wp_tryCatch, wp_io, World.cancelOrder, World.wp_call, Exn.wp_pure]
  rcases e.world.tick.tick.broker.cancelOrder e.world.tick.tick.calls with err | b
  · exact Exn.wp_mono (htail (.error err)) (fun _ e' h => ⟨h.1.reported _, h.2⟩) fun _ _ => id
  · exact Exn.wp_mono (htail (.ok b)) (fun _ e' h => ⟨h.1.reported _, h.2⟩) fun _ _ => id

/-! ### A fill -/

/-- The result has the status of a fill and the prices that follow from `fillPrice`. -/
def FilledAt (s : FrozenSnapshot) (fillPrice : Option ℚ) (r : ExecutionResult) : Prop :=
  (r.status = .filled ∨ r.status = .executedFullLate) ∧
    ∃ p, fillPrice = some p ∧ r.finalFillPrice = some p ∧
      r.finalSl = some (atOffset p s.slOffsetPct) ∧ r.finalTp = some (atOffset p s.tpOffsetPct)

/-- The fill is processed without an exception: it has a price, the slippage is defined and
`reconcile`, which starts in the world `w`, gets its answers. -/
def FillHandled (s : FrozenSnapshot) (orderId : Option String) (fillPrice : Option ℚ) (w : World) :
    Prop :=
  fillPrice ≠ none ∧ s.referencePrice ≠ 0 ∧ w.broker.ReconAnswers orderId w.calls

theorem onFill_spec {start : ℚ} (hs : e.timeoutController.startTime = some start)
    (fill : FillInfo) (hfresh : Unpriced e.result) :
    Exn.wp (onFill s orderId fill)
      (fun _ e' => FilledAt s fill.fillPrice e'.result ∧
        e'.result.finalPositionSize = fill.filledSize ∧
        FillHandled s orderId fill.fillPrice e.world ∧
        e'.timeoutController.startTime = some start ∧ PricedBy s fill.fillPrice e'.result)
      (fun _ e' => ¬ FillHandled s orderId fill.fillPrice e.world ∧
        PricedBy s fill.fillPrice e'.result) e := by
  rcases hp : fill.fillPrice with _ | p
  · simp [onFill, hp, calculateSl, priceAtOffset, FillHandled, PricedBy, hfresh]
  by_cases hr : s.referencePrice = 0
  · simp [onFill, hp, hr, calculateSl, calculateTp, priceAtOffset, slippage, FillHandled, PricedBy,
      hfresh]
  · simp only [onFill, hp, hr, calculateSl, calculateTp, priceAtOffset, slippage, Exn.wp_bind,
      Exn.wp_pure, ↓reduceIte, wp_now, wp_setAttempt, wp_isExpired, hs, wp_setResult, wp_log]
    refine Exn.wp_mono (reconcile_spec _ _ _ _ _ (Nat.zero_le _)) ?_ ?_
    · intro _ e' h
      have hans : e.world.broker.ReconAnswers orderId e.world.calls := h.answers.2 trivial
      refine ⟨⟨?_, p, rfl, ?_⟩, by rw [h.result], ⟨by simp, hr, hans⟩, h.startTime.trans hs,
        Or.inr ⟨p, rfl, ?_⟩⟩
      · rw [h.result]
        by_cases hx : hardTimeoutSeconds < e.world.tick.nextTime - start <;> simp [hx]
      · rw [h.result]
        exact ⟨rfl, rfl, rfl⟩
      · rw [h.result]
        exact ⟨rfl, rfl, rfl, by simp⟩
    · intro _ e' h
      refine ⟨fun hh => h.answers.1 hh.2.2, Or.inr ⟨p, rfl, ?_⟩⟩
      rw [h.result]
      exact ⟨rfl, rfl, rfl, by simp⟩

/-! ### The order settled -/

/-- How an order ends whose poll loop stops in the world `w`. -/
inductive Settled (s : FrozenSnapshot) (orderId : Option String) (start : ℚ) (w : World) (n : ℕ) :
    (returned : Bool) → Engine → Prop
  /-- The time was over; `onTimeout` may have raised. -/
  | timedOut {returned : Bool} {e' : Engine} (hx : w.Expired start) (hx' : w.tick.Expired start)
      (status : returned = true → e'.result.status = .failedTimeout)
      (price : e'.result.finalFillPrice = none)
      (fill : e'.world.fillSince n = w.broker.reconFill orderId (w.calls + 1))
      (cancel : ∃ r, .cancelOrder orderId r ∈ e'.world.trace.drop n) :
      Settled s orderId start w n returned e'
  /-- The time was over, and no longer so at the next check: the clock was set back. -/
  | setBack {e' : Engine} (hx : w.Expired start) (hx' : ¬ w.tick.Expired start)
      (status : e'.result.status = .submitted) (price : e'.result.finalFillPrice = none)
      (fill : e'.world.fillSince n = none) : Settled s orderId start w n true e'
  /-- The status query raised. -/
  | raised {err : String} {e' : Engine} (hx : ¬ w.Expired start) (reply : w.nextStatus = .error err)
      (price : e'.result.finalFillPrice = none) (fill : e'.world.fillSince n = none)
      (trace : e'.world.trace = w.trace ++ [.getOrderStatus orderId (.error err)]) :
      Settled s orderId start w n false e'
  /-- The order was filled, and the fill processed. -/
  | filled {st : OrderStatus} {e' : Engine} (hx : ¬ w.Expired start) (reply : w.nextStatus = .ok st)
      (handled : FillHandled s orderId st.fillPrice (w.polledOnce orderId))
      (result : FilledAt s st.fillPrice e'.result)
      (size : e'.result.finalPositionSize = st.filledSize)
      (fill : e'.world.fillSince n = some st)
      (seen : .getOrderStatus orderId (.ok st) ∈ e'.world.trace.drop n) :
      Settled s orderId start w n true e'
  /-- The order was filled, and an exception lost the fill. -/
  | lost {st : OrderStatus} {e' : Engine} (hx : ¬ w.Expired start) (reply : w.nextStatus = .ok st)
      (handled : ¬ FillHandled s orderId st.fillPrice (w.polledOnce orderId))
      (fill : e'.world.fillSince n = some st)
      (seen : .getOrderStatus orderId (.ok st) ∈ e'.world.trace.drop n) :
      Settled s orderId start w n false e'

/-- On a clock that is never set back, a reading later than an expired one is expired. -/
theorem expired_tick {start : ℚ} {w : World} (hclock : w.clock.Monotone) (h : w.Expired start) :
    w.tick.Expired start := by
  have hle : w.nextTime ≤ w.tick.nextTime := World.time_le_nextTime (w := w.tick) hclock
  unfold World.Expired at *
  exact lt_of_lt_of_le h (sub_le_sub_right hle start)

/-- The cancellation is among the calls since the first `n`. -/
theorem TimedOut.cancel {e' : Engine} (h : TimedOut e n orderId e') (hn : n ≤ e.world.trace.length) :
    ∃ r, .cancelOrder orderId r ∈ e'.world.trace.drop n := by
  obtain ⟨r, evs, htr, -⟩ := h.calls
  refine ⟨r, ?_⟩
  rw [htr, List.drop_append, Nat.sub_eq_zero_of_le hn]
  simp

/-- The last status query is among the calls since the first `n`. -/
theorem mem_drop_of_prefix {w w' : World} {ev : BrokerEvent} (hn : n ≤ w.trace.length)
    (hp : (w.called ev).trace <+: w'.trace) : ev ∈ w'.trace.drop n := by
  obtain ⟨evs, hevs⟩ := hp
  rw [← hevs, World.called, List.append_assoc, List.drop_append, Nat.sub_eq_zero_of_le hn]
  simp

/-- **The first stop decides how the order ends.** -/
theorem settleOrder_spec {start : ℚ} {k polls : ℕ}
    (hs : e.timeoutController.startTime = some start)
    (hk : World.FirstStop start orderId e.world k) (hl : k < polls)
    (hn : n ≤ e.world.trace.length) (hfill : e.world.fillSince n = none)
    (hstatus : e.result.status = .submitted) (hfresh : Unpriced e.result) {w : World}
    (hw : World.polled orderId k e.world = w) :
    Exn.wp (settleOrder s orderId polls) (fun _ => Settled s orderId start w n true)
      (fun _ => Settled s orderId start w n false) e := by
  obtain ⟨hwn, hwf⟩ := hw ▸ World.fillSince_polled hn hk.2
  rw [hfill] at hwf
  rw [settleOrder, Exn.wp_bind, waitForFill_spec hs hk hl hw]
  by_cases hx : w.Expired start
  · by_cases hx' : w.tick.Expired start
    · have hd : hardTimeoutSeconds < w.tick.nextTime - start := hx'
      have hnone (e' : Engine) (h : e'.world.fillSince n = (w.tick.tick.fillSince n).or
          (w.broker.reconFill orderId (w.calls + 1))) :
          e'.world.fillSince n = w.broker.reconFill orderId (w.calls + 1) := by
        rwa [World.fillSince_tick, World.fillSince_tick, hwf, Option.none_or] at h
      simp only [hx, ↓reduceIte, Exn.wp_bind, wp_isExpired, hs, hd, decide_true]
      refine Exn.wp_mono (onTimeout_spec rfl hwn) ?_ ?_
      · intro _ e' h'
        obtain ⟨h, hst, hs'⟩ := h'
        simp only [Exn.wp_get, wp_setResult, wp_elapsedSeconds, hs']
        exact .timedOut hx hx' (fun _ => hst) (h.unpriced hfresh).fillPrice (hnone e' h.fill)
          (h.cancel hwn)
      · intro _ e' h
        exact .timedOut hx hx' (fun h => absurd h Bool.false_ne_true) (h.unpriced hfresh).fillPrice
          (hnone e' h.fill) (h.cancel hwn)
    · have hd : ¬ hardTimeoutSeconds < w.tick.nextTime - start := hx'
      simp only [hx, ↓reduceIte, Exn.wp_bind, wp_isExpired, hs, hd, decide_false,
        Bool.false_eq_true, Exn.wp_get, wp_setResult, wp_elapsedSeconds, checkedAt]
      exact .setBack hx hx' hstatus hfresh.fillPrice hwf
  · have hpolled : (w.polledOnce orderId).fillSince n =
        (BrokerEvent.getOrderStatus orderId w.nextStatus).fill? := by
      rw [World.fillSince_polledOnce hwn, hwf, Option.none_or]
    simp only [hx, ↓reduceIte]
    cases hst : w.nextStatus with
    | error err =>
      rw [hst] at hpolled
      exact .raised hx hst hfresh.fillPrice hpolled (by rw [World.polledOnce, hst]; rfl)
    | ok st =>
      have hfilled : st.state = .filled := by
        rcases hw ▸ hk.1 with h | h
        · exact absurd h hx
        · exact h st hst
      have hsome : (w.polledOnce orderId).fillSince n = some st := by
        rw [hpolled, hst]
        simp [BrokerEvent.fill?, hfilled]
      have hseen {e' : Engine} (hp : (w.polledOnce orderId).trace <+: e'.world.trace) :
          .getOrderStatus orderId (.ok st) ∈ e'.world.trace.drop n :=
        hst ▸ mem_drop_of_prefix (w := w.tick) hwn hp
      simp only [Exn.wp_bind, wp_isExpired, hs]
      refine Exn.wp_mono (Exn.wp_and (onFill_spec (by exact hs) _ hfresh)
        (Makes.of_onFill s _ _)) ?_ ?_
      · intro _ e' h'
        obtain ⟨⟨hf, hsize, hhandled, hs', -⟩, hm⟩ := h'
        simp only [Exn.wp_get, wp_setResult, wp_elapsedSeconds, hs']
        exact .filled hx hst hhandled hf hsize (World.fillSince_some_of_prefix hm.grows hsome)
          (hseen hm.grows)
      · intro _ e' h'
        obtain ⟨⟨hnot, -⟩, hm⟩ := h'
        exact .lost hx hst hnot (World.fillSince_some_of_prefix hm.grows hsome) (hseen hm.grows)

/-- Without a stop among the polls followed, the order is not executed. -/
theorem settleOrder_unstopped {start : ℚ} {polls : ℕ}
    (hs : e.timeoutController.startTime = some start)
    (hk : ∀ j < polls, ¬ (World.polled orderId j e.world).Stops start)
    (hstatus : e.result.status = .submitted) (hfresh : Unpriced e.result) :
    Exn.wp (settleOrder s orderId polls)
      (fun _ e' => (e'.result.status = .submitted ∨ e'.result.status = .failedTimeout) ∧
        e'.result.finalFillPrice = none)
      (fun _ e' => e'.result.finalFillPrice = none) e := by
  have hloop (Q : Option FillInfo → Engine → Prop) (E : String → Engine → Prop) :
      Exn.wp (waitForFill orderId (0 + polls)) Q E e ↔
        Exn.wp (waitForFill orderId 0) Q E { e with world := World.polled orderId polls e.world } :=
    wp_waitForFill hs hk
  simp only [Nat.zero_add, waitForFill, Exn.wp_pure] at hloop
  rw [settleOrder, Exn.wp_bind, hloop]
  generalize World.polled orderId polls e.world = w
  simp only [Exn.wp_bind, wp_isExpired, hs]
  by_cases hx : hardTimeoutSeconds < w.nextTime - start
  · simp only [hx, decide_true, ↓reduceIte, Exn.wp_bind]
    refine Exn.wp_mono (onTimeout_spec (by exact hs) (Nat.zero_le _)) ?_ ?_
    · intro _ e' h'
      obtain ⟨h, hst, hs'⟩ := h'
      simp only [Exn.wp_get, wp_setResult, wp_elapsedSeconds, hs']
      exact ⟨Or.inr hst, (h.unpriced hfresh).fillPrice⟩
    · intro _ e' h
      exact (h.unpriced hfresh).fillPrice
  · simp only [hx, decide_false, Bool.false_eq_true, ↓reduceIte, Exn.wp_bind, Exn.wp_get,
      wp_setResult, wp_elapsedSeconds, checkedAt_startTime, hs]
    exact ⟨Or.inl hstatus, hfresh.fillPrice⟩

/-- How the order of `submit` ends: the broker refuses it, its poll loop stops at poll `k`, or none of
the polls followed stops the loop. -/
inductive Ended (s : FrozenSnapshot) (polls : ℕ) (w : World) (n : ℕ) :
    (returned : Bool) → Engine → Prop
  | refused {err : String} {e' : Engine} (reply : w.broker.submitOrder w.calls = .error err)
      (price : e'.result.finalFillPrice = none) (fill : e'.world.fillSince n = none) :
      Ended s polls w n false e'
  | settled {orderId : Option String} {k : ℕ} {returned : Bool} {e' : Engine}
      (reply : w.broker.submitOrder w.calls = .ok orderId)
      (stop : World.FirstStop w.nextTime orderId (orderPlaced s w) k)
      (h : Settled s orderId w.nextTime ((orderPlaced s w).polled orderId k) n returned e') :
      Ended s polls w n returned e'
  | unstopped {orderId : Option String} {returned : Bool} {e' : Engine}
      (reply : w.broker.submitOrder w.calls = .ok orderId)
      (goes : ∀ j < polls, ¬ ((orderPlaced s w).polled orderId j).Stops w.nextTime)
      (status : returned = true →
        e'.result.status = .submitted ∨ e'.result.status = .failedTimeout)
      (price : e'.result.finalFillPrice = none) : Ended s polls w n returned e'

/-- The poll loop of an order this call may submit stops within the polls followed. -/
def LoopStops (s : FrozenSnapshot) (polls : ℕ) (w : World) : Prop :=
  ∀ orderId, w.broker.submitOrder w.calls = .ok orderId →
    ∃ k < polls, World.FirstStop w.nextTime orderId (orderPlaced s w) k

/-- It does on a clock that is never set back. -/
theorem loopStops_of_monotone (s : FrozenSnapshot) {w : World} (hclock : w.clock.Monotone) :
    LoopStops s pollLimit w := by
  intro orderId _
  have h1 : w.nextTime ≤ (submitted s w).nextTime :=
    World.time_le_nextTime (w := submitted s w) hclock
  have h2 : (submitted s w).nextTime ≤ (submitted s w).tick.nextTime :=
    World.time_le_nextTime (w := (submitted s w).tick) hclock
  exact World.exists_firstStop orderId hclock (h1.trans h2)

/-- `submit` and `settleOrder` together, as `executeBody` runs them. -/
theorem submit_spec (e : Engine) (s : FrozenSnapshot) (polls : ℕ)
    (hstatus : e.result.status = .submitted) (hfresh : Unpriced e.result) :
    Exn.wp (do let orderId ← submit s; settleOrder s orderId polls; pure false)
      (fun returned e' => returned = false ∧ Ended s polls e.world e.world.trace.length true e')
      (fun _ => Ended s polls e.world e.world.trace.length false) e := by
  have hnone : (submitted s e.world).fillSince e.world.trace.length = none := by
    refine (World.fillSince_called (w := e.world.tick) le_rfl _).trans ?_
    simp [BrokerEvent.fill?]
  rw [Exn.wp_bind, wp_submit]
  rcases hsub : e.world.broker.submitOrder e.world.calls with err | orderId
  · exact .refused hsub hfresh.fillPrice hnone
  simp only [Exn.wp_bind, Exn.wp_pure]
  by_cases hstop : ∃ k < polls, World.FirstStop e.world.nextTime orderId (orderPlaced s e.world) k
  · obtain ⟨k, hl, hk⟩ := hstop
    have hlen : e.world.trace.length ≤ (submitted s e.world).trace.length :=
      World.le_length_called (w := e.world.tick) (Nat.le_refl e.world.trace.length) _
    have hend := settleOrder_spec (e := e.afterSubmit s orderId) (s := s) rfl hk hl hlen hnone
      hstatus (hfresh.afterSubmit s orderId) rfl
    exact Exn.wp_mono hend (fun _ _ h => ⟨trivial, .settled hsub hk h⟩) fun _ _ h => .settled hsub hk h
  · have hgo : ∀ j < polls, ¬ ((orderPlaced s e.world).polled orderId j).Stops e.world.nextTime := by
      classical
      intro j hj hst
      have hex : ∃ k, ((orderPlaced s e.world).polled orderId k).Stops e.world.nextTime := ⟨j, hst⟩
      have hmin := Nat.find_min' hex hst
      exact hstop ⟨Nat.find hex, by omega, Nat.find_spec hex, fun _ h => Nat.find_min hex h⟩
    have hend := settleOrder_unstopped (e := e.afterSubmit s orderId) (s := s) rfl hgo hstatus
      (hfresh.afterSubmit s orderId)
    exact Exn.wp_mono hend (fun _ _ h => ⟨trivial, .unstopped hsub hgo (fun _ => h.1) h.2⟩)
      fun _ _ h => .unstopped hsub hgo (fun h => absurd h Bool.false_ne_true) h

/-! ## The whole call -/

/-- The engine after the final log entry. -/
def finish (e : Engine) : Engine := { e with
  executionLogs := e.executionLogs ++ [.executionResult e.world.nextTime e.result]
  world := e.world.tick }

/-- The result of an exception. -/
def failWith (e : Engine) (err : String) : Engine := { e with
  result := { e.result with status := .failed, errorMessage := some (.raised err) } }

theorem wp_execute {polls : ℕ} {Q : ExecutionResult → Engine → Prop}
    {E : String → Engine → Prop} :
    Exn.wp (execute s polls) Q E e ↔
      Exn.wp (executeBody s polls)
        (fun returned e' => Q e'.result (if returned then e' else e'.finish))
        (fun err e' => Q (e'.failWith err).result (e'.failWith err).finish)
        { e with result := { advisoryId := s.advisoryId } } := by
  simp only [execute, Exn.wp_bind, wp_setResult, Exn.wp_tryCatch, Exn.wp_ite, Exn.wp_pure,
    Exn.wp_get, wp_log, Bool.false_eq_true, ↓reduceIte]
  refine ⟨fun h => ?_, fun h => ?_⟩
  · refine Exn.wp_mono h (fun returned e' h => ?_) fun _ _ => id
    cases returned <;> exact h
  · refine Exn.wp_mono h (fun returned e' h => ?_) fun _ _ => id
    cases returned <;> exact h

/-- How `execute` ends. -/
inductive Executed (polls : ℕ) (e : Engine) (s : FrozenSnapshot) (r : ExecutionResult)
    (e' : Engine) : Prop
  | rejected (blocked : Blocked e s) (status : r.status = .rejected) (price : r.finalFillPrice = none)
      (trace : e'.world.trace = e.world.trace)
  /-- The order ended in the engine `e₁`, and an exception made the result `FAILED`. -/
  | ordered (free : ¬ Blocked e s) {returned : Bool} {e₁ : Engine}
      (ended : Ended s polls e.world.tick.tick e.world.trace.length returned e₁)
      (trace : e'.world.trace = e₁.world.trace)
      (result : returned = true → r = e₁.result)
      (failed : returned = false → r.status = .failed ∧ r.finalFillPrice = e₁.result.finalFillPrice)

/-- **`execute` returns**, in one of these ways. -/
theorem execute_spec (e : Engine) (s : FrozenSnapshot) (polls : ℕ) :
    Exn.Ensures (execute s polls) (Executed polls e s) e := by
  rw [Exn.Ensures, wp_execute, executeBody, Exn.wp_bind]
  refine Exn.wp_mono (precheck_spec _ s) (fun rejected e₁ h => ?_) fun _ _ => False.elim
  have htr : e₁.world.trace = e.world.trace := h.trace
  cases rejected with
  | true =>
    obtain ⟨hst, hres⟩ := h.rejected rfl
    exact .rejected (h.iff.1 rfl) hst (by rw [hres]) htr
  | false =>
    have hfree : ¬ Blocked e s := fun hb => absurd (h.iff.2 hb) Bool.false_ne_true
    obtain ⟨hw, hres⟩ := h.passed rfl
    have hw' : e₁.world = e.world.tick.tick := hw
    have hspec := submit_spec e₁ s polls (by rw [hres]) (by rw [hres]; exact unpriced_new _)
    rw [htr, hw'] at hspec
    refine Exn.wp_mono hspec (fun returned e₂ h => ?_) fun err e₂ h => ?_
    · obtain ⟨rfl, hend⟩ := h
      exact .ordered hfree hend rfl (fun _ => rfl) fun h => absurd h Bool.false_ne_true.symm
    · exact .ordered hfree h rfl (fun h => absurd h Bool.false_ne_true) fun _ => ⟨rfl, rfl⟩

/-- The poll loop of the order for `s`, submitted in the world `w`, stops at the fill `st`. -/
def OrderFill (s : FrozenSnapshot) (w : World) (st : OrderStatus) : Prop :=
  ∃ orderId k, w.broker.submitOrder w.calls = .ok orderId ∧
    World.FirstStop w.nextTime orderId (orderPlaced s w) k ∧
    ¬ ((orderPlaced s w).polled orderId k).Expired w.nextTime ∧
    ((orderPlaced s w).polled orderId k).nextStatus = .ok st

/-- What a snapshot has to meet at the time `t`. -/
theorem preconditionError_eq_none {t : ℚ} : preconditionError t s = none ↔
    t ≤ s.expirationTimestamp ∧ s.advisoryId ≠ "" ∧ 0 < s.positionSize ∧
      PyFloat.le (.fin 0) s.slOffsetPct = false ∧ s.tpOffsetPct.le (.fin 0) = false := by
  unfold preconditionError
  split_ifs with hexp hid hsize hsl htp
  · simp [hexp]
  · simp [hid]
  · simp [hsize]
  · simp [hsl]
  · simp [htp]
  · simpa [hexp, hid, hsize, hsl, htp] using
      ⟨not_lt.1 hexp, not_le.1 hsize⟩

/-- A result with the status of a fill has its prices and its size. -/
theorem Executed.fill {polls : ℕ} {r : ExecutionResult} {e' : Engine} (h : Executed polls e s r e')
    (hst : r.status = .filled ∨ r.status = .executedFullLate) :
    0 < s.positionSize ∧ ∃ st, OrderFill s e.world.tick.tick st ∧ FilledAt s st.fillPrice r ∧
      r.finalPositionSize = st.filledSize := by
  cases h with
  | rejected _ hrej => simp [hrej] at hst
  | @ordered hfree returned e₁ hend _ hr hf =>
    obtain ⟨-, -, hsize, -, -⟩ :=
      preconditionError_eq_none.1 (not_not.1 fun hp => hfree (Or.inl hp))
    refine ⟨hsize, ?_⟩
    cases returned with
    | false => simp [(hf rfl).1] at hst
    | true =>
      obtain rfl := hr rfl
      cases hend with
      | settled hreply hstop h =>
        cases h with
        | timedOut _ _ htime => simp [htime rfl] at hst
        | setBack _ _ hsub => simp [hsub] at hst
        | filled hx hst hhandled hres hsize => exact ⟨_, ⟨_, _, hreply, hstop, hx, hst⟩, hres, hsize⟩
      | unstopped _ _ hstatus =>
        rcases hstatus rfl with h | h <;> simp [h] at hst

end Engine

end Execution
