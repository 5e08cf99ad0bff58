import IctAlgo.Execution.Proof.Stages

/-!
# Fills and the status of the result

`FillAgrees`: the result says what the broker reported. The first poll that stops the loop decides
the run (`World.FirstStop`), and `StopHandled` says for this poll what the broker must not do.

* `Settled.agrees_iff`: the result of a submitted order agrees exactly when `StopHandled`.
* `execute_fillStatus_iff`: the same for `execute`. It fails when a fill is first seen by the
  status query after the timeout, and when processing a fill raises: a fill without a price, a zero
  reference price, or a query of `reconcile` that raises.
-/

set_option autoImplicit false

namespace Execution

open Lib

/-- The result agrees with the calls: it has the status and the prices of the first fill they
report, or, without one, neither a fill's status nor a fill price. -/
def FillAgrees (s : FrozenSnapshot) (calls : List BrokerEvent) (r : ExecutionResult) : Prop :=
  match firstFill calls with
  | some st => Engine.FilledAt s st.fillPrice r
  | none => r.status ≠ .filled ∧ r.status ≠ .executedFullLate ∧ r.finalFillPrice = none

namespace Engine

/-- What the environment does at the poll that stops the loop in the world `w` lets the result
agree: after the timeout (which is checked twice) the status query reports no fill, and a fill is
processed. -/
def StopHandled (s : FrozenSnapshot) (orderId : Option String) (start : ℚ) (w : World) : Prop :=
  if w.Expired start then w.tick.Expired start → w.broker.reconFill orderId (w.calls + 1) = none
  else ∀ st, w.nextStatus = .ok st → FillHandled s orderId st.fillPrice (w.polledOnce orderId)

/-- The poll that stops the loop of this call, if an order is submitted, is handled. -/
def FillsHandled (s : FrozenSnapshot) (w : World) : Prop :=
  ∀ orderId k, w.broker.submitOrder w.calls = .ok orderId →
    World.FirstStop w.nextTime orderId (orderPlaced s w) k →
      StopHandled s orderId w.nextTime ((orderPlaced s w).polled orderId k)

section
variable {s : FrozenSnapshot} {r : ExecutionResult} {calls : List BrokerEvent}

theorem fillAgrees_some {st : OrderStatus} (h : firstFill calls = some st) :
    FillAgrees s calls r ↔ FilledAt s st.fillPrice r := by
  simp [FillAgrees, h]

/-- With another status than a fill's, the result agrees when no fill was reported. -/
theorem fillAgrees_of_status (h1 : r.status ≠ .filled) (h2 : r.status ≠ .executedFullLate) :
    FillAgrees s calls r ↔ firstFill calls = none ∧ r.finalFillPrice = none := by
  cases h : firstFill calls with
  | none => simp [FillAgrees, h, h1, h2]
  | some st => simp [FillAgrees, h, FilledAt, h1, h2]

end

/-- The result of an order that ended agrees exactly when the stop of its loop is handled. -/
theorem Settled.agrees_iff {s : FrozenSnapshot} {orderId : Option String} {start : ℚ} {w : World}
    {n : ℕ} {returned : Bool} {e' : Engine} {r : ExecutionResult}
    (h : Settled s orderId start w n returned e') (hr : returned = true → r = e'.result)
    (hf : returned = false → r.status = .failed ∧ r.finalFillPrice = e'.result.finalFillPrice) :
    FillAgrees s (e'.world.trace.drop n) r ↔ StopHandled s orderId start w := by
  cases h with
  | timedOut hx hx' hst hprice hfill =>
    have hnot : (r.status ≠ .filled ∧ r.status ≠ .executedFullLate) ∧ r.finalFillPrice = none := by
      cases returned with
      | true =>
        rw [hr rfl, hst rfl]
        exact ⟨by decide, hprice⟩
      | false =>
        rw [(hf rfl).1, (hf rfl).2]
        exact ⟨by decide, hprice⟩
    rw [fillAgrees_of_status hnot.1.1 hnot.1.2, and_iff_left hnot.2]
    simp only [StopHandled, hx, hx', ↓reduceIte, ← hfill, true_implies]
    rfl
  | setBack hx hx' hst hprice hfill =>
    rw [hr rfl, fillAgrees_of_status (by simp [hst]) (by simp [hst])]
    refine iff_of_true ⟨hfill, hprice⟩ ?_
    simp [StopHandled, hx, hx']
  | raised hx hreply hprice hfill =>
    obtain ⟨hst, hp⟩ := hf rfl
    rw [fillAgrees_of_status (by simp [hst]) (by simp [hst])]
    refine iff_of_true ⟨hfill, hp.trans hprice⟩ ?_
    simp [StopHandled, hx, hreply]
  | filled hx hreply hhandled hres _ hfill =>
    obtain rfl := hr rfl
    rw [fillAgrees_some hfill]
    refine iff_of_true hres ?_
    simpa [StopHandled, hx, hreply] using hhandled
  | lost hx hreply hnot hfill =>
    rw [fillAgrees_some hfill]
    refine iff_of_false ?_ ?_
    · simp [FilledAt, (hf rfl).1]
    · simpa [StopHandled, hx, hreply] using hnot

/-- The stop of the loop of this call is handled when the first one is. -/
theorem fillsHandled_iff {s : FrozenSnapshot} {w : World} {orderId : Option String} {k : ℕ}
    (hsub : w.broker.submitOrder w.calls = .ok orderId)
    (hk : World.FirstStop w.nextTime orderId (orderPlaced s w) k) :
    FillsHandled s w ↔
      StopHandled s orderId w.nextTime ((orderPlaced s w).polled orderId k) := by
  refine ⟨fun h => h orderId k hsub hk, fun h orderId' j hj hstop => ?_⟩
  obtain rfl : orderId = orderId' := Except.ok.inj (hsub.symm.trans hj)
  rwa [hk.unique hstop]

/-- The result of a call that is not rejected agrees exactly when the stop of its loop is
handled. -/
theorem Executed.agrees_iff {polls : ℕ} {e e' : Engine} {s : FrozenSnapshot} {r : ExecutionResult}
    (h : Executed polls e s r e') (hfree : ¬ Blocked e s)
    (hstops : LoopStops s polls e.world.tick.tick) :
    FillAgrees s (e'.world.trace.drop e.world.trace.length) r ↔ FillsHandled s e.world.tick.tick := by
  cases h with
  | rejected hblocked => exact absurd hblocked hfree
  | ordered _ hend htr hr hf =>
    rw [htr]
    cases hend with
    | refused hreply hprice hfill =>
      obtain ⟨hst, hp⟩ := hf rfl
      rw [fillAgrees_of_status (by simp [hst]) (by simp [hst])]
      refine iff_of_true ⟨hfill, hp.trans hprice⟩ fun orderId k h => ?_
      cases hreply.symm.trans h
    | settled hreply hstop h =>
      rw [fillsHandled_iff hreply hstop]
      exact h.agrees_iff hr hf
    | unstopped hreply hgoes =>
      obtain ⟨k, hl, hk⟩ := hstops _ hreply
      exact absurd hk.1 (hgoes k hl)

/-- Without a fill's status and without a price, the result agrees when no fill was reported. -/
theorem fillAgrees_iff_of_unpriced {s : FrozenSnapshot} {calls : List BrokerEvent}
    {r : ExecutionResult} (hst : ¬ (r.status = .filled ∨ r.status = .executedFullLate))
    (hprice : r.finalFillPrice = none) :
    FillAgrees s calls r ↔
      ((r.status = .filled ∨ r.status = .executedFullLate) ↔ firstFill calls ≠ none) := by
  rw [fillAgrees_of_status (fun h => hst (Or.inl h)) fun h => hst (Or.inr h), and_iff_left hprice,
    iff_false_left hst, not_not]

/-- A result of `execute` agrees when its status does: the prices of a fill follow. -/
theorem Executed.agrees_iff_status {polls : ℕ} {e e' : Engine} {s : FrozenSnapshot}
    {r : ExecutionResult} (h : Executed polls e s r e') :
    FillAgrees s (e'.world.trace.drop e.world.trace.length) r ↔
      ((r.status = .filled ∨ r.status = .executedFullLate) ↔
        firstFill (e'.world.trace.drop e.world.trace.length) ≠ none) := by
  cases h with
  | rejected _ hst hprice => exact fillAgrees_iff_of_unpriced (by simp [hst]) hprice
  | @ordered _ returned _ hend htr hr hf =>
    rw [htr]
    cases hend with
    | refused _ hprice =>
      obtain ⟨hst, hp⟩ := hf rfl
      exact fillAgrees_iff_of_unpriced (by simp [hst]) (hp.trans hprice)
    | unstopped _ _ hstatus hprice =>
      cases returned with
      | true =>
        obtain rfl := hr rfl
        refine fillAgrees_iff_of_unpriced ?_ hprice
        rcases hstatus rfl with h | h <;> simp [h]
      | false =>
        obtain ⟨hst, hp⟩ := hf rfl
        exact fillAgrees_iff_of_unpriced (by simp [hst]) (hp.trans hprice)
    | settled _ _ h =>
      cases h with
      | timedOut _ _ hst hprice =>
        cases returned with
        | true =>
          obtain rfl := hr rfl
          exact fillAgrees_iff_of_unpriced (by simp [hst rfl]) hprice
        | false =>
          obtain ⟨hst, hp⟩ := hf rfl
          exact fillAgrees_iff_of_unpriced (by simp [hst]) (hp.trans hprice)
      | setBack _ _ hst hprice =>
        obtain rfl := hr rfl
        exact fillAgrees_iff_of_unpriced (by simp [hst]) hprice
      | raised _ _ hprice =>
        obtain ⟨hst, hp⟩ := hf rfl
        exact fillAgrees_iff_of_unpriced (by simp [hst]) (hp.trans hprice)
      | filled _ _ _ hres _ hfill =>
        obtain rfl := hr rfl
        rw [fillAgrees_some hfill]
        exact iff_of_true hres (iff_of_true hres.1 (by rw [← World.fillSince, hfill]; simp))
      | lost _ _ _ hfill =>
        obtain ⟨hst, -⟩ := hf rfl
        rw [fillAgrees_some hfill, ← World.fillSince, hfill]
        simp [FilledAt, hst]

/-- **The result of `execute` agrees with the broker's reports** exactly when the call is stopped by
a kill switch or the poll that stops the loop is handled. -/
theorem execute_fillStatus_iff (e : Engine) (s : FrozenSnapshot) (hclock : e.world.clock.Monotone)
    (hpre : preconditionError e.world.tick.nextTime s = none) :
    Exn.Ensures (execute s)
      (fun r e' => FillAgrees s (e'.world.trace.drop e.world.trace.length) r) e ↔
    e.killSwitchManager.isActive (some s.symbol) = true ∨ FillsHandled s e.world.tick.tick := by
  have hb : Blocked e s ↔ e.killSwitchManager.isActive (some s.symbol) = true := by
    simp [Blocked, hpre]
  refine Exn.Ensures.iff ((execute_spec e s pollLimit).mono fun r e' h => ?_)
  rw [← hb]
  by_cases hblocked : Blocked e s
  · refine iff_of_true ?_ (Or.inl hblocked)
    cases h with
    | rejected _ hst hprice htr =>
      rw [fillAgrees_of_status (by simp [hst]) (by simp [hst])]
      refine ⟨?_, hprice⟩
      simp [htr, firstFill]
    | ordered hfree => exact absurd hblocked hfree
  · rw [or_iff_right hblocked]
    exact h.agrees_iff hblocked (loopStops_of_monotone s hclock)

/-- A fill that is reported at the first poll, and processed. -/
theorem execute_fillStatus_filling :
    Exn.Ensures (execute .eurusdLong)
      (fun r e' => FillAgrees .eurusdLong
        (e'.world.trace.drop (new (.filling (11 / 10) 1) .still).world.trace.length) r)
      (new (.filling (11 / 10) 1) .still) := by
  refine (execute_fillStatus_iff (new (.filling (11 / 10) 1) .still) .eurusdLong
    Clock.still_monotone (by decide +kernel)).2 (Or.inr fun orderId k hsub hstop => ?_)
  obtain rfl : some "order-1" = orderId := Except.ok.inj hsub
  obtain rfl := hstop.unique (World.FirstStop.of_filled rfl rfl)
  rw [StopHandled, if_neg (by decide +kernel)]
  intro st hst
  obtain rfl : ⟨.filled, some (11 / 10), some 1⟩ = st := Except.ok.inj hst
  exact ⟨by simp, by decide +kernel, ⟨_, rfl⟩, ⟨_, rfl⟩⟩

/-- A broker that fills the order at once, and a clock that jumps by 31 seconds before the first
check of the timeout: the fill is seen by the query after the timeout only. -/
def lateFill : Engine :=
  new (.filling (11 / 10) 1) { elapse := fun n => if n = 5 then 31 else 0 }

/-- The late fill is reported as `FAILED_TIMEOUT`. -/
theorem lateFill_disagrees :
    lateFill.world.clock.Monotone ∧
    preconditionError lateFill.world.tick.nextTime .eurusdLong = none ∧
    ¬ Exn.Ensures (execute .eurusdLong)
      (fun r e' => FillAgrees .eurusdLong (e'.world.trace.drop lateFill.world.trace.length) r)
      lateFill := by
  refine ⟨fun n => ?_, by decide +kernel, fun h => ?_⟩
  · simp only [lateFill, new]
    split <;> decide
  have hrun : Exn.Ensures (execute .eurusdLong)
      (fun r e' => r.status = .failedTimeout ∧ firstFill e'.world.trace ≠ none) lateFill := by
    decide +kernel
  obtain ⟨r, e', -, ha, hst, hfill⟩ := (h.and hrun).exists
  exact hfill ((fillAgrees_of_status (by simp [hst]) (by simp [hst])).1 ha).1

end Engine

end Execution
