import Mathlib.Tactic.Linarith
import IctAlgo.Execution.Proof.Stages

/-!
# The protocol of one execution

What a call of `execute` may do to the broker, on any clock and for any replies.

* `settleOrder_calls`: after the submission there are queries, then either more of them after a fill
  or a cancellation and the queries of one reconciliation.
* `execute_calls`: the order is the first call, and the others are for it.
* `execute_protocol`: at most one order and one reconciliation, no cancellation after a fill, and
  the stop and the target around the price of the fill.
* `stop_not_below_fill`: not always strictly, where the offset is lost in the rounding.
-/

set_option autoImplicit false

namespace Execution

open Lib

/-- No call that cancels comes after one that reports a fill. -/
def NoCancelAfterFill (calls : List BrokerEvent) : Prop :=
  calls.Pairwise fun ev ev' => ev.fill? ≠ none → ev'.isCancel = false

section
variable {orderId : Option String} {evs evs' : List BrokerEvent}

theorem noCancel_of_queries (h : ∀ ev ∈ evs, ev.IsQuery orderId) : NoCancelAfterFill evs :=
  List.pairwise_of_forall_mem_list fun _ _ ev' hev' _ => (h ev' hev').not_cancel

/-- Queries without a fill, then a cancellation and queries. -/
theorem noCancel_of_timeout {r : Except String Bool} (h : ∀ ev ∈ evs, ev.IsQuery orderId)
    (hf : firstFill evs = none) (h' : ∀ ev ∈ evs', ev.IsQuery orderId) :
    NoCancelAfterFill (evs ++ .cancelOrder orderId r :: evs') := by
  refine List.pairwise_append.2 ⟨noCancel_of_queries h,
    List.pairwise_cons.2 ⟨?_, noCancel_of_queries h'⟩,
    fun ev hev _ _ hfill => absurd (firstFill_eq_none.1 hf ev hev) hfill⟩
  intro ev' _ hfill
  exact absurd rfl hfill

end

namespace Engine

variable {s : FrozenSnapshot} {orderId : Option String} {e e' : Engine}

/-! ## The order -/

/-- What the calls `evs` for a submitted order and the result `r` have to do with each other. -/
structure Traded (s : FrozenSnapshot) (evs : List BrokerEvent) (r : ExecutionResult) : Prop where
  cancel : NoCancelAfterFill evs
  prices : PricedBy s ((firstFill evs).bind (·.fillPrice)) r

/-- What settling an order leaves, however it ends. -/
structure SettledCalls (s : FrozenSnapshot) (orderId : Option String) (e e' : Engine) : Prop where
  calls : ∃ evs, e'.world.trace = e.world.trace ++ evs ∧ (∀ ev ∈ evs, ev.IsLater orderId) ∧
    Traded s evs e'.result
  reconcileCalls : e'.reconcileCalls ≤ e.reconcileCalls + 1

/-- Without a fill there is nothing to compute from. -/
theorem SettledCalls.of_polled (h : Polled orderId e none e') (hfresh : Unpriced e.result) :
    SettledCalls s orderId e e' := by
  obtain ⟨evs, htr, hevs, -⟩ := h.calls
  refine ⟨⟨evs, htr, fun ev hev => (hevs ev hev).later, noCancel_of_queries hevs, Or.inl ?_⟩, ?_⟩
  · rwa [h.result]
  · rw [h.reconcileCalls]
    exact Nat.le_succ _

/-- Steps 6 and 7 change neither the calls nor the prices. -/
theorem SettledCalls.conclude (h : SettledCalls s orderId e e') :
    Exn.wp (do
        let m := (← get).killSwitchManager
        setResult fun r => { r with killSwitchState := m.getState (some s.symbol) }
        let elapsed ← elapsedSeconds
        setResult fun r => { r with totalDurationSeconds := some elapsed })
      (fun _ => SettledCalls s orderId e) (fun _ => SettledCalls s orderId e) e' := by
  have hkeep {r : ExecutionResult} {evs : List BrokerEvent}
      (hf : r.finalFillPrice = e'.result.finalFillPrice)
      (hsl : r.finalSl = e'.result.finalSl) (htp : r.finalTp = e'.result.finalTp)
      (ha : r.attempts = e'.result.attempts) (ht : Traded s evs e'.result) : Traded s evs r := by
    refine ⟨ht.cancel, ht.prices.imp (fun hu => ?_) fun hp => ?_⟩
    · exact ⟨hf.trans hu.fillPrice, hsl.trans hu.sl, htp.trans hu.tp, ha ▸ hu.attempts⟩
    · obtain ⟨p, hp, hat⟩ := hp
      exact ⟨p, hp, hf.trans hat.fillPrice, hsl.trans hat.sl, htp.trans hat.tp, ha ▸ hat.attempts⟩
  obtain ⟨⟨evs, htr, hlater, ht⟩, hr⟩ := h
  simp only [Exn.wp_bind, Exn.wp_get, wp_setResult, wp_elapsedSeconds]
  rcases e'.timeoutController.startTime with _ | start
  · exact ⟨⟨evs, htr, hlater, hkeep rfl rfl rfl rfl ht⟩, hr⟩
  · exact ⟨⟨evs, htr, hlater, hkeep rfl rfl rfl rfl ht⟩, hr⟩

theorem settleOrder_calls {start : ℚ} (orderId : Option String)
    (hs : e.timeoutController.startTime = some start) (hfresh : Unpriced e.result) (polls : ℕ) :
    Exn.wp (settleOrder s orderId polls) (fun _ => SettledCalls s orderId e)
      (fun _ => SettledCalls s orderId e) e := by
  rw [settleOrder, Exn.wp_bind]
  refine Exn.wp_mono (waitForFill_calls polls hs) (fun fillInfo e₁ h => ?_)
    fun _ _ h => .of_polled h hfresh
  have hs₁ : e₁.timeoutController.startTime = some start := h.startTime.trans hs
  have hfresh₁ : Unpriced e₁.result := by rwa [h.result]
  obtain ⟨evs, htr, hevs, hfill⟩ := h.calls
  simp only [Exn.wp_bind, wp_isExpired, hs₁]
  cases fillInfo with
  | none =>
    have hnone : firstFill evs = none := Option.map_eq_none_iff.1 hfill
    by_cases hx : hardTimeoutSeconds < e₁.world.nextTime - start
    · have htimeout (e₂ : Engine) (ht : TimedOut { e₁ with
          timeoutController := checkedAt e₁.timeoutController start e₁.world.nextTime
          world := e₁.world.tick } 0 orderId e₂)
          (hm : Made (·.IsLater orderId) 1 { e₁ with
            timeoutController := checkedAt e₁.timeoutController start e₁.world.nextTime
            world := e₁.world.tick } e₂) : SettledCalls s orderId e e₂ := by
        obtain ⟨r, evs', htr', hevs'⟩ := ht.calls
        refine ⟨⟨evs ++ .cancelOrder orderId r :: evs', ?_, ?_, noCancel_of_timeout hevs hnone hevs',
          Or.inl (ht.unpriced hfresh₁)⟩, ?_⟩
        · rw [htr', World.tick_trace, htr, List.append_assoc]
        · intro ev hev
          rcases List.mem_append.1 hev with hev | hev
          · exact (hevs ev hev).later
          · rcases List.mem_cons.1 hev with rfl | hev
            · rfl
            · exact (hevs' ev hev).later
        · exact hm.reconcileCalls.trans (by rw [h.reconcileCalls])
      simp only [hx, decide_true, ↓reduceIte]
      refine (Exn.wp_bind (onTimeout s orderId) _).2 ?_
      exact Exn.wp_mono (Exn.wp_and (onTimeout_spec (by exact hs₁) (Nat.zero_le _))
        (Makes.of_onTimeout s _)) (fun _ e₂ h => (htimeout e₂ h.1.1 h.2).conclude)
        fun _ e₂ h => htimeout e₂ h.1 h.2
    · simp only [hx, decide_false, Bool.false_eq_true, ↓reduceIte]
      refine SettledCalls.conclude ⟨⟨evs, htr, fun ev hev => (hevs ev hev).later,
        noCancel_of_queries hevs, Or.inl hfresh₁⟩, ?_⟩
      exact h.reconcileCalls.le.trans (Nat.le_succ _)
  | some fill =>
    obtain ⟨st, hst, rfl⟩ := Option.map_eq_some_iff.1 hfill
    have hfilled (e₂ : Engine) (hp : PricedBy s st.fillPrice e₂.result)
        (hm : Made (·.IsQuery orderId) 1 { e₁ with
          timeoutController := checkedAt e₁.timeoutController start e₁.world.nextTime
          world := e₁.world.tick } e₂) : SettledCalls s orderId e e₂ := by
      obtain ⟨evs', htr', hevs'⟩ := hm.calls
      have hall : ∀ ev ∈ evs ++ evs', ev.IsQuery orderId := fun ev hev =>
        (List.mem_append.1 hev).elim (hevs ev) (hevs' ev)
      refine ⟨⟨evs ++ evs', ?_, fun ev hev => (hall ev hev).later, noCancel_of_queries hall, ?_⟩, ?_⟩
      · rw [htr', World.tick_trace, htr, List.append_assoc]
      · rwa [firstFill_append, hst]
      · exact hm.reconcileCalls.trans (by rw [h.reconcileCalls])
    refine (Exn.wp_bind (onFill s orderId ⟨st.fillPrice, st.filledSize⟩) _).2 ?_
    exact Exn.wp_mono (Exn.wp_and (onFill_spec (by exact hs₁) _ hfresh₁) (Makes.of_onFill s _ _))
      (fun _ e₂ h => (hfilled e₂ h.1.2.2.2.2 h.2).conclude) fun _ e₂ h => hfilled e₂ h.1.2 h.2

/-! ## The whole call -/

/-- The calls of a call of `execute`: none, or an order and then calls for it. -/
inductive Called (s : FrozenSnapshot) (e : Engine) (r : ExecutionResult) (e' : Engine) : Prop
  | rejected (blocked : Blocked e s) (trace : e'.world.trace = e.world.trace)
      (unpriced : Unpriced r) (reconcileCalls : e'.reconcileCalls = e.reconcileCalls)
  | ordered (free : ¬ Blocked e s) {reply : Except String (Option String)} {evs : List BrokerEvent}
      (reply_eq : e.world.broker.submitOrder e.world.calls = reply)
      (trace : e'.world.trace =
        e.world.trace ++ .submitOrder s.symbol s.positionSize reply :: evs)
      (later : ∀ ev ∈ evs, ∃ orderId, reply = .ok orderId ∧ ev.IsLater orderId)
      (traded : Traded s evs r) (reconcileCalls : e'.reconcileCalls ≤ e.reconcileCalls + 1)

/-- The handler of `execute` keeps the prices. -/
theorem Traded.failWith {evs : List BrokerEvent} {e : Engine} (h : Traded s evs e.result)
    (err : String) : Traded s evs (e.failWith err).result := by
  refine ⟨h.cancel, h.prices.imp (fun hu => ?_) fun hp => ?_⟩
  · exact ⟨hu.fillPrice, hu.sl, hu.tp, hu.attempts⟩
  · obtain ⟨p, hp, hat⟩ := hp
    exact ⟨p, hp, hat.fillPrice, hat.sl, hat.tp, hat.attempts⟩

theorem execute_calls (e : Engine) (s : FrozenSnapshot) (polls : ℕ) :
    Exn.Ensures (execute s polls) (Called s e) e := by
  rw [Exn.Ensures, wp_execute, executeBody, Exn.wp_bind]
  refine Exn.wp_mono (precheck_spec _ s) (fun rejected e₁ h => ?_) fun _ _ => False.elim
  have htr : e₁.world.trace = e.world.trace := h.trace
  have hrecon : e₁.reconcileCalls = e.reconcileCalls := h.reconcileCalls
  cases rejected with
  | true =>
    obtain ⟨-, hres⟩ := h.rejected rfl
    refine .rejected (h.iff.1 rfl) htr ?_ hrecon
    rw [hres]
    exact ⟨rfl, rfl, rfl, fun _ h => by cases h⟩
  | false =>
    have hfree : ¬ Blocked e s := fun hb => absurd (h.iff.2 hb) Bool.false_ne_true
    obtain ⟨hw, hres⟩ := h.passed rfl
    have hfresh : Unpriced e₁.result := by rw [hres]; exact unpriced_new _
    have hreply : e₁.world.broker.submitOrder e₁.world.calls =
      e.world.broker.submitOrder e.world.calls := by rw [hw]; rfl
    simp only [Bool.false_eq_true, ↓reduceIte, Exn.wp_bind]
    rw [wp_submit]
    cases hsub : e₁.world.broker.submitOrder e₁.world.calls with
    | error err =>
      have hlater : ∀ ev ∈ ([] : List BrokerEvent),
          ∃ orderId, Except.error err = Except.ok orderId ∧ ev.IsLater orderId := by
        intro _ h'
        cases h'
      refine .ordered hfree (hreply.symm.trans hsub) ?_ hlater ⟨List.Pairwise.nil, Or.inl ?_⟩
        (hrecon.le.trans (Nat.le_succ _))
      · rw [← htr, ← hsub]
        rfl
      · exact ⟨hfresh.fillPrice, hfresh.sl, hfresh.tp, hfresh.attempts⟩
    | ok orderId =>
      have hsettle := settleOrder_calls (s := s) (e := e₁.afterSubmit s orderId) orderId rfl
        (hfresh.afterSubmit s orderId) polls
      have hcalls {e₂ : Engine} (h₂ : SettledCalls s orderId (e₁.afterSubmit s orderId) e₂) :
          ∃ evs, e₂.world.trace =
              e.world.trace ++ .submitOrder s.symbol s.positionSize (.ok orderId) :: evs ∧
            (∀ ev ∈ evs, ∃ id, Except.ok (ε := String) orderId = .ok id ∧ ev.IsLater id) ∧
            Traded s evs e₂.result ∧ e₂.reconcileCalls ≤ e.reconcileCalls + 1 := by
        obtain ⟨evs, htr₂, hlater, ht⟩ := h₂.calls
        refine ⟨evs, ?_, fun ev hev => ⟨orderId, rfl, hlater ev hev⟩, ht,
          h₂.reconcileCalls.trans (by rw [← hrecon]; rfl)⟩
        have hplaced : (e₁.afterSubmit s orderId).world.trace =
            e₁.world.trace ++ [.submitOrder s.symbol s.positionSize (.ok orderId)] := by
          rw [← hsub]
          rfl
        rw [htr₂, hplaced, htr, List.append_assoc]
        rfl
      refine Exn.wp_mono hsettle (fun _ e₂ h₂ => ?_) fun err e₂ h₂ => ?_
      · obtain ⟨evs, htr₂, hlater, ht, hr⟩ := hcalls h₂
        exact .ordered hfree (hreply.symm.trans hsub) htr₂ hlater ht hr
      · obtain ⟨evs, htr₂, hlater, ht, hr⟩ := hcalls h₂
        exact .ordered hfree (hreply.symm.trans hsub) htr₂ hlater (ht.failWith err) hr

/-! ## The protocol -/

/-- The stop and the target of a fill at `p`: on their sides of it, or at it where the offset is lost
in the rounding, as it is not from the last bit of 1 on. -/
structure Bracketed (s : FrozenSnapshot) (p : ℚ) (sl tp : PyFloat) : Prop where
  sl_le : sl.le (.fin p) = true
  le_tp : PyFloat.le (.fin p) tp = true
  sl_lt : Binary64.minNormal ≤ p → s.slOffsetPct.le (.fin (-(1 / 2 ^ 52))) = true →
    sl.lt (.fin p) = true
  lt_tp : Binary64.minNormal ≤ p → PyFloat.le (.fin (1 / 2 ^ 52)) s.tpOffsetPct = true →
    PyFloat.lt (.fin p) tp = true

/-- What a call of `execute` keeps to, with the result `r`. -/
structure ProtocolSafe (e : Engine) (s : FrozenSnapshot) (r : ExecutionResult) (e' : Engine) :
    Prop where
  calls : ∃ evs, e'.world.trace = e.world.trace ++ evs ∧
    evs.countP BrokerEvent.isSubmit ≤ 1 ∧ NoCancelAfterFill evs ∧
    PricedBy s ((firstFill evs).bind (·.fillPrice)) r
  reconcileCalls : e'.reconcileCalls ≤ e.reconcileCalls + 1
  bracket : ∀ p, r.finalFillPrice = some p → Binary64.Representable p → 0 < p →
    s.slOffsetPct ≠ .nan → s.tpOffsetPct ≠ .nan →
    ∃ sl tp, r.finalSl = some sl ∧ r.finalTp = some tp ∧ Bracketed s p sl tp

section
variable {x : PyFloat}

/-- 1 and an offset that is at most `q` make at most the float `1 + q`. -/
theorem one_add_le {n : ℤ} {q : ℚ} (hq : 1 + q = n / 2 ^ 52) (hn : n.natAbs ≤ 2 ^ 53)
    (hx : x.le (.fin q) = true) : (Binary64.add (.fin 1) x).le (.fin (1 + q)) = true := by
  refine Binary64.add_le_fin ?_ le_rfl hx
  rw [hq]
  exact Binary64.nearest_div_two_pow hn (by decide)

theorem le_one_add {n : ℤ} {q : ℚ} (hq : 1 + q = n / 2 ^ 52) (hn : n.natAbs ≤ 2 ^ 53)
    (hx : PyFloat.le (.fin q) x = true) :
    PyFloat.le (.fin (1 + q)) (Binary64.add (.fin 1) x) = true := by
  refine Binary64.fin_le_add ?_ le_rfl hx
  rw [hq]
  exact Binary64.nearest_div_two_pow hn (by decide)

end

/-- The prices at the offsets the preconditions accept bracket a positive fill. -/
theorem bracketed_atOffset {p : ℚ} (hp : Binary64.Representable p) (h0 : 0 < p)
    (hsl : PyFloat.le (.fin 0) s.slOffsetPct = false) (hsl' : s.slOffsetPct ≠ .nan)
    (htp : s.tpOffsetPct.le (.fin 0) = false) (htp' : s.tpOffsetPct ≠ .nan) :
    Bracketed s p (atOffset p s.slOffsetPct) (atOffset p s.tpOffsetPct) where
  sl_le := by
    have hle := one_add_le (n := 2 ^ 52) (q := 0) (by norm_num) (by decide)
      (Binary64.le_of_le_eq_false hsl' hsl)
    rw [add_zero] at hle
    exact Binary64.mul_le_self hp h0 hle
  le_tp := by
    have hle := le_one_add (n := 2 ^ 52) (q := 0) (by norm_num) (by decide)
      (Binary64.le_of_le_eq_false' htp' htp)
    rw [add_zero] at hle
    exact Binary64.self_le_mul hp h0 hle
  sl_lt hnormal hx := by
    have hle := one_add_le (n := 2 ^ 52 - 1) (by norm_num) (by decide) hx
    rw [← sub_eq_add_neg] at hle
    exact Binary64.mul_lt_self hp hnormal hle
  lt_tp hnormal hx := by
    have hle := le_one_add (n := 2 ^ 52 + 1) (by norm_num) (by decide) hx
    exact Binary64.self_lt_mul hp hnormal hle

/-- A fill at a positive price lies between its stop and its target. -/
theorem PricedBy.bracket {fillPrice : Option ℚ} {r : ExecutionResult} {p : ℚ}
    (h : PricedBy s fillPrice r) (hr : r.finalFillPrice = some p) (hp : Binary64.Representable p)
    (h0 : 0 < p) (hsl : PyFloat.le (.fin 0) s.slOffsetPct = false) (hsl' : s.slOffsetPct ≠ .nan)
    (htp : s.tpOffsetPct.le (.fin 0) = false) (htp' : s.tpOffsetPct ≠ .nan) :
    ∃ sl tp, r.finalSl = some sl ∧ r.finalTp = some tp ∧ Bracketed s p sl tp := by
  rcases h with hu | ⟨p', -, hat⟩
  · rw [hu.fillPrice] at hr
    cases hr
  · obtain rfl : p' = p := Option.some.inj (hat.fillPrice.symm.trans hr)
    exact ⟨_, _, hat.sl, hat.tp, bracketed_atOffset hp h0 hsl hsl' htp htp'⟩

theorem execute_protocol (e : Engine) (s : FrozenSnapshot) (polls : ℕ) :
    Exn.Ensures (execute s polls) (ProtocolSafe e s) e := by
  refine (execute_calls e s polls).mono fun r e' h => ?_
  cases h with
  | rejected _ htr hunpriced hr =>
    refine ⟨⟨[], by rw [htr, List.append_nil], Nat.zero_le 1, List.Pairwise.nil, Or.inl hunpriced⟩,
      by omega, fun p hp _ _ _ _ => ?_⟩
    rw [hunpriced.fillPrice] at hp
    cases hp
  | @ordered hfree reply evs _ htr hlater ht hr =>
    have hother : ∀ ev ∈ evs, ev.isSubmit = false := by
      intro ev hev
      obtain ⟨_, -, hl⟩ := hlater ev hev
      exact hl.not_submit
    obtain ⟨-, -, -, hsl, htp⟩ :=
      preconditionError_eq_none.1 (not_not.1 fun hp => hfree (Or.inl hp))
    refine ⟨⟨_, htr, ?_, ?_, ht.prices⟩, hr, fun p hp hfloat h0 hsl' htp' =>
      ht.prices.bracket hp hfloat h0 hsl hsl' htp htp'⟩
    · have h0 : evs.countP BrokerEvent.isSubmit = 0 := by
        rw [List.countP_eq_zero]
        intro ev hev
        simp [hother ev hev]
      rw [List.countP_cons, h0]
      exact le_rfl
    · exact List.pairwise_cons.2 ⟨fun _ _ hfill => absurd rfl hfill, ht.cancel⟩

/-- A fill at a positive price is between its stop and its target, at neither. -/
def StrictlyBetween (r : ExecutionResult) : Prop :=
  ∀ p, r.finalFillPrice = some p → 0 < p →
    ∃ sl tp, r.finalSl = some sl ∧ r.finalTp = some tp ∧
      sl.lt (.fin p) = true ∧ PyFloat.lt (.fin p) tp = true

/-- The stop is at the fill where its offset is lost in the sum with 1, or in the product with the
least float; a NaN is accepted as an offset. -/
theorem stop_not_below_fill :
    (∀ offset : PyFloat, offset = .fin (-(1 / 2 ^ 60)) ∨ offset = .nan →
      ¬ Exn.Ensures (execute { FrozenSnapshot.eurusdLong with slOffsetPct := offset })
        (fun r _ => StrictlyBetween r) (new (.filling 1 1) .still)) ∧
    ¬ Exn.Ensures (execute .eurusdLong) (fun r _ => StrictlyBetween r)
      (new (.filling (1 / 2 ^ 1074) 1) .still) := by
  have hnot {e : Engine} {s : FrozenSnapshot} (p : ℚ) (sl : PyFloat) (h0 : 0 < p)
      (hlt : sl.lt (.fin p) = false)
      (hrun : Exn.Ensures (execute s)
        (fun r _ => r.finalFillPrice = some p ∧ r.finalSl = some sl) e) :
      ¬ Exn.Ensures (execute s) (fun r _ => StrictlyBetween r) e := by
    intro h
    obtain ⟨r, -, -, hbetween, hp, hsl⟩ := (h.and hrun).exists
    obtain ⟨sl', -, hsl', -, hlt', -⟩ := hbetween p hp h0
    rw [Option.some.inj (hsl'.symm.trans hsl), hlt] at hlt'
    cases hlt'
  refine ⟨?_, ?_⟩
  · rintro offset (rfl | rfl)
    · exact hnot 1 (.fin 1) (by decide) (by decide +kernel) (by decide +kernel)
    · exact hnot 1 .nan (by decide) (by decide +kernel) (by decide +kernel)
  · exact hnot (1 / 2 ^ 1074) (.fin (1 / 2 ^ 1074)) (by positivity)
      (by decide +kernel) (by decide +kernel)

end Engine

end Execution
