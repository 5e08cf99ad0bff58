import IctAlgo.Execution.Proof.Rules

/-!
# The calls a program makes

What the broker calls of a run say (`fill?`, `firstFill`), and which calls a program of the engine
may add to those made so far.

* `Makes p k m`: however `m` ends, the calls it added satisfy `p`, none made before is lost, and it
  reconciled at most `k` times.
* `waitForFill_calls`: the poll loop adds status queries of the order, and returns the first fill
  they report, on any clock.
-/

set_option autoImplicit false

namespace Execution

open Lib

/-! ## What a call says -/

namespace BrokerEvent

/-- The fill a call reports: a status reply in the state `filled`. -/
def fill? : BrokerEvent → Option OrderStatus
  | .getOrderStatus _ (.ok st) => if st.state = .filled then some st else none
  | _ => none

def isSubmit : BrokerEvent → Bool
  | .submitOrder .. => true
  | _ => false

def isCancel : BrokerEvent → Bool
  | .cancelOrder .. => true
  | _ => false

/-- A query, of positions or of the status of this order. -/
def IsQuery (orderId : Option String) : BrokerEvent → Prop
  | .getOrderStatus orderId' _ => orderId' = orderId
  | .getPositions _ => True
  | _ => False

/-- A call for an order submitted before. -/
def IsLater (orderId : Option String) : BrokerEvent → Prop
  | .cancelOrder orderId' _ => orderId' = orderId
  | ev => ev.IsQuery orderId

variable {orderId : Option String} {ev : BrokerEvent}

theorem IsQuery.later (h : ev.IsQuery orderId) : ev.IsLater orderId := by
  cases ev with
  | cancelOrder _ _ => exact h.elim
  | submitOrder _ _ _ => exact h
  | getOrderStatus _ _ => exact h
  | getPositions _ => exact h

theorem IsQuery.not_cancel (h : ev.IsQuery orderId) : ev.isCancel = false := by
  cases ev with
  | cancelOrder _ _ => exact h.elim
  | submitOrder _ _ _ => rfl
  | getOrderStatus _ _ => rfl
  | getPositions _ => rfl

theorem IsLater.not_submit (h : ev.IsLater orderId) : ev.isSubmit = false := by
  cases ev with
  | submitOrder _ _ _ => exact h.elim
  | cancelOrder _ _ => rfl
  | getOrderStatus _ _ => rfl
  | getPositions _ => rfl

end BrokerEvent

/-- The first fill reported by a call. -/
def firstFill (calls : List BrokerEvent) : Option OrderStatus := calls.findSome? BrokerEvent.fill?

theorem firstFill_append (calls calls' : List BrokerEvent) :
    firstFill (calls ++ calls') = (firstFill calls).or (firstFill calls') :=
  List.findSome?_append

theorem firstFill_eq_none {calls : List BrokerEvent} :
    firstFill calls = none ↔ ∀ ev ∈ calls, ev.fill? = none :=
  List.findSome?_eq_none_iff

/-- The first fill reported after the first `n` calls. -/
def World.fillSince (n : ℕ) (w : World) : Option OrderStatus := firstFill (w.trace.drop n)

namespace World

variable {n : ℕ} {w : World} {orderId : Option String}

@[simp] theorem fillSince_tick : w.tick.fillSince n = w.fillSince n := rfl

@[simp] theorem fillSince_length : w.fillSince w.trace.length = none := by
  simp [fillSince, firstFill]

theorem fillSince_called (hn : n ≤ w.trace.length) (ev : BrokerEvent) :
    (w.called ev).fillSince n = (w.fillSince n).or ev.fill? := by
  have h0 : n - w.trace.length = 0 := Nat.sub_eq_zero_of_le hn
  simp [fillSince, firstFill, called, List.drop_append, h0, List.findSome?_append]

theorem le_length_called (hn : n ≤ w.trace.length) (ev : BrokerEvent) :
    n ≤ (w.called ev).trace.length := by
  simp only [called, List.length_append]
  omega

theorem fillSince_polledOnce (hn : n ≤ w.trace.length) :
    (w.polledOnce orderId).fillSince n =
      (w.fillSince n).or (BrokerEvent.getOrderStatus orderId w.nextStatus).fill? := by
  rw [polledOnce, fillSince_called (by exact hn), fillSince_tick]

/-- Polls that go on report no fill, and add nothing but status queries of the order. -/
theorem polled_calls {start : ℚ} {k : ℕ} (hk : ∀ j < k, ¬ (polled orderId j w).Stops start) :
    ∃ evs, (polled orderId k w).trace = w.trace ++ evs ∧
      ∀ ev ∈ evs, ev.IsQuery orderId ∧ ev.fill? = none := by
  induction k with
  | zero => exact ⟨[], (List.append_nil _).symm, fun _ h => by cases h⟩
  | succ k ih =>
    obtain ⟨evs, htr, hevs⟩ := ih fun j hj => hk j (by omega)
    have hgo := hk k (Nat.lt_succ_self k)
    simp only [Stops, not_or, not_forall] at hgo
    obtain ⟨-, st, hst, hne⟩ := hgo
    refine ⟨evs ++ [.getOrderStatus orderId (.ok st)], ?_, fun ev hev => ?_⟩
    · rw [polled_succ, ← List.append_assoc, ← htr, ← hst]
      rfl
    · rcases List.mem_append.1 hev with hev | hev
      · exact hevs ev hev
      · rw [List.mem_singleton.1 hev]
        exact ⟨rfl, by simp [BrokerEvent.fill?, hne]⟩

theorem fillSince_polled {start : ℚ} {k : ℕ} (hn : n ≤ w.trace.length)
    (hk : ∀ j < k, ¬ (polled orderId j w).Stops start) :
    n ≤ (polled orderId k w).trace.length ∧
      (polled orderId k w).fillSince n = w.fillSince n := by
  obtain ⟨evs, htr, hevs⟩ := polled_calls hk
  have h0 : n - w.trace.length = 0 := Nat.sub_eq_zero_of_le hn
  constructor
  · rw [htr, List.length_append]
    omega
  · rw [fillSince, htr, List.drop_append, h0, List.drop_zero, firstFill_append,
      firstFill_eq_none.2 fun ev hev => (hevs ev hev).2, Option.or_none]
    rfl

theorem fillSince_some_of_prefix {w' : World} {st : OrderStatus} (hp : w.trace <+: w'.trace)
    (hf : w.fillSince n = some st) : w'.fillSince n = some st := by
  obtain ⟨evs, hevs⟩ := hp
  unfold fillSince at *
  rw [← hevs, List.drop_append, firstFill_append, hf]
  rfl

end World

namespace Engine

/-! ## Programs that only add calls -/

/-- The engine `e'` was left by a program that began in `e`, added calls that satisfy `p` and
reconciled at most `k` times. -/
structure Made (p : BrokerEvent → Prop) (k : ℕ) (e e' : Engine) : Prop where
  calls : ∃ evs, e'.world.trace = e.world.trace ++ evs ∧ ∀ ev ∈ evs, p ev
  reconcileCalls : e'.reconcileCalls ≤ e.reconcileCalls + k

/-- However `m` ends, it only adds calls that satisfy `p`, and reconciles at most `k` times. -/
def Makes {α : Type} (p : BrokerEvent → Prop) (k : ℕ) (m : EngineM α) : Prop :=
  ∀ e : Engine, Exn.wp m (fun _ => Made p k e) (fun _ => Made p k e) e

section
variable {p q : BrokerEvent → Prop} {i j k : ℕ} {e e' e'' : Engine}

theorem Made.grows (h : Made p k e e') : e.world.trace <+: e'.world.trace := by
  obtain ⟨evs, htr, -⟩ := h.calls
  exact ⟨evs, htr.symm⟩

/-- A step that makes no call. -/
theorem Made.silent (ht : e'.world.trace = e.world.trace)
    (hr : e'.reconcileCalls = e.reconcileCalls) : Made p 0 e e' :=
  ⟨⟨[], by rw [ht, List.append_nil], fun _ h => by cases h⟩, hr.le⟩

theorem Made.trans (h : Made p i e e') (h' : Made p j e' e'') (hk : i + j ≤ k) : Made p k e e'' := by
  obtain ⟨evs, htr, hevs⟩ := h.calls
  obtain ⟨evs', htr', hevs'⟩ := h'.calls
  refine ⟨⟨evs ++ evs', by rw [htr', htr, List.append_assoc], fun ev hev => ?_⟩, ?_⟩
  · rcases List.mem_append.1 hev with hev | hev
    · exact hevs ev hev
    · exact hevs' ev hev
  · have h1 := h.reconcileCalls
    have h2 := h'.reconcileCalls
    omega

theorem Made.mono (h : Made p i e e') (hpq : ∀ ev, p ev → q ev) (hk : i ≤ k) : Made q k e e' := by
  obtain ⟨evs, htr, hevs⟩ := h.calls
  exact ⟨⟨evs, htr, fun ev hev => hpq ev (hevs ev hev)⟩, h.reconcileCalls.trans (by omega)⟩

end

namespace Makes

variable {α β : Type} {p q : BrokerEvent → Prop} {i j k : ℕ} {m : EngineM α}

theorem mono (h : Makes p i m) (hpq : ∀ ev, p ev → q ev) (hk : i ≤ k) : Makes q k m := fun e =>
  Exn.wp_mono (h e) (fun _ _ h => h.mono hpq hk) fun _ _ h => h.mono hpq hk

theorem of_pure (a : α) : Makes p 0 (pure a) := fun _ => .silent rfl rfl

theorem of_throw (err : String) : Makes p 0 (throw err : EngineM α) := fun _ => .silent rfl rfl

theorem bind {f : α → EngineM β} (hm : Makes p i m) (hf : ∀ a, Makes p j (f a)) (hk : i + j ≤ k) :
    Makes p k (m >>= f) := by
  intro e
  rw [Exn.wp_bind]
  refine Exn.wp_mono (hm e) (fun a e' h => ?_) fun _ _ h => h.mono (fun _ => id) (by omega)
  exact Exn.wp_mono (hf a e') (fun _ _ h' => h.trans h' hk) fun _ _ h' => h.trans h' hk

/-- A program after one that does not reconcile. -/
theorem andThen {f : α → EngineM β} (hm : Makes p 0 m) (hf : ∀ a, Makes p k (f a)) :
    Makes p k (m >>= f) := hm.bind hf (Nat.zero_add k).le

theorem catching {h : String → EngineM α} (hm : Makes p i m) (hh : ∀ err, Makes p j (h err))
    (hk : i + j ≤ k) : Makes p k (tryCatch m h) := by
  intro e
  refine (Exn.wp_tryCatch ..).2 (Exn.wp_mono (hm e) (fun _ _ h => h.mono (fun _ => id) (by omega))
    fun err e' hp => ?_)
  exact Exn.wp_mono (hh err e') (fun _ _ h => hp.trans h hk) fun _ _ h => hp.trans h hk

/-- A change of the engine that leaves the world and the count of reconciliations alone. -/
theorem of_modify {f : Engine → Engine} (hf : ∀ e, (f e).world = e.world)
    (hr : ∀ e, (f e).reconcileCalls = e.reconcileCalls) : Makes p 0 (modify f) := by
  intro e
  rw [Exn.wp_modify]
  exact .silent (by rw [hf]) (hr e)

theorem of_get : Makes p 0 (get : EngineM Engine) := fun _ => .silent rfl rfl

theorem of_call {reply : Broker → ℕ → Except String α} {event : Except String α → BrokerEvent}
    (hp : ∀ r, p (event r)) : Makes p 0 (io (World.call reply event)) := by
  intro e
  have hcall (r : Except String α) : Made p 0 e { e with world := e.world.called (event r) } :=
    ⟨⟨[event r], rfl, fun ev hev => by rw [List.mem_singleton.1 hev]; exact hp r⟩, le_rfl⟩
  rw [wp_io, World.wp_call]
  split
  · exact hcall _
  · exact hcall _

theorem of_now : Makes p 0 now := fun _ => .silent rfl rfl

theorem of_log (entry : ℚ → LogEntry) : Makes p 0 (log entry) :=
  andThen of_now fun _ => of_modify (fun _ => rfl) fun _ => rfl

theorem of_setResult (f : ExecutionResult → ExecutionResult) : Makes p 0 (setResult f) :=
  of_modify (fun _ => rfl) fun _ => rfl

theorem of_setAttempt (f : ExecutionAttempt → ExecutionAttempt) : Makes p 0 (setAttempt f) :=
  of_setResult _

theorem of_isExpired : Makes p 0 isExpired := by
  refine andThen of_get fun e => ?_
  split
  · exact of_pure _
  · exact andThen of_now fun _ => andThen (of_modify (fun _ => rfl) fun _ => rfl) fun _ => of_pure _

theorem of_elapsedSeconds : Makes p 0 elapsedSeconds := by
  refine andThen of_get fun e => ?_
  split
  · exact of_pure _
  · exact andThen of_now fun _ => of_pure _

theorem of_priceAtOffset (fillPrice : Option ℚ) (offsetPct : PyFloat) :
    Makes p 0 (priceAtOffset fillPrice offsetPct) := by
  cases fillPrice with
  | none => exact of_throw _
  | some p => exact of_pure _

theorem of_slippage (fillPrice : Option ℚ) (referencePrice : ℚ) :
    Makes p 0 (slippage fillPrice referencePrice) := by
  cases fillPrice with
  | none => exact of_throw _
  | some p =>
    simp only [slippage]
    split
    · exact of_throw _
    · exact of_pure _

/-! ## The stages -/

variable {orderId : Option String}

theorem of_queryStatus : Makes (·.IsQuery orderId) 0 (queryStatus orderId) := by
  unfold queryStatus
  split
  · exact andThen (of_call fun _ => rfl) fun _ => of_pure _
  · exact of_pure _

theorem of_reconcile (advisoryId : String) (expectedSize : Option ℚ)
    (expectedSl expectedTp : Option PyFloat) :
    Makes (·.IsQuery orderId) 1
      (reconcile advisoryId orderId expectedSize expectedSl expectedTp) := by
  have hcount : Makes (·.IsQuery orderId) 1
      (modify fun e => { e with reconcileCalls := e.reconcileCalls + 1 } : EngineM PUnit) :=
    fun e => ⟨⟨[], (List.append_nil _).symm, fun _ h => by cases h⟩, le_rfl⟩
  refine bind hcount (fun _ => ?_) (le_refl (1 + 0))
  exact andThen of_now fun _ => andThen of_queryStatus fun _ =>
    andThen (of_call fun _ => trivial) fun _ =>
      andThen (of_modify (fun _ => rfl) fun _ => rfl) fun _ => of_pure _

theorem of_waitForFill (polls : ℕ) : Makes (·.IsQuery orderId) 0 (waitForFill orderId polls) := by
  induction polls with
  | zero => exact of_pure _
  | succ polls ih =>
    refine andThen of_isExpired fun expired => ?_
    split
    · exact of_pure _
    · refine andThen (of_call fun _ => rfl) fun st => ?_
      split
      · exact of_pure _
      · exact andThen (fun _ => .silent rfl rfl) fun _ => ih

theorem of_onTimeout (s : FrozenSnapshot) : Makes (·.IsLater orderId) 1 (onTimeout s orderId) :=
  andThen (of_setResult _) fun _ => andThen (of_setAttempt _) fun _ =>
    andThen of_elapsedSeconds fun _ => andThen (of_log _) fun _ =>
      andThen (catching (andThen (of_call fun _ => rfl) fun _ => of_pure _) (fun _ => of_pure _)
        le_rfl) fun _ =>
        bind ((of_reconcile _ _ _ _).mono (fun _ => BrokerEvent.IsQuery.later) le_rfl)
          (fun _ => of_setResult _) le_rfl

theorem of_onFill (s : FrozenSnapshot) (fill : FillInfo) :
    Makes (·.IsQuery orderId) 1 (onFill s orderId fill) :=
  andThen (of_priceAtOffset _ _) fun _ => andThen (of_priceAtOffset _ _) fun _ =>
    andThen (of_slippage _ _) fun _ => andThen of_now fun _ => andThen (of_setAttempt _) fun _ =>
      andThen of_isExpired fun _ => andThen (of_setResult _) fun _ => andThen (of_setAttempt _)
        fun _ => andThen (of_log _) fun _ => bind (of_reconcile _ _ _ _) (fun _ => of_setResult _)
          le_rfl

/-- Steps 6 and 7 make no call. -/
theorem of_conclude (s : FrozenSnapshot) : Makes p 0 (do
    let m := (← get).killSwitchManager
    setResult fun r => { r with killSwitchState := m.getState (some s.symbol) }
    let elapsed ← elapsedSeconds
    setResult fun r => { r with totalDurationSeconds := some elapsed }) :=
  andThen of_get fun _ => andThen (of_setResult _) fun _ => andThen of_elapsedSeconds fun _ =>
    of_setResult _

theorem of_settleOrder (s : FrozenSnapshot) (polls : ℕ) :
    Makes (·.IsLater orderId) 1 (settleOrder s orderId polls) := by
  refine andThen ((of_waitForFill polls).mono (fun _ => BrokerEvent.IsQuery.later) le_rfl)
    fun fillInfo => andThen of_isExpired fun expired => ?_
  cases fillInfo with
  | none =>
    cases expired with
    | true => exact bind (of_onTimeout s) (fun _ => of_conclude s) le_rfl
    | false => exact (of_conclude s).mono (fun _ => id) (Nat.zero_le 1)
  | some fill =>
    exact bind ((of_onFill s fill).mono (fun _ => BrokerEvent.IsQuery.later) le_rfl)
      (fun _ => of_conclude s) le_rfl

end Makes

/-! ## The poll loop -/

/-- What the poll loop leaves: it returned the first fill of the queries it added, or raised
without one. -/
structure Polled (orderId : Option String) (e : Engine) (r : Option FillInfo) (e' : Engine) :
    Prop where
  calls : ∃ evs, e'.world.trace = e.world.trace ++ evs ∧ (∀ ev ∈ evs, ev.IsQuery orderId) ∧
    (firstFill evs).map (fun st => ⟨st.fillPrice, st.filledSize⟩) = r
  startTime : e'.timeoutController.startTime = e.timeoutController.startTime
  result : e'.result = e.result
  reconcileCalls : e'.reconcileCalls = e.reconcileCalls

/-- The loop ended without a query. -/
theorem Polled.silent {orderId : Option String} {e e' : Engine}
    (ht : e'.world.trace = e.world.trace)
    (hs : e'.timeoutController.startTime = e.timeoutController.startTime)
    (hr : e'.result = e.result) (hc : e'.reconcileCalls = e.reconcileCalls) :
    Polled orderId e none e' :=
  ⟨⟨[], by rw [ht, List.append_nil], List.forall_mem_nil _, rfl⟩, hs, hr, hc⟩

theorem waitForFill_calls {start : ℚ} {orderId : Option String} {e : Engine} (polls : ℕ)
    (hs : e.timeoutController.startTime = some start) :
    Exn.wp (waitForFill orderId polls) (Polled orderId e) (fun _ => Polled orderId e none) e := by
  have hquery (r : Except String OrderStatus) (ev : BrokerEvent)
      (hev : ev ∈ [BrokerEvent.getOrderStatus orderId r]) : ev.IsQuery orderId := by
    rw [List.mem_singleton.1 hev]
    rfl
  induction polls generalizing e with
  | zero => exact .silent rfl rfl rfl rfl
  | succ polls ih =>
    rw [wp_waitForFill_succ hs]
    split
    · exact .silent rfl rfl rfl rfl
    rcases hst : e.world.nextStatus with err | st
    · exact ⟨⟨_, rfl, hquery _, by simp [hst, firstFill, BrokerEvent.fill?]⟩, rfl, rfl, rfl⟩
    simp only
    split
    · rename_i hfilled
      exact ⟨⟨_, rfl, hquery _, by simp [hst, firstFill, BrokerEvent.fill?, hfilled]⟩, rfl, rfl, rfl⟩
    · -- The poll went on: its query reports no fill, so the first one is that of the polls to come.
      rename_i hne
      have hnext {r : Option FillInfo} {e' : Engine}
          (h : Polled orderId { e with world := e.world.pollStep orderId } r e') :
          Polled orderId e r e' := by
        obtain ⟨evs, htr, hevs, hfill⟩ := h.calls
        refine ⟨⟨.getOrderStatus orderId e.world.nextStatus :: evs, ?_, ?_, ?_⟩, h.startTime, h.result,
          h.reconcileCalls⟩
        · rw [htr]
          simp [World.pollStep, World.polledOnce, World.called]
        · exact List.forall_mem_cons.2 ⟨rfl, hevs⟩
        · rw [← hfill]
          simp [firstFill, hst, BrokerEvent.fill?, hne]
      exact Exn.wp_mono (ih (by exact hs)) (fun _ _ => hnext) fun _ _ => hnext

end Engine

end Execution
