import IctAlgo.Execution.Proof.Protocol

/-!
# Orders that are left alone

An order id the broker returned is taken care of when a reply reports the order filled or it is
cancelled (`NoneAbandoned`). A timeout cancels and a fill is seen; what is left is a status query
that raises while the loop polls, after which `execute` returns `FAILED` with the order live.

* `Settled.attended_iff`: the order of a loop that ended is taken care of unless its last query
  raised.
* `execute_noneAbandoned_iff`: the same for `execute`.
-/

set_option autoImplicit false

namespace Execution

open Lib

namespace BrokerEvent

/-- The order id a submission returned. -/
def submitted? : BrokerEvent → Option String
  | .submitOrder _ _ (.ok (some orderId)) => some orderId
  | _ => none

/-- The call takes care of the order: it reports it filled or tries to cancel it. -/
def Attends (orderId : String) : BrokerEvent → Prop
  | .getOrderStatus orderId' (.ok st) => orderId' = some orderId ∧ st.state = .filled
  | .cancelOrder orderId' _ => orderId' = some orderId
  | _ => False

instance (orderId : String) (ev : BrokerEvent) : Decidable (ev.Attends orderId) := by
  unfold Attends
  split <;> infer_instance

end BrokerEvent

/-- Every order whose id the broker returned is taken care of. -/
def NoneAbandoned (calls : List BrokerEvent) : Prop :=
  ∀ orderId ∈ calls.filterMap BrokerEvent.submitted?, ∃ ev ∈ calls, ev.Attends orderId

instance (calls : List BrokerEvent) : Decidable (NoneAbandoned calls) :=
  inferInstanceAs (Decidable (∀ _ ∈ _, _))

theorem noneAbandoned_of_none {calls : List BrokerEvent}
    (h : ∀ ev ∈ calls, ev.submitted? = none) : NoneAbandoned calls := by
  intro orderId hid
  obtain ⟨ev, hev, hsome⟩ := List.mem_filterMap.1 hid
  rw [h ev hev] at hsome
  cases hsome

theorem BrokerEvent.IsLater.not_submitted {orderId : Option String} {ev : BrokerEvent}
    (h : ev.IsLater orderId) : ev.submitted? = none := by
  cases ev with
  | submitOrder _ _ _ => exact h.elim
  | cancelOrder _ _ => rfl
  | getOrderStatus _ _ => rfl
  | getPositions _ => rfl

/-- A query without a fill takes care of nothing. -/
theorem BrokerEvent.IsQuery.not_attends {orderId : Option String} {orderId' : String}
    {ev : BrokerEvent} (h : ev.IsQuery orderId) (hf : ev.fill? = none) : ¬ ev.Attends orderId' := by
  cases ev with
  | submitOrder _ _ _ => exact h.elim
  | cancelOrder _ _ => exact h.elim
  | getPositions _ => exact not_false
  | getOrderStatus _ r =>
    cases r with
    | error _ => exact not_false
    | ok st =>
      intro h'
      obtain ⟨-, hst⟩ := h'
      simp [fill?, hst] at hf

/-- An order and later calls for it: there is one order to take care of. -/
theorem noneAbandoned_order_iff {symbol : String} {quantity : ℚ} {orderId : Option String}
    {evs : List BrokerEvent} (h : ∀ ev ∈ evs, ev.IsLater orderId) :
    NoneAbandoned (.submitOrder symbol quantity (.ok orderId) :: evs) ↔
      ∀ id, orderId = some id → ∃ ev ∈ evs, ev.Attends id := by
  have hnone : evs.filterMap BrokerEvent.submitted? = [] :=
    List.filterMap_eq_nil_iff.2 fun ev hev => (h ev hev).not_submitted
  cases orderId with
  | none =>
    refine iff_of_true (noneAbandoned_of_none ?_) fun _ hid => by cases hid
    exact List.forall_mem_cons.2 ⟨rfl, fun ev hev => (h ev hev).not_submitted⟩
  | some id =>
    have hids : (BrokerEvent.submitOrder symbol quantity (.ok (some id)) :: evs).filterMap
        BrokerEvent.submitted? = [id] := by
      rw [List.filterMap_cons, hnone]
      rfl
    rw [NoneAbandoned, hids]
    simp [BrokerEvent.Attends]

namespace Engine

variable {s : FrozenSnapshot} {start : ℚ} {w : World} {n : ℕ}

/-- The order of a loop that stopped in the world `w`, after nothing but queries without a fill, is
taken care of unless the last query raised. -/
theorem Settled.attended_iff {id : String} {returned : Bool} {e' : Engine} {ev₀ : BrokerEvent}
    {evs evs₀ : List BrokerEvent} (h : Settled s (some id) start w n returned e')
    (hclock : w.clock.Monotone) (hstop : w.Stops start) (hn : n ≤ w.trace.length)
    (hw : w.trace.drop n = ev₀ :: evs₀)
    (hq : ∀ ev ∈ evs₀, ev.IsQuery (some id) ∧ ev.fill? = none) (hev₀ : ¬ ev₀.Attends id)
    (hevs : e'.world.trace.drop n = ev₀ :: evs) :
    (∃ ev ∈ evs, ev.Attends id) ↔ w.Expired start ∨ ∃ st, w.nextStatus = .ok st := by
  have hmem {ev : BrokerEvent} (hev : ev ∈ e'.world.trace.drop n) (ha : ev.Attends id) :
      ∃ ev ∈ evs, ev.Attends id := by
    rw [hevs] at hev
    rcases List.mem_cons.1 hev with rfl | hev
    · exact absurd ha hev₀
    · exact ⟨ev, hev, ha⟩
  have hfilled {st : OrderStatus} (hx : ¬ w.Expired start) (hreply : w.nextStatus = .ok st) :
      st.state = .filled := hstop.resolve_left hx st hreply
  cases h with
  | timedOut hx _ _ _ _ hcancel =>
    obtain ⟨r, hr⟩ := hcancel
    exact iff_of_true (hmem hr rfl) (Or.inl hx)
  | setBack hx hx' => exact absurd (expired_tick hclock hx) hx'
  | raised hx hreply _ _ htr =>
    have h0 : n - w.trace.length = 0 := Nat.sub_eq_zero_of_le hn
    rw [htr, List.drop_append, h0, hw, List.drop_zero, List.cons_append] at hevs
    obtain rfl := (List.cons.inj hevs).2
    refine iff_of_false ?_ ?_
    · intro h'
      obtain ⟨ev, hev, ha⟩ := h'
      rcases List.mem_append.1 hev with hev | hev
      · exact (hq ev hev).1.not_attends (hq ev hev).2 ha
      · rw [List.mem_singleton.1 hev] at ha
        exact ha
    · intro h'
      obtain h | ⟨st, hst⟩ := h'
      · exact hx h
      · cases hreply.symm.trans hst
  | filled hx hreply _ _ _ _ hseen =>
    exact iff_of_true (hmem hseen ⟨rfl, hfilled hx hreply⟩) (Or.inr ⟨_, hreply⟩)
  | lost hx hreply _ _ hseen =>
    exact iff_of_true (hmem hseen ⟨rfl, hfilled hx hreply⟩) (Or.inr ⟨_, hreply⟩)

/-- Where the loop of this call stops, if an order is submitted, the time is over or the status
query answers. -/
def PollsAnswered (w : World) (s : FrozenSnapshot) : Prop :=
  ∀ id k, w.broker.submitOrder w.calls = .ok (some id) →
    World.FirstStop w.nextTime (some id) (orderPlaced s w) k →
      ((orderPlaced s w).polled (some id) k).Expired w.nextTime ∨
        ∃ st, ((orderPlaced s w).polled (some id) k).nextStatus = .ok st

theorem pollsAnswered_iff {id : String} {k : ℕ}
    (hsub : w.broker.submitOrder w.calls = .ok (some id))
    (hk : World.FirstStop w.nextTime (some id) (orderPlaced s w) k) :
    PollsAnswered w s ↔ ((orderPlaced s w).polled (some id) k).Expired w.nextTime ∨
      ∃ st, ((orderPlaced s w).polled (some id) k).nextStatus = .ok st := by
  refine ⟨fun h => h id k hsub hk, fun h id' j hj hstop => ?_⟩
  obtain rfl : id = id' := Option.some.inj (Except.ok.inj (hsub.symm.trans hj))
  rwa [hk.unique hstop]

/-- **`execute` abandons no order** exactly when the call is rejected or the last status query of
its poll loop does not raise. -/
theorem execute_noneAbandoned_iff (e : Engine) (s : FrozenSnapshot)
    (hclock : e.world.clock.Monotone) :
    Exn.Ensures (execute s)
      (fun _ e' => NoneAbandoned (e'.world.trace.drop e.world.trace.length)) e ↔
    Blocked e s ∨ PollsAnswered e.world.tick.tick s := by
  refine Exn.Ensures.iff (((execute_calls e s pollLimit).and (execute_spec e s pollLimit)).mono
    fun r e' h => ?_)
  obtain ⟨hcalls, hspec⟩ := h
  cases hcalls with
  | rejected hblocked htr =>
    refine iff_of_true ?_ (Or.inl hblocked)
    rw [htr, List.drop_length]
    exact noneAbandoned_of_none (List.forall_mem_nil _)
  | @ordered hfree reply evs hreply htr hlater =>
    rw [or_iff_right hfree, htr, List.drop_left]
    rcases reply with err | orderId
    · refine iff_of_true (noneAbandoned_of_none ?_) fun id k h => ?_
      · refine List.forall_mem_cons.2 ⟨rfl, fun ev hev => ?_⟩
        obtain ⟨_, h, -⟩ := hlater ev hev
        cases h
      · cases hreply.symm.trans h
    rw [noneAbandoned_order_iff fun ev hev => ?_]
    · rcases orderId with _ | id
      · refine iff_of_true (fun _ h => by cases h) fun id k h => ?_
        cases hreply.symm.trans h
      cases hspec with
      | rejected hblocked => exact absurd hblocked hfree
      | ordered _ hend htr' =>
        cases hend with
        | refused h => cases hreply.symm.trans h
        | unstopped h hgoes =>
          obtain ⟨k, hl, hk⟩ := loopStops_of_monotone s (w := e.world.tick.tick) hclock _ h
          exact absurd hk.1 (hgoes k hl)
        | @settled _ k _ _ h hstop hs =>
          obtain rfl := Except.ok.inj (h.symm.trans hreply)
          have hclock' : ((orderPlaced s e.world.tick.tick).polled (some id) k).clock.Monotone := by
            rw [World.polled_clock]
            exact hclock
          have hplaced : (orderPlaced s e.world.tick.tick).trace =
              e.world.trace ++ [.submitOrder s.symbol s.positionSize (.ok (some id))] := by
            rw [← h]
            rfl
          obtain ⟨evs₀, hw, hq⟩ := World.polled_calls hstop.2
          rw [hplaced, List.append_assoc] at hw
          have hout : e.world.trace.length ≤
              ((orderPlaced s e.world.tick.tick).polled (some id) k).trace.length := by
            rw [hw, List.length_append]
            omega
          have hdrop := congrArg (List.drop e.world.trace.length) hw
          have hdrop' := congrArg (List.drop e.world.trace.length) (htr'.symm.trans htr)
          rw [List.drop_left] at hdrop hdrop'
          rw [pollsAnswered_iff h hstop,
            ← hs.attended_iff hclock' hstop.1 hout hdrop hq not_false hdrop']
          simp
    · obtain ⟨_, h, hl⟩ := hlater ev hev
      rwa [Except.ok.inj h]

/-- An order that is seen filled. -/
theorem execute_noneAbandoned_filling :
    Exn.Ensures (execute .eurusdLong)
      (fun _ e' => NoneAbandoned
        (e'.world.trace.drop (new (.filling (11 / 10) 1) .still).world.trace.length))
      (new (.filling (11 / 10) 1) .still) := by
  refine (execute_noneAbandoned_iff (new (.filling (11 / 10) 1) .still) .eurusdLong
    Clock.still_monotone).2 (Or.inr fun id k hsub hstop => Or.inr ?_)
  obtain rfl : "order-1" = id := Option.some.inj (Except.ok.inj hsub)
  obtain rfl := hstop.unique (World.FirstStop.of_filled rfl rfl)
  exact ⟨_, rfl⟩

/-- A broker that takes the order and raises at every status query. -/
def statusDown : Engine :=
  new { submitOrder := fun _ => .ok (some "order-1")
        getOrderStatus := fun _ => .error "connection reset"
        cancelOrder := fun _ => .ok true
        getPositions := fun _ => .ok [] } .still

/-- Its order is neither seen filled nor cancelled. -/
theorem statusDown_abandons :
    statusDown.world.clock.Monotone ∧ ¬ Exn.Ensures (execute .eurusdLong)
      (fun _ e' => NoneAbandoned (e'.world.trace.drop statusDown.world.trace.length)) statusDown :=
  ⟨Clock.still_monotone, by decide +kernel⟩

end Engine

end Execution
