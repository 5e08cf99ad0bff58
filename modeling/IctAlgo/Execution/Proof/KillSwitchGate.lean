import IctAlgo.Execution.Proof.Stages

/-!
# What a kill switch blocks

* `execute_submits_iff`: `execute` submits an order exactly when the call is not `Blocked`, that is,
  unless a precondition fails or a switch is on under the symbol's own key.
* `killSwitch_blocks_iff`: the switches block an execution they ask to block exactly when one of
  these two holds. A global switch sets another key, so it blocks no symbol; a later call of another
  type under the symbol's key switches trading on again.
-/

set_option autoImplicit false

namespace Execution

open Lib

/-- Some call submits an order. -/
def Submits (calls : List BrokerEvent) : Prop :=
  ∃ symbol quantity reply, BrokerEvent.submitOrder symbol quantity reply ∈ calls

theorem Submits.of_prefix {n : ℕ} {tr tr' : List BrokerEvent} (h : Submits (tr.drop n))
    (hp : tr <+: tr') : Submits (tr'.drop n) := by
  obtain ⟨symbol, quantity, reply, hm⟩ := h
  obtain ⟨evs, rfl⟩ := hp
  rw [List.drop_append]
  exact ⟨symbol, quantity, reply, List.mem_append_left _ hm⟩

namespace Engine

variable {e : Engine} {s : FrozenSnapshot}

/-- An order that may be submitted is submitted, whatever happens then. -/
theorem submit_submits (polls : ℕ) {n : ℕ} (hn : n = e.world.trace.length) :
    Exn.wp (do let orderId ← submit s; settleOrder s orderId polls; pure false)
      (fun _ e' => Submits (e'.world.trace.drop n))
      (fun _ e' => Submits (e'.world.trace.drop n)) e := by
  have hsub : Submits ((submitted s e.world).trace.drop n) := by
    refine ⟨s.symbol, s.positionSize, e.world.broker.submitOrder e.world.calls, ?_⟩
    simp [submitted, World.called, hn]
  rw [Exn.wp_bind, wp_submit]
  split
  · rename_i orderId _
    have hsettle : Makes (·.IsLater orderId) 1 (settleOrder s orderId polls) := .of_settleOrder s polls
    have hrest := hsettle.bind (fun _ => Makes.of_pure false) le_rfl (e.afterSubmit s orderId)
    exact Exn.wp_mono hrest (fun _ _ h => hsub.of_prefix h.grows) fun _ _ h => hsub.of_prefix h.grows
  · exact hsub

/-- **`execute` submits an order exactly when the call is not blocked.** -/
theorem execute_submits_iff (e : Engine) (s : FrozenSnapshot) (polls : ℕ) :
    Exn.Ensures (execute s polls)
      (fun _ e' => Submits (e'.world.trace.drop e.world.trace.length) ↔ ¬ Blocked e s) e := by
  rw [Exn.Ensures, wp_execute, executeBody, Exn.wp_bind]
  refine Exn.wp_mono (precheck_spec _ s) (fun rejected e' h => ?_) fun _ _ => False.elim
  cases rejected with
  | true =>
    have hb : Blocked e s := h.iff.1 rfl
    refine iff_of_false (fun hsub => ?_) (not_not_intro hb)
    obtain ⟨symbol, quantity, reply, hm⟩ := hsub
    have htr : e'.world.trace = e.world.trace := h.trace
    simp [htr] at hm
  | false =>
    have hb : ¬ Blocked e s := fun hb => absurd (h.iff.2 hb) Bool.false_ne_true
    have hsub := submit_submits (s := s) polls (congrArg List.length h.trace).symm
    refine Exn.wp_mono hsub (fun returned e'' h => ?_) fun err e'' h => iff_of_true h hb
    cases returned <;> exact iff_of_true h hb

/-- The engine with the kill switches of a sequence of calls. -/
def withSwitches (e : Engine) (cs : List SetKillSwitch) : Engine :=
  { e with killSwitchManager := .calls cs }

/-- **The switches block the executions they ask to block** exactly when a precondition fails
anyway or the last call with the symbol's own key, of any type, left it on. -/
theorem killSwitch_blocks_iff (cs : List SetKillSwitch) (s : FrozenSnapshot) (e : Engine)
    (polls : ℕ) :
    Exn.Ensures (execute s polls)
      (fun _ e' => SwitchedOn s.symbol cs → ¬ Submits (e'.world.trace.drop e.world.trace.length))
      (e.withSwitches cs) ↔
    (SwitchedOn s.symbol cs →
      preconditionError e.world.tick.nextTime s ≠ none ∨ SymbolKeyOn s.symbol cs) := by
  have hb : Blocked (e.withSwitches cs) s ↔
      preconditionError e.world.tick.nextTime s ≠ none ∨ SymbolKeyOn s.symbol cs :=
    or_congr_right (isActive_calls cs s.symbol)
  refine Exn.Ensures.iff ((execute_submits_iff (e.withSwitches cs) s polls).mono fun _ e' h => ?_)
  rw [← hb]
  exact imp_congr_right fun _ => (not_congr h).trans not_not

/-- The global kill switch, activated as its docstring says, does not stop an order. -/
theorem globalSwitch_submits :
    ¬ Exn.Ensures (execute .eurusdLong)
      (fun _ e' => SwitchedOn FrozenSnapshot.eurusdLong.symbol [⟨.global, .active, some "global", none, 0⟩] →
        ¬ Submits (e'.world.trace.drop (new .unreachable .still).world.trace.length))
      ((new .unreachable .still).withSwitches [⟨.global, .active, some "global", none, 0⟩]) := by
  intro h
  have hon : SwitchedOn FrozenSnapshot.eurusdLong.symbol [⟨.global, .active, some "global", none, 0⟩] :=
    ⟨.global, _, rfl, by decide⟩
  have hb : ¬ Blocked ((new .unreachable .still).withSwitches
    [⟨.global, .active, some "global", none, 0⟩]) .eurusdLong := by decide +kernel
  obtain ⟨r, e', -, hno, hsub⟩ := (h.and (execute_submits_iff _ .eurusdLong pollLimit)).exists
  exact hno hon (hsub.2 hb)

end Engine

end Execution
