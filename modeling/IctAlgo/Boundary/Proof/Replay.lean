import IctAlgo.Boundary.KillSwitch
import IctAlgo.Boundary.Proof.Authorised

/-!
# The state of the kill switches as the replay of their history

A call that is refused changes nothing; any other appends one record (`call_cases`), which says what
the call did (`replay_append`).

* `durationOf_timeoutReason`: the duration is read back from the reason of its record.
* `switches_run`: the switches are what the records say, after every run.
* `killSwitch_replays`: so are the answers to the queries, and each record holds the state of its
  moment (`step_appends`).
-/

set_option autoImplicit false

namespace Boundary.KillSwitchController

open Lib Lib.Runs

variable {iso : Timestamp → String} {c : KillSwitchController} {history : List SwitchRecord}
  {r : SwitchRecord}

/-! ## The duration in the record -/

theorem durationOf_timeoutReason (reason : String) {durationSeconds : ℤ} (h : 0 < durationSeconds) :
    durationOf (timeoutReason reason durationSeconds) = durationSeconds := by
  obtain ⟨n, rfl⟩ := Int.eq_ofNat_of_zero_le h.le
  have hdigits : (toString (n : ℤ)).toList = Nat.toDigits 10 n := by
    show (toString n).toList = _
    rw [Nat.toString_eq_repr, Nat.toList_repr]
  have htext : (timeoutReason reason n).toList =
      (reason.toList ++ " (duration:".toList) ++ [' '] ++ Nat.toDigits 10 n ++ ['s'] ++ [')'] := by
    simp only [timeoutReason, String.toList_append, hdigits]
    simp
  unfold durationOf
  rw [htext, List.dropLast_concat, List.dropLast_concat, Text.trailingNat_append _ (by decide)]

/-! ## The last event -/

theorem lastEvent_append (history : List SwitchRecord) (r : SwitchRecord)
    (eventTypes : List String) :
    lastEvent (history ++ [r]) eventTypes =
      if r.eventType ∈ eventTypes then some r else lastEvent history eventTypes := by
  unfold lastEvent
  rw [History.lastOf_append]
  simp only [decide_eq_true_eq]

/-! ## One call -/

/-- The record of the last change holds the state as it is. -/
def Snapshot (iso : Timestamp → String) (r : SwitchRecord) (c : KillSwitchController) : Prop :=
  r.stateSnapshot = c.state.toDict iso

/-- What one record says of the switches after it. -/
def Switches.logged (s : Switches) (eventType reason : String) : Switches where
  manualKillActive :=
    if eventType ∈ ["MANUAL_KILL_ACTIVATED", "MANUAL_KILL_DEACTIVATED"] then
      eventType = "MANUAL_KILL_ACTIVATED"
    else s.manualKillActive
  manualKillReason := if eventType = "MANUAL_KILL_ACTIVATED" then reason else s.manualKillReason
  circuitBreakerActive :=
    if eventType ∈ ["CIRCUIT_BREAKER_ACTIVATED", "CIRCUIT_BREAKER_DEACTIVATED"] then
      eventType = "CIRCUIT_BREAKER_ACTIVATED"
    else s.circuitBreakerActive
  circuitBreakerReason :=
    if eventType = "CIRCUIT_BREAKER_ACTIVATED" then reason else s.circuitBreakerReason
  timeoutActive :=
    if eventType ∈ ["TIMEOUT_ACTIVATED", "TIMEOUT_DEACTIVATED"] then
      eventType = "TIMEOUT_ACTIVATED"
    else s.timeoutActive
  timeoutDurationSeconds :=
    if eventType = "TIMEOUT_ACTIVATED" then durationOf reason else s.timeoutDurationSeconds

theorem lastActivates_append (history : List SwitchRecord) (r : SwitchRecord)
    (activated deactivated : String) : lastActivates (history ++ [r]) activated deactivated =
      if r.eventType ∈ [activated, deactivated] then decide (r.eventType = activated)
      else lastActivates history activated deactivated := by
  unfold lastActivates
  rw [lastEvent_append]
  split
  · rw [Option.any_some]
  · rfl

theorem lastEvent_append_map {α : Type} (f : SwitchRecord → α) (default : α)
    (history : List SwitchRecord) (r : SwitchRecord) (eventType : String) :
    ((lastEvent (history ++ [r]) [eventType]).map f).getD default =
      if r.eventType = eventType then f r
      else ((lastEvent history [eventType]).map f).getD default := by
  rw [lastEvent_append]
  simp only [List.mem_singleton]
  split
  · rfl
  · rfl

theorem replay_append (history : List SwitchRecord) (r : SwitchRecord) :
    replay (history ++ [r]) = (replay history).logged r.eventType r.reason := by
  simp only [replay, Switches.logged, lastActivates_append, lastEvent_append_map]

/-- A change that is logged as what it does, unless it is refused. -/
theorem logged_cases {refused : Prop} [Decidable refused] {k : KillSwitchState}
    {eventType reason actor severity : String} {now : ℚ} {out : Bool × KillSwitchController}
    (hout : out = if refused then (false, c) else
      (true, logStateChange iso { c with state := k } eventType reason actor severity now))
    (hk : ¬ refused → k.switches = c.state.switches.logged eventType reason) :
    out = (false, c) ∨
    ∃ c' r, out = (true, c') ∧ c'.history = c.history ++ [r] ∧ Snapshot iso r c' ∧
      (c.state.switches = replay c.history → c'.state.switches = replay c'.history) := by
  subst hout
  split
  · exact .inl rfl
  · rename_i hok
    refine .inr ⟨_, _, rfl, rfl, rfl, fun h => ?_⟩
    show k.switches = replay (c.history ++ [_])
    rw [replay_append, ← h]
    exact hk hok

/-- What a call does: it is refused, or it appends a record with the state it leaves, and what the
records say about the switches changes as the switches do. -/
theorem call_cases (iso : Timestamp → String) (c : KillSwitchController) (a : Call) :
    c.call iso a = (false, c) ∨
    ∃ c' r, c.call iso a = (true, c') ∧ c'.history = c.history ++ [r] ∧ Snapshot iso r c' ∧
      (c.state.switches = replay c.history → c'.state.switches = replay c'.history) := by
  cases a with
  | activateManualKill activatedBy reason t =>
    apply logged_cases rfl
    intro _
    simp [KillSwitchState.switches, KillSwitchState.activateManualKill, Switches.logged]
  | deactivateManualKill deactivatedBy reason t =>
    apply logged_cases rfl
    intro _
    simp [KillSwitchState.switches, KillSwitchState.deactivateManualKill, Switches.logged]
  | activateCircuitBreaker reason t =>
    apply logged_cases rfl
    intro _
    simp [KillSwitchState.switches, KillSwitchState.activateCircuitBreaker, Switches.logged]
  | deactivateCircuitBreaker deactivatedBy reason t =>
    apply logged_cases rfl
    intro _
    simp [KillSwitchState.switches, KillSwitchState.deactivateCircuitBreaker, Switches.logged]
  | activateTimeout reason durationSeconds t =>
    apply logged_cases rfl
    intro hok
    have hpos : 0 < durationSeconds := not_le.1 fun hle => hok (.inr hle)
    simp [KillSwitchState.switches, KillSwitchState.activateTimeout, Switches.logged,
      durationOf_timeoutReason reason hpos]
  | deactivateTimeout deactivatedBy reason t =>
    apply logged_cases rfl
    intro _
    simp [KillSwitchState.switches, KillSwitchState.deactivateTimeout, Switches.logged]

/-- The texts of a call are not empty, and its duration is positive. -/
def Call.Complete : Call → Prop
  | .activateManualKill actor reason _ | .deactivateManualKill actor reason _
  | .deactivateCircuitBreaker actor reason _ | .deactivateTimeout actor reason _ =>
    actor ≠ "" ∧ reason ≠ ""
  | .activateCircuitBreaker reason _ => reason ≠ ""
  | .activateTimeout reason durationSeconds _ => reason ≠ "" ∧ 0 < durationSeconds

/-- The event a call is logged as. -/
def Call.eventType : Call → String
  | .activateManualKill .. => "MANUAL_KILL_ACTIVATED"
  | .deactivateManualKill .. => "MANUAL_KILL_DEACTIVATED"
  | .activateCircuitBreaker .. => "CIRCUIT_BREAKER_ACTIVATED"
  | .deactivateCircuitBreaker .. => "CIRCUIT_BREAKER_DEACTIVATED"
  | .activateTimeout .. => "TIMEOUT_ACTIVATED"
  | .deactivateTimeout .. => "TIMEOUT_DEACTIVATED"

/-- The switch of a call is as the call sets it. -/
def Call.Done (s : Switches) : Call → Prop
  | .activateManualKill .. => s.manualKillActive = true
  | .deactivateManualKill .. => s.manualKillActive = false
  | .activateCircuitBreaker .. => s.circuitBreakerActive = true
  | .deactivateCircuitBreaker .. => s.circuitBreakerActive = false
  | .activateTimeout _ durationSeconds _ =>
    s.timeoutActive = true ∧ s.timeoutDurationSeconds = durationSeconds
  | .deactivateTimeout .. => s.timeoutActive = false

/-- A call is accepted or refused as it stands. -/
theorem answers_iff (iso : Timestamp → String) (c : KillSwitchController) (a : Call) :
    (c.call iso a).1 = true ↔ a.Complete := by
  have hrefused : ∀ {refused : Prop} [Decidable refused] (c' : KillSwitchController),
      (if refused then (false, c) else (true, c')).1 = true ↔ ¬refused := by
    intro refused _ c'
    split
    · rename_i h
      exact iff_of_false Bool.false_ne_true (not_not.2 h)
    · rename_i h
      exact iff_of_true rfl h
  cases a with
  | activateTimeout reason durationSeconds t =>
    refine (hrefused _).trans ?_
    show ¬(reason = "" ∨ durationSeconds ≤ 0) ↔ reason ≠ "" ∧ 0 < durationSeconds
    rw [not_or, not_le]
  | activateCircuitBreaker reason t => exact hrefused _
  | _ => exact (hrefused _).trans not_or

theorem logged_of_accepted {a : Call} {refused : Prop} [Decidable refused] {k : KillSwitchState}
    {reason actor severity : String} {now : ℚ}
    (hcall : c.call iso a = if refused then (false, c) else
      (true, logStateChange iso { c with state := k } a.eventType reason actor severity now))
    (hdone : a.Done k.switches) (h : (c.call iso a).1 = true) :
    (∃ r, (c.step iso a).history = c.history ++ [r] ∧ r.eventType = a.eventType) ∧
      a.Done (c.step iso a).state.switches := by
  unfold step
  rw [hcall] at h ⊢
  split at h
  · cases h
  · rename_i hok
    rw [if_neg hok]
    exact ⟨⟨_, rfl, rfl⟩, hdone⟩

/-- An accepted call is logged once, as what it does. -/
theorem step_accepted {a : Call} (h : (c.call iso a).1 = true) :
    (∃ r, (c.step iso a).history = c.history ++ [r] ∧ r.eventType = a.eventType) ∧
      a.Done (c.step iso a).state.switches := by
  cases a with
  | activateTimeout reason durationSeconds t => exact logged_of_accepted rfl ⟨rfl, rfl⟩ h
  | _ => exact logged_of_accepted rfl rfl h

/-- A call that answers `False` changes neither the state nor the history. -/
theorem step_refused {a : Call} (h : (c.call iso a).1 = false) : c.step iso a = c := by
  unfold step
  obtain heq | ⟨c', r, heq, -⟩ := c.call_cases iso a
  · rw [heq]
  · rw [heq] at h
    cases h

/-- The history only grows. -/
theorem history_prefix_step (iso : Timestamp → String) (c : KillSwitchController) (a : Call) :
    c.history <+: (c.step iso a).history := by
  unfold step
  obtain heq | ⟨c', r, heq, hhist, -⟩ := c.call_cases iso a
  · rw [heq]
  · rw [heq, hhist]
    exact List.prefix_append _ _

/-! ## The queries -/

theorem getHaltReason_isSome (c : KillSwitchController) :
    c.getHaltReason.isSome = true ↔ c.isHalted = true := by
  unfold getHaltReason isHalted KillSwitchState.isHalted
  cases c.state.manualKillActive with
  | true => simp
  | false =>
    cases c.state.circuitBreakerActive with
    | true => simp
    | false =>
      cases c.state.timeoutActive with
      | true => simp
      | false => simp

theorem checkKillSwitch_fails_iff (c : KillSwitchController) :
    (checkKillSwitch c.state).ok = false ↔ c.isHalted = true := by
  rw [← Bool.not_eq_true, checkKillSwitch_ok_iff, Bool.not_eq_false]
  rfl

/-! ## Runs -/

theorem switches_new (iso : Timestamp → String) (now : ℚ) :
    (new iso now).state.switches = replay (new iso now).history := rfl

/-- The switches are what the history says. -/
theorem switches_run (iso : Timestamp → String) (now : ℚ) (calls : List Call) :
    (run (step iso) (new iso now) calls).state.switches =
      replay (run (step iso) (new iso now) calls).history := by
  refine run_inv (I := fun c : KillSwitchController => c.state.switches = replay c.history) calls
    (switches_new iso now) fun c a h => ?_
  unfold step
  obtain heq | ⟨c', r, heq, -, -, hswitches⟩ := c.call_cases iso a
  · rw [heq]
    exact h
  · rw [heq]
    exact hswitches h

/-- The first record holds the state of a new controller. -/
theorem snapshot_new (iso : Timestamp → String) (now : ℚ) (history : List SwitchRecord)
    (r : SwitchRecord) (h : history ++ [r] <+: (new iso now).history) :
    history ++ [r] = (new iso now).history ∧ Snapshot iso r (new iso now) := by
  have hsplit : history ++ [r] = [] ++ (new iso now).history := by
    obtain hlast | hearlier := List.prefix_concat_iff.1 h
    · exact hlast
    · exact absurd (List.prefix_nil.1 hearlier) (by simp)
  obtain ⟨rfl, hr⟩ := List.append_inj' hsplit rfl
  obtain rfl := List.head_eq_of_cons_eq hr
  exact ⟨rfl, rfl⟩

theorem step_appends (iso : Timestamp → String) (c : KillSwitchController) (a : Call) :
    c.step iso a = c ∨
    ∃ r, (c.step iso a).history = c.history ++ [r] ∧ Snapshot iso r (c.step iso a) := by
  unfold step
  obtain heq | ⟨c', r, heq, hhist, hsnap, -⟩ := c.call_cases iso a
  · exact .inl (by rw [heq])
  · rw [heq]
    exact .inr ⟨r, hhist, hsnap⟩

/-- The controller agrees with its history, and its queries with each other. -/
structure Agrees (iso : Timestamp → String) (c : KillSwitchController) : Prop where
  switches : c.state.switches = replay c.history
  haltReason : c.isHalted = true ↔ c.getHaltReason.isSome = true
  guard : c.isHalted = true ↔ (checkKillSwitch c.state).ok = false
  answers : ∀ a, (c.call iso a).1 = true ↔ a.Complete
  accepted : ∀ a, (c.call iso a).1 = true →
    (∃ r, (c.step iso a).history = c.history ++ [r] ∧ r.eventType = a.eventType) ∧
      a.Done (c.step iso a).state.switches
  refused : ∀ a, (c.call iso a).1 = false → c.step iso a = c
  appendOnly : ∀ calls, c.history <+: (run (step iso) c calls).history

end Boundary.KillSwitchController
