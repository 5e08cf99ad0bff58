import Mathlib.Tactic.Linarith
import IctAlgo.Execution.Engine

/-!
# Rules of the engine

One rule for each primitive of `EngineM`, and the poll loop. `World.polled orderId k w` is the
world after `k` polls without a fill, a function of the clock and of the broker's replies only.

* `World.exists_firstStop`: on a clock that is never set back some poll among the first `pollLimit`
  stops the loop.
* `waitForFill_spec`: the loop ends at the first poll that stops it, in the way this poll says.
-/

set_option autoImplicit false

namespace Execution

open Lib

namespace Engine

section
variable {α : Type} {Q : α → Engine → Prop} {E : String → Engine → Prop} {e : Engine}

@[simp] theorem wp_io (m : WorldM α) :
    Exn.wp (io m) Q E e ↔
      Exn.wp m (fun a w => Q a { e with world := w }) (fun err w => E err { e with world := w })
        e.world := Exn.wp_zoom ..

end

section
variable {E : String → Engine → Prop} {e : Engine}

@[simp] theorem wp_now {Q : ℚ → Engine → Prop} :
    Exn.wp now Q E e ↔ Q e.world.nextTime { e with world := e.world.tick } := by
  simp [now]

@[simp] theorem wp_log (entry : ℚ → LogEntry) {Q : Unit → Engine → Prop} :
    Exn.wp (log entry) Q E e ↔ Q () { e with
      executionLogs := e.executionLogs ++ [entry e.world.nextTime], world := e.world.tick } := by
  simp [log]

@[simp] theorem wp_setResult (f : ExecutionResult → ExecutionResult) {Q : Unit → Engine → Prop} :
    Exn.wp (setResult f) Q E e ↔ Q () { e with result := f e.result } := Iff.rfl

@[simp] theorem wp_setAttempt (f : ExecutionAttempt → ExecutionAttempt)
    {Q : Unit → Engine → Prop} :
    Exn.wp (setAttempt f) Q E e ↔
      Q () { e with result := { e.result with attempts := e.result.attempts.map f } } := Iff.rfl

@[simp] theorem wp_startTimeout {Q : Unit → Engine → Prop} :
    Exn.wp startTimeout Q E e ↔ Q () { e with
      timeoutController := { e.timeoutController with startTime := some e.world.nextTime }
      world := e.world.tick } := by
  simp [startTimeout]

/-- The controller after a check at the time `t`. -/
def checkedAt (c : TimeoutController) (start t : ℚ) : TimeoutController :=
  { c with timeoutTriggered := c.timeoutTriggered || decide (hardTimeoutSeconds < t - start) }

@[simp] theorem checkedAt_startTime (c : TimeoutController) (start t : ℚ) :
    (checkedAt c start t).startTime = c.startTime := rfl

@[simp] theorem wp_isExpired {Q : Bool → Engine → Prop} :
    Exn.wp isExpired Q E e ↔ match e.timeoutController.startTime with
      | none => Q false e
      | some start => Q (decide (hardTimeoutSeconds < e.world.nextTime - start)) { e with
          timeoutController := checkedAt e.timeoutController start e.world.nextTime
          world := e.world.tick } := by
  cases hs : e.timeoutController.startTime with
  | none => simp [isExpired, hs]
  | some start => simp [isExpired, hs, checkedAt]

@[simp] theorem wp_elapsedSeconds {Q : ℚ → Engine → Prop} :
    Exn.wp elapsedSeconds Q E e ↔ match e.timeoutController.startTime with
      | none => Q 0 e
      | some start => Q (e.world.nextTime - start) { e with world := e.world.tick } := by
  rcases hs : e.timeoutController.startTime with _ | start <;> simp [elapsedSeconds, hs]

@[simp] theorem wp_validatePreconditions (s : FrozenSnapshot)
    {Q : Option PreconditionError → Engine → Prop} :
    Exn.wp (validatePreconditions s) Q E e ↔
      Q (preconditionError e.world.nextTime s) { e with world := e.world.tick } := by
  simp [validatePreconditions]

end

end Engine

/-! ## The poll loop -/

namespace World

/-- The reply the next status query gets. -/
def nextStatus (w : World) : Except String OrderStatus := w.broker.getOrderStatus w.calls

/-- The world after the check and the status query of a poll. -/
def polledOnce (orderId : Option String) (w : World) : World :=
  w.tick.called (.getOrderStatus orderId w.nextStatus)

/-- The world after a poll that goes on: a check, a status query and a sleep. -/
def pollStep (orderId : Option String) (w : World) : World :=
  { w.polledOnce orderId with time := (w.polledOnce orderId).time + Engine.pollInterval }

/-- The world after `k` polls that go on. -/
def polled (orderId : Option String) (k : ℕ) (w : World) : World := (pollStep orderId)^[k] w

@[simp] theorem polled_zero (orderId : Option String) (w : World) : polled orderId 0 w = w := rfl

theorem polled_succ (orderId : Option String) (k : ℕ) (w : World) :
    polled orderId (k + 1) w = pollStep orderId (polled orderId k w) :=
  Function.iterate_succ_apply' ..

@[simp] theorem polled_broker (orderId : Option String) (k : ℕ) (w : World) :
    (polled orderId k w).broker = w.broker := by
  induction k with
  | zero => rfl
  | succ k ih => rw [polled_succ, ← ih]; rfl

@[simp] theorem polled_clock (orderId : Option String) (k : ℕ) (w : World) :
    (polled orderId k w).clock = w.clock := by
  induction k with
  | zero => rfl
  | succ k ih => rw [polled_succ, ← ih]; rfl

/-- More than 30 seconds since `start` at the next reading. -/
def Expired (start : ℚ) (w : World) : Prop := Engine.hardTimeoutSeconds < w.nextTime - start

instance (start : ℚ) (w : World) : Decidable (Expired start w) :=
  inferInstanceAs (Decidable (_ < _))

/-- The next poll stops the loop: the time is over, the query raises, or it reports a fill. -/
def Stops (start : ℚ) (w : World) : Prop :=
  w.Expired start ∨ ∀ st, w.nextStatus = .ok st → st.state = .filled

/-- Poll `k` is the first that stops the loop. -/
def FirstStop (start : ℚ) (orderId : Option String) (w : World) (k : ℕ) : Prop :=
  (polled orderId k w).Stops start ∧ ∀ j < k, ¬ (polled orderId j w).Stops start

variable {start : ℚ} {orderId : Option String} {w : World} {k : ℕ}

theorem FirstStop.unique {j : ℕ} (hk : FirstStop start orderId w k)
    (hj : FirstStop start orderId w j) : j = k := by
  rcases Nat.lt_trichotomy j k with h | h | h
  · exact absurd hj.1 (hk.2 j h)
  · exact h
  · exact absurd hk.1 (hj.2 k h)

/-- A fill that is reported at once stops the loop. -/
theorem FirstStop.of_filled {st : OrderStatus} (hst : w.nextStatus = .ok st)
    (hfilled : st.state = .filled) : w.FirstStop start orderId 0 := by
  refine ⟨Or.inr fun st' hst' => ?_, fun j hj => absurd hj (Nat.not_lt_zero j)⟩
  obtain rfl : st = st' := Except.ok.inj (hst.symm.trans hst')
  exact hfilled

theorem add_le_polled_time (orderId : Option String) (k : ℕ) (hclock : w.clock.Monotone) :
    w.time + k * Engine.pollInterval ≤ (polled orderId k w).time := by
  induction k with
  | zero => simp
  | succ k ih =>
    have hstep : (polled orderId k w).time + Engine.pollInterval ≤
        (pollStep orderId (polled orderId k w)).time := by
      have := time_le_nextTime (w := polled orderId k w) (by rwa [polled_clock])
      simpa [pollStep, polledOnce, called, tick] using this
    rw [polled_succ]
    push_cast
    linarith

/-- The sleeps alone outlast the timeout. -/
theorem exists_firstStop (orderId : Option String) (hclock : w.clock.Monotone)
    (hs : start ≤ w.time) : ∃ k < Engine.pollLimit, FirstStop start orderId w k := by
  have hlast : (polled orderId 301 w).Stops start := by
    have h1 := add_le_polled_time orderId 301 hclock
    have h2 := time_le_nextTime (w := polled orderId 301 w) (by rwa [polled_clock])
    refine Or.inl ?_
    unfold Expired Engine.hardTimeoutSeconds
    unfold Engine.pollInterval at h1
    norm_num at h1
    linarith
  classical
  have hex : ∃ k, (polled orderId k w).Stops start := ⟨301, hlast⟩
  refine ⟨Nat.find hex, ?_, Nat.find_spec hex, fun j hj => Nat.find_min hex hj⟩
  have := Nat.find_min' hex hlast
  unfold Engine.pollLimit
  omega

end World

namespace Engine

variable {start : ℚ} {orderId : Option String} {e : Engine} {k fuel polls : ℕ}
  {Q : Option FillInfo → Engine → Prop} {E : String → Engine → Prop}

/-- One poll of the loop. -/
theorem wp_waitForFill_succ (hs : e.timeoutController.startTime = some start) :
    Exn.wp (waitForFill orderId (fuel + 1)) Q E e ↔
      if e.world.Expired start then Q none { e with
        timeoutController := { e.timeoutController with timeoutTriggered := true }
        world := e.world.tick }
      else match e.world.nextStatus with
        | .error err => E err { e with world := e.world.polledOnce orderId }
        | .ok st =>
          if st.state = .filled then
            Q (some ⟨st.fillPrice, st.filledSize⟩) { e with world := e.world.polledOnce orderId }
          else Exn.wp (waitForFill orderId fuel) Q E { e with world := e.world.pollStep orderId } := by
  simp only [waitForFill, Exn.wp_bind, wp_isExpired, hs]
  by_cases hx : e.world.Expired start
  · have hd : hardTimeoutSeconds < e.world.nextTime - start := hx
    simp [hx, hd, hs, checkedAt]
  · have hd : ¬ hardTimeoutSeconds < e.world.nextTime - start := hx
    have hst : e.world.tick.broker.getOrderStatus e.world.tick.calls = e.world.nextStatus := rfl
    simp only [hx, hd, ↓reduceIte, decide_false, Bool.false_eq_true, checkedAt, Bool.or_false,
      Exn.wp_bind, wp_io, World.getOrderStatus, World.wp_call, hst, World.polledOnce]
    cases hr : e.world.nextStatus with
    | error err => rfl
    | ok st =>
      by_cases hf : st.state = .filled
      · simp [hf]
      · simp [hf, World.pollStep, World.polledOnce, hr]

/-- **The poll loop** goes on for the polls before the first stop. -/
theorem wp_waitForFill (hs : e.timeoutController.startTime = some start)
    (hk : ∀ j < k, ¬ (World.polled orderId j e.world).Stops start) :
    Exn.wp (waitForFill orderId (fuel + k)) Q E e ↔
      Exn.wp (waitForFill orderId fuel) Q E { e with world := World.polled orderId k e.world } := by
  induction k generalizing fuel with
  | zero => rfl
  | succ k ih =>
    have hgo := hk k (Nat.lt_succ_self k)
    simp only [World.Stops, not_or, not_forall] at hgo
    obtain ⟨hx, st, hst, hf⟩ := hgo
    have hs' : ({ e with world := World.polled orderId k e.world } : Engine).timeoutController.startTime
        = some start := hs
    rw [show fuel + (k + 1) = fuel + 1 + k by omega, ih fun j hj => hk j (by omega),
      wp_waitForFill_succ hs']
    simp [hx, hst, hf, World.polled_succ]

/-- **The poll loop ends at the first poll that stops it**, in the way this poll says. -/
theorem waitForFill_spec (hs : e.timeoutController.startTime = some start)
    (hk : World.FirstStop start orderId e.world k) (hl : k < polls) {w : World}
    (hw : World.polled orderId k e.world = w) :
    Exn.wp (waitForFill orderId polls) Q E e ↔
      if w.Expired start then Q none { e with
        timeoutController := { e.timeoutController with timeoutTriggered := true }
        world := w.tick }
      else match w.nextStatus with
        | .error err => E err { e with world := w.polledOnce orderId }
        | .ok st =>
          Q (some ⟨st.fillPrice, st.filledSize⟩) { e with world := w.polledOnce orderId } := by
  obtain ⟨fuel, hf⟩ : ∃ fuel, polls = fuel + 1 + k := ⟨polls - 1 - k, by omega⟩
  have hs' : ({ e with world := w } : Engine).timeoutController.startTime = some start := hs
  rw [hf, wp_waitForFill hs hk.2, hw, wp_waitForFill_succ hs']
  by_cases hx : w.Expired start
  · simp [hx]
  · simp only [hx, ↓reduceIte]
    cases hr : w.nextStatus with
    | error err => rfl
    | ok st =>
      have hfill : st.state = .filled := by
        rcases hw ▸ hk.1 with h | h
        · exact absurd h hx
        · exact h st hr
      simp [hfill]

end Engine

end Execution
