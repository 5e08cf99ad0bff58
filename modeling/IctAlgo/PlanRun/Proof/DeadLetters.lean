import IctAlgo.PlanRun.Proof.Terminates

/-!
# The dead letters of a plan run

A step that fails for good is published only where it names no handler: a name that is not a step of
the plan ends the run like any other cursor that is not found.

* `attempts_published`: nothing is published while the cursor moves.
* `Unhandled.ends`: what a run that ends at an unhandled failure has published.
* `deadLettered_iff`: every unhandled failure is published exactly when none of them names a handler
  and the orchestrator publishes.
-/

set_option autoImplicit false

namespace PlanRun

open Lib

variable {V : Type}

/-! ## What a run is to publish -/

/-- What the failure of a step publishes. -/
def payloadOf (ctx : ExecutionContext V) (step : PlanStep) (exc : String) : DlqPayload V where
  corrId := ctx.corrId
  signal := ctx.signal
  decision := ctx.decision
  failedStep := step
  error := exc

/-- The `left` attempts at a step from the call `n` on all fail, the last one with `exc`. -/
def Exhausts (orch : Orch V) (step : PlanStep) (n left : ℕ) (exc : String) : Prop :=
  ∃ k, k + 1 = left ∧ Fails orch n left ∧ step.Pauses k ∧ orch.reply (n + k) = .error exc

/-- The step names a handler that the plan has. -/
def Handled (steps : Dict String PlanStep) (step : PlanStep) : Prop :=
  ∃ next, truthy step.onFailure = some next ∧ steps.get? next ≠ none

/-- The run comes to the step, which exhausts its retries with `exc` and has no handler. -/
inductive Unhandled (orch : Orch V) (plan : Plan) (step : PlanStep) (exc : String) : Prop
  | intro {start : String} {steps : Dict String PlanStep} {n : ℕ} {stepId : String} {maxRetries : ℤ}
      (hstart : plan.start = some start) (hsteps : plan.steps = some steps)
      (hvisit : Visits orch steps start n stepId) (hstep : steps.get? stepId = some step)
      (hretries : step.retries = .ok maxRetries)
      (hexhausts : Exhausts orch step n maxRetries.toNat exc) (hunhandled : ¬ Handled steps step)

/-- `run_plan` ends with this run and result. -/
def Ends (orch : Orch V) (plan : Plan) (ctx : ExecutionContext V) (run : Run V)
    (result : Except String Unit) : Prop :=
  ∃ fuel, runPlan orch plan ctx fuel = some (run, result)

/-- A run with an unhandled failure ends and publishes that failure, once; any other publishes
nothing. -/
structure DeadLettered (orch : Orch V) (plan : Plan) (ctx : ExecutionContext V) : Prop where
  failed : ∀ step exc, Unhandled orch plan step exc → ∃ run, Ends orch plan ctx run (.ok ()) ∧
    run.published = [payloadOf ctx step exc]
  silent : (∀ step exc, ¬ Unhandled orch plan step exc) →
    ∀ run result, Ends orch plan ctx run result → run.published = []

/-! ## The attempts at a step -/

/-- Nothing has been published, and a failure would be published as one of `ctx`. -/
structure Silent (ctx : ExecutionContext V) (run : Run V) : Prop where
  published : run.published = []
  payload : payloadOf run.ctx = payloadOf ctx

section
variable {orch : Orch V} {stepId : String} {step : PlanStep} {ctx : ExecutionContext V} {run : Run V}

theorem Silent.start (ctx : ExecutionContext V) : Silent ctx { ctx } := ⟨rfl, rfl⟩

theorem Silent.called (h : Silent ctx run) : Silent ctx run.called := ⟨h.published, h.payload⟩

theorem Silent.store (h : Silent ctx run) (stepId : String) (result : V) :
    Silent ctx (run.store stepId result) := ⟨h.published, h.payload⟩

theorem Silent.handleFailure (h : Silent ctx run) (step : PlanStep) (exc : String) :
    (handleFailureToDlq orch step exc run).published =
      if orch.publishes then [payloadOf ctx step exc] else [] := by
  unfold handleFailureToDlq
  split
  · rw [← h.payload, h.published]
    rfl
  · exact h.published

/-- What the loop over `left` attempts from the call `n` on has published. -/
def Published (orch : Orch V) (step : PlanStep) (ctx : ExecutionContext V) (n left : ℕ)
    (run : Run V) : Turn → Prop
  | .returned => ∃ exc, Exhausts orch step n left exc ∧ truthy step.onFailure = none ∧
      run.published = if orch.publishes then [payloadOf ctx step exc] else []
  | _ => Silent ctx run

theorem Exhausts.after_failure {n left : ℕ} {exc exc' : String} {delay : ℚ}
    (h : Exhausts orch step (n + 1) left exc) (hexc : orch.reply n = .error exc')
    (hdelay : step.retryDelayS = .ok delay) : Exhausts orch step n (left + 1) exc := by
  obtain ⟨k, rfl, hfails, -, hlast⟩ := h
  refine ⟨k + 1, rfl, fails_succ.2 ⟨⟨exc', hexc⟩, hfails⟩, fun _ => ⟨delay, hdelay⟩, ?_⟩
  rw [← hlast]
  congr 1
  omega

theorem Published.after_failure {n left : ℕ} {turn : Turn} {exc : String} {delay : ℚ}
    (h : Published orch step ctx (n + 1) left run turn) (hexc : orch.reply n = .error exc)
    (hdelay : step.retryDelayS = .ok delay) : Published orch step ctx n (left + 1) run turn := by
  cases turn with
  | moved current succeeded => exact h
  | raised e => exact h
  | returned =>
    obtain ⟨exc', hexhausts, h⟩ := h
    exact ⟨exc', hexhausts.after_failure hexc hdelay, h⟩

/-- **Nothing is published** while the cursor moves. -/
theorem attempts_published (orch : Orch V) (stepId : String) (step : PlanStep) :
    ∀ (left : ℕ) (run : Run V), Silent ctx run →
    Published orch step ctx run.calls left (attempts orch stepId step left run).1
      (attempts orch stepId step left run).2 := by
  intro left
  induction left with
  | zero => exact fun run h => h
  | succ left ih =>
    intro run h
    cases hreply : orch.reply run.calls with
    | ok result =>
      rw [attempts, hreply]
      exact h.called.store stepId result
    | error exc =>
      by_cases hleft : left = 0
      · subst hleft
        have hexhausts : Exhausts orch step run.calls 1 exc :=
          ⟨0, rfl, fails_succ.2 ⟨⟨exc, hreply⟩, fails_zero _⟩, step.pauses_zero, hreply⟩
        rw [attempts, hreply]
        simp only [↓reduceIte]
        cases hnext : truthy step.onFailure with
        | none => exact ⟨exc, hexhausts, hnext, h.called.handleFailure step exc⟩
        | some next => exact h.called
      · cases hdelay : step.retryDelayS with
        | error e =>
          rw [attempts, hreply]
          simp only [hleft, ↓reduceIte, hdelay]
          exact h.called
        | ok delay =>
          rw [attempts_retry hleft hreply hdelay]
          exact (ih run.called h.called).after_failure hreply hdelay

theorem Silent.moved {left : ℕ} {run' : Run V} {current : Option String} {succeeded : Bool}
    (h : Silent ctx run)
    (hturn : attempts orch stepId step left run = (run', .moved current succeeded)) :
    Silent ctx run' := by
  have hpublished := attempts_published orch stepId step left run h
  rwa [hturn] at hpublished

end

/-! ## A run -/

section
variable {orch : Orch V} {plan : Plan} {steps : Dict String PlanStep} {start stepId : String}
  {step : PlanStep} {exc : String} {ctx : ExecutionContext V}

theorem runPlan_add {fuel : ℕ} {end_ : Run V × Except String Unit} (d : ℕ)
    (h : runPlan orch plan ctx fuel = some end_) : runPlan orch plan ctx (fuel + d) = some end_ := by
  cases hstart : plan.start with
  | none => simpa only [runPlan, hstart] using h
  | some start =>
    cases hsteps : plan.steps with
    | none => simpa only [runPlan, hstart, hsteps] using h
    | some steps =>
      simp only [runPlan, hstart, hsteps] at h ⊢
      exact runLoop_add d h

/-- A run ends in one way. -/
theorem Ends.unique {run run' : Run V} {result result' : Except String Unit}
    (h : Ends orch plan ctx run result) (h' : Ends orch plan ctx run' result') : run = run' := by
  obtain ⟨fuel, h⟩ := h
  obtain ⟨fuel', h'⟩ := h'
  have hrun := runPlan_add fuel' h
  rw [Nat.add_comm, runPlan_add fuel h', Option.some.injEq, Prod.mk.injEq] at hrun
  exact hrun.1.symm

/-- At a step that exhausts its retries and has no handler the run ends. -/
theorem runLoop_unhandled {run : Run V} (hsilent : Silent ctx run) {maxRetries : ℤ}
    (hid : truthy (some stepId) = some stepId) (hstep : steps.get? stepId = some step)
    (hretries : step.retries = .ok maxRetries)
    (hexhausts : Exhausts orch step run.calls maxRetries.toNat exc) (hunhandled : ¬ Handled steps step) :
    ∃ run', runLoop orch steps 2 run (some stepId) = some (run', .ok ()) ∧
      run'.published = if truthy step.onFailure = none ∧ orch.publishes then
        [payloadOf ctx step exc] else [] := by
  obtain ⟨k, hk, hfails, hpauses, hlast⟩ := hexhausts
  rw [← hk] at hfails
  have hturn := @attempts_exhausted V orch stepId step k exc run hfails hpauses hlast
  rw [hk] at hturn
  cases hnext : truthy step.onFailure with
  | none =>
    rw [hnext] at hturn
    refine ⟨_, by simp only [runLoop, hid, hstep, hretries, hturn]; rfl, ?_⟩
    have hcalled : Silent ctx { run with calls := run.calls + maxRetries.toNat } :=
      ⟨hsilent.published, hsilent.payload⟩
    simpa using hcalled.handleFailure step exc
  | some next =>
    rw [hnext] at hturn
    have hmissing : steps.get? next = none := not_not.1 fun h => hunhandled ⟨next, hnext, h⟩
    have hgoes : truthy (some next) = some next := truthy_eq_some hnext ▸ hnext
    rw [runLoop_moved 1 hid hstep hretries hturn fun _ => by simp [hgoes]]
    refine ⟨_, by simp only [runLoop, hgoes, hmissing]; rfl, ?_⟩
    simpa using hsilent.published

/-- **An unhandled failure ends the run**, and is published where it names no handler. -/
theorem Unhandled.ends (h : Unhandled orch plan step exc) (ctx : ExecutionContext V) :
    ∃ run, Ends orch plan ctx run (.ok ()) ∧
      run.published = if truthy step.onFailure = none ∧ orch.publishes then
        [payloadOf ctx step exc] else [] := by
  obtain ⟨hstart, hsteps, hvisit, hstep, hretries, hexhausts, hunhandled⟩ := h
  obtain ⟨d, run, rfl, hsilent, hloop⟩ :=
    hvisit.reaches (fun h hturn => h.moved hturn) ctx (Silent.start ctx)
  obtain ⟨run', hrun, hpublished⟩ :=
    runLoop_unhandled hsilent hvisit.truthy hstep hretries hexhausts hunhandled
  refine ⟨run', ⟨2 + d, ?_⟩, hpublished⟩
  simp only [runPlan, hstart, hsteps]
  rw [hloop, hrun]

/-- The cursor a turn leaves is that of a step the run visits. -/
theorem Visits.attempts {run run' : Run V} {maxRetries : ℤ} {current : Option String}
    {succeeded : Bool} {next : String} (h : Visits orch steps start run.calls stepId)
    (hstep : steps.get? stepId = some step) (hretries : step.retries = .ok maxRetries)
    (hturn : PlanRun.attempts orch stepId step maxRetries.toNat run = (run', .moved current succeeded))
    (hnext : PlanRun.truthy current = some next) : Visits orch steps start run'.calls next := by
  cases hleft : maxRetries.toNat with
  | zero =>
    rw [hleft, PlanRun.attempts, Prod.mk.injEq, Turn.moved.injEq] at hturn
    obtain ⟨rfl, rfl, -⟩ := hturn
    obtain rfl := Option.some.inj (truthy_eq_some hnext)
    exact h
  | succ left =>
    obtain ⟨run₁, turn, hspec, h'⟩ :=
      @attempts_spec V orch stepId step maxRetries.toNat run (by omega)
    rw [hturn, Prod.mk.injEq] at hspec
    obtain ⟨rfl, rfl⟩ := hspec
    exact h.moved hstep hretries h' hnext

/-- A run without an unhandled failure publishes nothing. -/
theorem runLoop_silent (hstart : plan.start = some start) (hsteps : plan.steps = some steps)
    (hnone : ∀ step exc, ¬ Unhandled orch plan step exc) :
    ∀ (fuel : ℕ) {run run' : Run V} {current : Option String} {result : Except String Unit},
      (∀ stepId, truthy current = some stepId → Visits orch steps start run.calls stepId) →
      Silent ctx run → runLoop orch steps fuel run current = some (run', result) →
      run'.published = [] := by
  intro fuel
  induction fuel with
  | zero =>
    intro run run' current result _ _ h
    cases h
  | succ fuel ih =>
    intro run run' current result hvisits hsilent h
    cases hid : truthy current with
    | none =>
      simp only [runLoop, hid, Option.some.injEq, Prod.mk.injEq] at h
      rw [← h.1]
      exact hsilent.published
    | some stepId =>
      have hvisit := hvisits stepId hid
      cases hstep : steps.get? stepId with
      | none =>
        simp only [runLoop, hid, hstep, Option.some.injEq, Prod.mk.injEq] at h
        rw [← h.1]
        exact hsilent.published
      | some step =>
        cases hretries : step.retries with
        | error e =>
          simp only [runLoop, hid, hstep, hretries, Option.some.injEq, Prod.mk.injEq] at h
          rw [← h.1]
          exact hsilent.published
        | ok maxRetries =>
          obtain ⟨run₁, turn, hturn⟩ :
              ∃ run₁ turn, attempts orch stepId step maxRetries.toNat run = (run₁, turn) := ⟨_, _, rfl⟩
          have hpublished := attempts_published orch stepId step maxRetries.toNat run hsilent
          rw [hturn] at hpublished
          simp only [runLoop, hid, hstep, hretries, hturn] at h
          cases turn with
          | moved current' succeeded =>
            have hsilent' : Silent ctx run₁ := hpublished
            simp only at h
            split at h
            · rw [Option.some.injEq, Prod.mk.injEq] at h
              rw [← h.1]
              exact hsilent'.published
            · exact ih (fun next => hvisit.attempts hstep hretries hturn) hsilent' h
          | raised e =>
            rw [Option.some.injEq, Prod.mk.injEq] at h
            rw [← h.1]
            exact Silent.published hpublished
          | returned =>
            obtain ⟨exc, hexhausts, hnext, -⟩ := hpublished
            refine absurd ⟨hstart, hsteps, hvisit, hstep, hretries, hexhausts, ?_⟩ (hnone step exc)
            rintro ⟨next, hnext', -⟩
            cases hnext.symm.trans hnext'

end

theorem Ends.silent {orch : Orch V} {plan : Plan} {ctx : ExecutionContext V} {run : Run V}
    {result : Except String Unit} (h : Ends orch plan ctx run result)
    (hnone : ∀ step exc, ¬ Unhandled orch plan step exc) : run.published = [] := by
  obtain ⟨fuel, h⟩ := h
  cases hstart : plan.start with
  | none =>
    simp only [runPlan, hstart, Option.some.injEq, Prod.mk.injEq] at h
    rw [← h.1]
  | some start =>
    cases hsteps : plan.steps with
    | none =>
      simp only [runPlan, hstart, hsteps, Option.some.injEq, Prod.mk.injEq] at h
      rw [← h.1]
    | some steps =>
      simp only [runPlan, hstart, hsteps] at h
      exact runLoop_silent hstart hsteps hnone fuel (fun _ hid => .start hid) (Silent.start ctx) h

/-- The failures that no handler takes name none, and the orchestrator publishes them. -/
def Publishable (orch : Orch V) (plan : Plan) : Prop :=
  ∀ step exc, Unhandled orch plan step exc → truthy step.onFailure = none ∧ orch.publishes

/-- **Every unhandled failure is published, once, and nothing else is**, exactly when the steps that
fail so name no handler, not even one that the plan lacks. -/
theorem deadLettered_iff (orch : Orch V) (plan : Plan) (ctx : ExecutionContext V) :
    DeadLettered orch plan ctx ↔ Publishable orch plan := by
  refine ⟨fun h step exc hfailed => ?_, fun h => ⟨fun step exc hfailed => ?_, fun hnone => ?_⟩⟩
  · obtain ⟨run, hends, hpublished⟩ := h.failed step exc hfailed
    obtain ⟨run', hends', hpublished'⟩ := hfailed.ends ctx
    obtain rfl := hends.unique hends'
    by_contra hnot
    rw [if_neg hnot, hpublished] at hpublished'
    cases hpublished'
  · obtain ⟨run, hends, hpublished⟩ := hfailed.ends ctx
    rw [if_pos (h step exc hfailed)] at hpublished
    exact ⟨run, hends, hpublished⟩
  · exact fun run result hends => hends.silent hnone

/-- A plan whose only step names a handler that is missing. -/
def strayHandlerPlan : Plan where
  start := some "s1"
  steps := some ⟨[("s1", { onFailure := some "cleanup" })], by simp⟩

/-- Its failure is lost. -/
theorem strayHandler_lost : ¬ DeadLettered failsFirst strayHandlerPlan noContext := by
  intro h
  have hfailed : Unhandled failsFirst strayHandlerPlan { onFailure := some "cleanup" }
      "simulated transient" := by
    refine .intro rfl rfl (.start rfl) rfl rfl ?_ ?_
    · exact ⟨0, rfl, fails_succ.2 ⟨⟨_, rfl⟩, fails_zero 1⟩, PlanStep.pauses_zero _, rfl⟩
    · rintro ⟨next, hnext, hfound⟩
      obtain rfl := Option.some.inj (truthy_eq_some hnext)
      exact hfound rfl
  obtain ⟨run, hends, hpublished⟩ := h.failed _ _ hfailed
  obtain ⟨run', hends', hpublished'⟩ := hfailed.ends noContext
  obtain rfl := hends.unique hends'
  rw [hpublished] at hpublished'
  cases hpublished'

end PlanRun
