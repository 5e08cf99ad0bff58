import Mathlib.Logic.Relation
import IctAlgo.PlanExec.Execute

/-!
# The results of the executor

`Documented`: the rules for plans and contexts that the docstrings of the two validators and the
contract state. `ResultOk`: what the contract says of a call, a well-formed result, and the steps
run when the rules are met.

* `execute_accepted`: a plan that passes validation makes `execute` raise, as the validator of the
  context is called with one argument too many.
* `execute_resultOk_iff`: the calls that meet the contract.
-/

set_option autoImplicit false

namespace PlanExec

open Lib

/-! ## The documented rules -/

/-- The dependencies of a step are these ids. -/
def DependsOn (s : PlanStep) (ds : List String) : Prop := s.dependsOn = .list (ds.map .str)

/-- The step `i` depends on the step `j`. -/
def Edge (steps : List PlanStep) (i j : String) : Prop :=
  ∃ s ∈ steps, ∃ ds, s.id = .str i ∧ DependsOn s ds ∧ j ∈ ds

structure StepRules (steps : List PlanStep) (s : PlanStep) : Prop where
  id : ∃ i, s.id = .str i ∧ canonicalUuid4 i = true
  action : textTo 100 s.action = true
  payload : s.payload.isDict = true
  onFailure : ∃ m ∈ failureModes, s.onFailure = .str m
  dependsOn : ∃ ds, DependsOn s ds ∧ ∀ d ∈ ds, ∃ t ∈ steps, t.id = .str d
  timeoutMs : optPositive s.timeoutMs = true

structure PlanRules (p : Plan) (ss : List PlanStep) : Prop where
  id : ∃ i, p.id = .str i ∧ canonicalUuid4 i = true
  version : intFrom 1 p.version = true
  createdAt : intFrom 1 p.createdAt = true
  name : textTo 255 p.name = true
  contextRequirements : ∃ rs : List String, rs ≠ [] ∧ p.contextRequirements = .list (rs.map .str)
  steps : p.steps = .list (ss.map .step)
  length : 0 < ss.length ∧ ss.length ≤ 1024
  step : ∀ s ∈ ss, StepRules ss s
  distinct : (ss.map (·.id)).Nodup
  acyclic : ∀ i, ¬Relation.TransGen (Edge ss) i i
  retryPolicy : validateRetryPolicy p.retryPolicy = .ok ()
  priority : p.priority.int?.isSome = true
  timeoutMs : intFrom 1 p.timeoutMs = true
  metaData : p.metaData.isDict = true
  tags : p.tags.list?.isSome = true
  estimatedDurationMs : optPositive p.estimatedDurationMs = true

structure ContextRules (p : Plan) (c : ExecutionContext) : Prop where
  plan : c.plan = .plan p
  executionId : ∃ i, c.executionId = .str i ∧ canonicalUuid4 i = true
  startedAt : intFrom 1 c.startedAt = true
  deadlineMs : intFrom 1 c.deadlineMs = true
  window : ∃ started deadline timeout, c.startedAt.int? = some started ∧
    c.deadlineMs.int? = some deadline ∧ p.timeoutMs.int? = some timeout ∧
    started < deadline ∧ timeout ≤ deadline - started
  environment : ∃ keys, c.environment = .dict keys ∧
    ∀ rs, p.contextRequirements = .list rs → ∀ r ∈ rs, r ∈ keys
  parentExecutionId : c.parentExecutionId = .null ∨
    ∃ i, c.parentExecutionId = .str i ∧ canonicalUuid4 i = true
  userId : optStr c.userId = true
  requestId : optStr c.requestId = true
  correlationContext : c.correlationContext = .null ∨ c.correlationContext.isDict = true

/-- The plan and the context satisfy the documented rules. -/
def Documented (plan : Plan) (ctx : ExecutionContext) : Prop :=
  (∃ steps, PlanRules plan steps) ∧ ContextRules plan ctx

/-! ## The results -/

structure PlanResult.WellFormed (r : PlanResult) : Prop where
  error : r.error = none ↔ r.status = .success
  steps : r.stepsExecuted ≤ r.stepsTotal
  duration : r.durationMs.ge 0 = true

/-- The call returns a well-formed result, and has run the steps if the rules are met. -/
def ResultOk (plan : Plan) (ctx : ExecutionContext) (now : ℤ) : Prop :=
  ∃ r, execute plan ctx now = .ok r ∧ r.WellFormed ∧
    (Documented plan ctx → r.stepsExecuted = r.stepsTotal)

section
variable {plan : Plan} {ctx : ExecutionContext} {now : ℤ}

/-- The result of a call that ran no step. -/
theorem buildPlanResult_rejected {e : ExecutionError} {r : PlanResult}
    (h : buildPlanResult plan ctx now 0 (some e) = .ok r) :
    PyVal.subFrom? now ctx.startedAt = some r.durationMs ∧ plan.steps.len? = some r.stepsTotal ∧
      r.stepsExecuted = 0 ∧ r.error = some e ∧ r.status = .failure := by
  cases hd : PyVal.subFrom? now ctx.startedAt with
  | none => simp [buildPlanResult, hd, orTypeError, bind, Except.bind] at h
  | some d =>
    cases hn : plan.steps.len? with
    | none => simp [buildPlanResult, hd, hn, orTypeError, bind, Except.bind] at h
    | some n =>
      simp only [buildPlanResult, hd, hn, orTypeError, bind, Except.bind, pure, Except.pure,
        Except.ok.injEq] at h
      subst h
      exact ⟨rfl, rfl, rfl, rfl, by simp [statusOf]⟩

theorem execute_rejected {e : ExecutionError} (h : validatePlan plan = .error (.validation e)) :
    execute plan ctx now = buildPlanResult plan ctx now 0 (some e) := by
  rw [execute, h]

/-- The validator of the context takes one argument. -/
theorem execute_accepted (h : validatePlan plan = .ok ()) :
    execute plan ctx now = .error .typeError := by
  rw [execute, h]
  rfl

/-- A documented plan has a step. -/
theorem Documented.len_pos (h : Documented plan ctx) {n : ℕ} (hn : plan.steps.len? = some n) :
    0 < n := by
  obtain ⟨⟨steps, hplan⟩, -⟩ := h
  rw [hplan.steps, Steps.len?, List.length_map, Option.some.injEq] at hn
  exact hn ▸ hplan.length.1

/-- **The calls that meet the contract**: the plan is rejected, its steps have a length, the
execution did not start in the future, and the rules are not met. Every accepted plan makes
`execute` raise. -/
theorem execute_resultOk_iff (plan : Plan) (ctx : ExecutionContext) (now : ℤ) :
    ResultOk plan ctx now ↔
      (∃ e, validatePlan plan = .error (.validation e)) ∧ plan.steps.len?.isSome = true ∧
        ctx.startedAt.le now = true ∧ ¬Documented plan ctx := by
  refine ⟨fun h => ?_, fun h => ?_⟩
  · obtain ⟨r, hr, hwf, hrun⟩ := h
    cases hv : validatePlan plan with
    | error x =>
      cases x with
      | validation e =>
        rw [execute_rejected hv] at hr
        obtain ⟨hdur, hlen, hzero, -, -⟩ := buildPlanResult_rejected hr
        refine ⟨⟨e, rfl⟩, by rw [hlen]; rfl, ?_, fun hdoc => ?_⟩
        · rw [← PyVal.ge_subFrom hdur]
          exact hwf.duration
        · have hall := hrun hdoc
          have := hdoc.len_pos hlen
          omega
      | typeError => rw [execute, hv] at hr; cases hr
      | attributeError => rw [execute, hv] at hr; cases hr
    | ok u =>
      rw [execute_accepted hv] at hr
      cases hr
  · obtain ⟨⟨e, hv⟩, hlen, hstart, hnot⟩ := h
    obtain ⟨n, hn⟩ := Option.isSome_iff_exists.1 hlen
    obtain ⟨d, hd⟩ := PyVal.subFrom_of_le hstart
    obtain ⟨r, hr⟩ : ∃ r, buildPlanResult plan ctx now 0 (some e) = .ok r := by
      simp [buildPlanResult, hd, hn, orTypeError, bind, Except.bind, pure, Except.pure]
    obtain ⟨hdur, -, hzero, herr, hstatus⟩ := buildPlanResult_rejected hr
    refine ⟨r, (execute_rejected hv).trans hr, ⟨?_, ?_, ?_⟩, fun hdoc => absurd hdoc hnot⟩
    · simp [herr, hstatus]
    · omega
    · rw [PyVal.ge_subFrom hdur]
      exact hstart

end

/-! ## A plan with one step -/

def sampleStep : PlanStep where
  id := .str "22222222-2222-4222-8222-222222222222"
  action := .str "notify"
  payload := .dict []

def samplePlan : Plan where
  id := .str "11111111-1111-4111-8111-111111111111"
  version := .int 1
  createdAt := .int 1700000000000
  steps := .list [.step sampleStep]
  name := .str "notify"
  contextRequirements := .list [.str "symbol"]

def sampleContext : ExecutionContext where
  plan := .plan samplePlan
  executionId := .str "33333333-3333-4333-8333-333333333333"
  startedAt := .int 1700000000000
  deadlineMs := .int 1700000600000
  environment := .dict [.str "symbol"]

theorem sample_documented : Documented samplePlan sampleContext := by
  have hnone : ∀ i j, ¬Edge [sampleStep] i j := by
    intro i j h'
    obtain ⟨s, hs, ds, -, hdeps, hmem⟩ := h'
    rw [List.mem_singleton.1 hs] at hdeps
    cases ds with
    | nil => cases hmem
    | cons d ds => cases hdeps
  refine ⟨⟨[sampleStep], ?_⟩, ?_⟩
  · exact {
      id := ⟨_, rfl, by decide +kernel⟩
      version := by decide
      createdAt := by decide
      name := by decide +kernel
      contextRequirements := ⟨["symbol"], by decide, rfl⟩
      steps := rfl
      length := by decide
      step := by
        intro s hs
        rw [List.mem_singleton.1 hs]
        exact ⟨⟨_, rfl, by decide +kernel⟩, by decide +kernel, rfl, ⟨"halt", by decide, rfl⟩,
          ⟨[], rfl, by simp⟩, rfl⟩
      distinct := by simp
      acyclic := fun i h => by
        cases h with
        | single h => exact hnone _ _ h
        | tail _ h => exact hnone _ _ h
      retryPolicy := rfl
      priority := rfl
      timeoutMs := by decide
      metaData := rfl
      tags := rfl
      estimatedDurationMs := rfl }
  · exact {
      plan := rfl
      executionId := ⟨_, rfl, by decide +kernel⟩
      startedAt := by decide
      deadlineMs := by decide
      window := ⟨_, _, _, rfl, rfl, rfl, by decide, by decide⟩
      environment := ⟨_, rfl, by rintro rs h; cases h; exact fun _ h => h⟩
      parentExecutionId := .inl rfl
      userId := rfl
      requestId := rfl
      correlationContext := .inl rfl }

theorem sample_accepted : validatePlan samplePlan = .ok () := by
  have h : (validatePlan samplePlan).isOk = true := by decide +kernel
  cases hv : validatePlan samplePlan with
  | error x =>
    rw [hv] at h
    cases h
  | ok u => rfl

/-- A valid plan and context half a second after the start: `execute` raises. -/
theorem validPlan_raises :
    Documented samplePlan sampleContext ∧
      execute samplePlan sampleContext 1700000000500 = .error .typeError ∧
      ¬ResultOk samplePlan sampleContext 1700000000500 := by
  refine ⟨sample_documented, execute_accepted sample_accepted, ?_⟩
  intro h
  obtain ⟨r, hr, -⟩ := h
  rw [execute_accepted sample_accepted] at hr
  cases hr

end PlanExec
