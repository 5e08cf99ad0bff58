import IctAlgo.PlanExec.Boundary
import IctAlgo.PlanExec.Proof.Result

/-!
# Plain dictionaries at the boundary

`BoundaryAgrees`: a plan and a context that are given as plain dictionaries have the result of the
typed executor.

* `buildContext_asdict`: a context of plain dictionaries has a dictionary for a plan.
* `executePlanIfEnabled_asdict`: its result is the empty dictionary.
-/

set_option autoImplicit false

namespace PlanExec

open Lib

/-! ## Agreement -/

/-- The same result, but for what the clock says. -/
structure SameResult (r r' : PlanResult) : Prop where
  planId : r'.planId = r.planId
  executionId : r'.executionId = r.executionId
  status : r'.status = r.status
  stepsExecuted : r'.stepsExecuted = r.stepsExecuted
  stepsTotal : r'.stepsTotal = r.stepsTotal
  error : r'.error = r.error

/-- The typed executor returns a result, and the boundary the same for plain dictionaries. -/
def BoundaryAgrees (p : Plan) (c : ExecutionContext) (now now' : ℤ) : Prop :=
  ∃ r r', execute p c now = .ok r ∧
    executePlanIfEnabled true (executePlan now') p.asdict c.asdict = .ok (.result r') ∧
    SameResult r r'

/-! ## Plain dictionaries -/

/-- A plan is built of its dictionary. -/
theorem buildPlan_asdict (p : Plan) : ∃ plan, buildPlan p.asdict = .ok plan := by
  have hok : fieldsOk planRequired planOptional p.items = true := by
    simp [fieldsOk, planRequired, planOptional, Plan.items]
  unfold Plan.asdict buildPlan planOf
  simp only [hok, ↓reduceIte]
  exact ⟨_, rfl⟩

/-- The plan of a context that is built of plain dictionaries is no plan. -/
theorem buildContext_asdict (c : ExecutionContext) :
    buildContext c.asdict = .ok (.context { c with plan := .other c.plan.asdict.toVal }) := by
  have hok : fieldsOk contextRequired contextOptional c.items = true := by
    simp [fieldsOk, contextRequired, contextOptional, ExecutionContext.items]
  have hplan : planFieldOf c.plan.asdict = .other c.plan.asdict.toVal := by
    cases c.plan with
    | plan p => rfl
    | other v => rfl
  unfold ExecutionContext.asdict buildContext contextOf
  simp only [hok, ↓reduceIte]
  rw [← hplan]
  rfl

/-- The executor raises for a context whose plan is none. -/
theorem executePlan_untyped {c : ExecutionContext} {v : PyVal} (now : ℤ) (h : c.plan = .other v) :
    ∃ e, executePlan now (.context c) = .error (.raised e) := by
  simp only [executePlan, h, executeUntyped]
  cases PyVal.subFrom? now c.startedAt with
  | none => exact ⟨.typeError, rfl⟩
  | some d => exact ⟨.attributeError, rfl⟩

/-- **Plain dictionaries have no result.** The context keeps the dictionary of its plan, the executor
raises, and the boundary returns the empty dictionary. -/
theorem executePlanIfEnabled_asdict (p : Plan) (c : ExecutionContext) (now : ℤ) :
    executePlanIfEnabled true (executePlan now) p.asdict c.asdict = .ok .empty := by
  obtain ⟨plan, hplan⟩ := buildPlan_asdict p
  have huntyped : ({ c with plan := .other c.plan.asdict.toVal } : ExecutionContext).plan =
      .other c.plan.asdict.toVal := rfl
  obtain ⟨e, he⟩ := executePlan_untyped now huntyped
  have hrun : delegatePlan (executePlan now) p.asdict c.asdict = .error (.raised e) := by
    unfold delegatePlan
    rw [hplan, buildContext_asdict]
    simp only [Except.mapError, bind, Except.bind, he]
  unfold executePlanIfEnabled
  rw [if_pos rfl, hrun]

/-- **The boundary never agrees with the typed executor** on plain dictionaries. -/
theorem boundary_disagrees (p : Plan) (c : ExecutionContext) (now now' : ℤ) :
    ¬BoundaryAgrees p c now now' := by
  intro h
  obtain ⟨r, r', -, hr, -⟩ := h
  rw [executePlanIfEnabled_asdict] at hr
  cases hr

/-- A plan and a context that meet the documented rules: the boundary returns the empty dictionary. -/
theorem sampleDicts_empty :
    Documented samplePlan sampleContext ∧
      executePlanIfEnabled true (executePlan 1700000000500) samplePlan.asdict sampleContext.asdict =
        .ok .empty ∧
      ¬BoundaryAgrees samplePlan sampleContext 1700000000500 1700000000500 := by
  refine ⟨sample_documented, executePlanIfEnabled_asdict _ _ _, ?_⟩
  intro h
  obtain ⟨r, r', hr, -⟩ := h
  rw [execute_accepted sample_accepted] at hr
  cases hr

end PlanExec
