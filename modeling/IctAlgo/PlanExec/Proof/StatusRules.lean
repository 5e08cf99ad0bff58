import IctAlgo.PlanExec.Proof.Loop
import IctAlgo.PlanExec.Proof.Result

/-!
# The status of a result

`StatusRules`: what the contract says of the status and the error of a result, for the steps that the
run completed and those that it did not.

* `success`, `partialSuccess` and `error` hold of every result.
* A halt after a completed step makes the result `partial`, and a step with a mode that is none of the
  three lets a later failure replace its error.
* `statusRules_iff`: without these two, all the rules hold.
-/

set_option autoImplicit false

namespace PlanExec

open Lib Lib.Raising

/-! ## The rules -/

/-- The run comes to the step behind `pre`, which has an unmet dependency and says to halt. -/
structure HaltsAt (steps pre : List PlanStep) (s : PlanStep) : Prop where
  split : ∃ post, steps = pre ++ s :: post
  reached : ∀ f ∈ failures [] pre, (mode f.1).stops = false
  fails : unmet ((ran [] pre).map (·.id)) s ≠ []
  halt : mode s = .halt

/-- The first error that is not that of a skipped step. -/
def primaryError (steps : List PlanStep) : Option ExecutionError :=
  ((failures [] steps).map Failure.error).find? fun e => e.errorCode ≠ .stepSkipped

structure StatusRules (steps : List PlanStep) (r : PlanResult) : Prop where
  success : r.status = .success ↔ r.stepsExecuted = steps.length ∧ failures [] steps = []
  halted : ∀ pre s, HaltsAt steps pre s →
    r.status = .failure ∧ r.stepsExecuted = (ran [] pre).length
  partialSuccess : r.status = .partialSuccess → 0 < r.stepsExecuted ∧ r.stepsExecuted < steps.length
  error : r.error = none ↔ r.status = .success
  primary : ∀ e, primaryError steps = some e → r.error = some e

/-- Before a step where the run halts, every step has dependencies; and if the first failure that is no
skip has a mode that the loop does not know, the last failure is one of the same id and dependency that
is neither a skip nor a retry. -/
structure Settles (steps : List PlanStep) : Prop where
  halts : ∀ pre s, HaltsAt steps pre s → ∀ t ∈ pre, t.dependsOn.iter? ≠ some []
  last : ∀ f g, (failures [] steps).find? (fun f => mode f.1 ≠ .skip) = some f → mode f.1 = .other →
    (failures [] steps).getLast? = some g →
      (mode g.1 = .other ∨ mode g.1 = .halt) ∧ g.1.id = f.1.id ∧ g.2 = f.2

/-! ## Runs and their parts -/

section
variable {completed : List PyVal} {steps pre : List PlanStep} {s : PlanStep} {f : Failure}

theorem mem_stepFailures {deps : List PyVal} (h : f ∈ stepFailures s deps) : f.1 = s := by
  unfold stepFailures at h
  split at h
  · obtain ⟨dep, -, rfl⟩ := List.mem_map.1 h
    rfl
  · obtain ⟨dep, -, rfl⟩ := List.mem_map.1 h
    rfl

theorem stepFailures_ne_nil {deps : List PyVal} (h : deps ≠ []) : stepFailures s deps ≠ [] := by
  obtain ⟨dep, deps, rfl⟩ := List.exists_cons_of_ne_nil h
  unfold stepFailures
  split <;> simp

/-- A mode that the loop knows fails a step once. -/
theorem stepFailures_cons {dep : PyVal} {deps : List PyVal} (h : mode s ≠ .other) :
    stepFailures s (dep :: deps) = [(s, dep)] := by
  unfold stepFailures
  split
  · exact absurd ‹_› h
  · rfl

/-- A run completes no more than its steps, and fewer if one fails. -/
theorem ran_length_le (completed : List PyVal) (steps : List PlanStep) :
    (ran completed steps).length ≤ steps.length := by
  induction steps generalizing completed with
  | nil => exact Nat.le_refl _
  | cons s steps ih =>
    unfold ran
    split
    · have := ih (completed ++ [s.id])
      simp only [List.length_cons]
      omega
    · split
      · exact Nat.zero_le _
      · have := ih completed
        simp only [List.length_cons]
        omega

theorem ran_length_iff :
    (ran completed steps).length = steps.length ↔ failures completed steps = [] := by
  induction steps generalizing completed with
  | nil => exact ⟨fun _ => rfl, fun _ => rfl⟩
  | cons s steps ih =>
    unfold ran failures
    split
    · rw [← ih]
      simp only [List.length_cons]
      omega
    · rename_i hempty
      have hne : stepFailures s (unmet completed s) ≠ [] :=
        stepFailures_ne_nil fun h => hempty (List.isEmpty_iff.2 h)
      have := ran_length_le completed steps
      refine ⟨fun h => ?_, fun h => ?_⟩
      · split at h
        · simp at h
        · simp only [List.length_cons] at h
          omega
      · exact absurd (List.append_eq_nil_iff.1 h).1 hne

/-- A run that is not stopped by its first part goes on with the rest. -/
theorem run_append (post : List PlanStep)
    (h : ∀ f ∈ failures completed pre, (mode f.1).stops = false) :
    ran completed (pre ++ post) =
        ran completed pre ++ ran (completed ++ (ran completed pre).map (·.id)) post ∧
      failures completed (pre ++ post) =
        failures completed pre ++ failures (completed ++ (ran completed pre).map (·.id)) post := by
  induction pre generalizing completed with
  | nil => simp [ran, failures]
  | cons s pre ih =>
    rw [List.cons_append, ran, ran, failures, failures]
    rw [failures] at h
    cases hempty : (unmet completed s).isEmpty with
    | true =>
      rw [hempty, if_pos rfl] at h
      obtain ⟨hran, hfail⟩ := ih h
      simp [hran, hfail]
    | false =>
      have hne : unmet completed s ≠ [] := by
        intro h
        rw [h] at hempty
        cases hempty
      rw [hempty, if_neg Bool.false_ne_true] at h
      have hgoes : (mode s).stops = false := by
        obtain ⟨f, fs, hf⟩ := List.exists_cons_of_ne_nil (stepFailures_ne_nil (s := s) hne)
        have hmem : f ∈ stepFailures s (unmet completed s) := hf ▸ List.mem_cons_self
        rw [← mem_stepFailures hmem]
        exact h f (List.mem_append_left _ hmem)
      rw [hgoes] at h
      obtain ⟨hran, hfail⟩ := ih fun f hf => h f (List.mem_append_right _ hf)
      simp [hgoes, hran, hfail]

/-- A failure that ends the run is the last one. -/
theorem getLast_of_stops (h : f ∈ failures completed steps) (hstops : (mode f.1).stops = true) :
    (failures completed steps).getLast? = some f := by
  induction steps generalizing completed with
  | nil => cases h
  | cons s steps ih =>
    rw [failures] at h ⊢
    split at h
    · rename_i hempty
      rw [if_pos hempty]
      exact ih h
    · rename_i hempty
      rw [if_neg hempty]
      obtain hhere | hlater := List.mem_append.1 h
      · have hs : mode s ≠ .other := by
          intro hother
          rw [mem_stepFailures hhere, hother] at hstops
          cases hstops
        obtain ⟨dep, deps, hdeps⟩ :=
          List.exists_cons_of_ne_nil fun h => hempty (List.isEmpty_iff.2 h)
        have hf := mem_stepFailures hhere
        rw [hdeps, stepFailures_cons hs, List.mem_singleton] at hhere
        rw [hf] at hstops
        rw [hdeps, stepFailures_cons hs, if_pos hstops, hhere]
        rfl
      · split at hlater
        · cases hlater
        · rename_i hgoes
          have hlast := ih hlater
          rw [if_neg hgoes, List.getLast?_append, hlast]
          rfl

/-- Where the run halts: what it completed, and its last failure. -/
theorem HaltsAt.run (h : HaltsAt steps pre s) :
    ran [] steps = ran [] pre ∧ ∃ dep, (failures [] steps).getLast? = some (s, dep) := by
  obtain ⟨post, rfl⟩ := h.split
  obtain ⟨hran, hfail⟩ := run_append (s :: post) h.reached
  rw [List.nil_append] at hran hfail
  obtain ⟨dep, deps, hdeps⟩ := List.exists_cons_of_ne_nil h.fails
  have hmode : mode s ≠ .other := by
    rw [h.halt]
    exact Mode.noConfusion
  have hhalts : (unmet ((ran [] pre).map (·.id)) s).isEmpty = false := by
    rw [hdeps]
    rfl
  constructor
  · rw [hran, ran, hhalts, h.halt]
    exact List.append_nil _
  · refine ⟨dep, ?_⟩
    rw [hfail, failures, hhalts, h.halt, hdeps, stepFailures_cons hmode]
    simp [Mode.stops]

/-- In a run that does not raise, nothing is completed exactly when every step has dependencies. -/
theorem ran_eq_nil_iff {p : Progress} {post : List PlanStep} {run : Run}
    (h : runSteps p ((pre ++ post).map .step) = .ok run) (hempty : p.completed = [])
    (hreached : ∀ f ∈ failures [] pre, (mode f.1).stops = false) :
    ran [] pre = [] ↔ ∀ t ∈ pre, t.dependsOn.iter? ≠ some [] := by
  induction pre generalizing p run with
  | nil => simp [ran]
  | cons s pre ih =>
    obtain ⟨deps, hdeps, hmet⟩ := runSteps_cons_deps h
    have hstep := runSteps_cons_ok h
    rw [hempty] at hstep hmet
    rw [ran]
    rw [failures] at hreached
    split at hstep
    · rename_i hall
      have hnone : deps = [] := by
        cases deps with
        | nil => rfl
        | cons dep deps =>
          have hmem := hmet hall dep List.mem_cons_self
          simp [PyVal.mem?] at hmem
      simp [hall, hdeps, hnone]
    · rename_i hunmet
      have hsome : s.dependsOn.iter? ≠ some [] := by
        intro hnil
        rw [unmet, hnil] at hunmet
        exact hunmet rfl
      have hne : unmet [] s ≠ [] := fun h => hunmet (List.isEmpty_iff.2 h)
      rw [if_neg hunmet] at hreached ⊢
      have hgoes : (mode s).stops = false := by
        obtain ⟨f, fs, hf⟩ := List.exists_cons_of_ne_nil (stepFailures_ne_nil (s := s) hne)
        have hmem : f ∈ stepFailures s (unmet [] s) := hf ▸ List.mem_cons_self
        rw [← mem_stepFailures hmem]
        exact hreached f (List.mem_append_left _ hmem)
      rw [hgoes] at hstep hreached
      obtain ⟨run', hrun, -⟩ := hstep
      rw [hgoes, if_neg Bool.false_ne_true, List.forall_mem_cons]
      have hrest := ih hrun rfl fun f hf => hreached f (List.mem_append_right _ hf)
      rw [hrest]
      exact ⟨fun h => ⟨hsome, h⟩, fun h => h.2⟩

end

/-! ## Errors -/

theorem Failure.errorCode_eq_skipped (f : Failure) :
    f.error.errorCode = .stepSkipped ↔ mode f.1 = .skip := by
  unfold Failure.error
  cases mode f.1 <;> simp [unresolved, skipped, retryMissing]

/-- The failures with the error of a step of another mode. -/
theorem Failure.error_eq_iff {f g : Failure} (hf : mode f.1 = .other) :
    g.error = f.error ↔
      (mode g.1 = .other ∨ mode g.1 = .halt) ∧ g.1.id = f.1.id ∧ g.2 = f.2 := by
  have hf' : f.error = unresolved f.1 f.2 := by rw [Failure.error, hf]
  rw [hf', Failure.error]
  cases mode g.1 <;> simp +contextual [unresolved, skipped, retryMissing]

theorem primaryError_eq (steps : List PlanStep) :
    primaryError steps =
      ((failures [] steps).find? fun f => mode f.1 ≠ .skip).map Failure.error := by
  unfold primaryError
  rw [List.find?_map]
  congr 2
  funext f
  simp [Failure.errorCode_eq_skipped]

/-! ## The rules, exactly -/

section
variable {plan : Plan} {ctx : ExecutionContext} {now : ℤ} {steps : List PlanStep} {run : Run}
  {r : PlanResult}

theorem buildPlanResult_ok {n : ℕ} {e : Option ExecutionError} (hsteps : plan.steps = .list (steps.map .step))
    (h : buildPlanResult plan ctx now n e = .ok r) :
    r.status = statusOf n steps.length e ∧ r.stepsExecuted = n ∧ r.error = e := by
  rw [buildPlanResult, bind_ok_iff] at h
  obtain ⟨d, -, h⟩ := h
  rw [bind_ok_iff] at h
  obtain ⟨total, htotal, h⟩ := h
  rw [orTypeError_ok_iff, hsteps, Steps.len?, List.length_map, Option.some.injEq] at htotal
  obtain rfl := Except.ok.inj h
  rw [htotal]
  exact ⟨rfl, rfl, rfl⟩

/-- The status of a result that reports all that a run completed. -/
theorem statusOf_eq_success_iff (steps : List PlanStep) :
    statusOf (ran [] steps).length steps.length ((failures [] steps).map Failure.error).getLast? =
      .success ↔ failures [] steps = [] := by
  cases hlast : ((failures [] steps).map Failure.error).getLast? with
  | none =>
    have hnil : failures [] steps = [] := by simpa using hlast
    simp [statusOf, hnil, ran_length_iff.2 hnil]
  | some e =>
    have hne : failures [] steps ≠ [] := by
      intro h
      rw [h] at hlast
      cases hlast
    simp only [statusOf, hne, iff_false]
    split <;> exact Status.noConfusion

/-- An unresolved dependency is no fatal error. -/
theorem statusOf_unresolved {s : PlanStep} {dep : PyVal} {executed total : ℕ} :
    statusOf executed total (some (unresolved s dep)) = .failure ↔ executed = 0 := by
  rw [statusOf]
  by_cases hpos : executed > 0
  · rw [if_pos ⟨ErrorSeverity.noConfusion, hpos⟩]
    simp only [reduceCtorEq, false_iff]
    omega
  · rw [if_neg fun h => hpos h.2]
    simp only [true_iff]
    omega

/-- The halts that are failures: those before the first completed step. -/
theorem halted_iff (hrun : runSteps {} (steps.map .step) = .ok run) :
    (∀ pre s, HaltsAt steps pre s →
      statusOf (ran [] steps).length steps.length
          ((failures [] steps).map Failure.error).getLast? = .failure ∧
        (ran [] steps).length = (ran [] pre).length) ↔
      ∀ pre s, HaltsAt steps pre s → ∀ t ∈ pre, t.dependsOn.iter? ≠ some [] := by
  refine forall_congr' fun pre => forall_congr' fun s => forall_congr' fun hhalts => ?_
  obtain ⟨hran, dep, hlast⟩ := hhalts.run
  obtain ⟨post, hsplit⟩ := hhalts.split
  rw [hsplit] at hrun
  rw [← ran_eq_nil_iff hrun rfl hhalts.reached, hran, List.getLast?_map, hlast]
  have herror : Failure.error (s, dep) = unresolved s dep := by rw [Failure.error, hhalts.halt]
  rw [Option.map_some, herror, ← List.length_eq_zero_iff]
  rw [statusOf_unresolved, and_iff_left rfl]

/-- The error of a run is its first that is no skip: of a step that stops the run it is, as that is the
last failure. -/
theorem primary_iff (steps : List PlanStep) :
    (∀ e, primaryError steps = some e →
      ((failures [] steps).map Failure.error).getLast? = some e) ↔
      ∀ f g, (failures [] steps).find? (fun f => mode f.1 ≠ .skip) = some f → mode f.1 = .other →
        (failures [] steps).getLast? = some g →
          (mode g.1 = .other ∨ mode g.1 = .halt) ∧ g.1.id = f.1.id ∧ g.2 = f.2 := by
  rw [primaryError_eq]
  refine ⟨fun h f g hfirst hother hlast => ?_, fun h e he => ?_⟩
  · have herror := h f.error (by rw [hfirst]; rfl)
    rw [List.getLast?_map, hlast, Option.map_some, Option.some.injEq] at herror
    exact (Failure.error_eq_iff hother).1 herror
  · obtain ⟨f, hfirst, rfl⟩ := Option.map_eq_some_iff.1 he
    have hmem := List.mem_of_find?_eq_some hfirst
    rw [List.getLast?_map]
    cases hmode : mode f.1 with
    | halt | retry =>
      rw [getLast_of_stops hmem (by rw [hmode]; rfl)]
      rfl
    | skip =>
      have hnot := List.find?_some hfirst
      simp [hmode] at hnot
    | other =>
      obtain ⟨g, hlast⟩ : ∃ g, (failures [] steps).getLast? = some g :=
        Option.isSome_iff_exists.1 (by
          rw [List.getLast?_isSome]
          exact List.ne_nil_of_mem hmem)
      rw [hlast, Option.map_some, (Failure.error_eq_iff hmode).2 (h f g hfirst hmode hlast)]

/-- **The status rules, exactly.** -/
theorem statusRules_iff (plan : Plan) (ctx : ExecutionContext) (now : ℤ)
    (hsteps : plan.steps = .list (steps.map .step))
    (hrun : executeSteps plan = .ok run)
    (hresult : buildPlanResult plan ctx now run.last.stepsExecuted run.last.firstError = .ok r) :
    StatusRules steps r ↔ Settles steps := by
  obtain ⟨hstatus, hexecuted, herror⟩ := buildPlanResult_ok hsteps hresult
  obtain ⟨hn, he⟩ := executeSteps_ok hsteps hrun
  rw [executeSteps, hsteps] at hrun
  rw [hn, he] at hstatus
  rw [hn] at hexecuted
  rw [he] at herror
  have hhalted := halted_iff hrun
  have hprimary := primary_iff steps
  rw [← hstatus, ← hexecuted] at hhalted
  rw [← herror] at hprimary
  refine ⟨fun h => ?_, fun h => ?_⟩
  · exact ⟨hhalted.1 h.halted, hprimary.1 h.primary⟩
  · have hsuccess : r.status = .success ↔ failures [] steps = [] := by
      rw [hstatus]
      exact statusOf_eq_success_iff steps
    refine ⟨?_, hhalted.2 h.halts, ?_, ?_, hprimary.2 h.last⟩
    · rw [hsuccess, hexecuted, ran_length_iff, and_self]
    · intro hpartial
      have hle := ran_length_le [] steps
      have hfew : (ran [] steps).length ≠ steps.length := by
        rw [Ne, ran_length_iff, ← hsuccess, hpartial]
        exact Status.noConfusion
      rw [hexecuted]
      refine ⟨?_, by omega⟩
      -- a partial result has an error, so that a step was completed
      rw [hstatus] at hpartial
      unfold statusOf at hpartial
      split at hpartial
      · split at hpartial
        · cases hpartial
        · rename_i hnot
          rw [List.getLast?_eq_none_iff, List.map_eq_nil_iff, ← ran_length_iff] at *
          exact absurd ‹_› hnot
      · split at hpartial
        · rename_i hsome
          exact hsome.2
        · cases hpartial
    · rw [hsuccess, herror]
      simp

end

/-! ## A halt after a completed step -/

def haltedStep : PlanStep where
  id := .str "33333333-3333-4333-8333-333333333333"
  action := .str "notify"
  payload := .dict []
  dependsOn := .list [.str "44444444-4444-4444-8444-444444444444"]

def haltedPlan : Plan := { samplePlan with steps := .list [.step sampleStep, .step haltedStep] }

/-- The second step halts the run, and the result is `partial`. -/
theorem haltedPlan_partial : ∃ run r, executeSteps haltedPlan = .ok run ∧
    buildPlanResult haltedPlan sampleContext 1700000000500 run.last.stepsExecuted
      run.last.firstError = .ok r ∧
    r.status = .partialSuccess ∧ ¬StatusRules [sampleStep, haltedStep] r := by
  refine ⟨_, _, rfl, rfl, rfl, fun h => ?_⟩
  have hhalts : HaltsAt [sampleStep, haltedStep] [sampleStep] haltedStep := by
    refine ⟨⟨[], rfl⟩, by simp [failures, sampleStep, unmet, PyVal.iter?], ?_, rfl⟩
    decide +kernel
  cases (h.halted _ _ hhalts).1

/-- The step skipped before the others, as it depends on one of these. -/
def skippedStep : PlanStep := { haltedStep with
  id := .str "55555555-5555-4555-8555-555555555555"
  dependsOn := .list [sampleStep.id]
  onFailure := .str "skip" }

def skippedPlan : Plan := { samplePlan with steps := .list [.step skippedStep, .step sampleStep] }

/-- The first step is skipped for its dependency, and the plan keeps the rules. -/
theorem skippedPlan_statusRules : StatusRules [skippedStep, sampleStep]
    { planId := samplePlan.id
      executionId := sampleContext.executionId
      status := .partialSuccess
      completedAt := 1700000000500
      durationMs := .int 500
      stepsExecuted := 1
      stepsTotal := 2
      error := some (skipped skippedStep) } := by
  have hrun : executeSteps skippedPlan = .ok ⟨[{}, ⟨0, some (skipped skippedStep), []⟩],
      ⟨1, some (skipped skippedStep), [sampleStep.id]⟩⟩ := rfl
  have hfailures : failures [] [skippedStep, sampleStep] = [(skippedStep, sampleStep.id)] := rfl
  apply (statusRules_iff skippedPlan sampleContext 1700000000500 rfl hrun rfl).2
  refine ⟨fun pre s h => ?_, fun f g h => ?_⟩
  · obtain ⟨-, dep, hlast⟩ := h.run
    rw [hfailures, List.getLast?_singleton, Option.some.injEq, Prod.mk.injEq] at hlast
    obtain ⟨rfl, -⟩ := hlast
    cases h.halt
  · rw [hfailures] at h
    cases h

end PlanExec
