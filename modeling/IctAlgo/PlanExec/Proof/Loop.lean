import IctAlgo.Lib.Raising
import IctAlgo.PlanExec.Execute

/-!
# The loop over the steps

What a run of `_execute_steps` does with the steps: which it completes (`ran`), and which it does not,
for which dependency (`failures`). The loop records an error for each failure and ends at the first
one of a step whose mode says so.

* `runSteps_ok`: a run that does not raise counts the completed steps and returns the last error.
-/

set_option autoImplicit false

namespace PlanExec

open Lib Lib.Raising

theorem orTypeError_ok_iff {α : Type} {o : Option α} {a : α} : orTypeError o = .ok a ↔ o = some a := by
  cases o with
  | none => simp [orTypeError]
  | some b => simp [orTypeError]

/-! ## Failures -/

/-- The mode of a step; `other` is none that the loop knows. -/
inductive Mode
  | halt | skip | retry | other
  deriving DecidableEq

def mode (s : PlanStep) : Mode :=
  match s.onFailure with
  | .str "halt" => .halt
  | .str "skip" => .skip
  | .str "retry" => .retry
  | _ => .other

/-- The loop ends at a step that cannot run. -/
def Mode.stops : Mode → Bool
  | .halt | .retry => true
  | .skip | .other => false

/-- The dependencies of a step that are not completed. -/
def unmet (completed : List PyVal) (s : PlanStep) : List PyVal :=
  (s.dependsOn.iter?.getD []).filter fun dep => decide (dep.mem? completed = some false)

/-- A step that cannot run, and the dependency for which it cannot. -/
abbrev Failure := PlanStep × PyVal

/-- The error for a failure. -/
def Failure.error (f : Failure) : ExecutionError :=
  match mode f.1 with
  | .halt | .other => unresolved f.1 f.2
  | .skip => skipped f.1
  | .retry => retryMissing f.1

/-- The failures of a step with these dependencies unmet: with a mode that the loop knows it fails once,
with another one for each of them. -/
def stepFailures (s : PlanStep) (deps : List PyVal) : List Failure :=
  match mode s with
  | .other => deps.map (s, ·)
  | _ => deps.head?.toList.map (s, ·)

/-- The steps that a run completes. -/
def ran (completed : List PyVal) : List PlanStep → List PlanStep
  | [] => []
  | s :: steps =>
    if (unmet completed s).isEmpty then s :: ran (completed ++ [s.id]) steps
    else if (mode s).stops then []
    else ran completed steps

/-- The failures of a run. -/
def failures (completed : List PyVal) : List PlanStep → List Failure
  | [] => []
  | s :: steps =>
    if (unmet completed s).isEmpty then failures (completed ++ [s.id]) steps
    else stepFailures s (unmet completed s) ++
      if (mode s).stops then [] else failures completed steps

/-- The last error for these failures, or the one before them. -/
def lastError (before : Option ExecutionError) (fs : List Failure) : Option ExecutionError :=
  (fs.map Failure.error).getLast?.or before

/-! ## The loop over the dependencies -/

section
variable {s : PlanStep} {completed : List PyVal} {c c' : DepCheck}

@[simp] theorem lastError_nil {before : Option ExecutionError} : lastError before [] = before := rfl

theorem lastError_append {before : Option ExecutionError} (fs gs : List Failure) :
    lastError before (fs ++ gs) = lastError (lastError before fs) gs := by
  simp only [lastError, List.map_append, List.getLast?_append, Option.or_assoc]

/-- The check of a step with this unmet dependency first. -/
theorem checkDeps_cons_unmet {dep : PyVal} {deps : List PyVal} (h : dep.mem? completed = some false) :
    checkDeps s completed c (dep :: deps) =
      match mode s with
      | .halt => .ok ⟨false, true, some (unresolved s dep)⟩
      | .skip => .ok ⟨false, false, some (skipped s)⟩
      | .retry => .ok ⟨false, true, some (retryMissing s)⟩
      | .other => checkDeps s completed ⟨false, false, some (unresolved s dep)⟩ deps := by
  rw [checkDeps, h]
  unfold mode
  simp only [orTypeError, bind, Except.bind, Bool.false_eq_true, if_false]
  split <;> simp_all [pure, Except.pure]

theorem checkDeps_cons_met {dep : PyVal} {deps : List PyVal} (h : dep.mem? completed = some true) :
    checkDeps s completed c (dep :: deps) = checkDeps s completed c deps := by
  rw [checkDeps, h]
  rfl

/-- **The check of the dependencies.** -/
theorem checkDeps_ok {deps : List PyVal} (h : checkDeps s completed c deps = .ok c') :
    let missing := deps.filter fun dep => decide (dep.mem? completed = some false)
    c' = if missing.isEmpty then c
      else ⟨false, (mode s).stops, lastError c.firstError (stepFailures s missing)⟩ := by
  induction deps generalizing c with
  | nil =>
    cases h
    rfl
  | cons dep deps ih =>
    cases hmem : dep.mem? completed with
    | none =>
      rw [checkDeps, hmem] at h
      cases h
    | some known =>
      cases known with
      | true =>
        rw [checkDeps_cons_met hmem] at h
        simpa [hmem] using ih h
      | false =>
        rw [checkDeps_cons_unmet hmem] at h
        cases hmode : mode s with
        | halt | skip | retry =>
          rw [hmode] at h
          obtain rfl := Except.ok.inj h
          simp [hmem, hmode, stepFailures, lastError, Failure.error, Mode.stops]
        | other =>
          rw [hmode] at h
          have hrest := ih h
          simp only [List.filter_cons, hmem, decide_true, if_true, List.isEmpty_cons,
            Bool.false_eq_true, if_false]
          rw [hrest]
          -- the failures of the other dependencies come after this one
          have hlast : ∀ missing : List PyVal, lastError c.firstError (stepFailures s (dep :: missing)) =
              lastError (some (unresolved s dep)) (stepFailures s missing) := by
            intro missing
            simp only [stepFailures, hmode, List.map_cons]
            rw [← List.singleton_append, lastError_append]
            simp [lastError, Failure.error, hmode]
          rw [hlast, hmode]
          split
          · rename_i hempty
            rw [List.isEmpty_iff.1 hempty]
            simp [stepFailures, hmode, Mode.stops]
          · rfl

/-- A step whose dependencies are all met: they were looked up. -/
theorem checkDeps_met {deps : List PyVal} (h : checkDeps s completed c deps = .ok c')
    (hmet : ∀ dep ∈ deps, dep.mem? completed ≠ some false) :
    ∀ dep ∈ deps, dep.mem? completed = some true := by
  induction deps with
  | nil => exact fun _ h => absurd h List.not_mem_nil
  | cons dep deps ih =>
    cases hmem : dep.mem? completed with
    | none =>
      rw [checkDeps, hmem] at h
      cases h
    | some known =>
      cases known with
      | false => exact absurd hmem (hmet dep List.mem_cons_self)
      | true =>
        rw [checkDeps_cons_met hmem] at h
        have hrest := ih h fun d hd => hmet d (List.mem_cons_of_mem _ hd)
        intro d hd
        obtain rfl | hd := List.mem_cons.1 hd
        · exact hmem
        · exact hrest d hd

end

/-! ## The loop over the steps -/

section
variable {s : PlanStep} {p : Progress} {items : List StepItem} {steps : List PlanStep} {run : Run}

@[simp] theorem Run.from_last (p : Progress) (run : Run) : (run.from p).last = run.last := rfl

@[simp] theorem Run.from_states (p : Progress) (run : Run) : (run.from p).states = p :: run.states := rfl

/-- **One step of a run that does not raise**: it is completed, ends the run or is passed over. -/
theorem runSteps_cons_ok (h : runSteps p (.step s :: items) = .ok run) :
    if (unmet p.completed s).isEmpty then
      ∃ rest, runSteps { p with
        stepsExecuted := p.stepsExecuted + 1
        completed := p.completed ++ [s.id] } items = .ok rest ∧ run = rest.from p
    else if (mode s).stops then
      run.last.stepsExecuted = p.stepsExecuted ∧
        run.last.firstError = lastError p.firstError (stepFailures s (unmet p.completed s))
    else
      ∃ rest, runSteps { p with
        firstError := lastError p.firstError (stepFailures s (unmet p.completed s)) } items =
          .ok rest ∧ run = rest.from p := by
  rw [runSteps, bind_ok_iff] at h
  obtain ⟨deps, hdeps, h⟩ := h
  rw [bind_ok_iff] at h
  obtain ⟨c, hc, h⟩ := h
  have hunmet : unmet p.completed s =
      deps.filter fun dep => decide (dep.mem? p.completed = some false) := by
    rw [unmet, orTypeError_ok_iff.1 hdeps, Option.getD_some]
  have hcheck := checkDeps_ok hc
  dsimp only at hcheck
  rw [← hunmet] at hcheck
  cases hempty : (unmet p.completed s).isEmpty with
  | true =>
    rw [hempty, if_pos rfl] at hcheck
    obtain rfl := hcheck
    simp only [Bool.false_eq_true, if_false, if_true, bind_ok_iff] at h ⊢
    obtain ⟨-, -, rest, hrest, h⟩ := h
    exact ⟨rest, hrest, (Except.ok.inj h).symm⟩
  | false =>
    rw [hempty, if_neg Bool.false_ne_true] at hcheck
    obtain rfl := hcheck
    cases hstops : (mode s).stops with
    | true =>
      simp only [hstops, if_true, pure, Except.pure, Except.ok.injEq, Bool.false_eq_true,
        if_false] at h ⊢
      obtain rfl := h
      exact ⟨rfl, rfl⟩
    | false =>
      simp only [hstops, Bool.false_eq_true, if_false, bind_ok_iff] at h ⊢
      obtain ⟨rest, hrest, h⟩ := h
      exact ⟨rest, hrest, (Except.ok.inj h).symm⟩

/-- The dependencies of the first step of a run that does not raise, all of them completed if none is
unmet. -/
theorem runSteps_cons_deps (h : runSteps p (.step s :: items) = .ok run) :
    ∃ deps, s.dependsOn.iter? = some deps ∧
      ((unmet p.completed s).isEmpty = true → ∀ dep ∈ deps, dep.mem? p.completed = some true) := by
  rw [runSteps, bind_ok_iff] at h
  obtain ⟨deps, hdeps, h⟩ := h
  rw [bind_ok_iff] at h
  obtain ⟨c, hc, -⟩ := h
  rw [orTypeError_ok_iff] at hdeps
  refine ⟨deps, hdeps, fun hempty => checkDeps_met hc fun dep hdep hunmet => ?_⟩
  have hmem : dep ∈ unmet p.completed s := by
    rw [unmet, hdeps, Option.getD_some, List.mem_filter]
    exact ⟨hdep, decide_eq_true hunmet⟩
  rw [List.isEmpty_iff.1 hempty] at hmem
  cases hmem

/-- **A run that does not raise**: the number of the steps that it completes, and the last error. -/
theorem runSteps_ok (h : runSteps p (steps.map .step) = .ok run) :
    run.last.stepsExecuted = p.stepsExecuted + (ran p.completed steps).length ∧
      run.last.firstError = lastError p.firstError (failures p.completed steps) := by
  induction steps generalizing p run with
  | nil =>
    cases h
    exact ⟨rfl, rfl⟩
  | cons s steps ih =>
    have hstep := runSteps_cons_ok h
    unfold ran failures
    cases hempty : (unmet p.completed s).isEmpty with
    | true =>
      rw [hempty, if_pos rfl] at hstep
      obtain ⟨rest, hrest, rfl⟩ := hstep
      obtain ⟨hn, he⟩ := ih hrest
      simp only [if_true, List.length_cons, Run.from_last] at hn ⊢
      exact ⟨by omega, he⟩
    | false =>
      rw [hempty, if_neg Bool.false_ne_true] at hstep
      cases hstops : (mode s).stops with
      | true =>
        rw [hstops, if_pos rfl] at hstep
        simpa using hstep
      | false =>
        rw [hstops, if_neg Bool.false_ne_true] at hstep
        obtain ⟨rest, hrest, rfl⟩ := hstep
        obtain ⟨hn, he⟩ := ih hrest
        simp only [Bool.false_eq_true, if_false, Run.from_last]
        refine ⟨hn, ?_⟩
        rw [he, lastError_append]

/-- The result of `_execute_steps` for a list of steps. -/
theorem executeSteps_ok {plan : Plan} (hsteps : plan.steps = .list (steps.map .step))
    (h : executeSteps plan = .ok run) :
    run.last.stepsExecuted = (ran [] steps).length ∧
      run.last.firstError = ((failures [] steps).map Failure.error).getLast? := by
  rw [executeSteps, hsteps] at h
  obtain ⟨hn, he⟩ := runSteps_ok h
  refine ⟨by simpa using hn, ?_⟩
  rw [he, lastError, Option.or_none]

end

end PlanExec
