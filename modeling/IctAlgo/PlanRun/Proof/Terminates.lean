import Mathlib.Tactic.Linarith
import IctAlgo.Lib.Trail
import IctAlgo.PlanRun.Executor

/-!
# The end of a plan run

`Visits` are the steps a run comes to, read off the replies of `_run_step`. An attempt is what moves
the cursor, so a step that allows none is never left.

* `Attempted`: what the loop over the attempts does at a step that allows some.
* `endsWithin_iff`: a run of an acyclic plan ends, within the attempts its steps allow, exactly when
  every step it visits allows one.
-/

set_option autoImplicit false

namespace PlanRun

open Lib

variable {V : Type}

/-! ## What a run is to do -/

/-- The attempts the retry setting of a step allows. -/
def PlanStep.attemptsAllowed (step : PlanStep) : ℕ :=
  match step.retries with
  | .ok maxRetries => maxRetries.toNat
  | .error _ => 0

/-- Their sum over the steps of a plan. -/
def Plan.attemptsAllowed (plan : Plan) : ℕ :=
  match plan.steps with
  | some steps => (steps.items.map fun e => e.2.attemptsAllowed).sum
  | none => 0

/-- An edge of the step graph, by `on_success` or `on_failure`. -/
def Edge (steps : Dict String PlanStep) (stepId next : String) : Prop :=
  ∃ step, steps.get? stepId = some step ∧
    (truthy step.onSuccess = some next ∨ truthy step.onFailure = some next)

def Plan.Acyclic (plan : Plan) : Prop := ∀ steps, plan.steps = some steps → Lib.Acyclic (Edge steps)

/-- The run ends within the attempts that the steps allow. -/
def EndsWithin (orch : Orch V) (plan : Plan) (ctx : ExecutionContext V) : Prop :=
  ∃ fuel run result, runPlan orch plan ctx fuel = some (run, result) ∧
    run.calls ≤ plan.attemptsAllowed

/-! ## The steps a run comes to -/

/-- `k` calls from the one with the number `n` on raise. -/
def Fails (orch : Orch V) (n k : ℕ) : Prop := ∀ j < k, ∃ exc, orch.reply (n + j) = .error exc

/-- The pause after `k` failed attempts does not raise. -/
def PlanStep.Pauses (step : PlanStep) (k : ℕ) : Prop := 0 < k → ∃ delay, step.retryDelayS = .ok delay

section
variable (orch : Orch V) (steps : Dict String PlanStep) (start : String)

/-- After `n` calls the run comes to a step: to the first one, to the one after a success at an
attempt, or to the one after the failure of all attempts. -/
inductive Visits : ℕ → String → Prop
  | start {stepId : String} (hid : truthy (some start) = some stepId) : Visits 0 stepId
  | success {n k : ℕ} {stepId next : String} {step : PlanStep} {maxRetries : ℤ} {result : V}
      (hvisit : Visits n stepId) (hstep : steps.get? stepId = some step)
      (hretries : step.retries = .ok maxRetries) (hk : k < maxRetries.toNat)
      (hfails : Fails orch n k) (hpauses : step.Pauses k) (hok : orch.reply (n + k) = .ok result)
      (hnext : truthy step.onSuccess = some next) : Visits (n + k + 1) next
  | failure {n k : ℕ} {stepId next : String} {step : PlanStep} {maxRetries : ℤ}
      (hvisit : Visits n stepId) (hstep : steps.get? stepId = some step)
      (hretries : step.retries = .ok maxRetries) (hk : k + 1 = maxRetries.toNat)
      (hfails : Fails orch n (k + 1)) (hpauses : step.Pauses k)
      (hnext : truthy step.onFailure = some next) : Visits (n + (k + 1)) next

end

/-- Every visited step allows an attempt. -/
def Attemptable (orch : Orch V) (steps : Dict String PlanStep) (start : String) : Prop :=
  ∀ n stepId, Visits orch steps start n stepId → ∀ step maxRetries,
    steps.get? stepId = some step → step.retries = .ok maxRetries → 0 < maxRetries

/-- Every step that the run of a plan visits does. -/
def Plan.Attemptable (plan : Plan) (orch : Orch V) : Prop :=
  ∀ start steps, plan.start = some start → plan.steps = some steps →
    PlanRun.Attemptable orch steps start

/-! ## The attempts at a step -/

section
variable {orch : Orch V} {stepId : String} {step : PlanStep}

theorem truthy_eq_some {current : Option String} {next : String} (h : truthy current = some next) :
    current = some next := (Option.filter_eq_some_iff.1 h).1

theorem PlanStep.pauses_zero (step : PlanStep) : step.Pauses 0 := fun h => absurd h (lt_irrefl 0)

theorem fails_zero (n : ℕ) : Fails orch n 0 := fun _ h => absurd h (Nat.not_lt_zero _)

/-- One failure, and then `k` from the next call on. -/
theorem fails_succ {n k : ℕ} : Fails orch n (k + 1) ↔
    (∃ exc, orch.reply n = .error exc) ∧ Fails orch (n + 1) k := by
  refine ⟨fun h => ?_, fun h j hj => ?_⟩
  · refine ⟨h 0 (Nat.succ_pos k), fun j hj => ?_⟩
    rw [Nat.add_right_comm, Nat.add_assoc]
    exact h (j + 1) (Nat.succ_lt_succ hj)
  · obtain ⟨hfirst, hrest⟩ := h
    cases j with
    | zero => exact hfirst
    | succ j =>
      rw [← Nat.add_assoc, Nat.add_right_comm]
      exact hrest j (Nat.lt_of_succ_lt_succ hj)

/-- What the loop over `left` attempts does from the call `n` on. -/
inductive Attempted (orch : Orch V) (step : PlanStep) (n left : ℕ) (run : Run V) : Turn → Prop
  | success {k : ℕ} {result : V} (hk : k < left) (hfails : Fails orch n k)
      (hpauses : step.Pauses k) (hok : orch.reply (n + k) = .ok result)
      (hcalls : run.calls = n + k + 1) : Attempted orch step n left run (.moved step.onSuccess true)
  | failure {k : ℕ} {next : String} (hk : k + 1 = left) (hfails : Fails orch n (k + 1))
      (hpauses : step.Pauses k) (hnext : truthy step.onFailure = some next)
      (hcalls : run.calls = n + (k + 1)) : Attempted orch step n left run (.moved (some next) false)
  | returned (hcalls : run.calls ≤ n + left) : Attempted orch step n left run .returned
  | raised {exc : String} (hcalls : run.calls ≤ n + left) :
      Attempted orch step n left run (.raised exc)

@[simp] theorem Run.called_calls (run : Run V) : run.called.calls = run.calls + 1 := rfl

theorem handleFailureToDlq_calls (exc : String) (run : Run V) :
    (handleFailureToDlq orch step exc run).calls = run.calls := by
  unfold handleFailureToDlq
  split <;> rfl

/-- An attempt that fails and is followed by a pause. -/
theorem Attempted.after_failure {n left : ℕ} {run : Run V} {turn : Turn} {exc : String} {delay : ℚ}
    (h : Attempted orch step (n + 1) left run turn) (hexc : orch.reply n = .error exc)
    (hdelay : step.retryDelayS = .ok delay) : Attempted orch step n (left + 1) run turn := by
  cases h with
  | @success k result hk hfails _ hok hcalls =>
    have hok' : orch.reply (n + (k + 1)) = .ok result := by
      rw [← hok]
      congr 1
      omega
    exact .success (k := k + 1) (Nat.succ_lt_succ hk) (fails_succ.2 ⟨⟨exc, hexc⟩, hfails⟩)
      (fun _ => ⟨delay, hdelay⟩) hok' (by omega)
  | @failure k _ hk hfails _ hnext hcalls =>
    exact .failure (k := k + 1) (by omega) (fails_succ.2 ⟨⟨exc, hexc⟩, hfails⟩)
      (fun _ => ⟨delay, hdelay⟩) hnext (by omega)
  | returned hcalls => exact .returned (by omega)
  | raised hcalls => exact .raised (by omega)

/-- A failed attempt is followed by the next one. -/
theorem attempts_retry {left : ℕ} {run : Run V} {exc : String} {delay : ℚ} (hleft : left ≠ 0)
    (hexc : orch.reply run.calls = .error exc) (hdelay : step.retryDelayS = .ok delay) :
    attempts orch stepId step (left + 1) run = attempts orch stepId step left run.called := by
  rw [attempts, hexc]
  simp only [hleft, ↓reduceIte, hdelay]

theorem attempts_spec : ∀ (left : ℕ) (run : Run V), 0 < left →
    ∃ run' turn, attempts orch stepId step left run = (run', turn) ∧
      Attempted orch step run.calls left run' turn := by
  intro left
  induction left with
  | zero => exact fun _ h => absurd h (lt_irrefl 0)
  | succ left ih =>
    intro run _
    cases hreply : orch.reply run.calls with
    | ok result =>
      refine ⟨run.called.store stepId result, .moved step.onSuccess true, ?_,
        .success (k := 0) (Nat.succ_pos left) (fails_zero _) step.pauses_zero hreply rfl⟩
      rw [attempts, hreply]
    | error exc =>
      by_cases hleft : left = 0
      · subst hleft
        have hfails : Fails orch run.calls 1 := fails_succ.2 ⟨⟨exc, hreply⟩, fails_zero _⟩
        rw [attempts, hreply]
        simp only [↓reduceIte]
        cases hnext : truthy step.onFailure with
        | none => exact ⟨_, _, rfl, .returned (handleFailureToDlq_calls exc run.called).le⟩
        | some next =>
          exact ⟨_, _, rfl, .failure (k := 0) rfl hfails step.pauses_zero hnext rfl⟩
      · cases hdelay : step.retryDelayS with
        | error e =>
          refine ⟨run.called, .raised e, ?_, .raised (Nat.add_le_add_left (Nat.le_add_left 1 left) _)⟩
          rw [attempts, hreply]
          simp only [hleft, ↓reduceIte, hdelay]
        | ok delay =>
          obtain ⟨run', turn, hrun, h⟩ := ih run.called (Nat.pos_of_ne_zero hleft)
          refine ⟨run', turn, ?_, h.after_failure hreply hdelay⟩
          rw [attempts_retry hleft hreply hdelay, hrun]

/-- The attempts are as many as the first success needs. -/
theorem attempts_success {k : ℕ} {result : V} : ∀ (left : ℕ) (run : Run V), k < left →
    Fails orch run.calls k → step.Pauses k → orch.reply (run.calls + k) = .ok result →
    ∃ run', run'.calls = run.calls + k + 1 ∧
      attempts orch stepId step left run = (run', .moved step.onSuccess true) := by
  induction k with
  | zero =>
    intro left run hk _ _ hok
    obtain ⟨left, rfl⟩ := Nat.exists_eq_succ_of_ne_zero (Nat.ne_of_gt hk)
    rw [Nat.add_zero] at hok
    refine ⟨run.called.store stepId result, rfl, ?_⟩
    rw [attempts, hok]
  | succ k ih =>
    intro left run hk hfails hpauses hok
    obtain ⟨left, rfl⟩ := Nat.exists_eq_succ_of_ne_zero (Nat.ne_of_gt (Nat.zero_lt_of_lt hk))
    obtain ⟨⟨exc, hexc⟩, hrest⟩ := fails_succ.1 hfails
    obtain ⟨delay, hdelay⟩ := hpauses (Nat.succ_pos k)
    have hleft : left ≠ 0 := by omega
    have hok' : orch.reply (run.called.calls + k) = .ok result := by
      rw [← hok, Run.called_calls]
      congr 1
      omega
    obtain ⟨run', hcalls, hrun⟩ := ih left run.called (Nat.lt_of_succ_lt_succ hk) hrest
      (fun _ => ⟨delay, hdelay⟩) hok'
    refine ⟨run', ?_, ?_⟩
    · rw [hcalls, Run.called_calls]
      omega
    · rw [attempts_retry hleft hexc hdelay]
      exact hrun

/-- If all fail they are all made, and the last failure decides what follows. -/
theorem attempts_exhausted {k : ℕ} {exc : String} : ∀ run : Run V, Fails orch run.calls (k + 1) →
    step.Pauses k → orch.reply (run.calls + k) = .error exc →
    attempts orch stepId step (k + 1) run = match truthy step.onFailure with
      | some next => ({ run with calls := run.calls + (k + 1) }, .moved (some next) false)
      | none =>
        (handleFailureToDlq orch step exc { run with calls := run.calls + (k + 1) }, .returned) := by
  induction k with
  | zero =>
    intro run _ _ hlast
    rw [Nat.add_zero] at hlast
    rw [attempts, hlast]
    simp only [↓reduceIte]
    cases truthy step.onFailure <;> rfl
  | succ k ih =>
    intro run hfails hpauses hlast
    obtain ⟨⟨exc', hexc⟩, hrest⟩ := fails_succ.1 hfails
    obtain ⟨delay, hdelay⟩ := hpauses (Nat.succ_pos k)
    have hlast' : orch.reply (run.called.calls + k) = .error exc := by
      rw [← hlast, Run.called_calls]
      congr 1
      omega
    have hcalls : run.called.calls + (k + 1) = run.calls + (k + 1 + 1) := by
      rw [Run.called_calls]
      omega
    rw [attempts_retry k.succ_ne_zero hexc hdelay, ih run.called hrest (fun _ => ⟨delay, hdelay⟩) hlast',
      hcalls]
    rfl

/-- A step that follows the failures is gone to. -/
theorem attempts_failure {k : ℕ} {next : String} (hnext : truthy step.onFailure = some next)
    (run : Run V) (hfails : Fails orch run.calls (k + 1)) (hpauses : step.Pauses k) :
    ∃ run', run'.calls = run.calls + (k + 1) ∧
      attempts orch stepId step (k + 1) run = (run', .moved (some next) false) := by
  obtain ⟨exc, hexc⟩ := hfails k (Nat.lt_succ_self k)
  exact ⟨_, rfl, by rw [attempts_exhausted run hfails hpauses hexc, hnext]⟩

theorem Attempted.calls_le {n left : ℕ} {run : Run V} {turn : Turn}
    (h : Attempted orch step n left run turn) : run.calls ≤ n + left := by
  cases h with
  | success hk _ _ _ hcalls => omega
  | failure hk _ _ _ hcalls => omega
  | returned hcalls => exact hcalls
  | raised hcalls => exact hcalls

end

/-! ## The loop over the steps -/

section
variable {orch : Orch V} {steps : Dict String PlanStep} {start stepId next : String}
  {step : PlanStep} {maxRetries : ℤ} {n : ℕ}

theorem Visits.truthy (h : Visits orch steps start n stepId) :
    truthy (some stepId) = some stepId := by
  cases h with
  | start hid => rwa [truthy_eq_some hid] at hid
  | success _ _ _ _ _ _ _ hnext => rwa [truthy_eq_some hnext] at hnext
  | failure _ _ _ _ _ _ hnext => rwa [truthy_eq_some hnext] at hnext

/-- A turn of the loop that moves the cursor, or leaves it where it is. -/
theorem runLoop_moved {run run' : Run V} {current current' : Option String} {succeeded : Bool}
    (fuel : ℕ) (hid : truthy current = some stepId) (hstep : steps.get? stepId = some step)
    (hretries : step.retries = .ok maxRetries)
    (hturn : attempts orch stepId step maxRetries.toNat run = (run', .moved current' succeeded))
    (hgoes : succeeded = false → truthy current' ≠ none) :
    runLoop orch steps (fuel + 1) run current = runLoop orch steps fuel run' current' := by
  simp only [runLoop, hid, hstep, hretries, hturn]
  rw [if_neg]
  cases succeeded with
  | true => simp
  | false => simpa using hgoes rfl

/-- **A step without attempts is never left.** -/
theorem runLoop_stuck (hid : truthy (some stepId) = some stepId)
    (hstep : steps.get? stepId = some step) (hretries : step.retries = .ok maxRetries)
    (hnone : maxRetries ≤ 0) (run : Run V) :
    ∀ fuel, runLoop orch steps fuel run (some stepId) = none := by
  intro fuel
  induction fuel with
  | zero => rfl
  | succ fuel ih =>
    have hturn : attempts orch stepId step maxRetries.toNat run =
        (run, .moved (some stepId) false) := by
      rw [Int.toNat_of_nonpos hnone]
      rfl
    rw [runLoop_moved fuel hid hstep hretries hturn fun _ => by simp [hid], ih]

/-- More fuel changes nothing about a run that ends. -/
theorem runLoop_add {result : Run V × Except String Unit} (d : ℕ) :
    ∀ {fuel : ℕ} {run : Run V} {current : Option String},
      runLoop orch steps fuel run current = some result →
        runLoop orch steps (fuel + d) run current = some result := by
  intro fuel
  induction fuel with
  | zero =>
    intro run current h
    cases h
  | succ fuel ih =>
    intro run current h
    rw [Nat.add_right_comm]
    simp only [runLoop] at h ⊢
    split at h
    · exact h
    · split at h
      · exact h
      · split at h
        · exact h
        · split at h
          · split at h
            · rwa [if_pos ‹_›]
            · rw [if_neg ‹_›]
              exact ih h
          · exact h
          · exact h

/-- The run comes to the steps it visits, and what the attempts at a step keep holds there. -/
theorem Visits.reaches {P : Run V → Prop}
    (hkeeps : ∀ {stepId step left run run' current succeeded}, P run →
      attempts orch stepId step left run = (run', .moved current succeeded) → P run')
    (h : Visits orch steps start n stepId) (ctx : ExecutionContext V) (hstart : P { ctx }) :
    ∃ d run, run.calls = n ∧ P run ∧ ∀ fuel, runLoop orch steps (fuel + d) { ctx } (some start) =
      runLoop orch steps fuel run (some stepId) := by
  induction h with
  | start hid =>
    obtain rfl := Option.some.inj (truthy_eq_some hid)
    exact ⟨0, { ctx }, rfl, hstart, fun _ => rfl⟩
  | success hvisit hstep hretries hk hfails hpauses hok hnext ih =>
    obtain ⟨d, run, rfl, hrun, hloop⟩ := ih
    obtain ⟨run', hcalls, hturn⟩ := attempts_success _ run hk hfails hpauses hok
    refine ⟨d + 1, run', hcalls, hkeeps hrun hturn, fun fuel => ?_⟩
    rw [Nat.add_comm d, ← Nat.add_assoc, hloop,
      runLoop_moved fuel hvisit.truthy hstep hretries hturn (fun h => by cases h),
      truthy_eq_some hnext]
  | failure hvisit hstep hretries hk hfails hpauses hnext ih =>
    obtain ⟨d, run, rfl, hrun, hloop⟩ := ih
    obtain ⟨run', hcalls, hturn⟩ := attempts_failure hnext run hfails hpauses
    rw [hk] at hturn
    have hgoes := truthy_eq_some hnext ▸ hnext
    refine ⟨d + 1, run', hcalls, hkeeps hrun hturn, fun fuel => ?_⟩
    rw [Nat.add_comm d, ← Nat.add_assoc, hloop,
      runLoop_moved fuel hvisit.truthy hstep hretries hturn fun _ => by simp [hgoes]]

/-- A run that ends comes to the steps it visits. -/
theorem Visits.run (h : Visits orch steps start n stepId) {ctx : ExecutionContext V} {fuel : ℕ}
    {result : Run V × Except String Unit}
    (hrun : runLoop orch steps fuel { ctx } (some start) = some result) :
    ∃ fuel run, run.calls = n ∧ runLoop orch steps fuel run (some stepId) = some result := by
  obtain ⟨d, run, hcalls, -, hloop⟩ :=
    h.reaches (P := fun _ => True) (fun _ _ => trivial) ctx trivial
  exact ⟨fuel, run, hcalls, (hloop fuel).symm.trans (runLoop_add d hrun)⟩

/-- The attempts at a visited step lead to the next one. -/
theorem Visits.moved {run : Run V} {current : Option String} {succeeded : Bool}
    (h : Visits orch steps start n stepId) (hstep : steps.get? stepId = some step)
    (hretries : step.retries = .ok maxRetries)
    (hturn : Attempted orch step n maxRetries.toNat run (.moved current succeeded))
    (hnext : PlanRun.truthy current = some next) : Visits orch steps start run.calls next := by
  cases hturn with
  | success hk hfails hpauses hok hcalls =>
    rw [hcalls]
    exact .success h hstep hretries hk hfails hpauses hok hnext
  | failure hk hfails hpauses hfail hcalls =>
    obtain rfl := Option.some.inj (truthy_eq_some hnext)
    rw [hcalls]
    exact .failure h hstep hretries hk hfails hpauses hfail

/-- The attempts that the step with an id allows. -/
def allowedAt (steps : Dict String PlanStep) (stepId : String) : ℕ :=
  (steps.get? stepId).elim 0 PlanStep.attemptsAllowed

/-- The run has left the steps `seen`, each once, and stands at the cursor. -/
structure Walking (orch : Orch V) (steps : Dict String PlanStep) (start : String)
    (seen : List String) (run : Run V) (current : Option String) : Prop where
  nodup : seen.Nodup
  keys : seen ⊆ steps.items.map Prod.fst
  spent : run.calls ≤ (seen.map (allowedAt steps)).sum
  visits : ∀ stepId, truthy current = some stepId → Visits orch steps start run.calls stepId
  trail : ∀ stepId, truthy current = some stepId → Trail (Edge steps) seen stepId

variable {seen : List String} {run run' : Run V} {current : Option String}

/-- The steps left so far do not allow more than all. -/
theorem sum_allowedAt_le (hnodup : seen.Nodup) (hkeys : seen ⊆ steps.items.map Prod.fst) :
    (seen.map (allowedAt steps)).sum ≤
      (steps.items.map fun e => e.2.attemptsAllowed).sum := by
  have hitems : (steps.items.map Prod.fst).map (allowedAt steps) =
      steps.items.map fun e => e.2.attemptsAllowed := by
    rw [List.map_map]
    refine List.map_congr_left fun e he => ?_
    have hget : steps.get? e.1 = some e.2 := Dict.get?_eq_some_iff.2 he
    simp [allowedAt, hget]
  rw [← hitems]
  exact sum_map_le_of_subset _ hnodup hkeys

theorem Walking.cons_keys (hwalk : Walking orch steps start seen run current)
    (hstep : steps.get? stepId = some step) : stepId :: seen ⊆ steps.items.map Prod.fst :=
  List.cons_subset.2 ⟨List.mem_map_of_mem (Dict.get?_eq_some_iff.1 hstep), hwalk.keys⟩

theorem Walking.cons_spent (hwalk : Walking orch steps start seen run current)
    (hstep : steps.get? stepId = some step) (hretries : step.retries = .ok maxRetries) {turn : Turn}
    (h : Attempted orch step run.calls maxRetries.toNat run' turn) :
    run'.calls ≤ ((stepId :: seen).map (allowedAt steps)).sum := by
  have hallowed : allowedAt steps stepId = maxRetries.toNat := by
    simp [allowedAt, hstep, PlanStep.attemptsAllowed, hretries]
  have hcalls := h.calls_le
  have hspent := hwalk.spent
  rw [List.map_cons, List.sum_cons, hallowed]
  omega

/-- **A turn that moves the cursor** leaves one more step. -/
theorem Walking.moved (hacyclic : Lib.Acyclic (Edge steps))
    (hwalk : Walking orch steps start seen run current) (hid : truthy current = some stepId)
    (hstep : steps.get? stepId = some step) (hretries : step.retries = .ok maxRetries)
    {current' : Option String} {succeeded : Bool}
    (h : Attempted orch step run.calls maxRetries.toNat run' (.moved current' succeeded)) :
    Walking orch steps start (stepId :: seen) run' current' := by
  have hvisit := hwalk.visits stepId hid
  have htrail := hwalk.trail stepId hid
  refine ⟨List.nodup_cons.2 ⟨htrail.fresh hacyclic, hwalk.nodup⟩,
    hwalk.cons_keys hstep, hwalk.cons_spent hstep hretries h,
    fun next hnext => hvisit.moved hstep hretries h hnext, ?_⟩
  · intro next hnext
    refine htrail.cons hacyclic ⟨step, hstep, ?_⟩
    cases h with
    | success _ _ _ _ _ => exact Or.inl hnext
    | failure _ _ _ hfail _ =>
      obtain rfl := Option.some.inj (truthy_eq_some hnext)
      exact Or.inr hfail

/-- One turn of the loop: the run ends, or it leaves one more step. -/
theorem Walking.turn (hacyclic : Lib.Acyclic (Edge steps)) (hattempt : Attemptable orch steps start)
    (hwalk : Walking orch steps start seen run current) :
    (∃ run' result, (∀ fuel, runLoop orch steps (fuel + 1) run current = some (run', result)) ∧
      run'.calls ≤ (steps.items.map fun e => e.2.attemptsAllowed).sum) ∨
    ∃ stepId run' current', Walking orch steps start (stepId :: seen) run' current' ∧
      ∀ fuel, runLoop orch steps (fuel + 1) run current = runLoop orch steps fuel run' current' := by
  have hspent := hwalk.spent.trans (sum_allowedAt_le hwalk.nodup hwalk.keys)
  cases hid : truthy current with
  | none => exact Or.inl ⟨run, .ok (), fun fuel => by simp [runLoop, hid], hspent⟩
  | some stepId =>
    cases hstep : steps.get? stepId with
    | none => exact Or.inl ⟨run, .ok (), fun fuel => by simp [runLoop, hid, hstep], hspent⟩
    | some step =>
      cases hretries : step.retries with
      | error e =>
        exact Or.inl ⟨run, .error e, fun fuel => by simp [runLoop, hid, hstep, hretries], hspent⟩
      | ok maxRetries =>
        have hpos :=
          hattempt run.calls stepId (hwalk.visits stepId hid) step maxRetries hstep hretries
        obtain ⟨run', turn, hturn, h⟩ :=
          @attempts_spec V orch stepId step maxRetries.toNat run (by omega)
        have hnodup : (stepId :: seen).Nodup :=
          List.nodup_cons.2 ⟨(hwalk.trail stepId hid).fresh hacyclic, hwalk.nodup⟩
        have hspent' := (hwalk.cons_spent hstep hretries h).trans
          (sum_allowedAt_le hnodup (hwalk.cons_keys hstep))
        cases turn with
        | moved current' succeeded =>
          refine Or.inr ⟨stepId, run', current',
            hwalk.moved hacyclic hid hstep hretries h, fun fuel => ?_⟩
          refine runLoop_moved fuel hid hstep hretries hturn fun hsucceeded => ?_
          cases h with
          | success => cases hsucceeded
          | failure _ _ _ hnext _ =>
            rw [← truthy_eq_some hnext, hnext]
            simp
        | returned =>
          refine Or.inl ⟨run', .ok (), fun fuel => ?_, hspent'⟩
          simp [runLoop, hid, hstep, hretries, hturn]
        | raised e =>
          refine Or.inl ⟨run', .error e, fun fuel => ?_, hspent'⟩
          simp [runLoop, hid, hstep, hretries, hturn]

/-- From every point of its walk the run ends: each turn leaves one of the `d` steps that are not
left yet. -/
theorem Walking.ends (hacyclic : Lib.Acyclic (Edge steps))
    (hattempt : Attemptable orch steps start) :
    ∀ (d : ℕ) {seen : List String} {run : Run V} {current : Option String},
      Walking orch steps start seen run current → steps.items.length ≤ seen.length + d →
      ∃ run' result, runLoop orch steps (d + 1) run current = some (run', result) ∧
        run'.calls ≤ (steps.items.map fun e => e.2.attemptsAllowed).sum := by
  intro d
  induction d with
  | zero =>
    intro seen run current hwalk hd
    rcases hwalk.turn hacyclic hattempt with ⟨run', result, hrun, hspent⟩ |
      ⟨stepId, run', current', hwalk', -⟩
    · exact ⟨run', result, hrun 0, hspent⟩
    · have hlen := (hwalk'.nodup.subperm hwalk'.keys).length_le
      rw [List.length_map, List.length_cons] at hlen
      omega
  | succ d ih =>
    intro seen run current hwalk hd
    rcases hwalk.turn hacyclic hattempt with ⟨run', result, hrun, hspent⟩ |
      ⟨stepId, run', current', hwalk', hrun⟩
    · exact ⟨run', result, hrun (d + 1), hspent⟩
    · rw [hrun (d + 1)]
      exact ih hwalk' (by rw [List.length_cons]; omega)

end

/-! ## A run -/

/-- A run without attempts at some step does not end. -/
theorem attemptable_of_ends {orch : Orch V} {steps : Dict String PlanStep} {start : String}
    {ctx : ExecutionContext V} {fuel : ℕ} {result : Run V × Except String Unit}
    (h : runLoop orch steps fuel { ctx } (some start) = some result) :
    Attemptable orch steps start := by
  intro n stepId hvisit step maxRetries hstep hretries
  refine not_le.1 fun hnone => ?_
  obtain ⟨fuel, run, -, hrun⟩ := hvisit.run h
  rw [runLoop_stuck hvisit.truthy hstep hretries hnone run fuel] at hrun
  cases hrun

/-- **A run of an acyclic plan ends, within the attempts its steps allow, exactly when every step it
visits allows one.** -/
theorem endsWithin_iff (orch : Orch V) (plan : Plan) (ctx : ExecutionContext V)
    (hacyclic : plan.Acyclic) : EndsWithin orch plan ctx ↔ plan.Attemptable orch := by
  refine ⟨fun h start steps hstart hsteps => ?_, fun hattempt => ?_⟩
  · obtain ⟨fuel, run, result, hrun, -⟩ := h
    simp only [runPlan, hstart, hsteps] at hrun
    exact attemptable_of_ends hrun
  · cases hstart : plan.start with
    | none =>
      exact ⟨0, { ctx }, .error "plan must contain a 'start' string",
        by simp only [runPlan, hstart], Nat.zero_le _⟩
    | some start =>
      cases hsteps : plan.steps with
      | none =>
        exact ⟨0, { ctx }, .error "plan must contain a 'steps' dict mapping step_id -> step",
          by simp only [runPlan, hstart, hsteps], Nat.zero_le _⟩
      | some steps =>
        have hwalk : Walking orch steps start [] { ctx } (some start) :=
          ⟨List.nodup_nil, List.nil_subset _, le_rfl, fun _ hid => .start hid, fun _ _ => .nil _⟩
        obtain ⟨run, result, hrun, hspent⟩ := hwalk.ends (hacyclic steps hsteps)
          (hattempt start steps hstart hsteps) steps.items.length (by simp)
        refine ⟨steps.items.length + 1, run, result, ?_, ?_⟩
        · simpa only [runPlan, hstart, hsteps] using hrun
        · simpa only [Plan.attemptsAllowed, hsteps] using hspent

/-! ## Two steps -/

/-- A call of the model, tried twice, and a notification. -/
def twoSteps (retries : ℤ) : Dict String PlanStep where
  items := [("s1", { retries := .ok 2, onSuccess := some "s2" }), ("s2", { retries := .ok retries })]
  nodup := by simp

/-- The plan of these steps. -/
def twoStepPlan (retries : ℤ) : Plan where
  start := some "s1"
  steps := some (twoSteps retries)

/-- An orchestrator whose first call of the model fails. -/
def failsFirst : Orch ℕ where
  reply n := if n = 0 then .error "simulated transient" else .ok n

def noContext : ExecutionContext ℕ := { signal := 0, decision := 0, corrId := "cid-1" }

theorem mem_twoSteps {retries : ℤ} {stepId : String} {step : PlanStep}
    (h : (twoSteps retries).get? stepId = some step) :
    (stepId = "s1" ∧ step = { retries := .ok 2, onSuccess := some "s2" }) ∨
      (stepId = "s2" ∧ step = { retries := .ok retries }) := by
  have hmem := Dict.get?_eq_some_iff.1 h
  simpa only [twoSteps, List.mem_cons, Prod.mk.injEq, List.not_mem_nil, or_false] using hmem

theorem twoStepPlan_acyclic (retries : ℤ) : (twoStepPlan retries).Acyclic := by
  intro steps hsteps
  obtain rfl := Option.some.inj hsteps
  refine acyclic_of_rank (fun stepId => if stepId = "s1" then 0 else 1) fun stepId next hedge => ?_
  obtain ⟨step, hstep, hnext⟩ := hedge
  obtain ⟨rfl, rfl⟩ | ⟨rfl, rfl⟩ := mem_twoSteps hstep
  · rcases hnext with hnext | hnext
    · obtain rfl := Option.some.inj (truthy_eq_some hnext)
      decide
    · cases hnext
  · rcases hnext with hnext | hnext <;> cases hnext

theorem twoStepPlan_attemptable (orch : Orch ℕ) : (twoStepPlan 1).Attemptable orch := by
  intro start steps _ hsteps n stepId _ step maxRetries hstep hretries
  obtain rfl := Option.some.inj hsteps
  obtain ⟨-, rfl⟩ | ⟨-, rfl⟩ := mem_twoSteps hstep
  · obtain rfl := Except.ok.inj hretries
    decide
  · obtain rfl := Except.ok.inj hretries
    decide

/-- With one attempt at the notification the run ends. -/
theorem twoStepPlan_endsWithin : EndsWithin failsFirst (twoStepPlan 1) noContext :=
  (endsWithin_iff failsFirst (twoStepPlan 1) noContext (twoStepPlan_acyclic 1)).2
    (twoStepPlan_attemptable failsFirst)

/-- With none it never does. -/
theorem noAttempts_endless :
    (twoStepPlan 0).Acyclic ∧ ¬ EndsWithin failsFirst (twoStepPlan 0) noContext := by
  refine ⟨twoStepPlan_acyclic 0, fun h => ?_⟩
  obtain ⟨fuel, run, result, hrun, -⟩ := h
  have hattempt : Attemptable failsFirst (twoSteps 0) "s1" := attemptable_of_ends hrun
  have hs1 : Visits failsFirst (twoSteps 0) "s1" 0 "s1" := .start rfl
  have hfirst : Fails failsFirst 0 1 := fails_succ.2 ⟨⟨_, rfl⟩, fails_zero 1⟩
  have hs2 : Visits failsFirst (twoSteps 0) "s1" 2 "s2" :=
    hs1.success (k := 1) rfl rfl (by decide) hfirst (fun _ => ⟨0, rfl⟩) rfl rfl
  exact absurd (hattempt 2 "s2" hs2 _ 0 rfl rfl) (lt_irrefl 0)

end PlanRun
