import IctAlgo.Lib.Runs
import IctAlgo.Orchestrator.Policy

/-!
# The counters of the policy gate

Every check should add one to the counter of its result and write an audit entry when it stops the
decision (`Accounted`). One return does not count: the pass of a decision whose recalled outcomes
are not poor (`RecalledPass`).

* `accountedAt_iff`: a call is accounted for unless it ends in that pass.
* `counters_account_iff`: the same for the runs, with the sum of the counters.
-/

set_option autoImplicit false

namespace Orchestrator

open Lib

namespace PolicyCounters

/-- One more result. -/
def add (counters : PolicyCounters) : GateResult → PolicyCounters
  | .pass _ => { counters with pass := counters.pass + 1 }
  | .veto _ => { counters with veto := counters.veto + 1 }
  | .defer _ => { counters with defer := counters.defer + 1 }

def total (counters : PolicyCounters) : ℕ := counters.pass + counters.veto + counters.defer

theorem total_add (counters : PolicyCounters) (result : GateResult) :
    (counters.add result).total = counters.total + 1 := by
  cases result with
  | pass _ => simp only [add, total]; omega
  | veto _ => simp only [add, total]; omega
  | defer _ => simp only [add, total]; omega

theorem ne_add (counters : PolicyCounters) (result : GateResult) : counters ≠ counters.add result := by
  intro h
  have htotal := congrArg total h
  rw [total_add] at htotal
  omega

end PolicyCounters

/-- The check with this result made `s'` of `s`: it counted the result, and wrote one audit entry if
the result stops the decision. -/
structure Accounted (s : Orch) (result : GateResult) (s' : Orch) : Prop where
  counters : s'.counters = s.counters.add result
  audit : if result.stops then ∃ entry, entry.result = result ∧ s'.audit = s.audit ++ [entry]
    else s'.audit = s.audit

section
variable {s : Orch}

theorem accounted_passed (details : Option Recall) : Accounted s (.pass details) s.passed := ⟨rfl, rfl⟩

theorem accounted_vetoed (v : Veto) (ts : Option ℤ) (id : Value) :
    Accounted s (.veto v) (s.vetoed v ts id) := ⟨rfl, _, rfl, rfl⟩

theorem accounted_deferred (cooldown ts : ℤ) (d : Fields) :
    Accounted s (.defer cooldown) (s.deferred cooldown ts d) := ⟨rfl, _, rfl, rfl⟩

theorem Accounted.of_eq {s t s' : Orch} {result : GateResult} (h : Accounted s result s')
    (hc : t.counters = s.counters) (ha : t.audit = s.audit) : Accounted t result s' := by
  refine ⟨by rw [hc]; exact h.counters, ?_⟩
  rw [ha]
  exact h.audit

theorem not_accounted_self (result : GateResult) : ¬ Accounted s result s := fun h =>
  PolicyCounters.ne_add _ _ h.counters

end

/-! ## One call -/

section
variable (cv : Conv) (cfg : GateConfig) (env : GateEnv)

/-- No check lets the decision stop, and its recalled outcomes are not poor. -/
structure RecalledPass (allowlist : Option (List String)) (d : Fields) : Prop where
  early : earlyVeto? cv cfg env allowlist d = none
  cooldown : cooldown? cv env d = none
  exposure : exposureVeto? cv env d = none
  performance : performanceVeto? cv cfg d = none
  similarity : ∀ v, similarity? cv cfg env d ≠ some (.veto v)
  recalled : ∃ details, recalled? cv cfg env d = some (details, false)

variable {cv cfg env} {d : Fields} {s : Orch}

/-- A promotion writes to the context, which the recall does not read. -/
theorem val_promoted (key : String) (hkey : key ≠ "context") :
    val (promoted d) key = val d key := by
  unfold promoted val
  split
  · exact Dict.getD_set_ne _ _ _ hkey
  · exact Dict.getD_set_ne _ _ _ hkey
  · rfl

theorem recalled?_promoted : recalled? cv cfg env (promoted d) = recalled? cv cfg env d := by
  simp only [recalled?, val_promoted "symbol" (by decide), val_promoted "signal_type" (by decide),
    val_promoted "model" (by decide), val_promoted "session" (by decide),
    val_promoted "direction" (by decide)]

/-- The checks of past outcomes are accounted for unless they end in the pass of the recall. -/
theorem checkOutcomes_accounted_iff :
    Accounted s (checkOutcomes cv cfg env d s).1 (checkOutcomes cv cfg env d s).2.2 ↔
      ¬ (performanceVeto? cv cfg d = none ∧ (∀ v, similarity? cv cfg env d ≠ some (.veto v)) ∧
        ∃ details, recalled? cv cfg env d = some (details, false)) := by
  have hrest (hp : performanceVeto? cv cfg d = none)
      (hsim : ∀ v, similarity? cv cfg env d ≠ some (.veto v)) :
      Accounted s (checkOutcomes cv cfg env d s).1 (checkOutcomes cv cfg env d s).2.2 ↔
        ¬ ∃ details, recalled? cv cfg env d = some (details, false) := by
    have hrec : recalled? cv cfg env (if (similarity? cv cfg env d).isSome then promoted d else d) =
        recalled? cv cfg env d := by
      split
      · exact recalled?_promoted
      · rfl
    unfold checkOutcomes
    rw [hp]
    split
    · rename_i h
      cases h
    split
    · rename_i v h
      exact absurd h (hsim v)
    simp only [hrec]
    rcases recalled? cv cfg env d with _ | ⟨details, poor⟩
    · exact iff_of_true (accounted_passed _) fun ⟨_, h⟩ => by cases h
    cases poor with
    | true => exact iff_of_true (accounted_vetoed _ _ _) fun ⟨_, h⟩ => by cases h
    | false => exact iff_of_false (not_accounted_self _) (not_not.2 ⟨details, rfl⟩)
  cases hp : performanceVeto? cv cfg d with
  | none =>
    by_cases hsim : ∀ v, similarity? cv cfg env d ≠ some (.veto v)
    · rw [hrest hp hsim]
      simp [hsim]
    · obtain ⟨v, hv⟩ := not_forall_not.1 hsim
      refine iff_of_true ?_ fun h => hsim h.2.1
      simp only [checkOutcomes, hp, hv]
      exact accounted_vetoed _ _ _
  | some v =>
    refine iff_of_true ?_ fun h => by cases h.1
    simp only [checkOutcomes, hp]
    exact accounted_vetoed _ _ _

theorem checkSnapshot_accounted_iff :
    Accounted s (checkSnapshot cv cfg env d s).1 (checkSnapshot cv cfg env d s).2.2 ↔
      ¬ RecalledPass cv cfg env s.allowlist d := by
  unfold checkSnapshot
  split
  · rename_i v hearly
    exact iff_of_true (accounted_vetoed _ _ _) fun h => by cases hearly.symm.trans h.early
  rename_i hearly
  split
  · rename_i cooldown hcool
    exact iff_of_true (accounted_deferred _ _ _) fun h => by cases hcool.symm.trans h.cooldown
  rename_i hcool
  split
  · rename_i v hexp
    exact iff_of_true (accounted_vetoed _ _ _) fun h => by cases hexp.symm.trans h.exposure
  rename_i hexp
  rw [checkOutcomes_accounted_iff, not_iff_not]
  refine ⟨fun h' => ?_, fun h => ?_⟩
  · obtain ⟨hp, hsim, hrec⟩ := h'
    exact ⟨hearly, hcool, hexp, hp, hsim, hrec⟩
  · exact ⟨h.performance, h.similarity, h.recalled⟩

end

/-! ## Runs -/

/-- A check of a dictionary with the permissive mode off. -/
structure GateCall where
  cv : Conv
  cfg : GateConfig
  strict : cfg.permissive = false
  env : GateEnv
  snapshot : Fields

namespace GateCall

def check (call : GateCall) (s : Orch) : GateResult × Payload × Orch :=
  preReasoningPolicyCheck call.cv call.cfg call.env (.dict call.snapshot) s

/-- The orchestrator after the check. -/
def step (s : Orch) (call : GateCall) : Orch := (call.check s).2.2

/-- The check is accounted for. -/
def AccountedAt (s : Orch) (call : GateCall) : Prop :=
  Accounted s (call.check s).1 (step s call)

/-- The check does not end in the pass of the recall. -/
def CountedAt (s : Orch) (call : GateCall) : Prop :=
  ¬ RecalledPass call.cv call.cfg call.env (s.loadAllowlist call.cfg call.env).allowlist call.snapshot

/-- Loading the allowlist writes neither counters nor audit entries. -/
theorem loadAllowlist_frame (cfg : GateConfig) (env : GateEnv) (s : Orch) :
    (s.loadAllowlist cfg env).counters = s.counters ∧ (s.loadAllowlist cfg env).audit = s.audit := by
  unfold Orch.loadAllowlist
  split
  · dsimp only
    split
    · exact ⟨rfl, rfl⟩
    · exact ⟨rfl, rfl⟩
  · exact ⟨rfl, rfl⟩

theorem result_eq (s : Orch) (call : GateCall) :
    (call.check s).1 = (checkSnapshot call.cv call.cfg call.env call.snapshot
      (s.loadAllowlist call.cfg call.env)).1 := by
  simp [check, preReasoningPolicyCheck, call.strict]

theorem step_eq (s : Orch) (call : GateCall) :
    step s call = (checkSnapshot call.cv call.cfg call.env call.snapshot
      (s.loadAllowlist call.cfg call.env)).2.2 := by
  simp [step, check, preReasoningPolicyCheck, call.strict]

theorem accountedAt_iff (s : Orch) (call : GateCall) : AccountedAt s call ↔ CountedAt s call := by
  obtain ⟨hc, ha⟩ := loadAllowlist_frame call.cfg call.env s
  rw [CountedAt, ← checkSnapshot_accounted_iff, AccountedAt, result_eq, step_eq]
  exact ⟨fun h => h.of_eq hc ha, fun h => h.of_eq hc.symm ha.symm⟩

theorem total_step {s : Orch} {call : GateCall} (h : CountedAt s call) :
    (step s call).counters.total = s.counters.total + 1 := by
  rw [((accountedAt_iff s call).2 h).counters, PolicyCounters.total_add]

/-- The sum of the counters is the number of calls, from `s` on, after every one of them. -/
def SumsToCalls (s : Orch) (calls : List GateCall) : Prop :=
  ∀ pre, pre <+: calls → (Runs.run step s pre).counters.total = s.counters.total + pre.length

theorem SumsToCalls.cons {s : Orch} {call : GateCall} {calls : List GateCall}
    (hc : (step s call).counters.total = s.counters.total + 1) (h : SumsToCalls (step s call) calls) :
    SumsToCalls s (call :: calls) := by
  intro pre hpre
  cases pre with
  | nil => rfl
  | cons _ pre =>
    obtain ⟨rfl, hrest⟩ := List.cons_prefix_cons.1 hpre
    rw [Runs.run_cons, h pre hrest, hc, List.length_cons]
    omega

theorem sumsToCalls_of_within {s : Orch} {calls : List GateCall}
    (h : Runs.Within step CountedAt s calls) : SumsToCalls s calls := by
  induction calls generalizing s with
  | nil =>
    intro pre hpre
    rw [List.prefix_nil.1 hpre]
    rfl
  | cons call calls ih => exact .cons (total_step h.1) (ih h.2)

/-- **The checks of a run are accounted for**, one by one and in the sum of the counters, exactly
when none of them ends in the pass of the recall. -/
theorem counters_account_iff (s : Orch) (calls : List GateCall) :
    (Runs.Within step AccountedAt s calls ∧ SumsToCalls s calls) ↔
      Runs.Within step CountedAt s calls := by
  rw [Runs.within_congr accountedAt_iff]
  exact and_iff_left_of_imp sumsToCalls_of_within

/-- A decision of a signal whose last outcome in the database was a win. -/
def recalledWin : GateCall where
  cv := .plain
  cfg := {
    permissive := false
    constraints := Dict.empty.set "outcome_adaptation" (.dict [("enabled", .bool true)])
    hasSessionmaker := true }
  strict := rfl
  env := { defaultPolicies .plain 1704067200000 with
    outcomes := fun _ => .ok [⟨some "win", some 10, some 1⟩] }
  snapshot := (Dict.empty.set "symbol" (.str "TST")).set "signal_type" (.str "sweep")

/-- It passes, and no counter moves. -/
theorem recalledWin_uncounted :
    (recalledWin.check {}).1.stops = false ∧ (step {} recalledWin).counters.total = 0 ∧
    ¬ (Runs.Within step AccountedAt {} [recalledWin] ∧ SumsToCalls {} [recalledWin]) := by
  have htotal : (step {} recalledWin).counters.total = 0 := by decide +kernel
  refine ⟨by decide +kernel, htotal, fun h => ?_⟩
  have hsum := h.2 [recalledWin] (List.prefix_refl _)
  rw [Runs.run_cons, Runs.run_nil, htotal] at hsum
  cases hsum

end GateCall

end Orchestrator
