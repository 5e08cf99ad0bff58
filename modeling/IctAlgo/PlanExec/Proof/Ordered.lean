import Mathlib.Data.List.Infix
import Mathlib.Data.List.Nodup
import IctAlgo.PlanExec.Proof.Loop
import IctAlgo.PlanExec.Proof.Result

/-!
# Validated plans run in dependency order

`Topological`: every dependency of a step is the id of a step before it.

* `validateSteps_ok_iff`, `validateDependencies_ok_iff`: what the two loops of the validator accept.
* `validatePlan_iff`: the accepted dependencies are those in whose order the steps stand, and no
  others.
* `runSteps_of_completes`: in such an order the loop completes the steps one by one.
-/

set_option autoImplicit false

namespace PlanExec

open Lib Lib.Raising

/-! ## What is accepted -/

theorem check_ok_iff {ok : Bool} {errorCode : ErrorCode} {message : List Part} {u : Unit} :
    check ok errorCode message = .ok u ↔ ok = true := by
  cases ok <;> simp [check]

/-- The id of a step, as the validator keeps it. -/
def idText (s : PlanStep) : String := s.id.str?.getD ""

/-- The rules of a step that do not look at its dependencies. -/
structure StepAccepted (s : PlanStep) : Prop where
  id : s.id.isUuid = true
  action : textTo 100 s.action = true
  payload : s.payload.isDict = true
  onFailure : s.onFailure.str?.any failureModes.contains = true
  timeoutMs : optPositive s.timeoutMs = true

theorem StepAccepted.id_eq {s : PlanStep} (h : StepAccepted s) : s.id = .str (idText s) := by
  have hid := h.id
  unfold PyVal.isUuid at hid
  unfold idText
  cases hs : s.id with
  | str i => rfl
  | _ =>
    rw [hs] at hid
    cases hid

theorem validateStep_ok_iff {ids : List String} {idx : ℕ} {item : StepItem} {id : String} :
    validateStep ids idx item = .ok id ↔
      ∃ s, item = .step s ∧ StepAccepted s ∧ idText s ∉ ids ∧ id = idText s ∧
        ∃ deps, s.dependsOn = .list deps ∧ PyVal.allHashable deps = true := by
  cases item with
  | other v => simp [validateStep, check, bind, Except.bind]
  | step s =>
    have hlist : ∀ v : PyVal, (v.list?.isSome = true ∧
        PyVal.allHashable (v.list?.getD []) = true) ↔
          ∃ deps, v = .list deps ∧ PyVal.allHashable deps = true := by
      intro v
      cases v <;> simp [PyVal.list?]
    unfold validateStep
    simp only [bind_ok_iff, check_ok_iff, orTypeError_ok_iff, Bool.not_eq_true',
      List.contains_eq_mem, decide_eq_false_iff_not]
    refine ⟨fun h => ?_, fun h => ?_⟩
    · obtain ⟨-, hid, -, hnew, -, haction, -, hpayload, -, hmode, -, hdeps, u, hhash, -, htimeout,
        heq⟩ := h
      refine ⟨s, rfl, ⟨hid, haction, hpayload, hmode, htimeout⟩, hnew, ?_, (hlist _).1 ⟨hdeps, ?_⟩⟩
      · exact (Except.ok.inj heq).symm
      · by_contra hnot
        rw [if_neg hnot] at hhash
        cases hhash
    · obtain ⟨s', hs, haccepted, hnew, rfl, hdeps⟩ := h
      obtain rfl := StepItem.step.inj hs
      obtain ⟨hdeps, hhash⟩ := (hlist _).2 hdeps
      exact ⟨(), haccepted.id, (), hnew, (), haccepted.action, (), haccepted.payload, (),
        haccepted.onFailure, (), hdeps, (), if_pos hhash, (), haccepted.timeoutMs, rfl⟩

/-- **The first loop over the steps.** -/
theorem validateSteps_ok_iff {idx : ℕ} {ids ids' : List String} {items : List StepItem} :
    validateSteps idx ids items = .ok ids' ↔
      ∃ steps : List PlanStep, items = steps.map .step ∧ ids' = ids ++ steps.map idText ∧
        (∀ s ∈ steps, StepAccepted s ∧ idText s ∉ ids ∧
          ∃ deps, s.dependsOn = .list deps ∧ PyVal.allHashable deps = true) ∧
        (steps.map idText).Nodup := by
  induction items generalizing idx ids with
  | nil =>
    simp only [validateSteps, Except.ok.injEq]
    refine ⟨fun h => ?_, fun h => ?_⟩
    · exact ⟨[], rfl, by simp [h], fun _ h => absurd h List.not_mem_nil, List.nodup_nil⟩
    · obtain ⟨steps, hsteps, rfl, -⟩ := h
      obtain rfl := List.map_eq_nil_iff.1 hsteps.symm
      simp
  | cons item items ih =>
    rw [validateSteps, bind_ok_iff]
    refine ⟨fun h => ?_, fun h => ?_⟩
    · obtain ⟨id, hstep, hrest⟩ := h
      obtain ⟨s, rfl, haccepted, hnew, rfl, hdeps⟩ := validateStep_ok_iff.1 hstep
      obtain ⟨steps, rfl, rfl, hall, hnodup⟩ := ih.1 hrest
      refine ⟨s :: steps, rfl, by simp, ?_, ?_⟩
      · intro t ht
        obtain rfl | ht := List.mem_cons.1 ht
        · exact ⟨haccepted, hnew, hdeps⟩
        · obtain ⟨ht', hfresh, hdeps'⟩ := hall t ht
          exact ⟨ht', fun hmem => hfresh (List.mem_append_left _ hmem), hdeps'⟩
      · rw [List.map_cons, List.nodup_cons]
        refine ⟨fun hmem => ?_, hnodup⟩
        obtain ⟨t, ht, heq⟩ := List.mem_map.1 hmem
        exact (hall t ht).2.1 (List.mem_append_right _ (List.mem_singleton.2 heq))
    · obtain ⟨steps, hsteps, rfl, hall, hnodup⟩ := h
      cases steps with
      | nil => cases hsteps
      | cons s steps =>
        obtain ⟨rfl, rfl⟩ := List.cons_eq_cons.1 hsteps
        obtain ⟨haccepted, hnew, hdeps⟩ := hall s List.mem_cons_self
        rw [List.map_cons, List.nodup_cons] at hnodup
        refine ⟨idText s, validateStep_ok_iff.2 ⟨s, rfl, haccepted, hnew, rfl, hdeps⟩,
          ih.2 ⟨steps, rfl, by simp, fun t ht => ?_, hnodup.2⟩⟩
        obtain ⟨ht', hfresh, hdeps'⟩ := hall t (List.mem_cons_of_mem _ ht)
        refine ⟨ht', fun hmem => ?_, hdeps'⟩
        obtain hmem | hmem := List.mem_append.1 hmem
        · exact hfresh hmem
        · exact hnodup.1 (List.mem_map.2 ⟨t, ht, List.mem_singleton.1 hmem⟩)

/-- Every dependency of a step is the id of a step before it. -/
def Topological (steps : List PlanStep) : Prop :=
  ∀ pre s post, steps = pre ++ s :: post →
    ∃ ds, DependsOn s ds ∧ ∀ d ∈ ds, ∃ t ∈ pre, t.id = .str d

section
variable {ids : List String} {idx : ℕ}

/-- **The second loop over the steps**, each of which it looks at with its index. -/
theorem validateDependencies_ok_iff {steps : List PlanStep} :
    validateDependencies ids idx (steps.map .step) = .ok () ↔
      ∀ pre s post, steps = pre ++ s :: post → ∀ dep ∈ s.dependsOn.list?.getD [],
        validateDependency ids (idx + pre.length) s.id dep = .ok () := by
  induction steps generalizing idx with
  | nil => exact ⟨fun _ pre s post h => by simp at h, fun _ => rfl⟩
  | cons s steps ih =>
    rw [List.map_cons, validateDependencies, bind_ok_iff]
    refine ⟨fun h pre t post hsplit => ?_, fun h => ?_⟩
    · obtain ⟨u, hfirst, hrest⟩ := h
      cases pre with
      | nil =>
        obtain ⟨rfl, rfl⟩ := List.cons_eq_cons.1 hsplit
        exact forM_ok_iff.1 hfirst
      | cons t' pre =>
        obtain ⟨rfl, rfl⟩ := List.cons_eq_cons.1 hsplit
        have hrest' := ih.1 hrest pre t post rfl
        rw [List.length_cons, show idx + (pre.length + 1) = idx + 1 + pre.length by omega]
        exact hrest'
    · refine ⟨(), forM_ok_iff.2 (h [] s steps rfl), ih.2 fun pre t post hsplit => ?_⟩
      have hlater := h (s :: pre) t post (by rw [hsplit]; rfl)
      rw [List.length_cons, show idx + (pre.length + 1) = idx + 1 + pre.length by omega] at hlater
      exact hlater

/-- A dependency of the step behind `pre` is accepted exactly when it is the id of a step in `pre`. -/
theorem validateDependency_ok_iff {pre post : List PlanStep} {s : PlanStep} {dep : PyVal}
    (hall : ∀ t ∈ pre ++ s :: post, StepAccepted t)
    (hnodup : ((pre ++ s :: post).map idText).Nodup) :
    validateDependency ((pre ++ s :: post).map idText) pre.length s.id dep = .ok () ↔
      ∃ d, dep = .str d ∧ ∃ t ∈ pre, t.id = .str d := by
  have hid : s.id = .str (idText s) := (hall s (by simp)).id_eq
  rw [List.map_append, List.map_cons] at hnodup ⊢
  have hfresh : idText s ∉ pre.map idText := by
    intro hmem
    exact (List.nodup_append.1 hnodup).2.2 _ hmem _ List.mem_cons_self rfl
  unfold validateDependency
  simp only [bind_ok_iff, check_ok_iff, decide_eq_true_eq]
  rw [hid]
  refine ⟨fun h => ?_, fun h => ?_⟩
  · obtain ⟨-, hknown, -, hself, hindex⟩ := h
    cases dep with
    | str d =>
      refine ⟨d, rfl, ?_⟩
      have hne : d ≠ idText s := by
        simpa [PyVal.eq] using hself
      simp only [PyVal.str?, Option.getD_some] at hindex
      by_cases hmem : d ∈ pre.map idText
      · obtain ⟨t, ht, rfl⟩ := List.mem_map.1 hmem
        exact ⟨t, ht, (hall t (List.mem_append_left _ ht)).id_eq⟩
      · rw [List.idxOf_append_of_notMem hmem, List.length_map, List.idxOf_cons_ne _ hne.symm] at hindex
        omega
    | _ => cases hknown
  · obtain ⟨d, rfl, t, ht, htd⟩ := h
    have hd : d ∈ pre.map idText := by
      rw [(hall t (List.mem_append_left _ ht)).id_eq] at htd
      exact List.mem_map.2 ⟨t, ht, PyVal.str.inj htd⟩
    have hne : d ≠ idText s := fun h => hfresh (h ▸ hd)
    refine ⟨(), ?_, (), ?_, ?_⟩
    · simp [PyVal.str?, hd]
    · simp [PyVal.eq, hne]
    · have hlt := List.idxOf_lt_length_of_mem hd
      simp only [PyVal.str?, Option.getD_some]
      rw [List.idxOf_append_of_mem hd]
      rw [List.length_map] at hlt
      omega

end

/-! ## Plans -/

theorem exists_map_str {deps : List PyVal} (h : ∀ dep ∈ deps, ∃ d, dep = .str d) :
    ∃ ds : List String, deps = ds.map .str := by
  induction deps with
  | nil => exact ⟨[], rfl⟩
  | cons dep deps ih =>
    rw [List.forall_mem_cons] at h
    obtain ⟨⟨d, rfl⟩, hrest⟩ := h
    obtain ⟨ds, rfl⟩ := ih hrest
    exact ⟨d :: ds, rfl⟩

theorem allHashable_map_str (ds : List String) : PyVal.allHashable (ds.map .str) = true := by
  induction ds with
  | nil => rfl
  | cons d ds ih => rw [List.map_cons, PyVal.allHashable, ih]; rfl

/-- The rules of a plan that do not look at its steps one by one. -/
structure PlanAccepted (plan : Plan) : Prop where
  id : plan.id.isUuid = true
  version : intFrom 1 plan.version = true
  createdAt : intFrom 1 plan.createdAt = true
  name : textTo 255 plan.name = true
  contextRequirements : plan.contextRequirements.list?.any (· matches _ :: _) = true
  length : (0 < plan.steps.items.length && plan.steps.items.length ≤ 1024) = true
  retryPolicy : validateRetryPolicy plan.retryPolicy = .ok ()
  priority : plan.priority.int?.isSome = true
  timeoutMs : intFrom 1 plan.timeoutMs = true
  metaData : plan.metaData.isDict = true
  tags : plan.tags.list?.isSome = true
  estimatedDurationMs : optPositive plan.estimatedDurationMs = true

theorem validatePlan_ok_iff {plan : Plan} :
    validatePlan plan = .ok () ↔ PlanAccepted plan ∧
      ∃ ids, validateSteps 0 [] plan.steps.items = .ok ids ∧
        validateDependencies ids 0 plan.steps.items = .ok () := by
  unfold validatePlan
  simp only [bind_ok_iff, check_ok_iff]
  refine ⟨fun h => ?_, fun h => ?_⟩
  · obtain ⟨-, h1, -, h2, -, h3, -, h4, -, h5, -, h6, ids, hsteps, u, hdeps, u', h7, -, h8, -, h9,
      -, h10, -, h11, h12⟩ := h
    exact ⟨⟨h1, h2, h3, h4, h5, h6, h7, h8, h9, h10, h11, h12⟩, ids, hsteps, hdeps⟩
  · obtain ⟨hplan, ids, hsteps, hdeps⟩ := h
    exact ⟨(), hplan.id, (), hplan.version, (), hplan.createdAt, (), hplan.name, (),
      hplan.contextRequirements, (), hplan.length, ids, hsteps, (), hdeps, (), hplan.retryPolicy, (),
      hplan.priority, (), hplan.timeoutMs, (), hplan.metaData, (), hplan.tags,
      hplan.estimatedDurationMs⟩

/-- The steps of an accepted plan. -/
theorem validated_iff {plan : Plan} :
    validatePlan plan = .ok () ↔ PlanAccepted plan ∧
      ∃ steps : List PlanStep, plan.steps = .list (steps.map .step) ∧ (∀ s ∈ steps, StepAccepted s) ∧
        (steps.map idText).Nodup ∧ Topological steps := by
  rw [validatePlan_ok_iff]
  refine and_congr_right fun hplan => ?_
  refine ⟨fun h => ?_, fun h => ?_⟩
  · obtain ⟨ids, hsteps, hdeps⟩ := h
    obtain ⟨steps, hitems, rfl, hall, hnodup⟩ := validateSteps_ok_iff.1 hsteps
    rw [List.nil_append, hitems, validateDependencies_ok_iff] at hdeps
    have haccepted : ∀ s ∈ steps, StepAccepted s := fun s hs => (hall s hs).1
    refine ⟨steps, ?_, haccepted, hnodup, ?_⟩
    · cases hfield : plan.steps with
      | list items =>
        rw [hfield] at hitems
        rw [← hitems]
        rfl
      | other v =>
        have hlength := hplan.length
        rw [hfield] at hlength
        cases hlength
    · intro pre s post hsplit
      obtain ⟨-, -, deps, hlist, -⟩ := hall s (by rw [hsplit]; simp)
      have hknown : ∀ dep ∈ deps, ∃ d, dep = .str d ∧ ∃ t ∈ pre, t.id = .str d := by
        intro dep hdep
        have hok := hdeps pre s post hsplit dep (by rw [hlist]; exact hdep)
        subst hsplit
        rw [Nat.zero_add] at hok
        exact (validateDependency_ok_iff haccepted hnodup).1 hok
      obtain ⟨ds, hds⟩ : ∃ ds : List String, deps = ds.map .str :=
        exists_map_str fun dep hdep => (hknown dep hdep).imp fun d hd => hd.1
      refine ⟨ds, by rw [DependsOn, hlist, hds], fun d hd => ?_⟩
      obtain ⟨d', hd', t, ht, htd⟩ := hknown (.str d) (by rw [hds]; exact List.mem_map_of_mem hd)
      obtain rfl := PyVal.str.inj hd'
      exact ⟨t, ht, htd⟩
  · obtain ⟨steps, hfield, haccepted, hnodup, htop⟩ := h
    rw [hfield]
    refine ⟨steps.map idText, validateSteps_ok_iff.2 ⟨steps, rfl, rfl, ?_, hnodup⟩,
      validateDependencies_ok_iff.2 fun pre s post hsplit => ?_⟩
    · intro s hs
      obtain ⟨pre, post, hsplit⟩ := List.append_of_mem hs
      obtain ⟨ds, hds, -⟩ := htop pre s post hsplit
      exact ⟨haccepted s hs, List.not_mem_nil, _, hds, allHashable_map_str ds⟩
    · obtain ⟨ds, hds, hbefore⟩ := htop pre s post hsplit
      subst hsplit
      intro dep hdep
      rw [hds] at hdep
      obtain ⟨d, hd, rfl⟩ := List.mem_map.1 hdep
      rw [Nat.zero_add]
      exact (validateDependency_ok_iff haccepted hnodup).2 ⟨d, rfl, hbefore d hd⟩

/-- The plan without the dependencies of its steps. -/
def Plan.independent (plan : Plan) : Plan :=
  { plan with
    steps := match plan.steps with
      | .list items => .list (items.map fun
        | .step s => .step { s with dependsOn := .list [] }
        | .other v => .other v)
      | .other v => .other v }

theorem Plan.independent_steps {plan : Plan} {steps : List PlanStep}
    (h : plan.steps = .list (steps.map .step)) :
    plan.independent.steps =
      .list ((steps.map fun s => { s with dependsOn := .list [] }).map .step) := by
  rw [Plan.independent, h]
  simp

/-- Steps without dependencies are in order. -/
theorem topological_independent (steps : List PlanStep) :
    Topological (steps.map fun s => { s with dependsOn := .list [] }) := by
  intro pre s post hsplit
  obtain ⟨t, -, rfl⟩ := List.mem_map.1 (show s ∈ steps.map _ by rw [hsplit]; simp)
  exact ⟨[], rfl, fun _ h => absurd h List.not_mem_nil⟩

/-- Where the steps stand in the order of their dependencies, these lead to earlier steps. -/
theorem Topological.index_lt {steps : List PlanStep} (h : Topological steps)
    (hall : ∀ s ∈ steps, StepAccepted s) (hnodup : (steps.map idText).Nodup) {i j : String}
    (hedge : Edge steps i j) : (steps.map idText).idxOf j < (steps.map idText).idxOf i := by
  obtain ⟨s, hs, ds, hi, hds, hj⟩ := hedge
  obtain ⟨pre, post, hsplit⟩ := List.append_of_mem hs
  obtain ⟨ds', hds', hbefore⟩ := h pre s post hsplit
  obtain rfl : ds = ds' := by
    rw [DependsOn, hds, PyVal.list.injEq] at hds'
    exact List.map_injective_iff.2 (fun _ _ h => PyVal.str.inj h) hds'
  obtain ⟨t, ht, htj⟩ := hbefore j hj
  subst hsplit
  have hjt : j = idText t := by
    rw [(hall t (List.mem_append_left _ ht)).id_eq] at htj
    exact (PyVal.str.inj htj).symm
  have his : i = idText s := by
    rw [(hall s hs).id_eq] at hi
    exact (PyVal.str.inj hi).symm
  rw [List.map_append, List.map_cons] at hnodup ⊢
  have hmem : j ∈ pre.map idText := List.mem_map.2 ⟨t, ht, hjt.symm⟩
  have hfresh : i ∉ pre.map idText := by
    intro hi'
    exact (List.nodup_append.1 hnodup).2.2 _ hi' _ (his ▸ List.mem_cons_self) rfl
  have hlt := List.idxOf_lt_length_of_mem hmem
  rw [List.idxOf_append_of_mem hmem, List.idxOf_append_of_notMem hfresh]
  omega

theorem Topological.acyclic {steps : List PlanStep} (h : Topological steps)
    (hall : ∀ s ∈ steps, StepAccepted s) (hnodup : (steps.map idText).Nodup) (i : String) :
    ¬Relation.TransGen (Edge steps) i i := by
  have hdecreases : ∀ {i j}, Relation.TransGen (Edge steps) i j →
      (steps.map idText).idxOf j < (steps.map idText).idxOf i := by
    intro i j hpath
    induction hpath with
    | single hedge => exact h.index_lt hall hnodup hedge
    | tail _ hedge ih => exact (h.index_lt hall hnodup hedge).trans ih
  intro hcycle
  exact lt_irrefl _ (hdecreases hcycle)

/-- **The accepted dependencies**: those in whose order the steps stand, which have no cycle. -/
theorem validatePlan_iff (plan : Plan) :
    validatePlan plan = .ok () ↔ validatePlan plan.independent = .ok () ∧
      ∃ steps : List PlanStep, plan.steps = .list (steps.map .step) ∧ Topological steps ∧
        ∀ i, ¬Relation.TransGen (Edge steps) i i := by
  rw [validated_iff, validated_iff]
  have hlength : plan.independent.steps.items.length = plan.steps.items.length := by
    unfold Plan.independent
    cases plan.steps <;> simp [Steps.items]
  refine ⟨fun h => ?_, fun h => ?_⟩
  · obtain ⟨hplan, steps, hfield, hall, hnodup, htop⟩ := h
    refine ⟨⟨{ hplan with length := by rw [hlength]; exact hplan.length }, _,
      Plan.independent_steps hfield, ?_, ?_, topological_independent steps⟩, steps, hfield, htop,
      htop.acyclic hall hnodup⟩
    · intro s hs
      obtain ⟨t, ht, rfl⟩ := List.mem_map.1 hs
      exact { hall t ht with }
    · rw [List.map_map]
      exact hnodup
  · obtain ⟨⟨hplan, steps', hfield', hall, hnodup, -⟩, steps, hfield, htop, -⟩ := h
    obtain rfl : steps' = steps.map fun s => { s with dependsOn := .list [] } := by
      rw [Plan.independent_steps hfield, Steps.list.injEq] at hfield'
      exact (List.map_injective_iff.2 (fun _ _ h => StepItem.step.inj h) hfield').symm
    refine ⟨{ hplan with length := by rw [← hlength]; exact hplan.length }, steps, hfield, ?_, ?_, htop⟩
    · intro s hs
      exact { hall _ (List.mem_map_of_mem hs) with }
    · rw [List.map_map] at hnodup
      exact hnodup

/-! ## Runs -/

/-- The loop has completed these steps, without an error. -/
def completedAll (pre : List PlanStep) : Progress := ⟨pre.length, none, pre.map (·.id)⟩

/-- The loop finds the dependencies of a step completed, and goes on with the step completed too. -/
structure Completes (p : Progress) (s : PlanStep) (p' : Progress) : Prop where
  checked : ∃ deps, s.dependsOn.iter? = some deps ∧
    checkDeps s p.completed ⟨true, false, p.firstError⟩ deps = .ok ⟨true, false, p.firstError⟩
  next : p' = { p with
    stepsExecuted := p.stepsExecuted + 1
    completed := p.completed ++ [s.id] }
  goesOn : ∀ items, runSteps p (.step s :: items) = do return (← runSteps p' items).from p

/-- The run goes through the steps one by one: before each, the steps in front of it are completed, once
and without an error, those that it depends on among them. -/
structure RunsInOrder (plan : Plan) (steps : List PlanStep) (run : Run) : Prop where
  listed : plan.steps = .list (steps.map .step)
  result : executeSteps plan = .ok run
  returned : run.last.stepsExecuted = steps.length ∧ run.last.firstError = none
  states : run.states = steps.inits.map completedAll
  once : (steps.map (·.id)).Nodup
  completes : ∀ pre s post, steps = pre ++ s :: post →
    Completes (completedAll pre) s (completedAll (pre ++ [s]))
  after : Topological steps

theorem checkDeps_completed {s : PlanStep} {completed : List PyVal} {c : DepCheck} {ds : List String}
    (h : ∀ d ∈ ds, .str d ∈ completed) : checkDeps s completed c (ds.map .str) = .ok c := by
  induction ds with
  | nil => rfl
  | cons d ds ih =>
    rw [List.forall_mem_cons] at h
    have hmem : (PyVal.str d).mem? completed = some true := by
      rw [PyVal.mem?, if_pos (by rfl), Option.some.injEq, List.any_eq_true]
      exact ⟨.str d, h.1, by simp [PyVal.eq]⟩
    rw [List.map_cons, checkDeps_cons_met hmem]
    exact ih h.2

theorem completes_of_topological {steps pre post : List PlanStep} {s : PlanStep}
    (h : Topological steps) (hs : StepAccepted s) (hsplit : steps = pre ++ s :: post) :
    Completes (completedAll pre) s (completedAll (pre ++ [s])) := by
  obtain ⟨ds, hds, hbefore⟩ := h pre s post hsplit
  have hcheck : checkDeps s (completedAll pre).completed ⟨true, false, none⟩ (ds.map .str) =
      .ok ⟨true, false, none⟩ := by
    apply checkDeps_completed
    intro d hd
    obtain ⟨t, ht, htd⟩ := hbefore d hd
    exact List.mem_map.2 ⟨t, ht, htd⟩
  have hiter : s.dependsOn.iter? = some (ds.map .str) := by
    rw [hds]
    rfl
  have hhash : s.id.hashable = true := by
    rw [hs.id_eq]
    rfl
  have hnext : completedAll (pre ++ [s]) =
      ⟨pre.length + 1, none, (completedAll pre).completed ++ [s.id]⟩ := by
    simp [completedAll]
  refine ⟨⟨_, hiter, hcheck⟩, hnext, fun items => ?_⟩
  rw [hnext, runSteps, hiter]
  show (checkDeps s (completedAll pre).completed ⟨true, false, none⟩ (ds.map .str) >>= _) = _
  rw [hcheck]
  simp [bind, Except.bind, orTypeError, hhash, completedAll]

/-- From any point of the run on, the rest of the steps is completed one by one. -/
theorem runSteps_of_completes {steps : List PlanStep} (pre rest : List PlanStep)
    (h : ∀ pre s post, steps = pre ++ s :: post →
      Completes (completedAll pre) s (completedAll (pre ++ [s])))
    (hsplit : steps = pre ++ rest) :
    ∃ run, runSteps (completedAll pre) (rest.map .step) = .ok run ∧ run.last = completedAll steps ∧
      run.states = rest.inits.map fun done => completedAll (pre ++ done) := by
  induction rest generalizing pre with
  | nil =>
    rw [List.append_nil] at hsplit
    subst hsplit
    exact ⟨_, rfl, rfl, by simp [Run.states]⟩
  | cons s rest ih =>
    have hrest : steps = (pre ++ [s]) ++ rest := by rw [hsplit, List.append_assoc, List.singleton_append]
    obtain ⟨run, hrun, hlast, hstates⟩ := ih (pre ++ [s]) hrest
    refine ⟨run.from (completedAll pre), ?_, ?_, ?_⟩
    · rw [List.map_cons, (h pre s rest hsplit).goesOn, hrun]
      rfl
    · rw [Run.from_last, hlast]
    · rw [Run.from_states, hstates, List.inits_cons]
      simp [Function.comp_def]

/-- **Validated plans run to completion, in order**; and they are those without a cycle whose steps
stand in the order of their dependencies. -/
theorem validatePlan_runs (plan : Plan) :
    (validatePlan plan = .ok () → ∃ steps run, RunsInOrder plan steps run) ∧
      (validatePlan plan = .ok () ↔ validatePlan plan.independent = .ok () ∧
        ∃ steps : List PlanStep, plan.steps = .list (steps.map .step) ∧ Topological steps ∧
          ∀ i, ¬Relation.TransGen (Edge steps) i i) := by
  refine ⟨fun h => ?_, validatePlan_iff plan⟩
  obtain ⟨-, steps, hfield, hall, hnodup, htop⟩ := validated_iff.1 h
  have hcompletes : ∀ pre s post, steps = pre ++ s :: post →
      Completes (completedAll pre) s (completedAll (pre ++ [s])) := fun pre s post hsplit =>
    completes_of_topological htop (hall s (by rw [hsplit]; simp)) hsplit
  obtain ⟨run, hrun, hlast, hstates⟩ := runSteps_of_completes [] steps hcompletes rfl
  refine ⟨steps, run, hfield, ?_, ?_, hstates, ?_, hcompletes, htop⟩
  · rw [executeSteps, hfield]
    exact hrun
  · rw [hlast]
    exact ⟨rfl, rfl⟩
  · -- equal ids have equal texts
    refine List.Nodup.of_map (fun id : PyVal => id.str?.getD "") ?_
    rw [List.map_map]
    exact hnodup

/-- Two steps, one after the other. -/
def orderedPlan : Plan :=
  { samplePlan with
    steps := .list [.step sampleStep, .step {
      id := .str "33333333-3333-4333-8333-333333333333"
      action := .str "notify"
      payload := .dict []
      dependsOn := .list [sampleStep.id] }] }

theorem orderedPlan_runs : ∃ steps run, RunsInOrder orderedPlan steps run :=
  (validatePlan_runs orderedPlan).1 (by
    have h : (validatePlan orderedPlan).isOk = true := by decide +kernel
    cases hv : validatePlan orderedPlan with
    | error x =>
      rw [hv] at h
      cases h
    | ok u => rfl)

end PlanExec
