import IctAlgo.Lib.Raising
import IctAlgo.PlanExec.Proof.Ordered

/-!
# Documented plans

* `DocumentedPlan`: the rules of the docstring of `_validate_plan`; `PassingPlan`: as far as the code
  tests them.
* `validatePlan_passing`: the plans that are accepted.
* `validatePlan_raises_iff`: when all that is raised is a fatal validation error.
* `validatePlan_documented_iff`: when the validator does what its docstring says.
-/

set_option autoImplicit false

namespace PlanExec

open Lib Lib.Raising

/-! ## Definitions -/

/-- A text that denotes a version 4 UUID. -/
def IsId (v : PyVal) : Prop := ∃ i, v = .str i ∧ isUuid4 i = true

/-- The UUID of a step. -/
def stepUuid (s : PlanStep) : Option ℕ := s.id.str?.bind uuidInt?

/-- A number of at least 1. -/
def MultiplierRule (v : PyVal) : Prop := ∃ x, v.num? = some x ∧ PyFloat.le (.fin 1) x = true

/-- The rules of a retry policy but for the multiplier. -/
structure RetryLimits (p : RetryPolicy) : Prop where
  maxAttempts : intFrom 1 p.maxAttempts = true
  backoffMs : intFrom 0 p.backoffMs = true
  maxBackoffMs : intFrom 0 p.maxBackoffMs = true
  retryableErrorCodes : p.retryableErrorCodes.list?.isSome = true

/-- No policy, or one whose limits and multiplier are in their ranges. -/
def RetryRules (multiplier : PyVal → Prop) : RetryField → Prop
  | .other .null => True
  | .other _ => False
  | .policy p => RetryLimits p ∧ multiplier p.backoffMultiplier

/-- The rules of a step that are tested between its id and its dependencies. -/
structure StepFields (s : PlanStep) : Prop where
  action : textTo 100 s.action = true
  payload : s.payload.isDict = true
  onFailure : s.onFailure.str?.any failureModes.contains = true

/-- The rules that are tested between the id of the plan and the steps. -/
structure HeaderRules (plan : Plan) : Prop where
  version : intFrom 1 plan.version = true
  createdAt : intFrom 1 plan.createdAt = true
  name : textTo 255 plan.name = true
  contextRequirements : plan.contextRequirements.list?.any (· matches _ :: _) = true
  length : (0 < plan.steps.items.length && plan.steps.items.length ≤ 1024) = true

/-- The rules of the optional fields. -/
structure OptionalRules (plan : Plan) : Prop where
  priority : plan.priority.int?.isSome = true
  timeoutMs : intFrom 1 plan.timeoutMs = true
  metaData : plan.metaData.isDict = true
  tags : plan.tags.list?.isSome = true
  estimatedDurationMs : optPositive plan.estimatedDurationMs = true

/-- The rules that the code tests as they are documented. -/
structure CommonRules (plan : Plan) (steps : List PlanStep) : Prop where
  header : HeaderRules plan
  items : plan.steps = .list (steps.map .step)
  fields : ∀ s ∈ steps, StepFields s
  timeoutMs : ∀ s ∈ steps, optPositive s.timeoutMs = true
  dependsOn : Topological steps
  optional : OptionalRules plan

/-- The other rules: the ids are version 4 UUIDs, those of the steps distinct, and the multiplier of the
retry policy is at least 1. -/
structure Proper (plan : Plan) (steps : List PlanStep) : Prop where
  id : IsId plan.id
  stepId : ∀ s ∈ steps, IsId s.id
  distinct : (steps.map stepUuid).Nodup
  retryPolicy : RetryRules MultiplierRule plan.retryPolicy

/-- The documented rules of a plan with these steps. -/
structure DocumentedPlan (plan : Plan) (steps : List PlanStep) : Prop where
  common : CommonRules plan steps
  proper : Proper plan steps

/-- The same with ids that are UUIDs of any version, distinct as texts, and a multiplier that is not less
than 1. -/
structure PassingPlan (plan : Plan) (steps : List PlanStep) : Prop where
  common : CommonRules plan steps
  id : plan.id.isUuid = true
  stepId : ∀ s ∈ steps, s.id.isUuid = true
  distinct : (steps.map idText).Nodup
  retryPolicy : RetryRules (multiplierOk · = true) plan.retryPolicy

/-- A validation error that is fatal. -/
def Fatal : Exc → Prop
  | .validation e => e.severity = .fatal
  | _ => False

/-- The validator accepts the documented plans, and raises fatal validation errors only. -/
structure Validates (plan : Plan) : Prop where
  raises : RaisesOnly Fatal (validatePlan plan)
  accepts : validatePlan plan = .ok () ↔ ∃ steps, DocumentedPlan plan steps

/-- A list of dependencies that can be looked up. -/
def HashableDeps (s : PlanStep) : Prop :=
  ∃ deps, s.dependsOn = .list deps ∧ PyVal.allHashable deps = true

/-- The first rule that is broken is that of a dependency that cannot be hashed: the plan up to the step
is in order, and so are the rules of the step that are tested before. -/
structure UnhashableFirst (plan : Plan) (pre : List PlanStep) (s : PlanStep) (post : List StepItem) :
    Prop where
  id : plan.id.isUuid = true
  header : HeaderRules plan
  items : plan.steps = .list (pre.map .step ++ .step s :: post)
  before : ∀ t ∈ pre, StepAccepted t ∧ HashableDeps t
  stepId : s.id.isUuid = true
  distinct : ((pre ++ [s]).map idText).Nodup
  fields : StepFields s
  unhashable : ∃ deps, s.dependsOn = .list deps ∧ PyVal.allHashable deps = false

/-! ## Accepted plans -/

theorem validateRetryPolicy_ok_iff {r : RetryField} :
    validateRetryPolicy r = .ok () ↔ RetryRules (multiplierOk · = true) r := by
  cases r with
  | other v =>
    cases v with
    | null => exact iff_of_true rfl trivial
    | _ => exact iff_of_false (fun h => by cases h) id
  | policy p =>
    unfold validateRetryPolicy
    simp only [bind_ok_iff, check_ok_iff]
    refine ⟨fun h => ?_, fun h => ?_⟩
    · obtain ⟨-, h1, -, h2, -, h3, -, h4, h5⟩ := h
      exact ⟨⟨h1, h2, h4, h5⟩, h3⟩
    · obtain ⟨hlimits, hmultiplier⟩ := h
      exact ⟨(), hlimits.maxAttempts, (), hlimits.backoffMs, (), hmultiplier, (),
        hlimits.maxBackoffMs, hlimits.retryableErrorCodes⟩

theorem planAccepted_iff {plan : Plan} :
    PlanAccepted plan ↔ plan.id.isUuid = true ∧ HeaderRules plan ∧
      RetryRules (multiplierOk · = true) plan.retryPolicy ∧ OptionalRules plan := by
  rw [← validateRetryPolicy_ok_iff]
  refine ⟨fun h => ?_, fun ⟨hid, hheader, hretry, hoptional⟩ => ?_⟩
  · exact ⟨h.id, ⟨h.version, h.createdAt, h.name, h.contextRequirements, h.length⟩, h.retryPolicy,
      ⟨h.priority, h.timeoutMs, h.metaData, h.tags, h.estimatedDurationMs⟩⟩
  · exact ⟨hid, hheader.version, hheader.createdAt, hheader.name, hheader.contextRequirements,
      hheader.length, hretry, hoptional.priority, hoptional.timeoutMs, hoptional.metaData,
      hoptional.tags, hoptional.estimatedDurationMs⟩

theorem stepAccepted_iff {s : PlanStep} :
    StepAccepted s ↔ s.id.isUuid = true ∧ StepFields s ∧ optPositive s.timeoutMs = true := by
  refine ⟨fun h => ⟨h.id, ⟨h.action, h.payload, h.onFailure⟩, h.timeoutMs⟩,
    fun ⟨hid, hfields, htimeout⟩ => ?_⟩
  exact ⟨hid, hfields.action, hfields.payload, hfields.onFailure, htimeout⟩

/-- What the validator accepts. -/
theorem validatePlan_passing {plan : Plan} :
    validatePlan plan = .ok () ↔ ∃ steps, PassingPlan plan steps := by
  rw [validated_iff, planAccepted_iff]
  refine ⟨fun h => ?_, fun h => ?_⟩
  · obtain ⟨⟨hid, hheader, hretry, hoptional⟩, steps, hitems, hall, hnodup, htop⟩ := h
    refine ⟨steps, ⟨hheader, hitems, fun s hs => ?_, fun s hs => (hall s hs).timeoutMs, htop,
      hoptional⟩, hid, fun s hs => (hall s hs).id, hnodup, hretry⟩
    exact (stepAccepted_iff.1 (hall s hs)).2.1
  · obtain ⟨steps, hcommon, hid, hstepId, hdistinct, hretry⟩ := h
    refine ⟨⟨hid, hcommon.header, hretry, hcommon.optional⟩, steps, hcommon.items, fun s hs => ?_,
      hdistinct, hcommon.dependsOn⟩
    exact stepAccepted_iff.2 ⟨hstepId s hs, hcommon.fields s hs, hcommon.timeoutMs s hs⟩

/-! ## Documented plans pass -/

theorem IsId.isUuid {v : PyVal} (h : IsId v) : v.isUuid = true := by
  obtain ⟨i, rfl, hi⟩ := h
  by_cases htext : uuidText i = true
  · simp only [PyVal.isUuid, PyVal.str?, Option.any_some, htext]
  · simp [isUuid4, uuidInt?, htext] at hi

theorem MultiplierRule.multiplierOk {v : PyVal} (h : MultiplierRule v) : multiplierOk v = true := by
  obtain ⟨x, hx, hle⟩ := h
  cases v with
  | int n =>
    cases hx
    have hn : (1 : ℚ) ≤ (n : ℚ) := by simpa [PyFloat.le] using hle
    have hn' : 1 ≤ n := by exact_mod_cast hn
    simpa [PlanExec.multiplierOk, intFrom, PyVal.int?] using hn'
  | bool b =>
    cases hx
    cases b with
    | false => exact absurd hle (by decide)
    | true => rfl
  | float x =>
    cases hx
    cases x with
    | fin q => simpa [PyFloat.le, PlanExec.multiplierOk] using hle
    | inf => rfl
    | nan => rfl
    | negInf => cases hle
  | _ => cases hx

theorem RetryRules.passing {r : RetryField} (h : RetryRules MultiplierRule r) :
    RetryRules (multiplierOk · = true) r := by
  cases r with
  | other v =>
    cases v with
    | null => trivial
    | _ => exact h.elim
  | policy p => exact ⟨h.1, h.2.multiplierOk⟩

/-- Steps of distinct UUIDs have distinct ids. -/
theorem distinct_texts {steps : List PlanStep} (hids : ∀ s ∈ steps, IsId s.id)
    (h : (steps.map stepUuid).Nodup) : (steps.map idText).Nodup := by
  rw [List.Nodup, List.pairwise_map] at h ⊢
  refine h.imp_of_mem fun {s t} hs ht hne heq => hne ?_
  obtain ⟨i, hi, -⟩ := hids s hs
  obtain ⟨j, hj, -⟩ := hids t ht
  unfold idText at heq
  unfold stepUuid
  rw [hi, hj] at heq ⊢
  change i = j at heq
  rw [heq]

theorem DocumentedPlan.passing {plan : Plan} {steps : List PlanStep}
    (h : DocumentedPlan plan steps) : PassingPlan plan steps :=
  ⟨h.common, h.proper.id.isUuid, fun s hs => (h.proper.stepId s hs).isUuid,
    distinct_texts h.proper.stepId h.proper.distinct, h.proper.retryPolicy.passing⟩

theorem accepts_iff {plan : Plan} :
    (validatePlan plan = .ok () ↔ ∃ steps, DocumentedPlan plan steps) ↔
      ∀ steps, PassingPlan plan steps → Proper plan steps := by
  rw [validatePlan_passing]
  refine ⟨fun h steps hpassing => ?_, fun h => ⟨fun ⟨steps, hpassing⟩ => ?_,
    fun ⟨steps, hdocumented⟩ => ⟨steps, hdocumented.passing⟩⟩⟩
  · obtain ⟨steps', hdocumented⟩ := h.1 ⟨steps, hpassing⟩
    have hitems := hpassing.common.items.symm.trans hdocumented.common.items
    have hsame := List.map_injective_iff.2 (fun _ _ => StepItem.step.inj) (Steps.list.inj hitems)
    rw [hsame]
    exact hdocumented.proper
  · exact ⟨steps, hpassing.common, h steps hpassing⟩

/-! ## What is raised -/

theorem raisesOnly_check {ok : Bool} {errorCode : ErrorCode} {message : List Part} :
    RaisesOnly Fatal (check ok errorCode message) := by
  cases ok with
  | true => exact raisesOnly_ok
  | false => exact raisesOnly_error.2 rfl

theorem raisesOnly_orTypeError {α : Type} {o : Option α} :
    RaisesOnly Fatal (orTypeError o) ↔ o.isSome = true := by
  cases o with
  | some a => exact iff_of_true raisesOnly_ok rfl
  | none => exact iff_of_false (fun h => h _ rfl) (by simp)

/-- A step raises something else exactly when it gets to the dependencies and one cannot be hashed. -/
theorem validateStep_raises_iff {ids : List String} {idx : ℕ} {s : PlanStep} :
    RaisesOnly Fatal (validateStep ids idx (.step s)) ↔
      (s.id.isUuid = true → idText s ∉ ids → StepFields s → ∀ deps, s.dependsOn = .list deps →
        PyVal.allHashable deps = true) := by
  unfold validateStep
  simp only [raisesOnly_bind, raisesOnly_check, raisesOnly_orTypeError, check_ok_iff, true_and,
    Bool.not_eq_true', List.contains_eq_mem, decide_eq_false_iff_not]
  refine ⟨fun h hid hnew hfields deps hdeps => ?_, fun h _ hid _ hnew _ haction _ hpayload _ hmode _
    hlist => ⟨?_, fun _ _ _ _ => raisesOnly_ok⟩⟩
  · have hhash := (h () hid () hnew () hfields.action () hfields.payload () hfields.onFailure ()
      (by rw [hdeps]; rfl)).1
    rw [hdeps] at hhash
    by_contra hnot
    rw [Bool.not_eq_true] at hnot
    change (if PyVal.allHashable deps = true then some () else none).isSome = true at hhash
    rw [hnot] at hhash
    cases hhash
  · obtain ⟨deps, hdeps⟩ := Option.isSome_iff_exists.1 hlist
    have hlist' : s.dependsOn = .list deps := by
      cases hv : s.dependsOn with
      | list xs =>
        rw [hv] at hdeps
        cases hdeps
        rfl
      | _ =>
        rw [hv] at hdeps
        cases hdeps
    rw [hdeps, Option.getD_some, h hid hnew ⟨haction, hpayload, hmode⟩ deps hlist']
    rfl

/-- The loop raises something else exactly when it does at a step it gets to. -/
theorem validateSteps_raises_iff {idx : ℕ} {ids : List String} {items : List StepItem} :
    RaisesOnly Fatal (validateSteps idx ids items) ↔
      ∀ pre item post, items = pre ++ item :: post → ∀ ids', validateSteps idx ids pre = .ok ids' →
        RaisesOnly Fatal (validateStep ids' (idx + pre.length) item) := by
  induction items generalizing idx ids with
  | nil => exact ⟨fun _ pre item post h => by simp at h, fun _ => raisesOnly_ok⟩
  | cons item items ih =>
    rw [validateSteps, raisesOnly_bind]
    refine ⟨fun h pre item' post hsplit ids' hpre => ?_, fun h => ⟨?_, fun id hid => ?_⟩⟩
    · cases pre with
      | nil =>
        obtain ⟨rfl, rfl⟩ := List.cons_eq_cons.1 hsplit
        cases hpre
        exact h.1
      | cons first pre =>
        obtain ⟨rfl, rfl⟩ := List.cons_eq_cons.1 hsplit
        rw [validateSteps, bind_ok_iff] at hpre
        obtain ⟨id, hid, hrest⟩ := hpre
        rw [List.length_cons, show idx + (pre.length + 1) = idx + 1 + pre.length by omega]
        exact ih.1 (h.2 id hid) pre item' post rfl ids' hrest
    · exact h [] item items rfl ids rfl
    · refine ih.2 fun pre item' post hsplit ids' hpre => ?_
      have hlater := h (item :: pre) item' post (by rw [hsplit]; rfl) ids' (by
        rw [validateSteps, bind_ok_iff]
        exact ⟨id, hid, hpre⟩)
      rw [List.length_cons, show idx + (pre.length + 1) = idx + 1 + pre.length by omega] at hlater
      exact hlater

theorem validateDependencies_raises {ids : List String} {idx : ℕ} {items : List StepItem} :
    RaisesOnly Fatal (validateDependencies ids idx items) := by
  induction items generalizing idx with
  | nil => exact raisesOnly_ok
  | cons item items ih =>
    cases item with
    | other v => exact ih
    | step s =>
      refine raisesOnly_bind.2 ⟨raisesOnly_forM fun dep _ => ?_, fun _ _ => ih⟩
      unfold validateDependency
      simp only [raisesOnly_bind, raisesOnly_check, true_and, implies_true]

theorem validateRetryPolicy_raises {r : RetryField} : RaisesOnly Fatal (validateRetryPolicy r) := by
  unfold validateRetryPolicy
  split
  · exact raisesOnly_ok
  · exact raisesOnly_check
  · simp only [raisesOnly_bind, raisesOnly_check, true_and, implies_true]

theorem validateStep_other_raises {ids : List String} {idx : ℕ} {v : PyVal} :
    RaisesOnly Fatal (validateStep ids idx (.other v)) :=
  raisesOnly_bind.2 ⟨raisesOnly_check, fun _ _ => raisesOnly_ok⟩

theorem Steps.eq_list_of_items {steps : Steps} {pre post : List StepItem} {item : StepItem}
    (h : steps.items = pre ++ item :: post) : steps = .list (pre ++ item :: post) := by
  cases steps with
  | list items => exact congrArg Steps.list h
  | other v => simp [Steps.items] at h

/-- The steps that the loop has gone through when it gets to the one behind them. -/
theorem validateSteps_before_iff {pre : List StepItem} {ids : List String} :
    validateSteps 0 [] pre = .ok ids ↔ ∃ steps : List PlanStep, pre = steps.map .step ∧
      ids = steps.map idText ∧ (∀ t ∈ steps, StepAccepted t ∧ HashableDeps t) ∧
      (steps.map idText).Nodup := by
  rw [validateSteps_ok_iff]
  simp only [List.nil_append, List.not_mem_nil, not_false_eq_true, true_and]
  exact Iff.rfl

/-- The validator raises something else exactly when the first rule that is broken is that of a
dependency that cannot be hashed. -/
theorem validatePlan_raises_iff {plan : Plan} :
    RaisesOnly Fatal (validatePlan plan) ↔ ∀ pre s post, ¬UnhashableFirst plan pre s post := by
  unfold validatePlan
  simp only [raisesOnly_bind, raisesOnly_check, check_ok_iff, true_and, validateSteps_raises_iff,
    validateDependencies_raises, validateRetryPolicy_raises, implies_true, and_true]
  refine ⟨fun h pre s post hfirst => ?_, fun h _ hid _ hversion _ hcreated _ hname _ hcontext _ hlength
    pre item post hsplit ids hpre => ?_⟩
  · obtain ⟨hnodup, -, hnew⟩ := List.nodup_append.1 (by
      rw [← List.map_append]
      exact hfirst.distinct)
    obtain ⟨deps, hdeps, hunhashable⟩ := hfirst.unhashable
    have hstep := h () hfirst.id () hfirst.header.version () hfirst.header.createdAt ()
      hfirst.header.name () hfirst.header.contextRequirements () hfirst.header.length
      (pre.map .step) (.step s) post (by rw [hfirst.items]; rfl) (pre.map idText)
      (validateSteps_before_iff.2 ⟨pre, rfl, rfl, hfirst.before, hnodup⟩)
    have hhash := validateStep_raises_iff.1 hstep hfirst.stepId
      (fun hmem => hnew _ hmem _ (List.mem_singleton.2 rfl) rfl) hfirst.fields deps hdeps
    rw [hunhashable] at hhash
    cases hhash
  · obtain ⟨steps, rfl, rfl, hbefore, hnodup⟩ := validateSteps_before_iff.1 hpre
    cases item with
    | other v => exact validateStep_other_raises
    | step s =>
      refine validateStep_raises_iff.2 fun hstepId hnew hfields deps hdeps => ?_
      by_contra hnot
      refine h steps s post ⟨hid, ⟨hversion, hcreated, hname, hcontext, hlength⟩,
        Steps.eq_list_of_items hsplit, hbefore, hstepId, ?_, hfields, deps, hdeps,
        Bool.eq_false_iff.2 hnot⟩
      rw [List.map_append, List.nodup_append]
      refine ⟨hnodup, List.nodup_singleton _, fun i hi j hj heq => hnew ?_⟩
      rw [← List.mem_singleton.1 hj, ← heq]
      exact hi

/-- **Documented plans.** The validator accepts the documented plans and raises fatal validation errors
only, exactly when a plan that passes its tests has version 4 ids that are distinct as UUIDs and a
multiplier that is a number, and the first rule that is broken is not that of an unhashable
dependency. -/
theorem validatePlan_documented_iff (plan : Plan) :
    Validates plan ↔ (∀ steps, PassingPlan plan steps → Proper plan steps) ∧
      ∀ pre s post, ¬UnhashableFirst plan pre s post := by
  rw [← accepts_iff, ← validatePlan_raises_iff]
  exact ⟨fun h => ⟨h.accepts, h.raises⟩, fun h => ⟨h.2, h.1⟩⟩

/-! ## Plans that the tests misjudge -/

/-- The id is a version 1 UUID. -/
def version1Plan : Plan := { samplePlan with id := .str "11111111-1111-1111-8111-111111111111" }

/-- Two steps with one UUID in two notations. -/
def sameUuidSteps : List PlanStep :=
  [sampleStep, { sampleStep with id := .str "urn:uuid:22222222-2222-4222-8222-222222222222" }]

def sameUuidPlan : Plan := { samplePlan with steps := .list (sameUuidSteps.map .step) }

/-- The multiplier of the retry policy is no number. -/
def nanPlan : Plan :=
  { samplePlan with retryPolicy := .policy { backoffMultiplier := .float .nan } }

/-- A dependency is a list. -/
def unhashablePlan : Plan :=
  { samplePlan with
    steps := .list [.step { sampleStep with dependsOn := .list [.list []] }] }

theorem eq_ok_of_isOk {x : Except Exc Unit} (h : x.isOk = true) : x = .ok () := by
  cases x with
  | ok u => rfl
  | error e => cases h

theorem proper_of_accepted {plan : Plan} (steps : List PlanStep)
    (hok : (validatePlan plan).isOk = true) (h : Validates plan)
    (hitems : plan.steps = .list (steps.map .step)) : Proper plan steps := by
  obtain ⟨steps', hdocumented⟩ := h.accepts.1 (eq_ok_of_isOk hok)
  have hsame := Steps.list.inj (hitems.symm.trans hdocumented.common.items)
  rw [List.map_injective_iff.2 (fun _ _ => StepItem.step.inj) hsame]
  exact hdocumented.proper

/-- The first three are accepted, and the last one raises a `TypeError`. -/
theorem misjudged_not_validates :
    ¬Validates version1Plan ∧ ¬Validates sameUuidPlan ∧ ¬Validates nanPlan ∧
      ¬Validates unhashablePlan := by
  refine ⟨fun h => ?_, fun h => ?_, fun h => ?_, fun h => ?_⟩
  · obtain ⟨i, hi, huuid⟩ := (proper_of_accepted [sampleStep] (by decide +kernel) h rfl).id
    rw [← PyVal.str.inj hi] at huuid
    revert huuid
    decide +kernel
  · have hdistinct := (proper_of_accepted sameUuidSteps (by decide +kernel) h rfl).distinct
    revert hdistinct
    decide +kernel
  · obtain ⟨-, x, hx, hle⟩ :=
      (proper_of_accepted [sampleStep] (by decide +kernel) h rfl).retryPolicy
    cases hx
    cases hle
  · have hraised : validatePlan unhashablePlan = .error .typeError := by rfl
    exact h.raises _ hraised

end PlanExec
