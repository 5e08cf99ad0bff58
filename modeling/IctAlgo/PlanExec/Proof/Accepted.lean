import IctAlgo.PlanExec.Event
import IctAlgo.PlanExec.Proof.Boundary

/-!
# Which plans an event is accepted for

`AcceptsOnlyRun`: an event that asks for a plan is accepted only if the executor ran that plan, and
rejected or answered with an error if anything failed.

* `handlePlan_status`: the status of an event that carries a plan, by what the executor does.
* `plainEvent_accepted`: with the executor of the repository, an event whose context has no plan object
  is accepted, and nothing ran.
* `acceptsOnlyRun_iff`: the executor's answers for which the property holds.
-/

set_option autoImplicit false

namespace PlanExec

open Lib Orchestrator

/-! ## Plans that ran -/

/-- The id of the plan that an event carries. -/
def planId? : Raw → Option PyVal
  | .dict items => (items.lookup "id").map Raw.toVal
  | .plan p => some p.id
  | _ => none

/-- The plan and the context are built, and the executor answers with a result for that plan that is no
failure. -/
def PlanRan (executor : Raw → Except ExecutorExc PlanResult) (plan executionCtx : Raw) : Prop :=
  ∃ p c r, buildPlan plan = .ok p ∧ buildContext executionCtx = .ok c ∧ executor c = .ok r ∧
    r.status ≠ .failure ∧ planId? plan = some r.planId

section
variable (executor : Raw → Except ExecutorExc PlanResult) (objects : ℕ → Raw)

/-- The event asks for a plan that ran. -/
def EventRan (event : Event) : Prop :=
  ∃ d, event.payload = .dict d ∧ carriesPlan d = true ∧
    PlanRan executor (rawOf objects (val d "plan")) (rawOf objects (val d "execution_context"))

/-- The status that `handle_event` answers with. -/
def eventStatus (cv : Conv) (cfg : ProcessConfig) (env : EventEnv) (event : Event) (s : Orch) :
    EventStatus :=
  (handleEvent cv cfg (withExecutor executor objects env event) event s).2.1.status

structure AcceptsOnlyRun (cv : Conv) (cfg : ProcessConfig) (env : EventEnv) (event : Event)
    (s : Orch) : Prop where
  accepted : eventStatus executor objects cv cfg env event s = .accepted →
    EventRan executor objects event
  failed : refuses env event = none → ¬EventRan executor objects event →
    eventStatus executor objects cv cfg env event s = .rejected ∨
      eventStatus executor objects cv cfg env event s = .error

/-- What the event asks for can be built, and the executor is not implemented, fails the plan, or
answers with a result for that plan. -/
def Answered (plan executionCtx : Raw) : Prop :=
  ∃ p c, buildPlan plan = .ok p ∧ buildContext executionCtx = .ok c ∧
    (executor c = .error .notImplemented ∨
      ∃ r, executor c = .ok r ∧ (r.status = .failure ∨ planId? plan = some r.planId))

/-! ## The status of an event -/

/-- The events that are not looked at do not depend on the plan. -/
theorem refuses_withExecutor (env : EventEnv) (event : Event) :
    refuses (withExecutor executor objects env event) event = refuses env event := by
  unfold withExecutor
  cases event.payload <;> rfl

theorem refuses_status {env : EventEnv} {event : Event} {result : EventResult}
    (h : refuses env event = some result) : result.status = .error ∨ result.status = .deferred := by
  unfold refuses at h
  split at h
  · obtain rfl := Option.some.inj h
    exact .inl rfl
  · split at h
    · obtain rfl := Option.some.inj h
      exact .inl rfl
    · split at h
      · obtain rfl := Option.some.inj h
        exact .inr rfl
      · split at h
        · obtain rfl := Option.some.inj h
          exact .inr rfl
        · cases h

/-- The plan of a result fails exactly when its status says so. -/
theorem planFails_result (r : PlanResult) :
    planFails (.ok (Reply.result r).payload) = decide (r.status = .failure) := by
  cases h : r.status <;>
    simp [planFails, Reply.payload, val, Dict.ofItems, Dict.getD, h, Status.text]

theorem planFails_empty : planFails (.ok Reply.empty.payload) = false := by
  simp [planFails, Reply.payload, val, Dict.getD]

end

/-- An event that asks for the plan of a payload. -/
def planEvent (payload : Payload) (correlationId : String) : Event :=
  ⟨"plan_execution", payload, correlationId⟩

section
variable {executor : Raw → Except ExecutorExc PlanResult} {objects : ℕ → Raw} {cv : Conv}
  {cfg : ProcessConfig} {env : EventEnv} {s : Orch} {correlationId : String}

/-- An event that is not looked at is neither accepted nor rejected. -/
theorem eventStatus_refused {event : Event} {result : EventResult}
    (h : refuses env event = some result) :
    eventStatus executor objects cv cfg env event s ≠ .accepted := by
  have hstatus : eventStatus executor objects cv cfg env event s = result.status := by
    unfold eventStatus handleEvent
    rw [refuses_withExecutor, h]
  rw [hstatus]
  obtain hstatus | hstatus := refuses_status h
  · rw [hstatus]
    exact EventStatus.noConfusion
  · rw [hstatus]
    exact EventStatus.noConfusion

variable {d : Fields} (hlooked : refuses env (planEvent (.dict d) correlationId) = none)

include hlooked

theorem eventStatus_eq :
    eventStatus executor objects cv cfg env (planEvent (.dict d) correlationId) s =
      (handlePlan (withExecutor executor objects env (planEvent (.dict d) correlationId)) d
        correlationId).status := by
  unfold eventStatus handleEvent
  rw [refuses_withExecutor, hlooked]
  rfl

theorem eventStatus_missing (hcarries : carriesPlan d = false) :
    eventStatus executor objects cv cfg env (planEvent (.dict d) correlationId) s = .error := by
  rw [eventStatus_eq hlooked, handlePlan, hcarries]
  rfl

/-- **The status of an event with a plan.** Every exception but `NotImplementedError` makes it
accepted. -/
theorem handlePlan_status (hcarries : carriesPlan d = true) :
    eventStatus executor objects cv cfg env (planEvent (.dict d) correlationId) s =
      match delegatePlan executor (rawOf objects (val d "plan"))
          (rawOf objects (val d "execution_context")) with
      | .ok r => if r.status = .failure then .rejected else .accepted
      | .error .notImplemented => .error
      | .error (.raised _) => .accepted := by
  rw [eventStatus_eq hlooked, handlePlan, hcarries, if_pos rfl]
  simp only [withExecutor, planEvent, planReply, executePlanIfEnabled, ↓reduceIte]
  cases delegatePlan executor (rawOf objects (val d "plan"))
      (rawOf objects (val d "execution_context")) with
  | ok r =>
    simp only [planFails_result, decide_eq_true_eq]
    split <;> rfl
  | error e =>
    cases e with
    | notImplemented => rfl
    | raised e => simp only [planFails_empty, Bool.false_eq_true, ↓reduceIte]

end

/-! ## What is accepted -/

/-- What the boundary hands on, step by step. -/
theorem delegatePlan_eq (executor : Raw → Except ExecutorExc PlanResult) (plan executionCtx : Raw) :
    delegatePlan executor plan executionCtx =
      match buildPlan plan, buildContext executionCtx with
      | .ok _, .ok c => executor c
      | .error e, _ => .error (.raised e)
      | .ok _, .error e => .error (.raised e) := by
  unfold delegatePlan
  cases buildPlan plan with
  | error e => rfl
  | ok p =>
    cases buildContext executionCtx with
    | error e => rfl
    | ok c => rfl

section
variable {executor : Raw → Except ExecutorExc PlanResult} {objects : ℕ → Raw} {cv : Conv}
  {cfg : ProcessConfig} {env : EventEnv} {s : Orch} {correlationId : String} {d : Fields}
  (hlooked : refuses env (planEvent (.dict d) correlationId) = none) (hcarries : carriesPlan d = true)

include hlooked hcarries

/-- An event that is accepted only for a plan that ran: what the boundary swallows is not there. -/
theorem answered_of_accepted
    (h : eventStatus executor objects cv cfg env (planEvent (.dict d) correlationId) s = .accepted →
      PlanRan executor (rawOf objects (val d "plan")) (rawOf objects (val d "execution_context"))) :
    Answered executor (rawOf objects (val d "plan")) (rawOf objects (val d "execution_context")) := by
  have hstatus : eventStatus executor objects cv cfg env (planEvent (.dict d) correlationId) s = _ :=
    handlePlan_status hlooked hcarries
  rw [delegatePlan_eq] at hstatus
  cases hp : buildPlan (rawOf objects (val d "plan")) with
  | error e =>
    rw [hp] at hstatus
    obtain ⟨p, c, r, hbuild, -⟩ := h hstatus
    rw [hp] at hbuild
    cases hbuild
  | ok p =>
    cases hc : buildContext (rawOf objects (val d "execution_context")) with
    | error e =>
      rw [hp, hc] at hstatus
      obtain ⟨p', c, r, -, hbuild, -⟩ := h hstatus
      rw [hc] at hbuild
      cases hbuild
    | ok c =>
      simp only [hp, hc] at hstatus
      cases he : executor c with
      | error e =>
        cases e with
        | notImplemented => exact ⟨p, c, hp, hc, .inl he⟩
        | raised e =>
          rw [he] at hstatus
          obtain ⟨p', c', r, -, hbuild, hresult, -⟩ := h hstatus
          obtain rfl := Except.ok.inj (hc.symm.trans hbuild)
          rw [he] at hresult
          cases hresult
      | ok r =>
        refine ⟨p, c, hp, hc, .inr ⟨r, he, ?_⟩⟩
        by_cases hfailure : r.status = .failure
        · exact .inl hfailure
        · simp only [he, hfailure, ↓reduceIte] at hstatus
          obtain ⟨p', c', r', -, hbuild, hresult, -, hid⟩ := h hstatus
          obtain rfl := Except.ok.inj (hc.symm.trans hbuild)
          obtain rfl := Except.ok.inj (he.symm.trans hresult)
          exact .inr hid

/-- What is answered is rejected, an error, or accepted for a plan that ran. -/
theorem eventStatus_answered
    (h : Answered executor (rawOf objects (val d "plan")) (rawOf objects (val d "execution_context"))) :
    eventStatus executor objects cv cfg env (planEvent (.dict d) correlationId) s = .rejected ∨
      eventStatus executor objects cv cfg env (planEvent (.dict d) correlationId) s = .error ∨
        EventRan executor objects (planEvent (.dict d) correlationId) := by
  have hstatus : eventStatus executor objects cv cfg env (planEvent (.dict d) correlationId) s = _ :=
    handlePlan_status hlooked hcarries
  obtain ⟨p, c, hp, hc, he | ⟨r, he, hr⟩⟩ := h
  · rw [delegatePlan_eq, hp, hc] at hstatus
    simp only [he] at hstatus
    exact .inr (.inl hstatus)
  · rw [delegatePlan_eq, hp, hc] at hstatus
    simp only [he] at hstatus
    by_cases hfailure : r.status = .failure
    · rw [if_pos hfailure] at hstatus
      exact .inl hstatus
    · have hid := hr.resolve_left hfailure
      exact .inr (.inr ⟨d, rfl, hcarries, p, c, r, hp, hc, he, hfailure, hid⟩)

end

/-- **An event is accepted only for a plan that ran** exactly when the boundary has nothing to swallow:
the event is not looked at or lacks a key, or its plan and context are built and the executor answers
for that plan or is not implemented. -/
theorem acceptsOnlyRun_iff (executor : Raw → Except ExecutorExc PlanResult) (objects : ℕ → Raw)
    (cv : Conv) (cfg : ProcessConfig) (env : EventEnv) (payload : Payload) (correlationId : String)
    (s : Orch) :
    AcceptsOnlyRun executor objects cv cfg env (planEvent payload correlationId) s ↔
      (refuses env (planEvent payload correlationId) = none → ∀ d, payload = .dict d →
        carriesPlan d = true →
          Answered executor (rawOf objects (val d "plan"))
            (rawOf objects (val d "execution_context"))) := by
  constructor
  · intro h hlooked d hd hcarries
    subst hd
    have hran : eventStatus executor objects cv cfg env (planEvent (.dict d) correlationId) s =
        .accepted → PlanRan executor (rawOf objects (val d "plan"))
          (rawOf objects (val d "execution_context")) := by
      intro haccepted
      obtain ⟨d', hd', -, hran⟩ := h.accepted haccepted
      obtain rfl := Payload.dict.inj hd'
      exact hran
    exact answered_of_accepted hlooked hcarries hran
  · intro h
    -- the status of an event that is looked at
    have hcases : refuses env (planEvent payload correlationId) = none →
        eventStatus executor objects cv cfg env (planEvent payload correlationId) s = .rejected ∨
          eventStatus executor objects cv cfg env (planEvent payload correlationId) s = .error ∨
            EventRan executor objects (planEvent payload correlationId) := by
      intro hlooked
      cases payload with
      | other v => simp [refuses, planEvent] at hlooked
      | dict d =>
        cases hcarries : carriesPlan d with
        | false => exact .inr (.inl (eventStatus_missing hlooked hcarries))
        | true => exact eventStatus_answered hlooked hcarries (h hlooked d rfl hcarries)
    refine ⟨fun haccepted => ?_, fun hlooked hnot => ?_⟩
    · cases hlooked : refuses env (planEvent payload correlationId) with
      | some result => exact absurd haccepted (eventStatus_refused hlooked)
      | none =>
        obtain hstatus | hstatus | hran := hcases hlooked
        · rw [hstatus] at haccepted
          cases haccepted
        · rw [hstatus] at haccepted
          cases haccepted
        · exact hran
    · obtain hstatus | hstatus | hran := hcases hlooked
      · exact .inl hstatus
      · exact .inr hstatus
      · exact absurd hran hnot

/-! ## The executor of the repository -/

theorem lookup_rawItems (objects : ℕ → Raw) (items : List (String × Value)) (key : String) :
    (rawItems objects items).lookup key = (items.lookup key).map (rawOf objects) := by
  induction items with
  | nil => rfl
  | cons item items ih =>
    obtain ⟨k, v⟩ := item
    rw [rawItems, List.lookup_cons, List.lookup_cons, ih]
    cases key == k <;> rfl

theorem planFieldOf_rawOf {objects : ℕ → Raw} {v : Value}
    (h : ∀ cls truth ref, v ≠ .object cls truth ref) :
    ∃ w, planFieldOf (rawOf objects v) = .other w := by
  cases v with
  | object cls truth ref => exact absurd rfl (h cls truth ref)
  | null | bool b | int n | float x | str s | list xs | dict items => exact ⟨_, rfl⟩

/-- A context whose plan is no object makes the executor raise. -/
theorem executePlan_plain {objects : ℕ → Raw} {items : List (String × Value)} {c : Raw} (now : ℤ)
    (hplain : ∀ cls truth ref, items.lookup "plan" ≠ some (.object cls truth ref))
    (h : buildContext (.dict (rawItems objects items)) = .ok c) :
    ∃ e, executePlan now c = .error (.raised e) := by
  have hplan : ∃ w, planFieldOf (((rawItems objects items).lookup "plan").getD (.val .null)) =
      .other w := by
    rw [lookup_rawItems]
    cases hlookup : items.lookup "plan" with
    | none => exact ⟨.null, rfl⟩
    | some v =>
      exact planFieldOf_rawOf fun cls truth ref hv => hplain cls truth ref (by rw [hlookup, hv])
  obtain ⟨w, hw⟩ := hplan
  simp only [buildContext, contextOf] at h
  split at h
  · obtain rfl := Except.ok.inj h
    exact executePlan_untyped now hw
  · cases h

/-- **Events of plain dictionaries are accepted, and nothing runs**: with the executor of the
repository, whatever their plan and context hold. -/
theorem plainEvent_accepted {objects : ℕ → Raw} {cv : Conv} {cfg : ProcessConfig} {env : EventEnv}
    {s : Orch} {correlationId : String} {d : Fields} {items : List (String × Value)} (now : ℤ)
    (hlooked : refuses env (planEvent (.dict d) correlationId) = none) (hcarries : carriesPlan d = true)
    (hcontext : val d "execution_context" = .dict items)
    (hplain : ∀ cls truth ref, items.lookup "plan" ≠ some (.object cls truth ref)) :
    eventStatus (executePlan now) objects cv cfg env (planEvent (.dict d) correlationId) s = .accepted ∧
      ¬EventRan (executePlan now) objects (planEvent (.dict d) correlationId) := by
  have hraises : ∀ c, buildContext (rawOf objects (val d "execution_context")) = .ok c →
      ∃ e, executePlan now c = .error (.raised e) := by
    intro c hc
    rw [hcontext] at hc
    exact executePlan_plain now hplain hc
  constructor
  · rw [handlePlan_status hlooked hcarries, delegatePlan_eq]
    cases buildPlan (rawOf objects (val d "plan")) with
    | error e => rfl
    | ok p =>
      cases hc : buildContext (rawOf objects (val d "execution_context")) with
      | error e => rfl
      | ok c =>
        obtain ⟨e, he⟩ := hraises c hc
        simp only [he]
  · intro hran
    obtain ⟨d', hd', -, p, c, r, -, hc, hresult, -⟩ := hran
    obtain rfl := Payload.dict.inj hd'
    obtain ⟨e, he⟩ := hraises c hc
    rw [he] at hresult
    cases hresult

/-- An event whose plan and context are empty dictionaries, which no plan is built of. -/
def emptyDicts : Payload :=
  .dict (Dict.ofItems [("plan", .dict []), ("execution_context", .dict [])])

/-- A call with nothing that holds the event back. -/
def quietEnv : EventEnv where
  gate := defaultPolicies .plain 0
  process := {
    gate := defaultPolicies .plain 0
    now := ⟨"2026-01-05T10:00:00Z", 0⟩
    post := defaultPolicies .plain 0
    insert := .ok 1 }

/-- The event is accepted. -/
theorem emptyDicts_accepted :
    ¬AcceptsOnlyRun (executePlan 0) (fun _ => .val .null) .plain { gate := { permissive := true } }
      quietEnv (planEvent emptyDicts "event-1") {} := by
  intro h
  have hplain : eventStatus (executePlan 0) (fun _ => .val .null) .plain
        { gate := { permissive := true } } quietEnv (planEvent emptyDicts "event-1") {} = .accepted ∧
      ¬EventRan (executePlan 0) (fun _ => .val .null) (planEvent emptyDicts "event-1") :=
    plainEvent_accepted 0 rfl rfl rfl (by simp)
  exact hplain.2 (h.accepted hplain.1)

end PlanExec
