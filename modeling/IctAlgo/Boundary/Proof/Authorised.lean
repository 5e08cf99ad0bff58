import IctAlgo.Boundary.Guards

/-!
# Authorised trades

The guards should let a trade through only when it is authorised (`Authorised`): its approval is in
force, nothing stops trading, and the log has the events of the intent and of this approval of it.
All of it follows from the checks but the last event: any event with the id of the approval counts
for it, also a rejection, or an approval of another intent.

* `allPassed_iff`: what the checks establish together.
* `executeAllChecks_authorised_iff`: passing means an authorised trade exactly when the events that
  bear the id of an otherwise cleared approval include the one of its grant.
-/

set_option autoImplicit false

namespace Boundary

open Lib Orchestrator

/-! ## The purpose -/

/-- A date that is still to come at the time `now`, or none. -/
def Unexpired (expiresAt : Option Timestamp) (now : ℚ) : Prop :=
  ∀ t, expiresAt = some t → t.aware ∧ now < t.time

/-- The intents an authority may approve. -/
def Sufficient : ApprovalAuthority → ExecutionIntentType → Prop
  | .systemAdmin, _ => True
  | .riskOfficer, intentType => intentType ≠ .manualOverride
  | .humanTrader, intentType =>
    intentType = .openPosition ∨ intentType = .closePosition ∨ intentType = .modifyPosition

/-- The approval is one of this intent and in force. -/
structure Approves (a : HumanExecutionApproval) (intent : ExecutionIntent) (now : ℚ) : Prop where
  intentId : a.intentId = intent.intentId
  approved : a.approved = true
  unexpired : Unexpired a.expiresAt now
  authority : Sufficient a.authorityLevel intent.intentType

/-- The intent keeps the bounds it states itself. -/
structure KeepsBounds (intent : ExecutionIntent) (now : ℚ) : Prop where
  maxLoss : ∀ x, intent.maxLoss = some x → x.lt (.fin 0) = false
  maxPositionSize : ∀ x, intent.maxPositionSize = some x → x.le (.fin 0) = false
  expiresAt : ∀ t, intent.expiresAt = some t → t.aware ∧ now ≤ t.time

/-- The log has the creation of the intent. -/
def Created (intent : ExecutionIntent) (log : List Fields) : Prop :=
  ∃ e ∈ log, val e "event_type" = .str "intent_created" ∧ val e "intent_id" = .str intent.intentId

/-- The log says that this approval of the intent was granted. -/
def Granted (a : HumanExecutionApproval) (intent : ExecutionIntent) (log : List Fields) : Prop :=
  ∃ e ∈ log, val e "event_type" = .str "approval_granted" ∧
    val e "approval_id" = .str a.approvalId ∧ val e "intent_id" = .str intent.intentId

/-- Some event of the log bears the id of the approval. -/
def Mentioned (a : HumanExecutionApproval) (log : List Fields) : Prop :=
  ∃ e ∈ log, val e "approval_id" = .str a.approvalId

structure Authorised (a : HumanExecutionApproval) (intent : ExecutionIntent)
    (killSwitch : KillSwitchState) (log : List Fields) (now : Readings) : Prop where
  approves : Approves a intent now.approval
  running : killSwitch.isHalted = false
  bounds : KeepsBounds intent now.intent
  created : Created intent log
  granted : Granted a intent log

/-- Nothing but the events of the approval may stop the trade: it meets the rest of `Authorised`, its
approval and intent say why, and a conditional approval has conditions. -/
structure Cleared (a : HumanExecutionApproval) (intent : ExecutionIntent)
    (killSwitch : KillSwitchState) (log : List Fields) (now : Readings) : Prop where
  approves : Approves a intent now.approval
  running : killSwitch.isHalted = false
  bounds : KeepsBounds intent now.intent
  created : Created intent log
  approvalRationale : a.approvalRationale ≠ ""
  humanRationale : intent.humanRationale ≠ ""
  conditions : a.conditionalApproval = true → a.approvalConditions ≠ []

/-! ## Each check -/

/-- A check, which may raise, came out right. -/
def Passes (r : Except String Check) : Prop := ∃ c, r = .ok c ∧ c.ok = true

section
variable {c : Check} {α : Type} {r : Except String α}

@[simp] theorem passes_ok : Passes (.ok c) ↔ c.ok = true := by
  refine ⟨fun h' => ?_, fun h => ?_⟩
  · obtain ⟨_, h, hc⟩ := h'
    cases h
    exact hc
  · exact ⟨c, rfl, h⟩

@[simp] theorem passes_error (err : String) : ¬ Passes (.error err) := by
  intro h'
  obtain ⟨_, h, -⟩ := h'
  cases h

@[simp] theorem passes_pure : Passes (pure c) ↔ c.ok = true := passes_ok

@[simp] theorem passes_bind (f : α → Except String Check) :
    Passes (r >>= f) ↔ ∃ x, r = .ok x ∧ Passes (f x) := by
  cases r with
  | error err =>
    refine ⟨fun h' => ?_, fun h' => ?_⟩
    · obtain ⟨_, h, -⟩ := h'
      cases h
    · obtain ⟨_, h, -⟩ := h'
      cases h
  | ok x =>
    refine ⟨fun h => ?_, fun h' => ?_⟩
    · exact ⟨x, rfl, h⟩
    · obtain ⟨_, h, hf⟩ := h'
      cases h
      exact hf

@[simp] theorem passes_ite (p : Prop) [Decidable p] (r r' : Except String Check) :
    Passes (if p then r else r') ↔ if p then Passes r else Passes r' := by
  split <;> rfl

end

variable {intent : ExecutionIntent} {a : HumanExecutionApproval} {k : KillSwitchState}
  {log : List Fields} {showFloat : PyFloat → String}

theorem isValid_eq_true_iff (now : ℚ) : a.isValid now = .ok true ↔ Unexpired a.expiresAt now := by
  unfold HumanExecutionApproval.isValid Unexpired
  cases a.expiresAt with
  | none => simp
  | some t =>
    obtain ⟨time, aware⟩ := t
    cases aware <;> simp [Timestamp.lt?]

theorem checkExplicitApproval_some (now : ℚ) :
    Passes (checkExplicitApproval intent (some a) now) ↔
      a.intentId = intent.intentId ∧ a.approved = true ∧ Unexpired a.expiresAt now ∧
        a.approvalRationale ≠ "" := by
  rw [← isValid_eq_true_iff]
  simp [checkExplicitApproval]

theorem checkKillSwitch_ok_iff : (checkKillSwitch k).ok = true ↔ k.isHalted = false := by
  unfold checkKillSwitch KillSwitchState.isHalted
  cases k.manualKillActive <;> cases k.circuitBreakerActive <;> cases k.timeoutActive <;> simp

theorem lt?_eq_false_iff (t : Timestamp) (now : ℚ) :
    t.lt? ⟨now, true⟩ = .ok false ↔ t.aware ∧ now ≤ t.time := by
  obtain ⟨time, aware⟩ := t
  cases aware <;> simp [Timestamp.lt?]

theorem keepsBounds_iff (now : ℚ) : KeepsBounds intent now ↔
    (∀ x, intent.maxLoss = some x → x.lt (.fin 0) = false) ∧
      (∀ x, intent.maxPositionSize = some x → x.le (.fin 0) = false) ∧
        ∀ t, intent.expiresAt = some t → t.aware ∧ now ≤ t.time :=
  ⟨fun h => ⟨h.1, h.2, h.3⟩, fun h => ⟨h.1, h.2.1, h.2.2⟩⟩

theorem checkIntentConstraints_passes_iff (now : ℚ) :
    Passes (checkIntentConstraints showFloat intent now) ↔
      intent.humanRationale ≠ "" ∧ KeepsBounds intent now := by
  rw [keepsBounds_iff]
  unfold checkIntentConstraints
  rcases intent.maxLoss with _ | loss <;> rcases intent.maxPositionSize with _ | size <;>
    rcases intent.expiresAt with _ | t <;> simp [lt?_eq_false_iff]

theorem checkApprovalConditions_ok_iff : (checkApprovalConditions a).ok = true ↔
    (a.conditionalApproval = true → a.approvalConditions ≠ []) := by
  unfold checkApprovalConditions
  cases a.conditionalApproval with
  | false => simp
  | true =>
    cases a.approvalConditions with
    | nil => simp
    | cons condition conditions => simp

theorem checkApprovalAuthority_ok_iff (intentType : ExecutionIntentType) :
    (checkApprovalAuthority a intentType.value).ok = true ↔ Sufficient a.authorityLevel intentType := by
  unfold checkApprovalAuthority Sufficient
  cases a.authorityLevel with
  | systemAdmin => simp
  | riskOfficer => cases intentType <;> simp [ExecutionIntentType.value]
  | humanTrader => cases intentType <;> simp [ExecutionIntentType.value]

/-- The events of the approval are found by its id alone. -/
theorem checkAuditTrail_ok_iff : (checkAuditTrail intent.intentId a.approvalId log).ok = true ↔
    Created intent log ∧ Mentioned a log := by
  unfold checkAuditTrail Created Mentioned
  split
  · rename_i hlog
    simp [hlog]
  · simp only [List.filter_eq_nil_iff, decide_eq_true_eq]
    split
    · rename_i hcreated
      simp only [Bool.false_eq_true, false_iff]
      intro h
      obtain ⟨⟨e, he, hevent⟩, -⟩ := h
      exact hcreated e he hevent
    · rename_i hcreated
      push Not at hcreated
      split
      · rename_i hmentioned
        simp only [Bool.false_eq_true, false_iff]
        intro h
        obtain ⟨-, e, he, hid⟩ := h
        exact hmentioned e he hid
      · rename_i hmentioned
        push Not at hmentioned
        exact iff_of_true rfl ⟨hcreated, hmentioned⟩

/-! ## All checks -/

/-- `execute_all_checks` lets the trade through. -/
def AllPassed (r : Except String Report) : Prop := ∃ rep, r = .ok rep ∧ rep.allPassed = true

variable {now : Readings}

@[simp] theorem report_allPassed (results : List (String × Check)) :
    (report results).allPassed = true ↔ ∀ r ∈ results, r.2.ok = true := by
  simp [report]

theorem executeAllChecks_none : ¬ AllPassed (executeAllChecks showFloat intent none k log now) := by
  intro h'
  obtain ⟨rep, h, hall⟩ := h'
  unfold executeAllChecks at h
  cases hc : checkIntentConstraints showFloat intent now.intent with
  | error err =>
    rw [hc] at h
    cases h
  | ok c =>
    rw [hc] at h
    cases h
    simp at hall

/-- The report of a given approval is that of its six checks. -/
theorem executeAllChecks_some : AllPassed (executeAllChecks showFloat intent (some a) k log now) ↔
    Passes (checkExplicitApproval intent (some a) now.approval) ∧ (checkKillSwitch k).ok = true ∧
      Passes (checkIntentConstraints showFloat intent now.intent) ∧
      (checkApprovalConditions a).ok = true ∧
      (checkApprovalAuthority a intent.intentType.value).ok = true ∧
      (checkAuditTrail intent.intentId a.approvalId log).ok = true := by
  unfold executeAllChecks AllPassed
  rcases checkExplicitApproval intent (some a) now.approval with err | explicitApproval
  · simp [bind, Except.bind]
  · rcases checkIntentConstraints showFloat intent now.intent with err | constraints
    · simp [bind, Except.bind]
    · simp [bind, Except.bind, pure, Except.pure]

/-- **What the checks establish.** The events of the approval are only known to bear its id. -/
theorem allPassed_iff : AllPassed (executeAllChecks showFloat intent (some a) k log now) ↔
    Cleared a intent k log now ∧ Mentioned a log := by
  rw [executeAllChecks_some, checkExplicitApproval_some, checkKillSwitch_ok_iff,
    checkIntentConstraints_passes_iff, checkApprovalConditions_ok_iff, checkApprovalAuthority_ok_iff,
    checkAuditTrail_ok_iff]
  refine ⟨fun h => ?_, fun h => ?_⟩
  · obtain ⟨⟨hid, happroved, hexp, hrationale⟩, hk, ⟨hhuman, hb⟩, hcond, hauth, hcreated,
      hmentioned⟩ := h
    exact ⟨⟨⟨hid, happroved, hexp, hauth⟩, hk, hb, hcreated, hrationale, hhuman, hcond⟩, hmentioned⟩
  · obtain ⟨hc, hmentioned⟩ := h
    exact ⟨⟨hc.approves.intentId, hc.approves.approved, hc.approves.unexpired, hc.approvalRationale⟩,
      hc.running, ⟨hc.humanRationale, hc.bounds⟩, hc.conditions, hc.approves.authority, hc.created,
      hmentioned⟩

theorem authorised_of_cleared (hc : Cleared a intent k log now)
    (hg : Granted a intent log) : Authorised a intent k log now :=
  ⟨hc.approves, hc.running, hc.bounds, hc.created, hg⟩

/-- **A trade the guards let through is authorised** exactly when the events that bear the id of an
otherwise cleared approval include the one of its grant for the intent. -/
theorem executeAllChecks_authorised_iff (showFloat : PyFloat → String) (intent : ExecutionIntent)
    (approval : Option HumanExecutionApproval) (k : KillSwitchState) (log : List Fields)
    (now : Readings) :
    (AllPassed (executeAllChecks showFloat intent approval k log now) →
        ∃ a, approval = some a ∧ Authorised a intent k log now) ↔
      ∀ a, approval = some a → Cleared a intent k log now → Mentioned a log →
        Granted a intent log := by
  constructor
  · rintro h a rfl hc hmentioned
    obtain ⟨_, ha, hauth⟩ := h (allPassed_iff.2 ⟨hc, hmentioned⟩)
    cases ha
    exact hauth.granted
  · intro h hall
    cases approval with
    | none => exact (executeAllChecks_none hall).elim
    | some a =>
      obtain ⟨hc, hmentioned⟩ := allPassed_iff.1 hall
      exact ⟨a, rfl, authorised_of_cleared hc (h a rfl hc hmentioned)⟩

def openIntent : ExecutionIntent where
  intentId := "I-1"
  createdAt := ⟨0, true⟩
  humanRationale := "close of day"

def openApproval : HumanExecutionApproval where
  approvalId := "A-1"
  intentId := "I-1"
  approved := true
  approvedBy := "desk"
  approvedAt := ⟨0, true⟩
  approvalRationale := "approved"

/-- The approval was rejected, and logged so, before it was set to approved. -/
theorem rejection_authorises : ∃ log,
    (do
      let log ← logIntentCreated (fun _ => "") [] openIntent "desk" "" ⟨"r1", ⟨0, true⟩⟩
      logApprovalRejected (fun _ => "") log "I-1" { openApproval with approved := false } "desk" ""
        ⟨"r2", ⟨0, true⟩⟩) = .ok log ∧
    ¬ (AllPassed (executeAllChecks (fun _ => "") openIntent (some openApproval) {} log ⟨1, 1⟩) →
      ∃ a, some openApproval = some a ∧ Authorised a openIntent {} log ⟨1, 1⟩) := by
  refine ⟨_, rfl, fun h => ?_⟩
  obtain ⟨a, ha, hauth⟩ := h ⟨_, rfl, rfl⟩
  obtain ⟨e, he, htype, -⟩ := hauth.granted
  rcases List.mem_cons.1 he with rfl | he
  · have hcreated : Value.str "intent_created" = .str "approval_granted" := htype
    simp at hcreated
  · rw [List.mem_singleton.1 he] at htype
    have hrejected : Value.str "approval_rejected" = .str "approval_granted" := htype
    simp at hrejected

end Boundary
