import IctAlgo.Lib.Runs
import IctAlgo.Approval.Proof.Frozen

/-!
# The two checks before an execution

`execute_if_approved` and `is_approval_valid` test the same facts each in its own way. Both answer by
`validity` alone, so they agree in every state. What an answer of yes says about the audit log is
an invariant of the runs.

* `approveAdvisory_logs`: an approval that does not raise appends one entry with its outcome; one
  that raises writes nothing.
* `Traced`: the outcome stored for an advisory is that of its last entry that is not `EXPIRED`, and
  after an approval the stored snapshot is that of the entry.
* `approvalChecks_agree`: the checks and the log agree after every run.
-/

set_option autoImplicit false

namespace Approval

open Lib

/-- The last entry of an advisory that is a decision of the approver. -/
def lastDecision (auditLog : List AuditLogEntry) (advisoryId : String) : Option AuditLogEntry :=
  History.lastOf (fun entry => entry.advisoryId = advisoryId ∧ entry.outcome ≠ .expired) auditLog

theorem lastDecision_append (log : List AuditLogEntry) (entry : AuditLogEntry)
    (advisoryId : String) :
    lastDecision (log ++ [entry]) advisoryId =
      if entry.advisoryId = advisoryId ∧ entry.outcome ≠ .expired then some entry
      else lastDecision log advisoryId := by
  unfold lastDecision
  rw [History.lastOf_append]
  simp only [decide_eq_true_eq]

namespace Manager

variable {m m' : Manager} {op : Op}

/-! ## One operation -/

/-- What an operation that does not raise made of `m`, by its entry. -/
inductive Decided (m : Manager) (entry : AuditLogEntry) (m' : Manager) : Prop
  | expired (outcome : entry.outcome = .expired) (approvals : m'.approvals = m.approvals)
      (outcomes : m'.approvalOutcomes = m.approvalOutcomes)
  | rejected (outcome : entry.outcome = .rejected) (approvals : m'.approvals = m.approvals)
      (outcomes : m'.approvalOutcomes = m.approvalOutcomes.set entry.advisoryId .rejected)
  | approved (outcome : entry.outcome = .approved)
      (approvals : m'.approvals = m.approvals.set entry.advisoryId entry.stateSnapshot)
      (outcomes : m'.approvalOutcomes = m.approvalOutcomes.set entry.advisoryId .approved)

/-- An approval appends one entry, with the outcome it answers, or raises and writes nothing. -/
theorem approveAdvisory_logs (m : Manager) (s : AdvisorySnapshot) (userId : String) (approve : Bool)
    (reason : Option String) (t : Readings) :
    Exn.wp (approveAdvisory s userId approve reason t)
      (fun outcome m' => ∃ entry, m'.auditLog = m.auditLog ++ [entry] ∧
        entry.advisoryId = s.advisoryId ∧ entry.stateSnapshot = s ∧ entry.outcome = outcome ∧
        Decided m entry m')
      (fun _ m' => m' = m) m := by
  unfold approveAdvisory
  cases missingField? s with
  | some err => exact rfl
  | none =>
    simp only [Exn.wp_bind, wp_orRaise]
    cases stage7ExpirationCheck s t.check with
    | error err => trivial
    | ok isExpired =>
      cases isExpired with
      | true => exact ⟨_, rfl, rfl, rfl, rfl, .expired rfl rfl rfl⟩
      | false =>
        cases approve with
        | true => exact ⟨_, rfl, rfl, rfl, rfl, .approved rfl rfl rfl⟩
        | false => exact ⟨_, rfl, rfl, rfl, rfl, .rejected rfl rfl rfl⟩

/-- What an operation does to the manager. -/
theorem step_cases (m : Manager) (op : Op) :
    m.step op = m ∨
    ∃ entry, (m.step op).auditLog = m.auditLog ++ [entry] ∧ Decided m entry (m.step op) := by
  cases op with
  | approve s userId approve reason t =>
    refine Exn.wp_exec (P := fun m' => m' = m ∨
      ∃ entry, m'.auditLog = m.auditLog ++ [entry] ∧ Decided m entry m') ?_
    refine Exn.wp_mono (approveAdvisory_logs m s userId approve reason t) ?_ ?_
    · intro outcome m' h
      obtain ⟨entry, hlog, -, -, -, hdecided⟩ := h
      exact .inr ⟨entry, hlog, hdecided⟩
    · exact fun _ _ => .inl
  | execute | isValid | expirationCheck | auditTrail => exact .inl (step_query rfl)

/-! ## The invariant -/

/-- What is stored for an advisory is what its last decision in the log says. -/
structure Traced (m : Manager) : Prop where
  outcomes : ∀ advisoryId, m.approvalOutcomes.get? advisoryId =
    (lastDecision m.auditLog advisoryId).map (·.outcome)
  snapshots : ∀ advisoryId entry, lastDecision m.auditLog advisoryId = some entry →
    entry.outcome = .approved → m.approvals.get? advisoryId = some entry.stateSnapshot

theorem traced_new : Traced {} := by
  refine ⟨fun advisoryId => rfl, fun advisoryId entry h => ?_⟩
  rw [lastDecision, History.lastOf_nil] at h
  cases h

theorem Traced.step (h : Traced m) (op : Op) : Traced (m.step op) := by
  obtain heq | ⟨entry, hlog, hdecided⟩ := m.step_cases op
  · rw [heq]
    exact h
  · refine ⟨fun advisoryId => ?_, fun advisoryId last hlast happroved => ?_⟩
    · rw [hlog, lastDecision_append]
      cases hdecided with
      | expired hout _ houtcomes =>
        rw [houtcomes, if_neg fun hc => hc.2 hout]
        exact h.outcomes advisoryId
      | rejected hout _ houtcomes | approved hout _ houtcomes =>
        rw [houtcomes, Dict.get?_set, hout]
        by_cases hid : advisoryId = entry.advisoryId
        · subst hid
          simp [hout]
        · rw [if_neg hid, if_neg fun hc => hid hc.1.symm]
          exact h.outcomes advisoryId
    · rw [hlog, lastDecision_append] at hlast
      cases hdecided with
      | expired hout happrovals _ =>
        rw [if_neg fun hc => hc.2 hout] at hlast
        rw [happrovals]
        exact h.snapshots advisoryId last hlast happroved
      | rejected hout happrovals _ =>
        rw [happrovals]
        split at hlast
        · obtain rfl := Option.some.inj hlast
          rw [hout] at happroved
          cases happroved
        · exact h.snapshots advisoryId last hlast happroved
      | approved hout happrovals _ =>
        rw [happrovals, Dict.get?_set]
        by_cases hid : advisoryId = entry.advisoryId
        · rw [if_pos ⟨hid.symm, by simp [hout]⟩] at hlast
          obtain rfl := Option.some.inj hlast
          rw [if_pos hid]
        · rw [if_neg fun hc => hid hc.1.symm] at hlast
          rw [if_neg hid]
          exact h.snapshots advisoryId last hlast happroved

/-! ## The answers -/

/-- A snapshot that is not expired has a date, and this is not past. -/
theorem not_expired {s : AdvisorySnapshot} {now : ℚ} (h : stage7ExpirationCheck s now = .ok false) :
    ∃ t, s.expirationTimestamp = some t ∧ now ≤ t.time := by
  unfold stage7ExpirationCheck at h
  simp only at h
  split at h
  · cases h
  · split at h
    · cases h
    · rename_i t hexp
      refine ⟨t, hexp, ?_⟩
      unfold Timestamp.lt? at h
      split at h
      · simpa using h
      · cases h

/-- **What an answer of yes says.** -/
theorem Traced.validity_true (h : Traced m) {advisoryId : String} {now : ℚ}
    (hyes : m.validity advisoryId now = .ok true) :
    ∃ entry t, lastDecision m.auditLog advisoryId = some entry ∧ entry.outcome = .approved ∧
      m.approvals.get? advisoryId = some entry.stateSnapshot ∧
      entry.stateSnapshot.expirationTimestamp = some t ∧ now ≤ t.time := by
  unfold validity approvedSnapshot? at hyes
  rw [h.outcomes advisoryId] at hyes
  cases hlast : lastDecision m.auditLog advisoryId with
  | none => simp [hlast] at hyes
  | some entry =>
    rw [hlast, Option.map_some] at hyes
    cases hout : entry.outcome with
    | approved =>
      have hstored := h.snapshots advisoryId entry hlast hout
      rw [hout, hstored] at hyes
      have hvalid : stage7ExpirationCheck entry.stateSnapshot now = .ok false := by
        cases hcheck : stage7ExpirationCheck entry.stateSnapshot now with
        | error err => simp [hcheck, Except.map] at hyes
        | ok isExpired => simpa [hcheck, Except.map] using hyes
      obtain ⟨t, hexp, hle⟩ := not_expired hvalid
      exact ⟨entry, t, rfl, hout, hstored, hexp, hle⟩
    | rejected | expired | invalidated | pending => simp [hout] at hyes

/-- The two checks agree with each other and with the audit log, and every operation leaves them so:
an approval writes one entry or nothing, and any other operation nothing. -/
structure ChecksAgree (m : Manager) : Prop where
  agree : ∀ advisoryId now,
    (executeIfApproved advisoryId now).run m = (isApprovalValid advisoryId now).run m
  decisive : ∀ advisoryId now, Exn.wp (executeIfApproved advisoryId now)
    (fun r _ => r = true → ∃ entry t, lastDecision m.auditLog advisoryId = some entry ∧
      entry.outcome = .approved ∧ m.approvals.get? advisoryId = some entry.stateSnapshot ∧
      entry.stateSnapshot.expirationTimestamp = some t ∧ now ≤ t.time) (fun _ _ => True) m
  logged : ∀ s userId approve reason t, Exn.wp (approveAdvisory s userId approve reason t)
    (fun outcome m' => ∃ entry, m'.auditLog = m.auditLog ++ [entry] ∧
      entry.advisoryId = s.advisoryId ∧ entry.outcome = outcome)
    (fun _ m' => m' = m) m
  queries : ∀ op : Op, op.isQuery = true → m.step op = m

theorem Traced.checksAgree (h : Traced m) : ChecksAgree m where
  agree advisoryId now := by rw [executeIfApproved_run, isApprovalValid_run]
  decisive advisoryId now := by
    rw [wp_executeIfApproved]
    split
    · rintro rfl
      exact h.validity_true ‹_›
    · trivial
  logged s userId approve reason t := by
    refine Exn.wp_mono (approveAdvisory_logs m s userId approve reason t) ?_ fun _ _ => id
    intro outcome m' h'
    obtain ⟨entry, hlog, hid, -, hout, -⟩ := h'
    exact ⟨entry, hlog, hid, hout⟩
  queries _ := step_query

/-- **The checks before an execution agree**, in every reachable state. -/
theorem approvalChecks_agree (ops : List Op) : Runs.Always step ChecksAgree {} ops :=
  fun before _ => (Runs.run_inv before traced_new fun _ op h => h.step op).checksAgree

/-- A check appends no entry; and at the very time of its expiry an advisory is still executed. -/
theorem check_unlogged_at_expiry :
    (step {} (.execute "adv-1" 0)).auditLog = [] ∧
    Exn.Ensures (executeIfApproved "adv-1" 0) (fun r _ => r = false) {} ∧
    buyAdvisory.expirationTimestamp = some ⟨300, true⟩ ∧
    Exn.Ensures (executeIfApproved "adv-1" 300) (fun r _ => r = true)
      (Runs.run step {} [.approve buyAdvisory "alice" true none ⟨10, 10, 10⟩]) := by
  decide +kernel

end Manager

end Approval
