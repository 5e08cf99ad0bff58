import IctAlgo.Lib.Runs
import IctAlgo.Approval.Manager

/-!
# Frozen snapshots

An approval stores its snapshot under the advisory's id, whatever is stored there already. So a
stored snapshot stays as long as no approval brings another one for its id (`Refreezes`).

* `applied_step`: what an operation writes.
* `kept_step_iff`: it replaces no snapshot exactly when it refreezes what is there.
* `neverReplaced_iff`: the same for runs; in those `execute_if_approved` goes by the snapshot of the
  first approval.
-/

set_option autoImplicit false

namespace Approval

open Lib

/-- The snapshot an operation freezes. -/
def Manager.Op.frozen? : Manager.Op → Option AdvisorySnapshot
  | .approve s _ approves _ t =>
    if missingField? s = none ∧ stage7ExpirationCheck s t.check = .ok false ∧ approves then some s
    else none
  | _ => none

/-- The snapshot of the first approval of an advisory. -/
def firstApproved (auditLog : List AuditLogEntry) (advisoryId : String) : Option AdvisorySnapshot :=
  auditLog.findSome? fun entry =>
    if entry.outcome = .approved ∧ entry.advisoryId = advisoryId then some entry.stateSnapshot else none

theorem firstApproved_append (log log' : List AuditLogEntry) (advisoryId : String) :
    firstApproved (log ++ log') advisoryId =
      (firstApproved log advisoryId).or (firstApproved log' advisoryId) := List.findSome?_append

theorem firstApproved_eq_none {log : List AuditLogEntry} (h : ∀ entry ∈ log, entry.outcome ≠ .approved)
    (advisoryId : String) : firstApproved log advisoryId = none := by
  refine List.findSome?_eq_none_iff.2 fun entry hentry => ?_
  rw [if_neg fun hc => h entry hentry hc.1]

namespace Manager

variable {m m' : Manager} {op : Op}

/-! ## One operation -/

/-- What an operation made of the manager `m`. -/
inductive Applied (m : Manager) (op : Op) (m' : Manager) : Prop
  | kept (frozen : op.frozen? = none) (approvals : m'.approvals = m.approvals)
      (log : ∃ entries, m'.auditLog = m.auditLog ++ entries ∧
        ∀ entry ∈ entries, entry.outcome ≠ .approved)
  | froze {s : AdvisorySnapshot} {entry : AuditLogEntry} (frozen : op.frozen? = some s)
      (approvals : m'.approvals = m.approvals.set s.advisoryId s)
      (log : m'.auditLog = m.auditLog ++ [entry]) (outcome : entry.outcome = .approved)
      (advisoryId : entry.advisoryId = s.advisoryId) (snapshot : entry.stateSnapshot = s)

/-- An operation that writes nothing. -/
theorem Applied.unchanged (h : op.frozen? = none) : Applied m op m :=
  .kept h rfl ⟨[], (List.append_nil _).symm, List.forall_mem_nil _⟩

theorem wp_orRaise {α : Type} (r : Except String α) {Q : α → Manager → Prop}
    {E : String → Manager → Prop} :
    Exn.wp (orRaise r) Q E m ↔ match r with
      | .ok a => Q a m
      | .error err => E err m := by
  cases r with
  | ok _ => exact Iff.rfl
  | error _ => exact Iff.rfl

theorem approveAdvisory_spec (s : AdvisorySnapshot) (userId : String) (approve : Bool)
    (reason : Option String) (t : Readings) :
    Exn.wp (approveAdvisory s userId approve reason t)
      (fun _ => Applied m (.approve s userId approve reason t))
      (fun _ => Applied m (.approve s userId approve reason t)) m := by
  unfold approveAdvisory
  cases hmiss : missingField? s with
  | none =>
    simp only [Exn.wp_bind, wp_orRaise]
    cases hcheck : stage7ExpirationCheck s t.check with
    | error err => exact .unchanged (by simp [Op.frozen?, hmiss, hcheck])
    | ok isExpired =>
      cases isExpired with
      | true =>
        refine .kept (by simp [Op.frozen?, hmiss, hcheck]) rfl ⟨[_], rfl, ?_⟩
        simp
      | false =>
        cases approve with
        | true => exact .froze (by simp [Op.frozen?, hmiss, hcheck]) rfl rfl rfl rfl rfl
        | false =>
          refine .kept (by simp [Op.frozen?]) rfl ⟨[_], rfl, ?_⟩
          simp
  | some err => exact .unchanged (by simp [Op.frozen?, hmiss])

/-- The answer for an advisory, from its frozen snapshot alone. -/
def validity (m : Manager) (advisoryId : String) (now : ℚ) : Except String Bool :=
  match m.approvedSnapshot? advisoryId with
  | none => .ok false
  | some snapshot => (stage7ExpirationCheck snapshot now).map (!·)

theorem isApprovalValid_run (m : Manager) (advisoryId : String) (now : ℚ) :
    (isApprovalValid advisoryId now).run m = (orRaise (m.validity advisoryId now)).run m := by
  unfold validity approvedSnapshot?
  simp only [isApprovalValid, EStateM.run_bind, EStateM.run_get]
  by_cases hout : m.approvalOutcomes.get? advisoryId = some .approved
  · rw [hout, if_neg (not_not.2 rfl)]
    cases m.approvals.get? advisoryId with
    | none => rfl
    | some snapshot =>
      cases hcheck : stage7ExpirationCheck snapshot now with
      | error err =>
        simp only [hcheck]
        rfl
      | ok isExpired =>
        simp only [hcheck]
        rfl
  · rw [if_pos hout]
    split
    · rename_i h
      split at h
      · exact absurd ‹_› hout
      · rfl
    · rename_i h
      split at h
      · exact absurd ‹_› hout
      · cases h

theorem executeIfApproved_run (m : Manager) (advisoryId : String) (now : ℚ) :
    (executeIfApproved advisoryId now).run m = (orRaise (m.validity advisoryId now)).run m := by
  unfold validity approvedSnapshot?
  simp only [executeIfApproved, EStateM.run_bind, EStateM.run_get]
  cases hout : m.approvalOutcomes.get? advisoryId with
  | none => rfl
  | some outcome =>
    cases outcome with
    | approved =>
      cases m.approvals.get? advisoryId with
      | none => rfl
      | some snapshot =>
        cases hcheck : stage7ExpirationCheck snapshot now with
        | error err =>
          simp only [hcheck]
          rfl
        | ok isExpired =>
          cases isExpired with
          | true =>
            simp only [hcheck]
            rfl
          | false =>
            simp only [hcheck]
            rfl
    | rejected | expired | invalidated | pending => rfl

/-- The two checks answer by the frozen snapshot, and change nothing. -/
theorem wp_executeIfApproved {advisoryId : String} {now : ℚ} {Q : Bool → Manager → Prop}
    {E : String → Manager → Prop} :
    Exn.wp (executeIfApproved advisoryId now) Q E m ↔ match m.validity advisoryId now with
      | .ok r => Q r m
      | .error err => E err m := by
  rw [Exn.wp_congr (executeIfApproved_run m advisoryId now)]
  cases m.validity advisoryId now with
  | ok r => exact Iff.rfl
  | error err => exact Iff.rfl

theorem wp_isApprovalValid {advisoryId : String} {now : ℚ} {Q : Bool → Manager → Prop}
    {E : String → Manager → Prop} :
    Exn.wp (isApprovalValid advisoryId now) Q E m ↔ match m.validity advisoryId now with
      | .ok r => Q r m
      | .error err => E err m := by
  rw [Exn.wp_congr (isApprovalValid_run m advisoryId now)]
  cases m.validity advisoryId now with
  | ok r => exact Iff.rfl
  | error err => exact Iff.rfl

theorem wp_getAuditTrail {advisoryId : Option String} {P : Manager → Prop} :
    Exn.wp (getAuditTrail advisoryId) (fun _ => P) (fun _ => P) m ↔ P m := by
  cases advisoryId with
  | none => exact Iff.rfl
  | some advisoryId => exact Iff.rfl

theorem expirationCheck_spec (s : AdvisorySnapshot) (now : ℚ) :
    Exn.wp (orRaise (stage7ExpirationCheck s now)) (fun _ => (· = m)) (fun _ => (· = m)) m := by
  rw [wp_orRaise]
  split
  · rfl
  · rfl

/-- Every operation but an approval. -/
def Op.isQuery : Op → Bool
  | approve .. => false
  | _ => true

/-- A query leaves the manager as it is. -/
theorem step_query (h : op.isQuery = true) : m.step op = m := by
  cases op with
  | approve s userId approve reason t => cases h
  | execute advisoryId now =>
    apply Exn.wp_exec (P := (· = m))
    rw [wp_executeIfApproved]
    split
    · rfl
    · rfl
  | isValid advisoryId now =>
    apply Exn.wp_exec (P := (· = m))
    rw [wp_isApprovalValid]
    split
    · rfl
    · rfl
  | expirationCheck s now => exact Exn.wp_exec (expirationCheck_spec s now)
  | auditTrail advisoryId =>
    apply Exn.wp_exec (P := (· = m))
    rw [wp_getAuditTrail]

theorem applied_step (m : Manager) (op : Op) : Applied m op (m.step op) := by
  cases op with
  | approve s userId approve reason t =>
    exact Exn.wp_exec (approveAdvisory_spec s userId approve reason t)
  | execute | isValid | expirationCheck | auditTrail =>
    rw [step_query rfl]
    exact .unchanged rfl

/-! ## Replacing -/

/-- Every snapshot stored in `m` is stored in `m'`. -/
def Kept (m m' : Manager) : Prop :=
  ∀ advisoryId s, m.approvals.get? advisoryId = some s → m'.approvals.get? advisoryId = some s

/-- The operation freezes nothing, or no other snapshot than the one stored for its advisory. -/
def Refreezes (m : Manager) (op : Op) : Prop :=
  ∀ s s', op.frozen? = some s → m.approvals.get? s.advisoryId = some s' → s' = s

theorem kept_step_iff (m : Manager) (op : Op) : Kept m (m.step op) ↔ Refreezes m op := by
  cases applied_step m op with
  | kept hnone happrovals =>
    refine iff_of_true (fun advisoryId s h => by rwa [happrovals]) fun s s' hs => ?_
    rw [hnone] at hs
    cases hs
  | @froze s _ hs happrovals =>
    refine ⟨fun h s₁ s' hs₁ hs' => ?_, fun h advisoryId s' hs' => ?_⟩
    · obtain rfl : s = s₁ := Option.some.inj (hs.symm.trans hs₁)
      have hkept := h s.advisoryId s' hs'
      rw [happrovals, Dict.get?_set_self] at hkept
      exact (Option.some.inj hkept).symm
    · rw [happrovals]
      by_cases hid : advisoryId = s.advisoryId
      · subst hid
        rw [h s s' hs hs', Dict.get?_set_self]
      · rwa [Dict.get?_set_ne _ _ hid]

/-! ## Handing out -/

/-- The stored snapshots are those of the first approvals. -/
def FirstStored (m : Manager) : Prop :=
  ∀ advisoryId, m.approvals.get? advisoryId = firstApproved m.auditLog advisoryId

/-- `execute_if_approved` answers yes by the snapshot of the first approval only. -/
def HandsOutApproved (m : Manager) : Prop :=
  ∀ advisoryId now, Exn.wp (executeIfApproved advisoryId now)
    (fun r _ => r = true → ∃ s, m.approvedSnapshot? advisoryId = some s ∧
      firstApproved m.auditLog advisoryId = some s) (fun _ _ => True) m

theorem FirstStored.handsOut (h : FirstStored m) : HandsOutApproved m := by
  intro advisoryId now
  rw [wp_executeIfApproved, validity]
  cases hs : m.approvedSnapshot? advisoryId with
  | none => exact fun h => absurd h Bool.false_ne_true
  | some s =>
    have hstored : m.approvals.get? advisoryId = some s := by
      unfold approvedSnapshot? at hs
      split at hs
      · exact hs
      · cases hs
    split
    · exact fun _ => ⟨s, rfl, (h advisoryId).symm.trans hstored⟩
    · trivial

/-- An operation that replaces nothing keeps the snapshots of the first approvals. -/
theorem FirstStored.step (h : FirstStored m) (hop : Refreezes m op) : FirstStored (m.step op) := by
  intro advisoryId
  cases applied_step m op with
  | kept _ happrovals hlog =>
    obtain ⟨entries, hlog, hentries⟩ := hlog
    rw [happrovals, hlog, firstApproved_append, firstApproved_eq_none hentries, Option.or_none]
    exact h advisoryId
  | @froze s entry hs happrovals hlog hout hid hsnap =>
    rw [happrovals, hlog, firstApproved_append, ← h advisoryId]
    by_cases heq : advisoryId = s.advisoryId
    · subst heq
      rw [Dict.get?_set_self]
      cases hold : m.approvals.get? s.advisoryId with
      | none => simp [firstApproved, hout, hid, hsnap]
      | some s' =>
        rw [hop s s' hs hold]
        rfl
    · rw [Dict.get?_set_ne _ _ heq]
      simp [firstApproved, hid, Ne.symm heq]

/-! ## Runs -/

/-- In this run no operation replaces a snapshot an earlier one has stored. -/
def NeverReplaced (m : Manager) (ops : List Op) : Prop :=
  ∀ pre later, pre ++ later <+: ops →
    Kept (Runs.run step m pre) (Runs.run step m (pre ++ later))

/-- **Approved snapshots are immutable** exactly in the runs whose approvals bring no other snapshot
for an advisory that has one; and in these `execute_if_approved` hands out the first one approved. -/
theorem neverReplaced_iff (ops : List Op) :
    (NeverReplaced {} ops ↔ Runs.Within step Refreezes {} ops) ∧
    (Runs.Within step Refreezes {} ops → Runs.Always step HandsOutApproved {} ops) := by
  constructor
  · rw [NeverReplaced, Runs.related_iff_within (R := Kept) (fun _ _ _ => id)
      fun _ _ _ h h' advisoryId s hs => h' advisoryId s (h advisoryId s hs)]
    exact Runs.within_congr kept_step_iff
  · intro h
    exact h.always (I := FirstStored) (fun _ => rfl) (fun _ _ => FirstStored.step)
      fun _ => FirstStored.handsOut

/-- An advisory to buy at 1.1, valid until 300. -/
def buyAdvisory : AdvisorySnapshot where
  advisoryId := "adv-1"
  htfBias := "BIAS_UP"
  reasoningMode := "entry_evaluation"
  price := 11 / 10
  expirationTimestamp := some ⟨300, true⟩
  createdAt := ⟨0, true⟩

/-- The advisory approved, and approved again at the price 2. -/
def approvedTwice : List Op :=
  [.approve buyAdvisory "alice" true none ⟨10, 10, 10⟩,
    .approve { buyAdvisory with price := 2 } "bob" true none ⟨20, 20, 20⟩]

/-- The second approval replaces the snapshot, which is then handed out. -/
theorem approvedTwice_replaced :
    ¬ NeverReplaced {} approvedTwice ∧
    (Runs.run step {} approvedTwice).approvedSnapshot? "adv-1" =
      some { buyAdvisory with price := 2 } ∧
    Exn.Ensures (executeIfApproved "adv-1" 30) (fun r _ => r = true)
      (Runs.run step {} approvedTwice) := by
  refine ⟨fun h => ?_, by decide +kernel, by decide +kernel⟩
  have hkept := h (approvedTwice.take 1) (approvedTwice.drop 1) (List.prefix_refl _) "adv-1"
    buyAdvisory (by decide +kernel)
  revert hkept
  decide +kernel

end Manager

end Approval
