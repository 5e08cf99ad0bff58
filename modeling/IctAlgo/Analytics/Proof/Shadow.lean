import IctAlgo.Analytics.Shadow
import IctAlgo.Lib.Runs

/-!
# What shadow mode records

* `evaluateDecision_cases`: how an evaluation ends.
* `shadow_observes`: after any calls the audit trail has the entries of the evaluations since it was
  cleared, the evaluator's log the vetoes of all of them, and the statistics count them; the first
  initialization decides for good which rules there are, if any.
-/

set_option autoImplicit false

namespace ShadowMode

open Lib Lib.Runs OutcomePolicy Manager

variable {str : ℚ → String} {tx : Texts} {s : Shadow} {op : Op} {ops : List Op}

/-! ## One evaluation -/

/-- The rule, the reason and the time of a veto. -/
abbrev VetoRecord := Option String × Option String × ℤ

def recordOf (result : PolicyEvaluation) : VetoRecord :=
  (some result.ruleName, some result.reason, result.timestamp)

/-- The vetoes the evaluator has logged. -/
def vetoes (m : Manager) : List VetoRecord :=
  (m.evaluator.elim [] (·.evaluationLog)).map recordOf

/-- The veto an answer tells of. -/
def Evaluated.veto? (r : Evaluated) : Option VetoRecord :=
  if r.decision = some .veto then some (r.ruleName, r.reason, r.timestamp) else none

/-- The fields of an answer fit together. -/
structure Evaluated.Consistent (r : Evaluated) : Prop where
  evaluated : r.evaluated = true ↔ r.error = none
  audited : r.auditEntry.isSome = true ↔ r.evaluated = true
  entry : ∀ entry ∈ r.auditEntry, some entry.decision = r.decision ∧ entry.ruleName = r.ruleName ∧
    entry.reason = r.reason ∧ entry.timestamp = r.timestamp

theorem firstVeto_decision {rows : List OutcomeStats.DecisionOutcome} {now : ℤ} {q : Query}
    {rules : List PolicyRule} {result : PolicyEvaluation}
    (h : firstVeto tx rows now q rules = some result) : result.decision = .veto := by
  induction rules with
  | nil => cases h
  | cons rule rules ih =>
    rw [firstVeto] at h
    split at h
    · exact ih h
    · next found _ =>
      by_cases hveto : found.decision = .veto
      · rw [if_pos hveto, Option.some.injEq] at h
        rwa [← h]
      · rw [if_neg hveto] at h
        exact ih h

/-- An evaluation ends in one of four ways. -/
theorem evaluateDecision_cases (tx : Texts) (c : Call) (m : Manager) :
    (m.evaluator = none ∧ evaluateDecision tx c m =
        ({ timestamp := c.now, error := some "evaluator_not_initialized" }, m)) ∨
    (∃ e text, m.evaluator = some e ∧ evaluateDecision tx c m =
        ({ timestamp := c.now, error := some text }, m)) ∨
    (∃ e q text, m.evaluator = some e ∧ c.query = .ok q ∧ c.decision = .error text ∧
      evaluateDecision tx c m =
        ({ c.answer (e.evaluate tx c.rows c.evaluatedAt q).1 with
            error := some text, evaluated := false },
          { m with evaluator := some (e.evaluate tx c.rows c.evaluatedAt q).2 })) ∨
    (∃ e q d, m.evaluator = some e ∧ c.query = .ok q ∧ c.decision = .ok d ∧
      ∃ entry, entry = auditEntry (c.answer (e.evaluate tx c.rows c.evaluatedAt q).1)
          ((c.answer (e.evaluate tx c.rows c.evaluatedAt q).1).decision.getD .allow) q d ∧
        evaluateDecision tx c m =
          ({ c.answer (e.evaluate tx c.rows c.evaluatedAt q).1 with auditEntry := some entry },
            { m with
              evaluator := some (e.evaluate tx c.rows c.evaluatedAt q).2
              auditTrail := m.auditTrail ++ [entry] })) := by
  cases he : m.evaluator with
  | none => exact .inl ⟨rfl, by simp only [evaluateDecision, he]⟩
  | some e =>
    refine .inr ?_
    cases hq : c.query with
    | error text => exact .inl ⟨e, text, rfl, by simp only [evaluateDecision, he, hq]⟩
    | ok q =>
      refine .inr ?_
      cases hd : c.decision with
      | error text => exact .inl ⟨e, q, text, rfl, rfl, rfl, by simp only [evaluateDecision, he, hq, hd]⟩
      | ok d =>
        exact .inr ⟨e, q, d, rfl, rfl, rfl, _, rfl, by simp only [evaluateDecision, he, hq, hd]⟩

/-- The evaluator logs what it has found, and that is a veto. -/
theorem evaluate_logs (tx : Texts) (e : OutcomePolicyEvaluator)
    (rows : List OutcomeStats.DecisionOutcome) (now : ℤ) (q : Query) :
    (∀ result ∈ (e.evaluate tx rows now q).1, result.decision = .veto) ∧
      (e.evaluate tx rows now q).2.evaluationLog =
        e.evaluationLog ++ (e.evaluate tx rows now q).1.toList ∧
      (e.evaluate tx rows now q).2.rules = e.rules := by
  unfold OutcomePolicyEvaluator.evaluate
  cases hveto : firstVeto tx rows now q e.rules with
  | none => exact ⟨fun _ h => absurd h (by simp), (List.append_nil _).symm, rfl⟩
  | some result =>
    refine ⟨fun result' h => ?_, rfl, rfl⟩
    cases h
    exact firstVeto_decision hveto

/-- The answer tells of the veto that was found, if any. -/
theorem answer_veto (c : Call) {found : Option PolicyEvaluation} (error : Option String)
    (evaluated : Bool) (entry : Option AuditEntry)
    (h : ∀ result ∈ found, result.decision = .veto) :
    ({ c.answer found with
        error := error, evaluated := evaluated, auditEntry := entry } : Evaluated).veto?.toList =
      found.toList.map recordOf := by
  cases found with
  | none => rfl
  | some result =>
    have hd : result.decision = .veto := h result rfl
    simp [Evaluated.veto?, Call.answer, recordOf, hd]

theorem answer_fields (c : Call) (found : Option PolicyEvaluation) :
    (c.answer found).evaluated = true ∧ (c.answer found).error = none ∧
      (c.answer found).auditEntry = none ∧ (c.answer found).decision.isSome = true := by
  cases found with
  | none => exact ⟨rfl, rfl, rfl, rfl⟩
  | some result => exact ⟨rfl, rfl, rfl, rfl⟩

/-! ## Runs -/

/-- The trail and the log have what the evaluations returned. -/
structure Shadow.Records (s : Shadow) : Prop where
  consistent : ∀ r ∈ s.results, r.Consistent
  cleared : s.cleared ≤ s.results.length
  trail : s.manager.auditTrail = (s.results.drop s.cleared).filterMap (·.auditEntry)
  log : vetoes s.manager = s.results.filterMap (·.veto?)
  fresh : s.manager.initialized = false → s.manager.evaluator = none

theorem filterMap_concat {α β : Type} (f : α → Option β) (xs : List α) (x : α) :
    (xs ++ [x]).filterMap f = xs.filterMap f ++ (f x).toList := by
  rw [List.filterMap_append, List.filterMap_cons, List.filterMap_nil]
  cases f x <;> rfl

/-- What a new result adds. -/
theorem Shadow.Records.concat (h : s.Records) {r : Evaluated} {m : Manager} (hr : r.Consistent)
    (htrail : m.auditTrail = s.manager.auditTrail ++ r.auditEntry.toList)
    (hlog : vetoes m = vetoes s.manager ++ r.veto?.toList)
    (hfresh : m.initialized = false → m.evaluator = none) :
    (⟨m, s.results ++ [r], s.cleared⟩ : Shadow).Records where
  consistent r' hr' := by
    rcases List.mem_append.1 hr' with hr' | hr'
    · exact h.consistent r' hr'
    · rw [List.mem_singleton.1 hr']
      exact hr
  cleared := by
    rw [List.length_append]
    exact Nat.le_add_right_of_le h.cleared
  trail := by
    dsimp only
    rw [htrail, h.trail, List.drop_append_of_le_length h.cleared, filterMap_concat]
  log := by
    dsimp only
    rw [hlog, h.log, filterMap_concat]
  fresh := hfresh

/-- A result of an evaluation that did not come about. -/
theorem consistent_error (now : ℤ) (text : String) :
    ({ timestamp := now, error := some text } : Evaluated).Consistent where
  evaluated := iff_of_false (fun h => by cases h) fun h => by cases h
  audited := Iff.rfl
  entry _ h := by cases h

theorem Shadow.Records.evaluate (h : s.Records) (c : Call) :
    (step str tx s (.evaluate c)).Records := by
  rw [step]
  obtain ⟨-, heq⟩ | ⟨e, text, -, heq⟩ | ⟨e, q, text, he, -, -, heq⟩ |
      ⟨e, q, d, he, -, -, entry, hentry, heq⟩ := evaluateDecision_cases tx c s.manager
  · rw [heq]
    exact h.concat (consistent_error _ _) (List.append_nil _).symm (List.append_nil _).symm h.fresh
  · rw [heq]
    exact h.concat (consistent_error _ _) (List.append_nil _).symm (List.append_nil _).symm h.fresh
  · obtain ⟨hveto, hlog, -⟩ := evaluate_logs tx e c.rows c.evaluatedAt q
    obtain ⟨-, -, hentry, -⟩ := answer_fields c (e.evaluate tx c.rows c.evaluatedAt q).1
    have hinit : ∀ {e' : OutcomePolicyEvaluator}, s.manager.initialized = false → some e' = none :=
      fun hfalse => absurd (h.fresh hfalse) (by simp [he])
    rw [heq]
    refine h.concat ⟨?_, ?_, ?_⟩ ?_ ?_ hinit
    · exact iff_of_false (fun h => by cases h) fun h => by cases h
    · dsimp only
      rw [hentry]
      exact Iff.rfl
    · dsimp only
      rw [hentry]
      exact fun _ h => by cases h
    · dsimp only
      rw [hentry]
      exact (List.append_nil _).symm
    · rw [answer_veto c _ _ _ hveto, vetoes, vetoes, he, ← List.map_append]
      exact congrArg _ hlog
  · obtain ⟨hveto, hlog, -⟩ := evaluate_logs tx e c.rows c.evaluatedAt q
    obtain ⟨hevaluated, herror, -, hdecision⟩ :=
      answer_fields c (e.evaluate tx c.rows c.evaluatedAt q).1
    have hinit : ∀ {e' : OutcomePolicyEvaluator}, s.manager.initialized = false → some e' = none :=
      fun hfalse => absurd (h.fresh hfalse) (by simp [he])
    rw [heq]
    refine h.concat ⟨?_, ?_, ?_⟩ rfl ?_ hinit
    · exact iff_of_true hevaluated herror
    · exact iff_of_true rfl hevaluated
    · intro entry' h'
      cases h'
      obtain ⟨decision, hd⟩ := Option.isSome_iff_exists.1 hdecision
      rw [hentry, hd]
      exact ⟨rfl, rfl, rfl, rfl⟩
    · have hrecord := answer_veto c (c.answer (e.evaluate tx c.rows c.evaluatedAt q).1).error
        (c.answer (e.evaluate tx c.rows c.evaluatedAt q).1).evaluated (some entry) hveto
      rw [hrecord, vetoes, vetoes, he, ← List.map_append]
      exact congrArg _ hlog

/-! ## The evaluator of a manager -/

theorem addRule_log {e e' : OutcomePolicyEvaluator} {rule : PolicyRule}
    (h : addRule e rule = .ok e') : e'.evaluationLog = e.evaluationLog := by
  unfold addRule OutcomePolicyEvaluator.addRule at h
  split at h
  · next heq =>
    split at heq
    · cases heq
    · cases heq
      cases h
      rfl
  · cases h

/-- A new evaluator has logged nothing. -/
theorem createPolicyEvaluator_log {c : Config} {e : OutcomePolicyEvaluator}
    (h : createPolicyEvaluator str c = .ok e) : e.evaluationLog = [] := by
  simp only [createPolicyEvaluator, bind, Except.bind] at h
  split at h
  · cases h
  · split at h
    · cases h
    · next e1 h1 =>
      split at h
      · cases h
      · split at h
        · cases h
        · next e2 h2 =>
          split at h
          · cases h
          · next e3 h3 => rw [addRule_log h, addRule_log h3, addRule_log h2, addRule_log h1]

theorem Shadow.Records.start (h : s.Records) (c : Config) :
    (step str tx s (.start c)).Records := by
  rw [step, initializeManager]
  split
  · exact h
  · next hnot =>
    have hnone : s.manager.evaluator = none := h.fresh (by simpa using hnot)
    split
    · next e he =>
      refine ⟨h.consistent, h.cleared, h.trail, ?_, fun hfalse => by cases hfalse⟩
      have hlog := h.log
      rw [vetoes, hnone] at hlog
      rw [vetoes, Option.elim_some, createPolicyEvaluator_log he]
      exact hlog
    · exact ⟨h.consistent, h.cleared, h.trail, h.log, fun hfalse => by cases hfalse⟩

theorem Shadow.Records.clear (h : s.Records) : (step str tx s .clear).Records where
  consistent := h.consistent
  cleared := le_refl _
  trail := by simp [step, clearAuditTrail]
  log := h.log
  fresh := h.fresh

theorem records_run (str : ℚ → String) (tx : Texts) (ops : List Op) :
    (run (step str tx) {} ops).Records := by
  refine run_inv ops ?_ fun s op h => ?_
  · exact ⟨fun _ h => absurd h List.not_mem_nil, le_refl _, rfl, rfl, fun _ => rfl⟩
  · cases op with
    | start c => exact h.start c
    | evaluate c => exact h.evaluate c
    | clear => exact h.clear

/-- Evaluations and clearing leave the rules alone. -/
theorem step_rules (hinit : s.manager.initialized = true) :
    (step str tx s op).manager.initialized = true ∧
      (step str tx s op).manager.evaluator.map (·.rules) = s.manager.evaluator.map (·.rules) := by
  cases op with
  | start c =>
    rw [step, initializeManager, if_pos hinit]
    exact ⟨hinit, rfl⟩
  | clear => exact ⟨hinit, rfl⟩
  | evaluate c =>
    rw [step]
    obtain ⟨-, heq⟩ | ⟨e, text, -, heq⟩ | ⟨e, q, text, he, -, -, heq⟩ |
      ⟨e, q, d, he, -, -, entry, -, heq⟩ := evaluateDecision_cases tx c s.manager
    · rw [heq]
      exact ⟨hinit, rfl⟩
    · rw [heq]
      exact ⟨hinit, rfl⟩
    · rw [heq, he]
      exact ⟨hinit, congrArg some (evaluate_logs tx e c.rows c.evaluatedAt q).2.2⟩
    · rw [heq, he]
      exact ⟨hinit, congrArg some (evaluate_logs tx e c.rows c.evaluatedAt q).2.2⟩

theorem run_rules (ops : List Op) (hinit : s.manager.initialized = true) :
    (run (step str tx) s ops).manager.evaluator.map (·.rules) =
      s.manager.evaluator.map (·.rules) := by
  refine (run_inv (I := fun t : Shadow => t.manager.initialized = true ∧
    t.manager.evaluator.map (·.rules) = s.manager.evaluator.map (·.rules)) ops ⟨hinit, rfl⟩ ?_).2
  rintro t op ⟨ht, hrules⟩
  exact ⟨(step_rules ht).1, (step_rules ht).2.trans hrules⟩

/-- Until it is started a manager has no evaluator. -/
theorem run_fresh (str : ℚ → String) (tx : Texts) {ops : List Op}
    (h : ∀ op ∈ ops, ∀ c, op ≠ .start c) :
    (run (step str tx) {} ops).manager.initialized = false := by
  have hwithin : ∀ (ops : List Op) (t : Shadow), (∀ op ∈ ops, ∀ c, op ≠ .start c) →
      t.manager.initialized = false → (run (step str tx) t ops).manager.initialized = false := by
    intro ops
    induction ops with
    | nil => exact fun _ _ ht => ht
    | cons op ops ih =>
      intro t hops ht
      obtain ⟨hop, hops⟩ := List.forall_mem_cons.1 hops
      refine ih _ hops ?_
      cases op with
      | start c => exact absurd rfl (hop c)
      | clear => exact ht
      | evaluate c =>
        rw [step]
        obtain ⟨-, heq⟩ | ⟨e, text, -, heq⟩ | ⟨e, q, text, he, -, -, heq⟩ |
          ⟨e, q, d, he, -, -, entry, -, heq⟩ := evaluateDecision_cases tx c t.manager
        all_goals
          rw [heq]
          exact ht
  exact hwithin ops {} h rfl

/-! ## Statistics -/

theorem getStats_tally (m : Manager) :
    m.getStats.totalEvaluations = m.auditTrail.length ∧
      m.getStats.vetoCount = m.auditTrail.countP AuditEntry.isVeto ∧
      m.getStats.allowCount + m.getStats.vetoCount = m.getStats.totalEvaluations ∧
      m.getStats.vetoByRule.values.sum = m.getStats.vetoCount ∧
      m.getStats.vetoBySignalType.values.sum = m.getStats.vetoCount := by
  have hsum {κ : Type} [DecidableEq κ] (key : AuditEntry → κ) (entries : List AuditEntry) :
      (Dict.groupBy key (fun n _ => n + 1) 0 entries).values.sum = entries.length := by
    have hadd (n : ℕ) (x : AuditEntry) :
        id (n + 1) = id n + if (fun _ : AuditEntry => true) x then 1 else 0 := rfl
    have hinit : id 0 = 0 := rfl
    have hcount : ((Dict.groupBy key (fun n _ => n + 1) 0 entries).values.map id).sum = _ :=
      Dict.countP_groupBy hadd hinit entries
    rwa [List.map_id, List.countP_true] at hcount
  unfold getStats
  split
  · next hnil =>
    rw [hnil]
    exact ⟨rfl, rfl, rfl, rfl, rfl⟩
  · refine ⟨rfl, List.countP_eq_length_filter.symm, ?_, hsum _ _, hsum _ _⟩
    exact Nat.sub_add_cancel (List.length_filter_le _ _)

/-- The entries of consistent answers are those of the evaluations that came about. -/
theorem countP_entries {rs : List Evaluated} (h : ∀ r ∈ rs, r.Consistent) :
    (rs.filterMap (·.auditEntry)).length = rs.countP (·.evaluated) ∧
      (rs.filterMap (·.auditEntry)).countP AuditEntry.isVeto =
        rs.countP fun r => r.evaluated && r.decision = some .veto := by
  induction rs with
  | nil => exact ⟨rfl, rfl⟩
  | cons r rs ih =>
    obtain ⟨hr, hrs⟩ := List.forall_mem_cons.1 h
    obtain ⟨hlen, hveto⟩ := ih hrs
    cases hentry : r.auditEntry with
    | none =>
      have hnot : r.evaluated = false := by
        rw [← Bool.not_eq_true, ← hr.audited, hentry]
        simp
      rw [List.filterMap_cons_none hentry, hlen, hveto]
      simp [hnot]
    | some entry =>
      have hevaluated : r.evaluated = true := hr.audited.1 (by rw [hentry]; rfl)
      obtain ⟨hdecision, -⟩ := hr.entry entry hentry
      rw [List.filterMap_cons_some hentry, List.length_cons, List.countP_cons, List.countP_cons,
        List.countP_cons, hlen, hveto, hevaluated, ← hdecision]
      simp [AuditEntry.isVeto]

/-- **Shadow mode observes.** After any calls, an evaluation has come about exactly when it returned
no error, and has an audit entry exactly then; the trail has the entries since it was cleared, in their
order, and the evaluator's log all vetoes that were returned. The statistics count the evaluations
since then, by what they decided. Which rules there are, if any, is decided by the first
initialization. -/
theorem shadow_observes (str : ℚ → String) (tx : Texts) (ops : List Op) :
    (run (step str tx) {} ops).Records ∧
      (run (step str tx) {} ops).manager.getStats.totalEvaluations =
        ((run (step str tx) {} ops).results.drop (run (step str tx) {} ops).cleared).countP
          (·.evaluated) ∧
      (run (step str tx) {} ops).manager.getStats.vetoCount =
        ((run (step str tx) {} ops).results.drop (run (step str tx) {} ops).cleared).countP
          (fun r => r.evaluated && r.decision = some .veto) ∧
      (run (step str tx) {} ops).manager.getStats.allowCount +
          (run (step str tx) {} ops).manager.getStats.vetoCount =
        (run (step str tx) {} ops).manager.getStats.totalEvaluations ∧
      (run (step str tx) {} ops).manager.getStats.vetoByRule.values.sum =
        (run (step str tx) {} ops).manager.getStats.vetoCount ∧
      (run (step str tx) {} ops).manager.getStats.vetoBySignalType.values.sum =
        (run (step str tx) {} ops).manager.getStats.vetoCount ∧
      ∀ before c rest, ops = before ++ .start c :: rest →
        (∀ op ∈ before, ∀ c', op ≠ .start c') →
          (run (step str tx) {} ops).manager.evaluator.map (·.rules) =
            (createPolicyEvaluator str c).toOption.map (·.rules) := by
  have hrec := records_run str tx ops
  obtain ⟨htotal, hveto, hallow, hrule, hsignal⟩ :=
    getStats_tally (run (step str tx) {} ops).manager
  have hconsistent : ∀ r ∈ (run (step str tx) {} ops).results.drop
      (run (step str tx) {} ops).cleared, r.Consistent :=
    fun r hr => hrec.consistent r (List.mem_of_mem_drop hr)
  obtain ⟨hlen, hcount⟩ := countP_entries hconsistent
  rw [← hrec.trail] at hlen hcount
  refine ⟨hrec, htotal.trans hlen, hveto.trans hcount, hallow, hrule, hsignal, ?_⟩
  rintro before c rest rfl hbefore
  have hfresh := run_fresh str tx hbefore
  have hnone := (records_run str tx before).fresh hfresh
  rw [run_append, run_cons, run_rules]
  · rw [step, initializeManager, hfresh, if_neg Bool.false_ne_true]
    cases createPolicyEvaluator str c with
    | ok e => rfl
    | error text => exact congrArg _ hnone
  · rw [step, initializeManager, hfresh, if_neg Bool.false_ne_true]
    cases createPolicyEvaluator str c with
    | ok e => rfl
    | error text => rfl

end ShadowMode
