import IctAlgo.Orchestrator.Proof.Gate
import IctAlgo.Orchestrator.Proof.RetriedOnce

/-!
# Deferred decisions and their copies

The gate enqueues a decision that it defers. `process_decision` goes on with the decision all the
same and persists it, or enqueues it again; an item of the queue comes to the gate twice.

* `StoredOnce`: the decision is not inserted at once, the call enqueues one entry, and the passes
  insert it once.
* `Single`: the call does nothing with the decision after it was deferred.
* `storedOnce_iff`: a deferred decision is stored once exactly if the call is `Single` and a pass
  takes up its entry.
-/

set_option autoImplicit false

namespace Orchestrator

open Lib Lib.Runs

/-- The entries for a retry, in memory and in Redis. -/
def Dlq.size {δ : Type} (q : Dlq δ) : ℕ := q.persistDlq.length + q.redis.length

def Effect.isInserted : Effect → Bool
  | .inserted _ => true
  | _ => false

section
variable (cv : Conv) (cfg : ProcessConfig)

/-- The orchestrator after a call of the entry point. -/
def Entry.after (s : Orch) : Entry → Orch
  | .processDecision env persist channels decision =>
    (Orchestrator.processDecision cv cfg env persist channels decision s).2.2
  | .runFromQueue env decision => (runFromQueueItem cv cfg env decision s).2
  | .handleEvent env event => (Orchestrator.handleEvent cv cfg env event s).2.2

/-- The gate defers the decision when it enters. -/
def Entry.Defers (s : Orch) (entry : Entry) (cooldown : ℤ) : Prop :=
  (entry.effects cv cfg s).head? = some (.gate (.defer cooldown))

/-- The decision is inserted exactly once: not at once, and then by a retry of its one entry. -/
structure StoredOnce (s : Orch) (entry : Entry) (ps : List (Dlq.RetryPass Fields)) : Prop where
  notAtOnce : ∀ e ∈ entry.effects cv cfg s, e.isInserted = false
  oneEntry : (entry.after cv cfg s).dlq.size = s.dlq.size + 1
  once : ((entry.after cv cfg s).dlq.retries cfg.dlq ps).outcomes s.dlq.heap.length .inserted = 1

/-! ## What happens after the deferral -/

/-- A failed insert is not put into the dead letters: Redis is in use, and its push raises an
exception that is not handled there. -/
def Lost (env : ProcessEnv) : Prop :=
  cfg.dlq.redisInUse env.redisConnected = true ∧ env.rpush = .raised

/-- `process_decision` neither inserts the decision nor enqueues it after its gate. -/
def Dropped (env : ProcessEnv) (persist : Bool) (decision : Payload) (s : Orch) : Prop :=
  persist = false ∨ processed? cv cfg env decision s = none ∨
    ((∀ id, env.insert ≠ .ok id) ∧ Lost cfg env)

/-- The plan of the decision, if it has one, does not raise. -/
def PlanRuns (env : QueueEnv) : Payload → Prop
  | .other _ => True
  | .dict d => hasPlan d = true → ∃ result, env.plan = .ok result

/-- After its first gate an item of the queue is not enqueued again, by its plan or by the second
gate, and is dropped. -/
def QueueSingle (env : QueueEnv) (decision : Payload) (s : Orch) : Prop :=
  let (_, decision, s) := preReasoningPolicyCheck cv cfg.gate env.gate decision s
  PlanRuns env decision ∧
    let (_, decision, s) := runPlan cv cfg env decision s
    (∀ cooldown,
      (preReasoningPolicyCheck cv cfg.gate env.process.gate decision s).1 ≠ .defer cooldown) ∧
      Dropped cv cfg env.process true decision s

/-- The call does nothing with the decision after it was deferred; with an event it never does. -/
def Entry.Single (s : Orch) : Entry → Prop
  | .processDecision env persist _ decision => Dropped cv cfg env persist decision s
  | .runFromQueue env decision => QueueSingle cv cfg env decision s
  | .handleEvent _ _ => True

end

section
variable {cv : Conv} {cfg : ProcessConfig} {env : ProcessEnv} {s : Orch} {snapshot decision : Payload}
  {persist : Bool} {channels : Option (List String)} {d : Fields} {q : Dlq Fields}

/-! ## Sizes -/

/-- Entries are added, unless `P`. -/
def GrowsUnless (P : Prop) (q q' : Dlq Fields) : Prop := q.size ≤ q'.size ∧ (q'.size = q.size ↔ P)

theorem GrowsUnless.trans {P P' : Prop} {q q' q'' : Dlq Fields} (h : GrowsUnless P q q')
    (h' : GrowsUnless P' q' q'') : GrowsUnless (P ∧ P') q q'' := by
  obtain ⟨hle, hiff⟩ := h
  obtain ⟨hle', hiff'⟩ := h'
  refine ⟨hle.trans hle', ?_⟩
  rw [← hiff, ← hiff']
  refine ⟨fun heq => ?_, fun hboth => ?_⟩
  · omega
  · obtain ⟨heq, heq'⟩ := hboth
    omega

theorem growsUnless_same {P : Prop} {q q' : Dlq Fields} (h : q' = q) (hP : P) : GrowsUnless P q q' := by
  rw [h]
  exact ⟨le_refl _, fun _ => hP, fun _ => rfl⟩

theorem growsUnless_added {P : Prop} {q q' : Dlq Fields} (h : q'.size = q.size + 1) (hP : ¬ P) :
    GrowsUnless P q q' :=
  ⟨by omega, fun heq => by omega, fun hp => absurd hp hP⟩

theorem size_append (q : Dlq Fields) (entry : DlqEntry Fields) : (q.append entry).size = q.size + 1 := by
  simp only [Dlq.size, Dlq.append, Dlq.alloc, List.length_append, List.length_singleton]
  omega

theorem size_enqueue (dcfg : DlqSettings) (q : Dlq Fields) (connected : Bool) (reply : RedisReply)
    (entry : DlqEntry Fields) : (q.enqueue dcfg connected reply entry).size =
      if dcfg.redisInUse connected = true ∧ reply = .raised then q.size else q.size + 1 := by
  unfold Dlq.enqueue
  cases huse : dcfg.redisInUse connected with
  | false => simp [size_append]
  | true =>
    cases reply with
    | ok =>
      simp only [↓reduceIte, Dlq.size, Dlq.alloc, List.length_append, List.length_singleton,
        reduceCtorEq, and_false]
      omega
    | failed => simp [size_append]
    | raised => simp [Dlq.size, Dlq.alloc]

/-! ## The gate -/

theorem checkOutcomes_dlq {cfg : GateConfig} {env : GateEnv} :
    (checkOutcomes cv cfg env d s).2.2.dlq = s.dlq := by
  unfold checkOutcomes
  split
  · rfl
  split
  · rfl
  dsimp only
  split <;> rfl

theorem checkSnapshot_dlq {cfg : GateConfig} {env : GateEnv}
    (h : ∀ cooldown, (checkSnapshot cv cfg env d s).1 ≠ .defer cooldown) :
    (checkSnapshot cv cfg env d s).2.2.dlq = s.dlq := by
  unfold checkSnapshot at h ⊢
  split at h
  · rfl
  split at h
  · exact absurd rfl (h _)
  split at h
  · rfl
  · exact checkOutcomes_dlq

/-- The gate enqueues nothing but what it defers. -/
theorem gate_dlq {cfg : GateConfig} {env : GateEnv}
    (h : ∀ cooldown, (preReasoningPolicyCheck cv cfg env snapshot s).1 ≠ .defer cooldown) :
    (preReasoningPolicyCheck cv cfg env snapshot s).2.2.dlq = s.dlq := by
  unfold preReasoningPolicyCheck at h ⊢
  split at h
  · rename_i hmode
    rw [if_pos hmode]
  rename_i hmode
  rw [if_neg hmode]
  split at h
  · rfl
  · exact (checkSnapshot_dlq h).trans loadAllowlist_dlq

theorem post_dlq {cfg : GateConfig} {env : GateEnv} :
    (postReasoningPolicyCheck cv cfg env d s).2.dlq = s.dlq := by
  unfold postReasoningPolicyCheck
  split
  · rfl
  split <;> rfl

theorem gate_grows {cfg : GateConfig} {env : GateEnv} :
    GrowsUnless (∀ cooldown, (preReasoningPolicyCheck cv cfg env snapshot s).1 ≠ .defer cooldown)
      s.dlq (preReasoningPolicyCheck cv cfg env snapshot s).2.2.dlq := by
  by_cases h : ∀ cooldown, (preReasoningPolicyCheck cv cfg env snapshot s).1 ≠ .defer cooldown
  · exact growsUnless_same (gate_dlq h) h
  · refine growsUnless_added ?_ h
    simp only [not_forall, not_not] at h
    obtain ⟨cooldown, h⟩ := h
    obtain ⟨-, d, -, hdlq⟩ := deferred_dlq h
    rw [hdlq, size_append]

/-! ## `process_decision` -/

/-- A failed insert enqueues the decision, unless the push to Redis raises. -/
theorem persist_grows : GrowsUnless ((∃ id, env.insert = .ok id) ∨ Lost cfg env) s.dlq
    (persistDecision cfg env d s).2.2.dlq := by
  unfold persistDecision
  cases env.insert with
  | ok id => exact growsUnless_same rfl (.inl ⟨id, rfl⟩)
  | error err =>
    dsimp only
    have hsize := size_enqueue cfg.dlq s.dlq env.redisConnected env.rpush ⟨d, err, env.ts, 0, 0⟩
    by_cases hlost : Lost cfg env
    · rw [if_pos (show _ ∧ _ from hlost)] at hsize
      exact ⟨hsize.ge, fun _ => .inr hlost, fun _ => hsize⟩
    · rw [if_neg (show ¬ (_ ∧ _) from hlost)] at hsize
      refine growsUnless_added hsize ?_
      intro h'
      obtain ⟨id, hid⟩ | h := h'
      · cases hid
      · exact hlost h

/-- The dead letters behind a normalized decision. -/
theorem processNormalized_dlq :
    (processNormalized cv cfg env persist channels d s).2.2.dlq =
      if persist then
        (persistDecision cfg env (withShadow env d)
          (postReasoningPolicyCheck cv cfg.gate env.post d s).2).2.2.dlq
      else (postReasoningPolicyCheck cv cfg.gate env.post d s).2.dlq := by
  unfold processNormalized
  dsimp only
  cases persist <;> cases channelsOf cfg env channels (withShadow env d) <;> rfl

theorem processNormalized_grows :
    GrowsUnless (persist = false ∨ (∃ id, env.insert = .ok id) ∨ Lost cfg env) s.dlq
      (processNormalized cv cfg env persist channels d s).2.2.dlq := by
  have hpost : (postReasoningPolicyCheck cv cfg.gate env.post d s).2.dlq = s.dlq := post_dlq
  rw [processNormalized_dlq]
  cases persist with
  | false => exact growsUnless_same hpost (.inl rfl)
  | true =>
    have hgrows := @persist_grows cfg env (postReasoningPolicyCheck cv cfg.gate env.post d s).2
      (withShadow env d)
    rw [hpost] at hgrows
    simpa using hgrows

theorem isInserted_processNormalized :
    (∀ e ∈ (processNormalized cv cfg env persist channels d s).1, e.isInserted = false) ↔
      (persist = true → ∀ id, env.insert ≠ .ok id) := by
  rw [processNormalized_effects]
  have hpaper : ∀ e ∈ (if entersPaper cv cfg d then [Effect.paperEntry] else []),
      e.isInserted = false := by
    intro e he
    split at he
    · rw [List.mem_singleton.1 he]
      rfl
    · cases he
  have hsent : ∀ chs : List String, ∀ e ∈ chs.map Effect.notified, e.isInserted = false := by
    intro chs e he
    obtain ⟨ch, -, rfl⟩ := List.mem_map.1 he
    rfl
  have hstored : (∀ e ∈ (if persist then (persistDecision cfg env (withShadow env d)
      (postReasoningPolicyCheck cv cfg.gate env.post d s).2).1 else []), e.isInserted = false) ↔
      (persist = true → ∀ id, env.insert ≠ .ok id) := by
    cases persist with
    | false => simp
    | true =>
      unfold persistDecision
      cases env.insert with
      | ok id => simp [Effect.isInserted]
      | error err => simp
  rw [List.forall_mem_append, List.forall_mem_append, hstored]
  cases channelsOf cfg env channels d with
  | none => exact ⟨fun h => h.1.2, fun h => ⟨⟨hpaper, h⟩, List.forall_mem_nil _⟩⟩
  | some chs => exact ⟨fun h => h.1.2, fun h => ⟨⟨hpaper, h⟩, hsent _⟩⟩

/-- **After its gate, `process_decision` neither inserts nor enqueues the decision exactly if it is
dropped.** -/
theorem dropped_iff :
    ((∀ e ∈ (processDecision cv cfg env persist channels decision s).1, e.isInserted = false) ∧
      (processDecision cv cfg env persist channels decision s).2.2.dlq.size =
        (preReasoningPolicyCheck cv cfg.gate env.gate decision s).2.2.dlq.size) ↔
      Dropped cv cfg env persist decision s := by
  unfold processDecision Dropped processed?
  generalize preReasoningPolicyCheck cv cfg.gate env.gate decision s = g
  obtain ⟨result, decision, s⟩ := g
  dsimp only
  cases cv.normalizeDecision env.now decision with
  | none => simp [Effect.isInserted]
  | some d =>
    have hsize := (@processNormalized_grows cv cfg env s persist channels d).2
    have hinserted := @isInserted_processNormalized cv cfg env s persist channels d
    simp only [List.forall_mem_cons, hinserted, hsize, Option.map_some, reduceCtorEq, false_or]
    refine ⟨fun h' => ?_, fun h' => ?_⟩
    · obtain ⟨⟨-, hnone⟩, hpersist | ⟨id, hid⟩ | hlost⟩ := h'
      · exact .inl hpersist
      · cases persist with
        | false => exact .inl rfl
        | true => exact absurd hid (hnone rfl id)
      · cases persist with
        | false => exact .inl rfl
        | true => exact .inr ⟨hnone rfl, hlost⟩
    · obtain rfl | ⟨hnone, hlost⟩ := h'
      · exact ⟨⟨rfl, fun h => absurd h Bool.false_ne_true⟩, .inl rfl⟩
      · exact ⟨⟨rfl, fun _ => hnone⟩, .inr (.inr hlost)⟩

/-- `process_decision` only adds entries. -/
theorem process_grows :
    (preReasoningPolicyCheck cv cfg.gate env.gate decision s).2.2.dlq.size ≤
      (processDecision cv cfg env persist channels decision s).2.2.dlq.size := by
  unfold processDecision
  generalize preReasoningPolicyCheck cv cfg.gate env.gate decision s = g
  obtain ⟨result, decision, s⟩ := g
  dsimp only
  cases cv.normalizeDecision env.now decision with
  | none => exact le_refl _
  | some d => exact processNormalized_grows.1

/-! ## Items of the queue -/

theorem runPlan_grows {env : QueueEnv} :
    GrowsUnless (PlanRuns env decision) s.dlq (runPlan cv cfg env decision s).2.2.dlq := by
  unfold runPlan
  cases decision with
  | other v => exact growsUnless_same rfl trivial
  | dict d =>
    dsimp only
    cases hplan : hasPlan d with
    | false => exact growsUnless_same rfl fun h => by rw [hplan] at h; cases h
    | true =>
      rw [if_pos rfl]
      cases henv : env.plan with
      | ok result =>
        refine growsUnless_same ?_ fun _ => ⟨result, henv⟩
        dsimp only
        cases result with
        | dict r => exact post_dlq
        | other v => rfl
      | error err =>
        refine growsUnless_added ?_ fun h => by
          obtain ⟨result, hok⟩ := h hplan
          rw [henv] at hok
          cases hok
        show (s.dlq.enqueue cfg.dlq env.redisConnected (if env.pushed then .ok else .failed) _).size = _
        rw [size_enqueue, if_neg]
        cases env.pushed <;> simp

theorem isInserted_runPlan {env : QueueEnv} :
    ∀ e ∈ (runPlan cv cfg env decision s).1, e.isInserted = false := by
  unfold runPlan
  intro e he
  split at he
  · cases he
  split at he
  · split at he
    · cases he
    · dsimp only at he
      split at he
      · rw [List.mem_singleton.1 he]
        rfl
      · cases he
  · cases he

/-! ## The entry points -/

/-- The deferral enqueues an entry. -/
theorem size_deferred {cfg : GateConfig} {env : GateEnv} {cooldown : ℤ}
    (h : (preReasoningPolicyCheck cv cfg env snapshot s).1 = .defer cooldown) :
    (preReasoningPolicyCheck cv cfg env snapshot s).2.2.dlq.size = s.dlq.size + 1 := by
  obtain ⟨-, d, -, hdlq⟩ := deferred_dlq h
  rw [hdlq, size_append]

theorem runFromQueue_single_iff {env : QueueEnv} {cooldown : ℤ}
    (h : (preReasoningPolicyCheck cv cfg.gate env.gate decision s).1 = .defer cooldown) :
    ((∀ e ∈ (runFromQueueItem cv cfg env decision s).1, e.isInserted = false) ∧
      (runFromQueueItem cv cfg env decision s).2.dlq.size = s.dlq.size + 1) ↔
      QueueSingle cv cfg env decision s := by
  rw [← size_deferred h]
  unfold runFromQueueItem QueueSingle
  generalize preReasoningPolicyCheck cv cfg.gate env.gate decision s = g
  obtain ⟨result, decision, s⟩ := g
  dsimp only
  obtain ⟨hplan, hplanIff⟩ := @runPlan_grows cv cfg s decision env
  have hplanned := @isInserted_runPlan cv cfg s decision env
  generalize runPlan cv cfg env decision s = p at hplan hplanIff hplanned
  obtain ⟨planned, decision', s'⟩ := p
  dsimp only at hplan hplanIff hplanned ⊢
  obtain ⟨hgate, hgateIff⟩ := @gate_grows cv s' decision' cfg.gate env.process.gate
  have hprocess := @process_grows cv cfg env.process s' decision' true none
  change (∀ e ∈ Effect.gate result :: planned ++
      (processDecision cv cfg env.process true none decision' s').1, e.isInserted = false) ∧
    (processDecision cv cfg env.process true none decision' s').2.2.dlq.size = s.dlq.size ↔ _
  rw [← hplanIff, ← hgateIff, ← @dropped_iff cv cfg env.process s' decision' true none]
  rw [List.cons_append, List.forall_mem_cons, List.forall_mem_append]
  refine ⟨fun h' => ?_, fun h' => ?_⟩
  · obtain ⟨⟨-, -, hnone⟩, hsize⟩ := h'
    exact ⟨by omega, by omega, hnone, by omega⟩
  · obtain ⟨hone, htwo, hnone, hthree⟩ := h'
    exact ⟨⟨rfl, hplanned, hnone⟩, by omega⟩

theorem handleDecision_deferred {env : EventEnv} {correlationId : String} {cooldown : ℤ}
    (h : (preReasoningPolicyCheck cv cfg.gate env.gate (.dict d) s).1 = .defer cooldown) :
    (handleDecision cv cfg env d correlationId s).1 = [.gate (.defer cooldown)] ∧
      (handleDecision cv cfg env d correlationId s).2.2 =
        (preReasoningPolicyCheck cv cfg.gate env.gate (.dict d) s).2.2 := by
  unfold handleDecision
  generalize preReasoningPolicyCheck cv cfg.gate env.gate (.dict d) s = g at h ⊢
  obtain ⟨result, decision, s'⟩ := g
  obtain rfl : result = .defer cooldown := h
  exact ⟨rfl, rfl⟩

/-- An event whose decision is deferred goes no further. -/
theorem handleEvent_deferred {env : EventEnv} {event : Event} {cooldown : ℤ}
    (h : (Entry.handleEvent env event).Defers cv cfg s cooldown) : ∃ d,
      (preReasoningPolicyCheck cv cfg.gate env.gate (.dict d) s).1 = .defer cooldown ∧
      (handleEvent cv cfg env event s).1 = [.gate (.defer cooldown)] ∧
      (handleEvent cv cfg env event s).2.2 =
        (preReasoningPolicyCheck cv cfg.gate env.gate (.dict d) s).2.2 := by
  change (handleEvent cv cfg env event s).1.head? = _ at h
  unfold handleEvent at h ⊢
  split at h
  · cases h
  · cases h
  · rename_i d _ _
    split at h
    · rename_i hdecision
      rw [if_pos hdecision]
      have hdefer : (preReasoningPolicyCheck cv cfg.gate env.gate (.dict d) s).1 =
          .defer cooldown := by
        rw [handleDecision_effects] at h
        simpa using h
      exact ⟨d, hdefer, handleDecision_deferred hdefer⟩
    · split at h <;> cases h

theorem defers_processDecision {cooldown : ℤ}
    (h : (Entry.processDecision env persist channels decision).Defers cv cfg s cooldown) :
    (preReasoningPolicyCheck cv cfg.gate env.gate decision s).1 = .defer cooldown := by
  obtain ⟨es, heffects, -⟩ := processDecision_effects cv cfg env persist channels decision s
  change (processDecision cv cfg env persist channels decision s).1.head? = _ at h
  rw [heffects] at h
  simpa using h

theorem defers_runFromQueue {env : QueueEnv} {cooldown : ℤ}
    (h : (Entry.runFromQueue env decision).Defers cv cfg s cooldown) :
    (preReasoningPolicyCheck cv cfg.gate env.gate decision s).1 = .defer cooldown := by
  change (runFromQueueItem cv cfg env decision s).1.head? = _ at h
  unfold runFromQueueItem at h
  simpa using h

/-- A deferred decision is not inserted at once and leaves one entry exactly if the call does nothing
else with it. -/
theorem single_iff {entry : Entry} {cooldown : ℤ} (h : entry.Defers cv cfg s cooldown) :
    ((∀ e ∈ entry.effects cv cfg s, e.isInserted = false) ∧
      (entry.after cv cfg s).dlq.size = s.dlq.size + 1) ↔ entry.Single cv cfg s := by
  cases entry with
  | processDecision env persist channels decision =>
    rw [← size_deferred (defers_processDecision h)]
    exact dropped_iff
  | runFromQueue env decision => exact runFromQueue_single_iff (defers_runFromQueue h)
  | handleEvent env event =>
    obtain ⟨d, hdefer, heffects, hafter⟩ := handleEvent_deferred h
    refine ⟨fun _ => trivial, fun _ => ⟨?_, ?_⟩⟩
    · change ∀ e ∈ (handleEvent cv cfg env event s).1, _
      rw [heffects]
      exact List.forall_mem_singleton.2 rfl
    · change (handleEvent cv cfg env event s).2.2.dlq.size = _
      rw [hafter, size_deferred hdefer]

/-! ## The deferred entry -/

/-- A property of queues that every enqueue keeps. -/
structure KeptByEnqueues (dcfg : DlqSettings) (P : Dlq Fields → Prop) : Prop where
  append : ∀ q entry, P q → P (q.append entry)
  enqueue : ∀ q connected reply entry, P q → P (q.enqueue dcfg connected reply entry)

variable {P : Dlq Fields → Prop}

theorem KeptByEnqueues.gate (hP : KeptByEnqueues cfg.dlq P) {env : GateEnv} (h : P s.dlq) :
    P (preReasoningPolicyCheck cv cfg.gate env snapshot s).2.2.dlq := by
  cases hresult : (preReasoningPolicyCheck cv cfg.gate env snapshot s).1 with
  | defer cooldown =>
    obtain ⟨-, d, -, hdlq⟩ := deferred_dlq hresult
    rw [hdlq]
    exact hP.append _ _ h
  | pass _ | veto _ =>
    rw [gate_dlq fun cooldown => by rw [hresult]; simp]
    exact h

theorem KeptByEnqueues.persistDecision (hP : KeptByEnqueues cfg.dlq P) (h : P s.dlq) :
    P (Orchestrator.persistDecision cfg env d s).2.2.dlq := by
  unfold Orchestrator.persistDecision
  cases env.insert with
  | ok id => exact h
  | error err => exact hP.enqueue _ _ _ _ h

theorem KeptByEnqueues.process (hP : KeptByEnqueues cfg.dlq P)
    (h : P (preReasoningPolicyCheck cv cfg.gate env.gate decision s).2.2.dlq) :
    P (processDecision cv cfg env persist channels decision s).2.2.dlq := by
  unfold processDecision
  generalize preReasoningPolicyCheck cv cfg.gate env.gate decision s = g at h
  obtain ⟨result, decision', s'⟩ := g
  dsimp only at h ⊢
  cases cv.normalizeDecision env.now decision' with
  | none => exact h
  | some d =>
    have hpost : P (postReasoningPolicyCheck cv cfg.gate env.post d s').2.dlq := by
      rw [post_dlq]
      exact h
    unfold processNormalized
    dsimp only
    cases persist with
    | false => cases channelsOf cfg env channels (withShadow env d) <;> exact hpost
    | true => cases channelsOf cfg env channels (withShadow env d) <;> exact hP.persistDecision hpost

theorem KeptByEnqueues.plan (hP : KeptByEnqueues cfg.dlq P) {env : QueueEnv} (h : P s.dlq) :
    P (runPlan cv cfg env decision s).2.2.dlq := by
  unfold runPlan
  split
  · exact h
  split
  · split
    · dsimp only
      split
      · rw [post_dlq]
        exact h
      · exact h
    · exact hP.enqueue _ _ _ _ h
  · exact h

theorem KeptByEnqueues.item (hP : KeptByEnqueues cfg.dlq P) {env : QueueEnv}
    (h : P (preReasoningPolicyCheck cv cfg.gate env.gate decision s).2.2.dlq) :
    P (runFromQueueItem cv cfg env decision s).2.dlq := by
  unfold runFromQueueItem
  generalize preReasoningPolicyCheck cv cfg.gate env.gate decision s = g at h
  obtain ⟨result, decision', s'⟩ := g
  dsimp only at h ⊢
  exact hP.process (hP.gate (hP.plan h))

/-- The queue after a call is the one with the deferred entry, and maybe with more entries. -/
theorem after_keeps {entry : Entry} {cooldown : ℤ} (h : entry.Defers cv cfg s cooldown) :
    ∃ d ts, ∀ P : Dlq Fields → Prop, KeptByEnqueues cfg.dlq P →
      P (s.dlq.append ⟨d, "policy_defer", ts, 0, cooldown⟩) → P (entry.after cv cfg s).dlq := by
  cases entry with
  | processDecision env persist channels decision =>
    obtain ⟨-, d, -, hdlq⟩ := deferred_dlq (defers_processDecision h)
    refine ⟨d, env.gate.ts, fun P hP hq => ?_⟩
    rw [← hdlq] at hq
    exact hP.process hq
  | runFromQueue env decision =>
    obtain ⟨-, d, -, hdlq⟩ := deferred_dlq (defers_runFromQueue h)
    refine ⟨d, env.gate.ts, fun P hP hq => ?_⟩
    rw [← hdlq] at hq
    exact hP.item hq
  | handleEvent env event =>
    obtain ⟨d, hdefer, -, hafter⟩ := handleEvent_deferred h
    obtain ⟨-, d', -, hdlq⟩ := deferred_dlq hdefer
    refine ⟨d', env.gate.ts, fun P hP hq => ?_⟩
    change P (handleEvent cv cfg env event s).2.2.dlq
    rw [hafter, hdlq]
    exact hq

end

/-! ## Exactness -/

/-- The entry is queued once, and was not tried. -/
def Queued (due : ℚ) (r : ℕ) (q : Dlq Fields) : Prop := Dlq.Settled due q r ∧ q.persistDlq.count r = 1

theorem queued_keptByEnqueues (dcfg : DlqSettings) (due : ℚ) (r : ℕ) :
    KeptByEnqueues dcfg (Queued due r) := by
  refine ⟨fun q entry h => ?_, fun q connected reply entry h => ?_⟩
  · obtain ⟨hsettled, hcount⟩ := h
    exact ⟨hsettled.append entry, (Dlq.append_count hsettled.lt entry).trans hcount⟩
  · obtain ⟨hsettled, hcount⟩ := h
    refine ⟨hsettled.enqueue connected reply entry, ?_⟩
    unfold Dlq.enqueue
    split
    · split
      · exact hcount
      · exact (Dlq.append_count hsettled.lt entry).trans hcount
      · exact hcount
    · exact (Dlq.append_count hsettled.lt entry).trans hcount

/-- A new entry. -/
theorem queued_append {q : Dlq Fields} (hbounded : Dlq.Bounded q) (hidle : q.pass.pending = [])
    (entry : DlqEntry Fields) : Queued entry.nextAttemptTs q.heap.length (q.append entry) := by
  have hnew : q.persistDlq.count q.heap.length = 0 := by
    rw [List.count_eq_zero]
    exact fun hmem => Nat.lt_irrefl _ (hbounded.queue _ hmem)
  have hcount : (q.append entry).persistDlq.count q.heap.length = 1 := by
    simp [Dlq.append, List.count_append, hnew]
  have hout : (q.append entry).outcomes q.heap.length .inserted = 0 := by
    refine List.countP_eq_zero.2 fun e he => ?_
    have hlt := hbounded.events e he
    simp only [decide_eq_true_eq, not_and]
    omega
  refine ⟨⟨⟨hbounded.append entry, ⟨_, List.getElem?_concat_length, rfl⟩, ?_⟩, hidle⟩, hcount⟩
  rw [hcount, hout]

/-- **A decision that the gate defers is stored exactly once if the call does nothing else with it and
a pass takes up its entry**, and only then. -/
theorem storedOnce_iff (cv : Conv) (cfg : ProcessConfig) (s : Orch) (entry : Entry) (cooldown : ℤ)
    (ps : List (Dlq.RetryPass Fields))
    (hreached : ∃ inputs, s.dlq = run (Dlq.step cfg.dlq) {} inputs)
    (hidle : s.dlq.pass.pending = []) (hdefer : entry.Defers cv cfg s cooldown)
    (hps : ∀ p ∈ ps, Dlq.Quiet cfg.dlq p) :
    StoredOnce cv cfg s entry ps ↔
      entry.Single cv cfg s ∧ ∃ p ∈ ps, Dlq.Takes cfg.dlq cooldown p := by
  obtain ⟨d, ts, hkeeps⟩ := after_keeps hdefer
  have hbounded : Dlq.Bounded s.dlq := by
    obtain ⟨inputs, hinputs⟩ := hreached
    rw [hinputs]
    exact Dlq.bounded_run cfg.dlq inputs
  obtain ⟨hsettled, hcount⟩ := hkeeps _ (queued_keptByEnqueues cfg.dlq cooldown s.dlq.heap.length)
    (queued_append hbounded hidle ⟨d, "policy_defer", ts, 0, cooldown⟩)
  have hsingle := single_iff hdefer
  have honce := Dlq.inserted_retries_iff hsettled hcount hps
  refine ⟨fun h => ?_, fun h' => ?_⟩
  · exact ⟨hsingle.1 ⟨h.notAtOnce, h.oneEntry⟩, honce.1 h.once⟩
  · obtain ⟨h, htakes⟩ := h'
    obtain ⟨hnone, hone⟩ := hsingle.2 h
    exact ⟨hnone, hone, honce.2 htakes⟩

/-- The call of `process_decision` at the start of the cooldown. -/
def coolingEnv : ProcessEnv where
  gate := atStart
  now := ⟨"2023-11-14T22:13:20+00:00", 1700000000000⟩
  post := atStart
  insert := .ok 1

def coolingEvent : Entry :=
  .handleEvent { gate := atStart, process := coolingEnv } ⟨"decision", .dict coolingDown, "c1"⟩

theorem quietPass_quiet (cfg : DlqSettings) (now : ℚ) : Dlq.Quiet cfg (quietPass now) :=
  ⟨fun _ => rfl, fun _ => rfl, by simp [quietPass]⟩

theorem storedOnce_event :
    StoredOnce .plain { gate := { permissive := false } } {} coolingEvent
        [quietPass 1700000120, quietPass 1700000060000] ↔
      coolingEvent.Single .plain { gate := { permissive := false } } {} ∧
        ∃ p ∈ [quietPass 1700000120, quietPass 1700000060000],
          Dlq.Takes {} ((1700000060000 : ℤ) : ℚ) p :=
  storedOnce_iff .plain { gate := { permissive := false } } {} coolingEvent 1700000060000
    [quietPass 1700000120, quietPass 1700000060000] ⟨[], rfl⟩ rfl (by
      unfold Entry.Defers
      decide +kernel)
    fun p hp => by
      obtain rfl | hp := List.mem_cons.1 hp
      · exact quietPass_quiet _ _
      · rw [List.mem_singleton.1 hp]
        exact quietPass_quiet _ _

/-- `process_decision` inserts the deferred decision at once, and so does an item of the queue, which
is enqueued twice besides. -/
theorem cooling_storedAtOnce :
    ¬ StoredOnce .plain { gate := { permissive := false } } {}
      (.processDecision coolingEnv true none (.dict coolingDown)) [quietPass 1700000120] ∧
    ¬ StoredOnce .plain { gate := { permissive := false } } {}
      (.runFromQueue { gate := atStart, post := atStart, process := coolingEnv } (.dict coolingDown))
      [quietPass 1700000120] := by
  refine ⟨fun h => ?_, fun h => ?_⟩
  · obtain ⟨hnot, -, -⟩ := h
    have hno := hnot (.inserted 1) (by decide +kernel)
    cases hno
  · obtain ⟨-, hone, -⟩ := h
    revert hone
    decide +kernel

end Orchestrator
