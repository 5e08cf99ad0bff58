import IctAlgo.Orchestrator.Process

/-!
# Enforcement of the policy gate

* `Enforced`: if the gate answers a veto or a defer in a call of an entry point, the call neither
  notifies nor persists nor enters a paper trade.
* `Idle`: there is nothing to do for a decision.
* `enforced_iff`: an entry point enforces the gate exactly when every answer that it ignores lets the
  decision through, or it has nothing to do. `handle_event` looks at one answer of two, the other
  entry points at none.
-/

set_option autoImplicit false

namespace Orchestrator

open Lib

/-! ## Effects -/

def Effect.stops : Effect → Bool
  | .gate result => result.stops
  | _ => false

/-- The effect is a notification, an insert or a paper trade. -/
def Effect.acts : Effect → Bool
  | .gate _ => false
  | _ => true

/-- If an answer of the gate stops the decision, nothing is done for it. -/
def Enforced (effects : List Effect) : Prop :=
  (∃ e ∈ effects, e.stops = true) → ∀ e ∈ effects, e.acts = false

instance (effects : List Effect) : Decidable (Enforced effects) :=
  inferInstanceAs (Decidable (_ → _))

/-- Effects of which none is an answer of the gate. -/
def Acting (effects : List Effect) : Prop := ∀ e ∈ effects, e.acts = true

variable {es fs : List Effect} {r r' : GateResult}

theorem Acting.not_stops (h : Acting es) : ¬ ∃ e ∈ es, e.stops = true := by
  intro h'
  obtain ⟨e, he, hs⟩ := h'
  have hacts := h e he
  cases e with
  | gate result => cases hacts
  | _ => cases hs

theorem Acting.silent_iff (h : Acting es) : (∀ e ∈ es, e.acts = false) ↔ es = [] := by
  refine ⟨fun hn => List.eq_nil_iff_forall_not_mem.2 fun e he => ?_, fun hn => by simp [hn]⟩
  have hacts := h e he
  rw [hn e he] at hacts
  cases hacts

theorem Acting.append (h : Acting es) (h' : Acting fs) : Acting (es ++ fs) := by
  intro e he
  rcases List.mem_append.1 he with he | he
  · exact h e he
  · exact h' e he

theorem acting_nil : Acting [] := fun _ he => by cases he

@[simp] theorem Effect.gate_stops : (Effect.gate r).stops = r.stops := rfl

@[simp] theorem Effect.gate_acts : (Effect.gate r).acts = false := rfl

/-- One answer, and what is done after it. -/
theorem enforced_gate (h : Acting es) :
    Enforced (.gate r :: es) ↔ (r.stops = true → es = []) := by
  have hstops : (∃ e ∈ Effect.gate r :: es, e.stops = true) ↔ r.stops = true := by
    simp only [List.mem_cons, exists_eq_or_imp, h.not_stops, or_false, Effect.gate_stops]
  have hsilent : (∀ e ∈ Effect.gate r :: es, e.acts = false) ↔ es = [] := by
    simp only [List.mem_cons, forall_eq_or_imp, h.silent_iff, Effect.gate_acts, true_and]
  rw [Enforced, hstops, hsilent]

/-- Two answers, with something done between them and after. -/
theorem enforced_gates (h : Acting es) (h' : Acting fs) :
    Enforced (.gate r :: es ++ .gate r' :: fs) ↔
      (r.stops = true ∨ r'.stops = true → es = [] ∧ fs = []) := by
  have hstops : (∃ e ∈ Effect.gate r :: es ++ .gate r' :: fs, e.stops = true) ↔
      (r.stops = true ∨ r'.stops = true) := by
    have hns := h.not_stops
    have hns' := h'.not_stops
    simp only [List.cons_append, List.mem_cons, List.mem_append, or_and_right, exists_or, hns, hns',
      exists_eq_left, Effect.gate_stops, false_or, or_false]
  have hsilent : (∀ e ∈ Effect.gate r :: es ++ .gate r' :: fs, e.acts = false) ↔
      es = [] ∧ fs = [] := by
    simp only [List.cons_append, List.mem_cons, List.mem_append, or_imp, forall_and, forall_eq,
      h.silent_iff, h'.silent_iff, Effect.gate_acts, true_and]
  rw [Enforced, hstops, hsilent]

/-! ## Nothing to do -/

section
variable (cv : Conv) (cfg : ProcessConfig) (env : ProcessEnv)

/-- A normalized decision enters no paper trade, is not inserted, and is sent to no channel. -/
structure IdleAt (persist : Bool) (channels : Option (List String)) (d : Fields) : Prop where
  paper : entersPaper cv cfg d = false
  insert : persist = true → ∀ id, env.insert ≠ .ok id
  notify : ∀ chs ∈ channelsOf cfg env channels d, recipients cfg env d chs = []

/-- There is nothing to do for a decision: it does not normalize, or `IdleAt`. -/
def Idle (persist : Bool) (channels : Option (List String)) (decision : Payload) : Prop :=
  ∀ d ∈ cv.normalizeDecision env.now decision, IdleAt cv cfg env persist channels d

end

section
variable {cv : Conv} {cfg : ProcessConfig} {env : ProcessEnv} {persist : Bool}
  {channels : Option (List String)} {d : Fields} {decision : Payload} {s : Orch}

theorem val_withShadow {key : String} (h : key ≠ "_shadow_policy_result") :
    val (withShadow env d) key = val d key := by
  unfold withShadow
  split
  · split
    · exact Dict.getD_set_ne d _ _ h
    · rfl
  · rfl

theorem channelsOf_withShadow :
    channelsOf cfg env channels (withShadow env d) = channelsOf cfg env channels d := by
  unfold channelsOf Routing.channelsFor
  rw [val_withShadow (by decide), val_withShadow (by decide)]

theorem recipients_withShadow (chs : List String) :
    recipients cfg env (withShadow env d) chs = recipients cfg env d chs := by
  unfold recipients quietFor
  rw [val_withShadow (by decide)]

theorem persistDecision_acting : Acting (persistDecision cfg env d s).1 := by
  unfold persistDecision
  intro e he
  split at he
  · rw [List.mem_singleton.1 he]
    rfl
  · cases he

theorem persistDecision_eq_nil :
    (persistDecision cfg env d s).1 = [] ↔ ∀ id, env.insert ≠ .ok id := by
  unfold persistDecision
  rcases env.insert with err | id <;> simp

/-- What follows a normalized decision, in one list: the paper trade, the insert, the
notifications. -/
theorem processNormalized_effects :
    (processNormalized cv cfg env persist channels d s).1 =
      (if entersPaper cv cfg d then [Effect.paperEntry] else []) ++
      (if persist then (persistDecision cfg env (withShadow env d)
        (postReasoningPolicyCheck cv cfg.gate env.post d s).2).1 else []) ++
      match channelsOf cfg env channels d with
      | some chs => (recipients cfg env d chs).map .notified
      | none => [] := by
  unfold processNormalized
  dsimp only
  rw [channelsOf_withShadow]
  cases persist <;> rcases channelsOf cfg env channels d with _ | chs <;>
    simp [recipients_withShadow]

theorem processNormalized_acting :
    Acting (processNormalized cv cfg env persist channels d s).1 := by
  rw [processNormalized_effects]
  refine Acting.append (Acting.append ?_ ?_) ?_
  · split
    · exact fun e he => by rw [List.mem_singleton.1 he]; rfl
    · exact acting_nil
  · split
    · exact persistDecision_acting
    · exact acting_nil
  · split
    · intro e he
      obtain ⟨ch, -, rfl⟩ := List.mem_map.1 he
      rfl
    · exact acting_nil

theorem processNormalized_eq_nil :
    (processNormalized cv cfg env persist channels d s).1 = [] ↔
      IdleAt cv cfg env persist channels d := by
  rw [processNormalized_effects]
  simp only [List.append_eq_nil_iff]
  refine ⟨fun h => ?_, fun h => ?_⟩
  · obtain ⟨⟨hpaper, hinsert⟩, hnotify⟩ := h
    refine ⟨?_, fun hp id => ?_, fun chs hchs => ?_⟩
    · by_contra hn
      simp [hn] at hpaper
    · rw [if_pos hp] at hinsert
      exact persistDecision_eq_nil.1 hinsert id
    · rw [Option.mem_def] at hchs
      simpa only [hchs, List.map_eq_nil_iff] using hnotify
  · obtain ⟨hpaper, hinsert, hnotify⟩ := h
    refine ⟨⟨by simp [hpaper], ?_⟩, ?_⟩
    · split
      · rename_i hp
        exact persistDecision_eq_nil.2 (hinsert hp)
      · rfl
    · cases hchs : channelsOf cfg env channels d with
      | none => rfl
      | some chs => simp [hnotify chs hchs]

/-! ## `process_decision` -/

/-- What a call of `process_decision` does after its gate. -/
theorem processDecision_effects (cv : Conv) (cfg : ProcessConfig) (env : ProcessEnv) (persist : Bool)
    (channels : Option (List String)) (decision : Payload) (s : Orch) :
    ∃ es, (processDecision cv cfg env persist channels decision s).1 =
        .gate (preReasoningPolicyCheck cv cfg.gate env.gate decision s).1 :: es ∧
      Acting es ∧ (es = [] ↔ Idle cv cfg env persist channels
        (preReasoningPolicyCheck cv cfg.gate env.gate decision s).2.1) := by
  unfold processDecision Idle
  generalize preReasoningPolicyCheck cv cfg.gate env.gate decision s = g
  obtain ⟨result, decision, s⟩ := g
  dsimp only
  rcases cv.normalizeDecision env.now decision with _ | d
  · exact ⟨[], rfl, acting_nil, by simp⟩
  · exact ⟨_, rfl, processNormalized_acting, by simpa using processNormalized_eq_nil⟩

end

section
variable (cv : Conv) (cfg : ProcessConfig)

/-- The gate of `process_decision` lets the decision through, or there is nothing to do for it. -/
def ProcessOk (env : ProcessEnv) (persist : Bool) (channels : Option (List String))
    (decision : Payload) (s : Orch) : Prop :=
  let (result, decision, _) := preReasoningPolicyCheck cv cfg.gate env.gate decision s
  result.stops = true → Idle cv cfg env persist channels decision

/-- Both gates of an item let it through, or neither its plan notifies nor is there anything to do
for it. -/
def QueueOk (env : QueueEnv) (decision : Payload) (s : Orch) : Prop :=
  let (result, decision, s) := preReasoningPolicyCheck cv cfg.gate env.gate decision s
  let (planned, decision, s) := runPlan cv cfg env decision s
  let (result', decision, _) := preReasoningPolicyCheck cv cfg.gate env.process.gate decision s
  result.stops = true ∨ result'.stops = true →
    planned = [] ∧ Idle cv cfg env.process true none decision

/-- If the gate of an event lets it through, and it comes to `process_decision`, this is `ProcessOk`. -/
def EventOk (env : EventEnv) (event : Event) (s : Orch) : Prop :=
  ∀ d, event.payload = .dict d → refuses env event = none → event.eventType = "decision" →
    let (result, decision, s) := preReasoningPolicyCheck cv cfg.gate env.gate (.dict d) s
    result.stops = false → beforeProcess env d = none →
      ProcessOk cv cfg env.process true none decision s

/-! ## The entry points -/

inductive Entry
  | processDecision (env : ProcessEnv) (persist : Bool) (channels : Option (List String))
      (decision : Payload)
  | runFromQueue (env : QueueEnv) (decision : Payload)
  | handleEvent (env : EventEnv) (event : Event)

def Entry.effects (s : Orch) : Entry → List Effect
  | .processDecision env persist channels decision =>
    (Orchestrator.processDecision cv cfg env persist channels decision s).1
  | .runFromQueue env decision => (runFromQueueItem cv cfg env decision s).1
  | .handleEvent env event => (Orchestrator.handleEvent cv cfg env event s).1

/-- The answers the entry point ignores let the decision through, or it has nothing to do. -/
def Entry.Ok (s : Orch) : Entry → Prop
  | .processDecision env persist channels decision =>
    ProcessOk cv cfg env persist channels decision s
  | .runFromQueue env decision => QueueOk cv cfg env decision s
  | .handleEvent env event => EventOk cv cfg env event s

end

section
variable {cv : Conv} {cfg : ProcessConfig} {s : Orch} {persist : Bool}
  {channels : Option (List String)} {decision : Payload}

theorem processDecision_enforced_iff {env : ProcessEnv} :
    Enforced (processDecision cv cfg env persist channels decision s).1 ↔
      ProcessOk cv cfg env persist channels decision s := by
  obtain ⟨es, heffects, hacting, hidle⟩ := processDecision_effects cv cfg env persist channels
    decision s
  rw [heffects, enforced_gate hacting, hidle]
  rfl

theorem runPlan_acting {env : QueueEnv} : Acting (runPlan cv cfg env decision s).1 := by
  unfold runPlan
  split
  · exact acting_nil
  split
  · split
    · exact acting_nil
    · dsimp only
      split
      · exact fun e he => by rw [List.mem_singleton.1 he]; rfl
      · exact acting_nil
  · exact acting_nil

theorem runFromQueueItem_enforced_iff {env : QueueEnv} :
    Enforced (runFromQueueItem cv cfg env decision s).1 ↔ QueueOk cv cfg env decision s := by
  unfold runFromQueueItem QueueOk
  generalize preReasoningPolicyCheck cv cfg.gate env.gate decision s = g
  obtain ⟨result, decision, s⟩ := g
  dsimp only
  have hplan : Acting (runPlan cv cfg env decision s).1 := runPlan_acting
  generalize runPlan cv cfg env decision s = p at hplan
  obtain ⟨planned, decision, s⟩ := p
  dsimp only at hplan ⊢
  obtain ⟨es, heffects, hacting, hidle⟩ := processDecision_effects cv cfg env.process true none
    decision s
  rw [heffects, enforced_gates hplan hacting, hidle]

/-- A decision event does nothing but ask its gate, unless the gate lets it through. -/
theorem handleDecision_effects {env : EventEnv} {d : Fields} {correlationId : String} :
    (handleDecision cv cfg env d correlationId s).1 =
      let (result, decision, s) := preReasoningPolicyCheck cv cfg.gate env.gate (.dict d) s
      .gate result :: if result.stops = false ∧ beforeProcess env d = none then
        (processDecision cv cfg env.process true none decision s).1 else [] := by
  unfold handleDecision
  generalize preReasoningPolicyCheck cv cfg.gate env.gate (.dict d) s = g
  obtain ⟨result, decision, s⟩ := g
  dsimp only
  cases result with
  | veto v => rfl
  | defer cooldown => rfl
  | pass details =>
    rcases beforeProcess env d with _ | refusal
    · rfl
    · simp [GateResult.eventResult]

theorem enforced_nil : Enforced [] := fun _ e he => by cases he

/-- An answer that lets the decision through does not matter. -/
theorem enforced_pass (h : r.stops = false) : Enforced (.gate r :: es) ↔ Enforced es := by
  simp only [Enforced, List.mem_cons, exists_eq_or_imp, forall_eq_or_imp, Effect.gate_stops, h,
    Bool.false_eq_true, false_or, Effect.gate_acts, true_and]

theorem handleDecision_enforced_iff {env : EventEnv} {d : Fields} {correlationId : String} :
    Enforced (handleDecision cv cfg env d correlationId s).1 ↔
      let (result, decision, s) := preReasoningPolicyCheck cv cfg.gate env.gate (.dict d) s
      result.stops = false → beforeProcess env d = none →
        ProcessOk cv cfg env.process true none decision s := by
  rw [handleDecision_effects]
  generalize preReasoningPolicyCheck cv cfg.gate env.gate (.dict d) s = g
  obtain ⟨result, decision, s⟩ := g
  dsimp only
  by_cases hgo : result.stops = false ∧ beforeProcess env d = none
  · rw [if_pos hgo, enforced_pass hgo.1, processDecision_enforced_iff]
    exact ⟨fun h _ _ => h, fun h => h hgo.1 hgo.2⟩
  · rw [if_neg hgo, enforced_gate acting_nil]
    exact ⟨fun _ hpass hnone => absurd ⟨hpass, hnone⟩ hgo, fun _ _ => rfl⟩

theorem handleEvent_enforced_iff {env : EventEnv} {event : Event} :
    Enforced (handleEvent cv cfg env event s).1 ↔ EventOk cv cfg env event s := by
  unfold handleEvent EventOk
  cases hrefuse : refuses env event with
  | none =>
    cases hpayload : event.payload with
    | dict d =>
      dsimp only
      by_cases hdecision : event.eventType = "decision"
      · rw [if_pos hdecision, handleDecision_enforced_iff]
        constructor
        · rintro h _ ⟨⟩ - -
          exact h
        · exact fun h => h d rfl rfl hdecision
      · rw [if_neg hdecision]
        refine ⟨fun _ d _ _ h => absurd h hdecision, fun _ => ?_⟩
        split <;> exact enforced_nil
    | other v => exact ⟨fun _ d h => (by cases h), fun _ => enforced_nil⟩
  | some refusal => exact ⟨fun _ d _ h => (by cases h), fun _ => enforced_nil⟩

end

/-- **An entry point enforces the policy gate exactly when the answers it ignores let the decision
through, or it has nothing to do for it.** -/
theorem enforced_iff (cv : Conv) (cfg : ProcessConfig) (s : Orch) (entry : Entry) :
    Enforced (entry.effects cv cfg s) ↔ entry.Ok cv cfg s := by
  cases entry with
  | processDecision env persist channels decision => exact processDecision_enforced_iff
  | runFromQueue env decision => exact runFromQueueItem_enforced_iff
  | handleEvent env event => exact handleEvent_enforced_iff

/-- A decision with a marker for the killzone. -/
def inKillzone : Fields :=
  ((Dict.empty.set "symbol" (.str "TST")).set "killzone" (.bool true)).set "recommendation"
    (.str "enter")

def killzoneEnv : ProcessEnv where
  gate := defaultPolicies .plain 1704067200000
  now := ⟨"2024-01-01T00:00:00+00:00", 1704067200000⟩
  post := defaultPolicies .plain 1704067200000
  insert := .ok 1

/-- The gate vetoes the decision, which is persisted and sent to Slack. -/
theorem inKillzone_processed :
    (processDecision .plain { gate := { permissive := false }, notifiers := ["slack"] } killzoneEnv
      true none (.dict inKillzone) {}).1 =
      [.gate (.veto .killzone), .inserted 1, .notified "slack"] ∧
    ¬ Enforced (Entry.effects .plain { gate := { permissive := false }, notifiers := ["slack"] } {}
      (.processDecision killzoneEnv true none (.dict inKillzone))) := by
  decide +kernel

end Orchestrator
