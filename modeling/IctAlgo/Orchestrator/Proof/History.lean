import IctAlgo.Orchestrator.Policy

/-!
# The history of the memory veto

`DecidesOnHistory`: the memory veto of the gate looks at the most recent outcomes of the symbol and the
signal type of the snapshot, and vetoes exactly when their mean is poor. The gate builds the key from
the model, which the lookup takes for the signal type.

* `lookupSimilarSignals_eq`: the lookup returns the values of the rows that it asks for.
* `gate_memoryVeto_iff`: the gate vetoes by memory exactly when these have a poor mean.
* `decidesOnHistory_iff`: the snapshots and tables for which these are the rows to look at.
-/

set_option autoImplicit false

namespace Orchestrator

open Lib Lib.Binary64

/-! ## The history -/

/-- The multiple of the risk that the lookup gives a row: a tenth of the profit, but at least 1 for a win
and at most -1 for a loss. -/
def DecisionOutcome.rValue (o : DecisionOutcome) : PyFloat :=
  let r := div (nearest o.pnl) 10
  if o.outcome.toLower = "win" then if PyFloat.lt (.fin 1) r then r else .fin 1
  else if o.outcome.toLower = "loss" then if r.lt (.fin (-1)) then r else .fin (-1)
  else .fin 0

/-- The most recent outcomes of a symbol and a signal type. -/
def history (table : List DecisionOutcome) (symbol signalType : String) (topN : ℤ) :
    List DecisionOutcome :=
  mostRecent topN (table.filter fun o => o.symbol = symbol ∧ o.signalType = signalType)

/-- The rows that the lookup for a snapshot asks for. -/
def similarQuery (d : Fields) (topN : ℤ) : OutcomeQuery :=
  { symbol := val d "symbol", signalType := val d "model", limit := topN }

/-- The section `memory_veto` has this limit and these thresholds. -/
def MemorySettings (cv : Conv) (cfg : GateConfig) (topN : ℤ) (negative positive : PyFloat) : Prop :=
  ∃ items, cfg.section? "memory_veto" = some items ∧
    cv.int? (getKey items "memory_top_n" (.int 10)) = some topN ∧
    cv.float? (getKey items "negative_threshold" (.float (nearest (-1 / 20)))) = some negative ∧
    cv.float? (getKey items "positive_threshold" (.float (nearest (1 / 10)))) = some positive

/-- No check before the memory veto stops the snapshot. -/
structure ReachesMemory (cv : Conv) (cfg : GateConfig) (env : GateEnv) (d : Fields) (s : Orch) : Prop
    where
  enabled : cfg.permissive = false
  early : earlyVeto? cv cfg env (s.loadAllowlist cfg env).allowlist d = none
  cooldown : cooldown? cv env d = none
  exposure : exposureVeto? cv env d = none
  performance : performanceVeto? cv cfg d = none

/-- The texts in the fields of a snapshot. -/
structure HasFields (d : Fields) (symbol signalType model : String) : Prop where
  symbol : val d "symbol" = .str symbol
  signalType : val d "signal_type" = .str signalType
  model : val d "model" = .str model

/-- The gate vetoes the snapshot by memory. -/
def MemoryVetoes (cv : Conv) (cfg : GateConfig) (env : GateEnv) (d : Fields) (s : Orch) : Prop :=
  ∃ expectancy sampleSize, (preReasoningPolicyCheck cv cfg env (.dict d) s).1 =
    .veto (.memoryUnderperformance expectancy sampleSize)

/-- The veto is decided on the history of the symbol and the signal type. -/
structure DecidesOnHistory (cv : Conv) (cfg : GateConfig) (env : GateEnv) (d : Fields) (s : Orch)
    (table : List DecisionOutcome) (symbol signalType : String) (topN : ℤ) (negative : PyFloat) : Prop
    where
  rows : getOutcomesBySignalType table (similarQuery d topN) = history table symbol signalType topN
  veto : MemoryVetoes cv cfg env d s ↔
    history table symbol signalType topN ≠ [] ∧
      (mean ((history table symbol signalType topN).map (·.rValue))).lt negative = true

/-! ## The lookup -/

section
variable {cv : Conv} {cfg : GateConfig} {env : GateEnv} {d : Fields} {s : Orch}
  {table : List DecisionOutcome} {topN : ℤ} {negative positive : PyFloat}

theorem similar?_row (o : DecisionOutcome) : o.row.similar? = some o.rValue := by
  unfold OutcomeRow.similar? DecisionOutcome.rValue
  simp only [DecisionOutcome.row, Option.bind_eq_bind, Option.bind_some, Option.pure_def]
  split
  · rfl
  · split <;> rfl

theorem mapM_similar? (rows : List DecisionOutcome) :
    (rows.map DecisionOutcome.row).mapM OutcomeRow.similar? = some (rows.map (·.rValue)) := by
  induction rows with
  | nil => rfl
  | cons o rows ih => simp [similar?_row, ih]

/-- **The lookup.** -/
theorem lookupSimilarSignals_eq (hsession : cfg.hasSessionmaker = true)
    (henv : ∀ q, env.outcomes q = .ok ((getOutcomesBySignalType table q).map DecisionOutcome.row)) :
    lookupSimilarSignals cfg env d topN =
      (getOutcomesBySignalType table (similarQuery d topN)).map (·.rValue) := by
  unfold lookupSimilarSignals
  rw [hsession, if_pos rfl, henv]
  show ((_ : List OutcomeRow).mapM OutcomeRow.similar?).getD [] = _
  rw [mapM_similar?]
  rfl

/-- The answer of `check_similarity` with these settings. -/
theorem similarity?_eq (h : MemorySettings cv cfg topN negative positive) :
    similarity? cv cfg env d =
      let valid := lookupSimilarSignals cfg env d topN
      if valid.isEmpty then none
      else if (mean valid).lt negative then
        some (.veto (.memoryUnderperformance (mean valid) valid.length))
      else if positive.lt (mean valid) then some .promote
      else none := by
  obtain ⟨items, hitems, htop, hneg, hpos⟩ := h
  unfold similarity?
  rw [hitems]
  simp only [Option.bind_eq_bind, Option.bind_some, htop, hneg, hpos]
  cases hempty : (lookupSimilarSignals cfg env d topN).isEmpty with
  | true => simp [guard]
  | false => simp [guard]

/-- The check behind the one of the metrics. -/
theorem checkOutcomes_memory_iff (hperformance : performanceVeto? cv cfg d = none) {expectancy : PyFloat}
    {sampleSize : ℕ} :
    (checkOutcomes cv cfg env d s).1 = .veto (.memoryUnderperformance expectancy sampleSize) ↔
      similarity? cv cfg env d = some (.veto (.memoryUnderperformance expectancy sampleSize)) := by
  unfold checkOutcomes
  rw [hperformance]
  dsimp only
  cases hsimilar : similarity? cv cfg env d with
  | none =>
    dsimp only
    split <;> simp
  | some similarity =>
    cases similarity with
    | veto v => simp
    | promote =>
      dsimp only
      split <;> simp

theorem preReasoningPolicyCheck_reaches (h : ReachesMemory cv cfg env d s) :
    (preReasoningPolicyCheck cv cfg env (.dict d) s).1 =
      (checkOutcomes cv cfg env d (s.loadAllowlist cfg env)).1 := by
  unfold preReasoningPolicyCheck
  rw [h.enabled, if_neg Bool.false_ne_true]
  dsimp only
  unfold checkSnapshot
  rw [h.early]
  dsimp only
  rw [h.cooldown]
  dsimp only
  rw [h.exposure]

/-- **The memory veto of the gate.** -/
theorem gate_memoryVeto_iff (hreaches : ReachesMemory cv cfg env d s)
    (hsettings : MemorySettings cv cfg topN negative positive) :
    MemoryVetoes cv cfg env d s ↔
      lookupSimilarSignals cfg env d topN ≠ [] ∧
        (mean (lookupSimilarSignals cfg env d topN)).lt negative = true := by
  unfold MemoryVetoes
  rw [preReasoningPolicyCheck_reaches hreaches]
  simp only [checkOutcomes_memory_iff hreaches.performance, similarity?_eq hsettings]
  cases hempty : (lookupSimilarSignals cfg env d topN).isEmpty with
  | true => simp [List.isEmpty_iff.1 hempty]
  | false =>
    have hne : lookupSimilarSignals cfg env d topN ≠ [] := by
      intro h
      rw [h] at hempty
      cases hempty
    simp only [Bool.false_eq_true, if_false, hne, ne_eq, not_false_eq_true, true_and]
    by_cases hlow : (mean (lookupSimilarSignals cfg env d topN)).lt negative = true
    · simp [hlow]
    · rw [if_neg hlow]
      refine iff_of_false (fun h => ?_) hlow
      obtain ⟨expectancy, sampleSize, h⟩ := h
      split at h <;> cases h

end

/-! ## Which rows -/

theorem mem_mostRecent {limit : ℤ} {rows : List DecisionOutcome} {o : DecisionOutcome}
    (h : o ∈ mostRecent limit rows) : o ∈ rows := by
  unfold mostRecent at h
  dsimp only at h
  split at h
  · exact (List.mem_insertionSort _).1 h
  · exact (List.mem_insertionSort _).1 (List.mem_of_mem_take h)

/-- A limit of 0 leaves no row, another one leaves some if there are any. -/
theorem mostRecent_eq_nil_iff {limit : ℤ} {rows : List DecisionOutcome} :
    mostRecent limit rows = [] ↔ limit = 0 ∨ rows = [] := by
  have hsort : ∀ rows : List DecisionOutcome,
      rows.insertionSort (fun o o' => o'.closedAt ≤ o.closedAt) = [] ↔ rows = [] := by
    intro rows
    rw [← List.length_eq_zero_iff, List.length_insertionSort, List.length_eq_zero_iff]
  unfold mostRecent
  dsimp only
  split
  · rw [hsort]
    have : limit ≠ 0 := by omega
    simp [this]
  · rw [List.take_eq_nil_iff, hsort]
    have : limit.toNat = 0 ↔ limit = 0 := by omega
    rw [this]

section
variable {d : Fields} {table : List DecisionOutcome} {symbol signalType model : String} {topN : ℤ}
  (hfields : HasFields d symbol signalType model)

include hfields

/-- The lookup asks for the history of the model. -/
theorem similarQuery_rows :
    getOutcomesBySignalType table (similarQuery d topN) = history table symbol model topN := by
  unfold getOutcomesBySignalType history similarQuery
  congr 1
  refine List.filter_congr fun o _ => ?_
  simp [OutcomeQuery.selects, columnIs, hfields.symbol, hfields.model, Value.isNull]

/-- The rows of the model are those of the signal type exactly when these are the same or neither has
any. -/
theorem rows_eq_iff :
    getOutcomesBySignalType table (similarQuery d topN) = history table symbol signalType topN ↔
      model = signalType ∨ topN = 0 ∨
        ∀ o ∈ table, o.symbol = symbol → o.signalType ≠ model ∧ o.signalType ≠ signalType := by
  rw [similarQuery_rows hfields]
  have htype : ∀ t, ∀ o ∈ history table symbol t topN, o.signalType = t := by
    intro t o ho
    have hmem := mem_mostRecent ho
    rw [List.mem_filter, decide_eq_true_eq] at hmem
    exact hmem.2.2
  have hnil : ∀ t, history table symbol t topN = [] ↔
      topN = 0 ∨ ∀ o ∈ table, o.symbol = symbol → o.signalType ≠ t := by
    intro t
    rw [history, mostRecent_eq_nil_iff, List.filter_eq_nil_iff]
    simp
  refine ⟨fun h => ?_, fun h => ?_⟩
  · by_cases hsame : model = signalType
    · exact .inl hsame
    · -- a row in both would have two signal types
      have hempty : history table symbol model topN = [] := by
        rw [List.eq_nil_iff_forall_not_mem]
        intro o ho
        exact hsame ((htype _ o ho).symm.trans (htype _ o (h ▸ ho)))
      rw [hempty] at h
      obtain hzero | hmodels := (hnil model).1 hempty
      · exact .inr (.inl hzero)
      · obtain hzero | htypes := (hnil signalType).1 h.symm
        · exact .inr (.inl hzero)
        · exact .inr (.inr fun o ho hs => ⟨hmodels o ho hs, htypes o ho hs⟩)
  · obtain rfl | hzero | hnone := h
    · rfl
    · rw [(hnil model).2 (.inl hzero), (hnil signalType).2 (.inl hzero)]
    · rw [(hnil model).2 (.inr fun o ho hs => (hnone o ho hs).1),
        (hnil signalType).2 (.inr fun o ho hs => (hnone o ho hs).2)]

end

/-- **The veto is decided on the right history** exactly when the model is also the signal type, the
limit is 0, or the symbol has no outcome of either. -/
theorem decidesOnHistory_iff (cv : Conv) (cfg : GateConfig) (env : GateEnv) (d : Fields) (s : Orch)
    (table : List DecisionOutcome) (symbol signalType model : String) (topN : ℤ)
    (negative positive : PyFloat) (hfields : HasFields d symbol signalType model)
    (hsession : cfg.hasSessionmaker = true)
    (henv : ∀ q, env.outcomes q = .ok ((getOutcomesBySignalType table q).map DecisionOutcome.row))
    (hsettings : MemorySettings cv cfg topN negative positive)
    (hreaches : ReachesMemory cv cfg env d s) :
    DecidesOnHistory cv cfg env d s table symbol signalType topN negative ↔
      model = signalType ∨ topN = 0 ∨
        ∀ o ∈ table, o.symbol = symbol → o.signalType ≠ model ∧ o.signalType ≠ signalType := by
  rw [← rows_eq_iff hfields]
  refine ⟨fun h => ?_, fun h => ?_⟩
  · exact h.rows
  · refine ⟨h, ?_⟩
    rw [gate_memoryVeto_iff hreaches hsettings, lookupSimilarSignals_eq hsession henv, h]
    simp

/-! ## A signal that always lost -/

/-- Three losses of a signal. -/
def losses : List DecisionOutcome :=
  [1, 2, 3].map fun id =>
    { id, symbol := "EURUSD", signalType := "bearish_bos", model := some "gpt4", pnl := -50
      outcome := "loss", closedAt := id }

def memoryConfig : GateConfig := { permissive := false, hasSessionmaker := true }

def memoryEnv : GateEnv :=
  { defaultPolicies .plain 0 with
    outcomes := fun q => .ok ((getOutcomesBySignalType losses q).map DecisionOutcome.row) }

/-- A snapshot of the signal, reasoned about by a model. -/
def lostSignal (model : String) : Fields :=
  Dict.ofItems [("symbol", .str "EURUSD"), ("signal_type", .str "bearish_bos"), ("model", .str model)]

theorem memorySettings_default :
    MemorySettings .plain memoryConfig 10 (nearest (-1 / 20)) (nearest (1 / 10)) :=
  ⟨[], rfl, rfl, rfl, rfl⟩

theorem lostSignal_reaches (model : String) :
    ReachesMemory .plain memoryConfig memoryEnv (lostSignal model) {} :=
  ⟨rfl, rfl, rfl, rfl, rfl⟩

/-- The signal passes, with no history. -/
theorem lostSignal_passes :
    (preReasoningPolicyCheck .plain memoryConfig memoryEnv (.dict (lostSignal "gpt4")) {}).1 =
        .pass (some ⟨.fin 0, .fin 0, 0, none⟩) ∧
      ¬DecidesOnHistory .plain memoryConfig memoryEnv (lostSignal "gpt4") {} losses "EURUSD"
        "bearish_bos" 10 (nearest (-1 / 20)) := by
  have hpass : (preReasoningPolicyCheck .plain memoryConfig memoryEnv (.dict (lostSignal "gpt4")) {}).1 =
      .pass (some ⟨.fin 0, .fin 0, 0, none⟩) := by decide +kernel
  refine ⟨hpass, fun h => ?_⟩
  obtain ⟨expectancy, sampleSize, hveto⟩ := h.veto.2 (by decide +kernel)
  rw [hpass] at hveto
  cases hveto

/-- The history is found where the model has the name of the signal type. -/
theorem lostSignal_decides :
    DecidesOnHistory .plain memoryConfig memoryEnv (lostSignal "bearish_bos") {} losses "EURUSD"
      "bearish_bos" 10 (nearest (-1 / 20)) :=
  (decidesOnHistory_iff .plain memoryConfig memoryEnv (lostSignal "bearish_bos") {} losses "EURUSD"
    "bearish_bos" "bearish_bos" 10 (nearest (-1 / 20)) (nearest (1 / 10)) ⟨rfl, rfl, rfl⟩ rfl (fun _ => rfl)
    memorySettings_default (lostSignal_reaches "bearish_bos")).2 (.inl rfl)

end Orchestrator
