import IctAlgo.Orchestrator.Proof.Accounting
import IctAlgo.Orchestrator.Proof.History
import IctAlgo.Orchestrator.Proof.Recorder

/-!
# The recall of recorded outcomes

`RecallVetoes`: the gate vetoes a snapshot by the recall of outcomes. The rows it recalls come from
`record_trade_outcome`, and it looks at those with a multiple only.

* `recallOf_rows`: what is computed of rows whose outcomes are signs.
* `recalls_book`: over the book of any calls, the gate vetoes by the recall exactly when the latest rows
  of the signal are `Poor`.
-/

set_option autoImplicit false

namespace Recorder

open Lib Lib.Binary64 Orchestrator

/-! ## The recall of the gate -/

/-- The section `outcome_adaptation` is enabled, with this window, sample and these thresholds. -/
def RecallSettings (cv : Conv) (cfg : GateConfig) (windowN minSample : ℤ)
    (expectancy winRate : PyFloat) : Prop :=
  ∃ items suppressIf, cfg.section? "outcome_adaptation" = some items ∧
    (getKey items "enabled" (.bool false)).truthy = true ∧
    cv.int? (getKey items "window_last_n_trades" (.int 50)) = some windowN ∧
    cv.int? (getKey items "min_sample_size" (.int 20)) = some minSample ∧
    getKey items "suppress_if" (.dict []) = .dict suppressIf ∧
    cv.float? (getKey suppressIf "expectancy_r" (.float (nearest (-1 / 20)))) = some expectancy ∧
    cv.float? (getKey suppressIf "win_rate" (.float (nearest (9 / 20)))) = some winRate

/-- No check before the recall stops the snapshot. -/
structure ReachesRecall (cv : Conv) (cfg : GateConfig) (env : GateEnv) (d : Fields) (s : Orch) : Prop
    extends ReachesMemory cv cfg env d s where
  memory : ∀ v, similarity? cv cfg env d ≠ some (.veto v)

/-- The snapshot names a symbol and a signal type, and there is a database. -/
structure Recallable (cfg : GateConfig) (d : Fields) : Prop where
  session : cfg.hasSessionmaker = true
  symbol : (val d "symbol").truthy = true
  signalType : (val d "signal_type").truthy = true

/-- The gate vetoes the snapshot by the recall. -/
def RecallVetoes (cv : Conv) (cfg : GateConfig) (env : GateEnv) (d : Fields) (s : Orch) : Prop :=
  ∃ details, (preReasoningPolicyCheck cv cfg env (.dict d) s).1 =
    .veto (.recalledUnderperformance details)

/-- The rows that the recall for a snapshot asks for. -/
def recallQuery (d : Fields) (windowN : ℤ) : OutcomeQuery where
  symbol := val d "symbol"
  signalType := val d "signal_type"
  limit := windowN
  model := val d "model"
  session := val d "session"
  direction := val d "direction"

/-- The multiples of the rows that have one, as floats. -/
def multiples (rows : List DecisionOutcome) : List PyFloat :=
  rows.filterMap fun o => o.rMultiple.map nearest

/-- The rows that have a multiple, with a profit. -/
def profits (rows : List DecisionOutcome) : ℕ := rows.countP fun o => o.rMultiple.isSome ∧ 0 < o.pnl

/-- There are enough rows with a multiple, and their mean or their share of profits is too low. -/
structure Poor (rows : List DecisionOutcome) (minSample : ℤ) (expectancy winRate : PyFloat) : Prop
    where
  found : rows ≠ []
  enough : minSample ≤ (multiples rows).length
  low : (mean (multiples rows)).lt expectancy = true ∨
    (nearest (profits rows / (multiples rows).length)).lt winRate = true

/-- What is read of the rows with a multiple. -/
def measured (rows : List OutcomeRow) : List (PyFloat × String) :=
  rows.filterMap fun o => o.rMultiple.map fun r => (nearest r, o.outcome.getD "")

theorem measured_multiples (rows : List DecisionOutcome) :
    (measured (rows.map DecisionOutcome.row)).map Prod.fst = multiples rows := by
  unfold measured multiples
  rw [List.map_filterMap, List.filterMap_map]
  refine List.filterMap_congr fun o _ => ?_
  show (o.rMultiple.map _).map _ = _
  rw [Option.map_map]
  rfl

theorem measured_wins {rows : List DecisionOutcome}
    (hlabel : ∀ o ∈ rows, o.outcome.toLower = "win" ↔ 0 < o.pnl) :
    (measured (rows.map DecisionOutcome.row)).countP (fun o => o.2.toLower = "win") =
      profits rows := by
  unfold measured profits
  induction rows with
  | nil => rfl
  | cons o rows ih =>
    have hrows := ih fun o ho => hlabel o (List.mem_cons_of_mem _ ho)
    have ho := hlabel o List.mem_cons_self
    cases hmultiple : o.rMultiple with
    | none =>
      rw [List.map_cons, List.filterMap_cons_none (by simp [DecisionOutcome.row, hmultiple]), hrows,
        List.countP_cons_of_neg (by simp [hmultiple])]
    | some r =>
      rw [List.map_cons, List.filterMap_cons_some (b := (nearest r, o.outcome))
        (by simp [DecisionOutcome.row, hmultiple]), List.countP_cons, List.countP_cons, hrows]
      simp [hmultiple, ho]

theorem recallOf_rows {rows : List DecisionOutcome} (thresholds : PyFloat × PyFloat)
    (hlabel : ∀ o ∈ rows, o.outcome.toLower = "win" ↔ 0 < o.pnl) :
    recallOf (rows.map DecisionOutcome.row) thresholds =
      some ⟨mean (multiples rows), nearest (profits rows / (multiples rows).length),
        (multiples rows).length, some thresholds⟩ := by
  have hall : (rows.map DecisionOutcome.row).all (fun o => o.outcome.isSome) = true := by
    simp [DecisionOutcome.row]
  have hlength : (measured (rows.map DecisionOutcome.row)).length = (multiples rows).length := by
    rw [← measured_multiples, List.length_map]
  unfold recallOf
  rw [hall]
  show (if (measured (rows.map DecisionOutcome.row)).isEmpty then
      some (⟨.fin 0, .fin 0, 0, some thresholds⟩ : Recall)
    else some ⟨mean ((measured (rows.map DecisionOutcome.row)).map Prod.fst),
      nearest ((measured (rows.map DecisionOutcome.row)).countP (fun o => o.2.toLower = "win") /
        (measured (rows.map DecisionOutcome.row)).length),
      (measured (rows.map DecisionOutcome.row)).length, some thresholds⟩) = _
  rw [measured_multiples, measured_wins hlabel, hlength]
  cases hempty : (measured (rows.map DecisionOutcome.row)).isEmpty with
  | false => rfl
  | true =>
    have hnil : multiples rows = [] := by
      rw [← measured_multiples, List.isEmpty_iff.1 hempty]
      rfl
    rw [hnil, mean_nil, List.length_nil, Nat.cast_zero, div_zero, nearest_zero.nearest_eq]
    rfl

section
variable {cv : Conv} {cfg : GateConfig} {env : GateEnv} {d : Fields} {s : Orch}
  {rows : List DecisionOutcome} {windowN minSample : ℤ} {expectancy winRate : PyFloat}

/-- The answer of the recall with these settings. -/
theorem recalled?_eq (hsettings : RecallSettings cv cfg windowN minSample expectancy winRate)
    (hrecall : Recallable cfg d)
    (henv : env.outcomes (recallQuery d windowN) = .ok (rows.map DecisionOutcome.row))
    (hlabel : ∀ o ∈ rows, o.outcome.toLower = "win" ↔ 0 < o.pnl) :
    recalled? cv cfg env d = if rows = [] then none else some (
      ⟨mean (multiples rows), nearest (profits rows / (multiples rows).length),
        (multiples rows).length, some (expectancy, winRate)⟩,
      decide (minSample ≤ (multiples rows).length ∧
        ((mean (multiples rows)).lt expectancy = true ∨
          (nearest (profits rows / (multiples rows).length)).lt winRate = true))) := by
  obtain ⟨items, suppressIf, hitems, henabled, hwindow, hsample, hsuppress, hexpectancy, hrate⟩ :=
    hsettings
  have hguard : ((val d "symbol").truthy && (val d "signal_type").truthy && cfg.hasSessionmaker) =
      true := by
    rw [hrecall.symbol, hrecall.signalType, hrecall.session]
    rfl
  unfold recallQuery at henv
  unfold recalled?
  rw [hitems]
  simp only [Option.bind_eq_bind, Option.bind_some, henabled, hguard, hwindow, hsample, hsuppress,
    hexpectancy, hrate, henv, Except.toOption, guard, if_true, Option.pure_def]
  cases rows with
  | nil => simp
  | cons o rows =>
    rw [recallOf_rows _ hlabel]
    simp

/-- The result of a recall. -/
def recallResult : Option (Recall × Bool) → GateResult
  | some (details, true) => .veto (.recalledUnderperformance details)
  | some (details, false) => .pass (some details)
  | none => .pass (some ⟨.fin 0, .fin 0, 0, none⟩)

theorem recallResult_eq_veto_iff {recalled : Option (Recall × Bool)} {details : Recall} :
    recallResult recalled = .veto (.recalledUnderperformance details) ↔
      recalled = some (details, true) := by
  rcases recalled with _ | ⟨details', _ | _⟩
  · simp [recallResult]
  · simp [recallResult]
  · simp [recallResult]

/-- The check behind the one of the memory. -/
theorem checkOutcomes_recall_iff (hperformance : performanceVeto? cv cfg d = none)
    (hmemory : ∀ v, similarity? cv cfg env d ≠ some (.veto v)) {details : Recall} :
    (checkOutcomes cv cfg env d s).1 = .veto (.recalledUnderperformance details) ↔
      recalled? cv cfg env d = some (details, true) := by
  have hresult : (checkOutcomes cv cfg env d s).1 = recallResult (recalled? cv cfg env d) := by
    unfold checkOutcomes
    rw [hperformance]
    dsimp only
    cases hsimilar : similarity? cv cfg env d with
    | none =>
      simp only [Option.isSome_none, Bool.false_eq_true, if_false]
      rcases recalled? cv cfg env d with _ | ⟨details', _ | _⟩ <;> rfl
    | some similarity =>
      cases similarity with
      | veto v => exact absurd hsimilar (hmemory v)
      | promote =>
        simp only [Option.isSome_some, if_true, recalled?_promoted]
        rcases recalled? cv cfg env d with _ | ⟨details', _ | _⟩ <;> rfl
  rw [hresult, recallResult_eq_veto_iff]

/-- **The recall of the gate.** -/
theorem gate_recallVeto_iff (hreaches : ReachesRecall cv cfg env d s)
    (hsettings : RecallSettings cv cfg windowN minSample expectancy winRate)
    (hrecall : Recallable cfg d)
    (henv : env.outcomes (recallQuery d windowN) = .ok (rows.map DecisionOutcome.row))
    (hlabel : ∀ o ∈ rows, o.outcome.toLower = "win" ↔ 0 < o.pnl) :
    RecallVetoes cv cfg env d s ↔ Poor rows minSample expectancy winRate := by
  unfold RecallVetoes
  rw [preReasoningPolicyCheck_reaches hreaches.toReachesMemory]
  simp only [checkOutcomes_recall_iff hreaches.performance hreaches.memory,
    recalled?_eq hsettings hrecall henv hlabel]
  constructor
  · rintro ⟨details, h⟩
    by_cases hrows : rows = []
    · rw [if_pos hrows] at h
      cases h
    · rw [if_neg hrows] at h
      have hpoor := of_decide_eq_true (congrArg Prod.snd (Option.some.inj h))
      exact ⟨hrows, hpoor.1, hpoor.2⟩
  · intro hpoor
    rw [if_neg hpoor.found]
    exact ⟨_, by rw [decide_eq_true ⟨hpoor.enough, hpoor.low⟩]⟩

end

/-! ## Over a book -/

/-- The gate compares the outcome in lower case, in which it is stored. -/
theorem Records.toLower_iff {c : Call} {r : Row} (h : Records c r) :
    r.outcome.toLower = "win" ↔ 0 < r.pnl := by
  obtain hneg | hzero | hpos := lt_trichotomy r.pnl 0
  · rw [h.loss.2 hneg]
    exact iff_of_false (by decide +kernel) (not_lt.2 hneg.le)
  · rw [h.breakeven.2 hzero]
    exact iff_of_false (by decide +kernel) (by simp [hzero])
  · rw [h.win.2 hpos]
    exact iff_of_true (by decide +kernel) hpos

theorem labels_book (calls : List Call) :
    ∀ o ∈ outcomes (book calls), o.outcome.toLower = "win" ↔ 0 < o.pnl := by
  intro o ho
  obtain ⟨r, hr, rfl⟩ := List.mem_map.1 ho
  obtain ⟨c, hrecords⟩ := exists_records hr
  exact hrecords.toLower_iff

/-- **The recall of a book.** Over the rows that any calls have recorded, the gate vetoes exactly when the
latest ones of the signal are poor. -/
theorem recalls_book (cv : Conv) (cfg : GateConfig) (env : GateEnv) (d : Fields) (s : Orch)
    (calls : List Call) (windowN minSample : ℤ) (expectancy winRate : PyFloat)
    (hsettings : RecallSettings cv cfg windowN minSample expectancy winRate)
    (hrecall : Recallable cfg d) (hreaches : ReachesRecall cv cfg env d s)
    (henv : ∀ q, env.outcomes q =
      .ok ((getOutcomesBySignalType (outcomes (book calls)) q).map DecisionOutcome.row)) :
    RecallVetoes cv cfg env d s ↔
      Poor (mostRecent windowN ((outcomes (book calls)).filter (recallQuery d windowN).selects))
        minSample expectancy winRate := by
  refine gate_recallVeto_iff hreaches hsettings hrecall (henv _) fun o ho => ?_
  exact labels_book calls o (List.mem_of_mem_filter (mem_mostRecent ho))

/-! ## One lost trade -/

/-- A trade that was stopped out. -/
def stopped : Call where
  trade :=
    { decisionId := "d1", symbol := "EURUSD", timeframe := "4H", signalType := "bearish_bos"
      entryPrice := 100, exitPrice := 102, pnl := -20, exitReason := "sl"
      direction := some "short", stopLossPrice := some 102 }
  now := 0
  databaseOk := true

/-- The recall is enabled for a single trade. -/
def recallConfig : GateConfig where
  permissive := false
  constraints := Dict.ofItems [("outcome_adaptation",
    .dict [("enabled", .bool true), ("min_sample_size", .int 1)])]
  hasSessionmaker := true

/-- The environment of a gate whose database is the book. -/
def bookEnv (calls : List Call) : GateEnv :=
  { defaultPolicies .plain 0 with
    outcomes := fun q =>
      .ok ((getOutcomesBySignalType (outcomes (book calls)) q).map DecisionOutcome.row) }

/-- A snapshot of the signal. -/
def sameSignal : Fields :=
  Dict.ofItems [("symbol", .str "EURUSD"), ("signal_type", .str "bearish_bos")]

theorem recallSettings_single :
    RecallSettings .plain recallConfig 50 1 (nearest (-1 / 20)) (nearest (9 / 20)) :=
  ⟨_, _, rfl, rfl, rfl, rfl, rfl, rfl, rfl⟩

theorem sameSignal_recallable : Recallable recallConfig sameSignal := ⟨rfl, rfl, rfl⟩

theorem sameSignal_reaches : ReachesRecall .plain recallConfig (bookEnv [stopped]) sameSignal {} where
  enabled := rfl
  early := rfl
  cooldown := rfl
  exposure := rfl
  performance := rfl
  memory v := by
    have hnone : similarity? .plain recallConfig (bookEnv [stopped]) sameSignal = none := rfl
    rw [hnone]
    exact fun h => (by cases h)

/-- The gate vetoes the signal after the loss. -/
theorem recalls_book_stopped :
    RecallVetoes .plain recallConfig (bookEnv [stopped]) sameSignal {} :=
  (recalls_book .plain recallConfig (bookEnv [stopped]) sameSignal {} [stopped] 50 1 (nearest (-1 / 20))
    (nearest (9 / 20)) recallSettings_single sameSignal_recallable sameSignal_reaches fun _ => rfl).2
    ⟨by decide +kernel, by decide +kernel, .inl (by decide +kernel)⟩

end Recorder
