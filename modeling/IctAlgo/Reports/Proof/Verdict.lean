import IctAlgo.Reports.Report

/-!
# The governance verdict of a report

`VerdictIsOwn`: the pressure of the report on a recorded trade is the level of the violations that
the governance service finds for the trade itself.

* `generateReport_pressure`: the query of a report has no timestamp, so that the answer is always an
  error report, which counts as one violation.
* `verdictIsOwn_iff`: the verdict is right for the trades with one violation.
-/

set_option autoImplicit false

namespace Reports

open Lib Orchestrator

/-- A trade that the timeline of the correlation id records with its symbol, timeframe and
timestamp. -/
structure RecordedTrade (s : Timelines) (correlationId : String) where
  event : Event
  symbol : Value
  timeframe : Value
  timestamp : Value
  recorded : event ∈ s.getTimeline correlationId
  executed : event.eventType = "TRADE_EXECUTED"
  hasSymbol : event.payload.get? "symbol" = some symbol
  hasTimeframe : event.payload.get? "timeframe" = some timeframe
  hasTimestamp : event.payload.get? "timestamp" = some timestamp

/-- The trade as a query to the governance service. -/
def RecordedTrade.context {s : Timelines} {correlationId : String}
    (t : RecordedTrade s correlationId) : Fields :=
  Dict.ofItems [("symbol", t.symbol), ("timeframe", t.timeframe), ("timestamp", t.timestamp)]

section
variable (tx : Texts) (cv : Conv) (sqrt : ℚ → ℚ) (sv : Services) (now : String)
variable {correlationId : String} (t : RecordedTrade sv.timelines correlationId)

/-- The report gives the level of the trade's own violations. -/
def VerdictIsOwn : Prop :=
  (generateReport tx cv sqrt sv now correlationId).governancePressure =
    pressureOf (sv.governance.evaluateTrade tx cv t.context).violations.length

/-- The trade as the rules see it. -/
def RecordedTrade.trade : Governance.Trade := ⟨t.symbol, t.timeframe, tx.datetime? t.timestamp⟩

/-- The rules can be checked: the timestamp is there, a text is a time, and the end of the cooldown
is in the calendar. -/
def Evaluable : Prop :=
  t.timestamp.truthy = true ∧ (∀ text, t.timestamp = .str text → (tx.datetime? t.timestamp).isSome) ∧
    (sv.governance.cooldownLeft? tx (t.trade tx sv)).isSome = true

/-- The rules that the trade breaks. -/
def brokenRules : List Governance.Rule :=
  Governance.Rule.all.filter (sv.governance.breaks tx cv (t.trade tx sv))

/-! ## The pressure of a report -/

/-- The query of a report is answered by an error report. -/
theorem getGovernanceData_count (correlationId : String) :
    (getGovernanceData tx cv sv.governance correlationId).violationCount = 1 := by
  unfold getGovernanceData Governance.evaluateTrade
  simp [Dict.set, Dict.empty, Dict.setItems, val, Dict.getD, Dict.get?, List.lookup_cons,
    Value.truthy, Governance.createErrorReport]

/-- **Every report says low.** -/
theorem generateReport_pressure (correlationId : String) :
    (generateReport tx cv sqrt sv now correlationId).governancePressure = .low := by
  change pressureOf (getGovernanceData tx cv sv.governance correlationId).violationCount = .low
  rw [getGovernanceData_count]
  rfl

theorem pressureOf_eq_low_iff {n : ℕ} : pressureOf n = .low ↔ n = 1 := by
  unfold pressureOf
  split
  · simp; omega
  · split
    · simp; omega
    · split
      · simp; omega
      · simp; omega

/-! ## The violations of a trade -/

theorem context_fields :
    t.context.getD "symbol" (.str "UNKNOWN") = t.symbol ∧
      t.context.getD "timeframe" (.str "UNKNOWN") = t.timeframe ∧
      val t.context "timestamp" = t.timestamp ∧ t.context.items.isEmpty = false := by
  unfold RecordedTrade.context
  refine ⟨?_, ?_, ?_, rfl⟩
  · simp [Dict.ofItems, Dict.getD, Dict.get?_set]
  · simp [Dict.ofItems, Dict.getD, Dict.get?_set]
  · simp [Dict.ofItems, val]

/-- A trade whose rules can be checked has a violation for each rule it breaks. -/
theorem violations_of_evaluable (h : Evaluable tx sv t) :
    (sv.governance.evaluateTrade tx cv t.context).violations.length =
      (brokenRules tx cv sv t).length := by
  obtain ⟨hsymbol, htimeframe, htimestamp, hitems⟩ := context_fields sv t
  obtain ⟨htruthy, htext, hcooldown⟩ := h
  unfold Governance.evaluateTrade
  simp only [hsymbol, htimeframe, htimestamp, hitems, htruthy, Bool.not_true, Bool.false_eq_true,
    ↓reduceIte]
  split
  · rename_i text hts hnone
    have hsome := htext text hts
    rw [hnone] at hsome
    cases hsome
  · have hsome : (sv.governance.cooldownLeft? tx (t.trade tx sv)).isNone = false := by
      rw [← Option.not_isSome, hcooldown]
      rfl
    change (sv.governance.evaluateRules tx cv (t.trade tx sv)).violations.length = _
    unfold Governance.evaluateRules brokenRules
    simp [hsome]

/-- Another one has the violation of its error report. -/
theorem violations_of_not_evaluable (h : ¬Evaluable tx sv t) :
    (sv.governance.evaluateTrade tx cv t.context).violations.length = 1 := by
  obtain ⟨hsymbol, htimeframe, htimestamp, hitems⟩ := context_fields sv t
  unfold Governance.evaluateTrade
  simp only [hsymbol, htimeframe, htimestamp, hitems, Bool.false_eq_true, ↓reduceIte]
  split
  · rfl
  · rename_i htruthy
    split
    · rfl
    · rename_i hparsed
      change (sv.governance.evaluateRules tx cv (t.trade tx sv)).violations.length = 1
      unfold Governance.evaluateRules
      split
      · rfl
      · rename_i hcooldown
        refine absurd ⟨by simpa using htruthy, ?_, ?_⟩ h
        · intro text hts
          rw [Option.isSome_iff_ne_none]
          exact hparsed text hts
        · rw [Option.isSome_iff_ne_none]
          simpa using hcooldown

/-! ## The right verdicts -/

/-- **The verdict is the trade's own** exactly when the trade breaks one rule, or its rules cannot be
checked. -/
theorem verdictIsOwn_iff :
    VerdictIsOwn tx cv sqrt sv now t ↔
      (Evaluable tx sv t → (brokenRules tx cv sv t).length = 1) := by
  unfold VerdictIsOwn
  rw [generateReport_pressure, eq_comm, pressureOf_eq_low_iff]
  by_cases h : Evaluable tx sv t
  · rw [violations_of_evaluable tx cv sv t h]
    simp [h]
  · rw [violations_of_not_evaluable tx cv sv t h]
    simp [h]

end

/-! ## A trade that breaks no rule -/

/-- Reads the one timestamp of the trade below, which is the 5th of January 2026 at ten. -/
def tenTexts : Texts where
  datetime? v :=
    if v = .str "2026-01-05T10:00:00" then
      some ⟨Calendar.ordinal 2026 1 5 * Datetime.microsPerDay + 600 * Datetime.microsPerMinute, none⟩
    else none
  fixed _ _ := ""
  clock _ := "10:00 "
  display _ := ""

def tenEvent : Event where
  eventType := "TRADE_EXECUTED"
  timestamp := "2026-01-05T10:00:01+00:00"
  payload := Dict.ofItems [("symbol", .str "EURUSD"), ("timeframe", .str "1H"),
    ("timestamp", .str "2026-01-05T10:00:00")]
  correlationId := "trade-1"
  sequenceNumber := 0

/-- The services with the default rules and no outcome. -/
def tenServices : Services where
  timelines := { timelines := Dict.ofItems [("trade-1", [tenEvent])], eventCount := 1 }

def tenTrade : RecordedTrade tenServices.timelines "trade-1" where
  event := tenEvent
  symbol := .str "EURUSD"
  timeframe := .str "1H"
  timestamp := .str "2026-01-05T10:00:00"
  recorded := by simp [Timelines.getTimeline, tenServices, Dict.ofItems]
  executed := rfl
  hasSymbol := by simp [tenEvent, Dict.ofItems, Dict.get?_set]
  hasTimeframe := by simp [tenEvent, Dict.ofItems, Dict.get?_set]
  hasTimestamp := by simp [tenEvent, Dict.ofItems]

/-- The trade breaks no rule, and its report says low. -/
theorem tenTrade_misjudged : ¬VerdictIsOwn tenTexts Conv.plain id tenServices "" tenTrade := by
  unfold VerdictIsOwn
  rw [generateReport_pressure]
  decide +kernel

end Reports
