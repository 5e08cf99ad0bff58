import IctAlgo.Reports.Archive

/-!
# Archive and memory on the same reports

`TrendsAgree`: the memory counts the confidence and the pressure of every report, and its confidence
statistics are those of the archive before the rounding.

* `memory_confidence_count`: the memory counts the confidences of at most one of a hundred.
* `memory_pressure_count`: it counts no pressure, as it looks for numbers.
* `not_trendsAgree`: the two agree on no batch.
-/

set_option autoImplicit false

namespace Reports

open Lib Orchestrator

/-! ## Reports in the archive and in the memory -/

/-- The archive of a batch of reports. -/
def archiveOf (reports : List Report) : Archive :=
  archiveBatch [] (reports.map fun r => .dict r.toFields)

/-- The memory that was loaded from it. -/
def memoryOf (reports : List Report) : Memory :=
  Memory.loadFromArchive {} (fetchAll (archiveOf reports))

structure TrendsAgree (reports : List Report) : Prop where
  counted : (memoryOf reports).computeTrends.confidence.count = reports.length
  average : ∃ x, (memoryOf reports).computeTrends.confidence.avg = some x ∧
    (archiveOf reports).computeTrends.averageConfidence = round2 x
  minimum : ∃ x, (memoryOf reports).computeTrends.confidence.min = some x ∧
    (archiveOf reports).computeTrends.confidenceMin = round2 x
  maximum : ∃ x, (memoryOf reports).computeTrends.confidence.max = some x ∧
    (archiveOf reports).computeTrends.confidenceMax = round2 x
  governance : (memoryOf reports).computeTrends.governancePressure.count = reports.length

/-! ## The fields of a report -/

theorem toFields_correlationId (r : Report) :
    r.toFields.get? "correlation_id" = some (.str r.correlationId) := by
  simp [Report.toFields, Dict.ofItems, Dict.get?_set]

theorem toFields_confidence (r : Report) :
    r.toFields.get? "confidence_score" = some (.float (.fin r.confidenceScore)) := by
  simp [Report.toFields, Dict.ofItems, Dict.get?_set]

theorem toFields_pressure (r : Report) :
    r.toFields.get? "governance_pressure" = some (.str r.governancePressure.text) := by
  simp [Report.toFields, Dict.ofItems, Dict.get?_set]

theorem val_of_get? {d : Fields} {key : String} {v : Value} (h : d.get? key = some v) :
    val d key = v := by
  rw [val, Dict.getD, h, Option.getD_some]

/-- Every report is archived. -/
theorem archiveBatch_reports (archive : Archive) (reports : List Report) :
    archiveBatch archive (reports.map fun r => .dict r.toFields) =
      archive ++ reports.map Report.toFields := by
  unfold archiveBatch
  induction reports generalizing archive with
  | nil => simp
  | cons r rs ih =>
    have hid : (r.toFields.get? "correlation_id").isSome = true := by rw [toFields_correlationId]; rfl
    rw [List.map_cons, List.foldl_cons, ih, archiveReport, if_pos hid]
    simp

theorem cachedReports_memoryOf (reports : List Report) :
    (memoryOf reports).cachedReports = reports.map Report.toFields := by
  change archiveOf reports = _
  rw [archiveOf, archiveBatch_reports, List.nil_append]

/-! ## What the memory counts -/

theorem computeStatistics_count (xs : List PyFloat) : (computeStatistics xs).count = xs.length := by
  cases xs with
  | nil => rfl
  | cons x xs => rfl

/-- The values of the memory's confidence statistics: of a percentage, those up to one. -/
theorem memory_confidences (reports : List Report) :
    ((memoryOf reports).cachedReports.filterMap fun r => unitInterval? (val r "confidence_score")) =
      (reports.filter (·.confidenceScore ≤ 1)).map fun r => .fin r.confidenceScore := by
  rw [cachedReports_memoryOf, List.filterMap_map]
  induction reports with
  | nil => rfl
  | cons r rs ih =>
    have hvalue : unitInterval? (val r.toFields "confidence_score") =
        if r.confidenceScore ≤ 1 then some (.fin r.confidenceScore) else none := by
      rw [val_of_get? (toFields_confidence r)]
      simp [unitInterval?, Value.num?, Option.filter, PyFloat.le, r.bounds.1]
    rw [List.filterMap_cons, List.filter_cons, Function.comp_apply, hvalue]
    by_cases h : r.confidenceScore ≤ 1
    · simp only [h, ↓reduceIte, decide_true, List.map_cons]
      rw [ih]
    · simp only [h, ↓reduceIte, decide_false, Bool.false_eq_true]
      rw [ih]

/-- **The memory counts a confidence of at most one.** -/
theorem memory_confidence_count (reports : List Report) :
    (memoryOf reports).computeTrends.confidence.count =
      reports.countP (·.confidenceScore ≤ 1) := by
  change (computeStatistics _).count = _
  rw [computeStatistics_count, memory_confidences, List.length_map, List.countP_eq_length_filter]

/-- **The memory counts no pressure.** -/
theorem memory_pressure_count (reports : List Report) :
    (memoryOf reports).computeTrends.governancePressure.count = 0 := by
  change (computeStatistics _).count = _
  have hnone : ∀ r : Report, unitInterval? (val r.toFields "governance_pressure") = none := by
    intro r
    rw [val_of_get? (toFields_pressure r)]
    rfl
  rw [computeStatistics_count, cachedReports_memoryOf, List.length_eq_zero_iff,
    List.filterMap_eq_nil_iff]
  intro d hd
  obtain ⟨r, -, rfl⟩ := List.mem_map.1 hd
  exact hnone r

/-! ## No batch -/

/-- **The two agree on no batch of reports.** Some report's pressure is not counted, or there is no
report, when the memory has no average for the archive's zero. -/
theorem not_trendsAgree (reports : List Report) : ¬TrendsAgree reports := by
  intro h
  have hgovernance := h.governance
  rw [memory_pressure_count] at hgovernance
  obtain rfl := List.length_eq_zero_iff.1 hgovernance.symm
  obtain ⟨x, hx, -⟩ := h.average
  cases hx

/-- Two reports with the confidences 85 and 90 and no pressure. -/
def twoReports : List Report :=
  [⟨"trade-1", 85, .none, .fin 0, [], "", "2026-01-01T00:00:00+00:00", "", by norm_num⟩,
    ⟨"trade-2", 90, .none, .fin 0, [], "", "2026-01-01T00:00:00+00:00", "", by norm_num⟩]

/-- The memory counts neither of the two confidences. -/
theorem twoReports_uncounted : ¬TrendsAgree twoReports := by
  intro h
  have hcounted := h.counted
  rw [memory_confidence_count] at hcounted
  exact absurd hcounted (by decide +kernel)

end Reports
