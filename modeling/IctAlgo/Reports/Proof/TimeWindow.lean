import IctAlgo.Lib.Filters
import IctAlgo.Reports.Offline
import IctAlgo.Reports.Proof.Trends

/-!
# The reports of a time window

`SelectsWindow`: the trends in a window are those of the reports evaluated in it, and these are the
reports that the offline evaluation looks at. The memory looks at the `timestamp` of a report, which
the report service does not write, and takes all reports where it finds none in the window.

* `computeTrendsIn_eq`: the trends are those of the reports that the filter leaves.
* `selectsWindow_iff`: the archives for which the filter leaves the right ones.
* `stamped_reports_iff`: of the report service's reports none may be outside the window.
-/

set_option autoImplicit false

namespace Reports

open Lib Orchestrator

/-! ## Windows -/

/-- A window with a start and an end, both of them times. -/
structure TimedWindow (tx : Texts) extends Window where
  startAt : Datetime
  stopAt : Datetime
  given : start ≠ "" ∧ stop ≠ ""
  times : tx.datetime? (.str start) = some startAt ∧ tx.datetime? (.str stop) = some stopAt

section
variable {tx : Texts} (w : TimedWindow tx) (reports : List Fields)

/-- The report was evaluated in the window. -/
def TimedWindow.holds (report : Fields) : Bool := evaluatedBetween tx w.startAt w.stopAt report

/-- The trends are those of the reports in the window, at which the offline evaluation looks too. -/
structure SelectsWindow : Prop where
  trends : ({ cachedReports := reports } : Memory).computeTrendsIn (some w.toWindow) =
    ({ cachedReports := reports.filter w.holds } : Memory).computeTrendsIn none
  offline : filterByTimeWindow reports (some w.toWindow) =
    filterByWindow tx reports (some w.toWindow)

/-! ## What the filters leave -/

/-- The offline evaluation takes the reports in the window. -/
theorem filterByWindow_timed : filterByWindow tx reports (some w.toWindow) = reports.filter w.holds := by
  obtain ⟨hstart, hstop⟩ := w.given
  obtain ⟨hstartAt, hstopAt⟩ := w.times
  unfold filterByWindow
  congr 1
  funext report
  simp only [inWindow, hstart, hstop, hstartAt, hstopAt, decide_false, Bool.or_false,
    Bool.false_eq_true, ↓reduceIte]
  rfl

theorem filterByTimeWindow_timed : filterByTimeWindow reports (some w.toWindow) =
    if reports.filter (timestampWithin w.toWindow) = [] then reports
    else reports.filter (timestampWithin w.toWindow) := by
  obtain ⟨hstart, hstop⟩ := w.given
  simp [filterByTimeWindow, hstart, hstop]

theorem computeTrends_nil : ({ cachedReports := [] } : Memory).computeTrends = emptyTrends := rfl

/-- **The trends are those of the reports that the filter leaves.** -/
theorem computeTrendsIn_eq (window : Option Window) :
    ({ cachedReports := reports } : Memory).computeTrendsIn window =
      ({ cachedReports := filterByTimeWindow reports window } : Memory).computeTrends := by
  unfold Memory.computeTrendsIn
  cases reports with
  | nil =>
    have hnil : filterByTimeWindow [] window = [] := by
      unfold filterByTimeWindow
      split
      · rfl
      · split <;> rfl
    rw [hnil]
    rfl
  | cons report reports =>
    simp only [List.isEmpty_cons, Bool.false_eq_true, ↓reduceIte, List.isEmpty_iff]
    split
    · rename_i hempty
      rw [hempty, computeTrends_nil]
    · rfl

/-! ## The reports of a window -/

/-- The reports with a timestamp in the window are those evaluated in it; where there are none, all
reports are. -/
def Stamped : Prop :=
  ((∃ r ∈ reports, timestampWithin w.toWindow r) ∧
    ∀ r ∈ reports, timestampWithin w.toWindow r = w.holds r) ∨
  ((∀ r ∈ reports, ¬ timestampWithin w.toWindow r) ∧ ∀ r ∈ reports, w.holds r)

theorem filterByTimeWindow_eq_iff :
    filterByTimeWindow reports (some w.toWindow) = reports.filter w.holds ↔ Stamped w reports := by
  rw [filterByTimeWindow_timed]
  split
  · rename_i hnone
    rw [List.filter_eq_nil_iff] at hnone
    rw [eq_comm, List.filter_eq_self]
    refine ⟨fun h => .inr ⟨hnone, h⟩, fun h => ?_⟩
    rcases h with ⟨⟨r, hr, hin⟩, -⟩ | ⟨-, h⟩
    · exact absurd hin (hnone r hr)
    · exact h
  · rename_i hsome
    obtain ⟨r, hr⟩ := List.exists_mem_of_ne_nil _ hsome
    obtain ⟨hmem, hin⟩ := List.mem_filter.1 hr
    rw [filter_eq_filter_iff]
    refine ⟨fun h => .inl ⟨⟨r, hmem, hin⟩, h⟩, fun h => ?_⟩
    rcases h with ⟨-, h⟩ | ⟨hnone, -⟩
    · exact h
    · exact absurd hin (hnone r hmem)

variable {w reports} in
theorem SelectsWindow.stamped (h : SelectsWindow w reports) : Stamped w reports := by
  rw [← filterByTimeWindow_eq_iff, ← filterByWindow_timed]
  exact h.offline

/-- **The memory selects the reports of a window** exactly when their timestamps do. -/
theorem selectsWindow_iff : SelectsWindow w reports ↔ Stamped w reports := by
  refine ⟨fun h => h.stamped, fun h => ⟨?_, ?_⟩⟩
  · rw [computeTrendsIn_eq, computeTrendsIn_eq, (filterByTimeWindow_eq_iff w reports).2 h]
    rfl
  · rw [filterByWindow_timed]
    exact (filterByTimeWindow_eq_iff w reports).2 h

end

/-! ## Reports of the report service -/

theorem timestampWithin_report (w : Window) (r : Report) : timestampWithin w r.toFields = false := by
  simp [timestampWithin, val, Dict.getD, Report.toFields, Dict.ofItems, Dict.get?_set]

/-- Their window is right only when it leaves none of them out. -/
theorem stamped_reports_iff {tx : Texts} (w : TimedWindow tx) (reports : List Report) :
    Stamped w (reports.map Report.toFields) ↔ ∀ r ∈ reports, w.holds r.toFields := by
  unfold Stamped
  simp [timestampWithin_report]

/-! ## A report of March -/

/-- Reads the bounds of January and the time of the report below. -/
def quarterTexts : Texts where
  datetime? v :=
    if v = .str "2026-01-01T00:00:00+00:00" then
      some ⟨Calendar.ordinal 2026 1 1 * Datetime.microsPerDay, some 0⟩
    else if v = .str "2026-01-31T00:00:00+00:00" then
      some ⟨Calendar.ordinal 2026 1 31 * Datetime.microsPerDay, some 0⟩
    else if v = .str "2026-03-05T00:00:00+00:00" then
      some ⟨Calendar.ordinal 2026 3 5 * Datetime.microsPerDay, some 0⟩
    else none
  fixed _ _ := ""
  clock _ := ""
  display _ := ""

def january : TimedWindow quarterTexts where
  start := "2026-01-01T00:00:00+00:00"
  stop := "2026-01-31T00:00:00+00:00"
  startAt := ⟨Calendar.ordinal 2026 1 1 * Datetime.microsPerDay, some 0⟩
  stopAt := ⟨Calendar.ordinal 2026 1 31 * Datetime.microsPerDay, some 0⟩
  given := by decide
  times := by simp [quarterTexts]

def marchReport : Report where
  correlationId := "trade-1"
  confidenceScore := 50
  governancePressure := .none
  counterfactualRegret := .fin 0
  riskFlags := []
  explanation := ""
  evaluatedAt := "2026-03-05T00:00:00+00:00"
  disclaimer := ""
  bounds := by norm_num

/-- It is among the reports of January. -/
theorem marchReport_selected : ¬ SelectsWindow january [marchReport.toFields] := by
  intro h
  have hholds := (stamped_reports_iff january [marchReport]).1 h.stamped marchReport
    (List.mem_singleton.2 rfl)
  revert hholds
  decide +kernel

end Reports
