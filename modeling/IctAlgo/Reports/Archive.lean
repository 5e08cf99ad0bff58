import IctAlgo.Reports.Report

/-!
# Archive and memory

`archive_batch`, `fetch_all` and `compute_trends` of
`reasoner_service/decision_intelligence_archive_service.py`, and `load_from_archive` and
`compute_trends` of `reasoner_service/decision_intelligence_memory_service.py`. Both read a report by
key, with a default for a key that is missing, and skip a value of another type.
-/

set_option autoImplicit false

namespace Reports

open Lib Orchestrator

/-! ## Statistics -/

def sumFloats (xs : List PyFloat) : PyFloat := xs.foldl addFloat (.fin 0)

/-- `x / n`. -/
def divFloat : PyFloat → ℕ → PyFloat
  | .fin q, n => .fin (q / n)
  | x, _ => x

/-- `statistics.mean(xs)`, of some numbers. -/
def meanFloats (xs : List PyFloat) : PyFloat := divFloat (sumFloats xs) xs.length

/-- `min(x, *xs)`. -/
def minFloats (x : PyFloat) (xs : List PyFloat) : PyFloat :=
  xs.foldl (fun m y => if y.lt m then y else m) x

/-- `max(x, *xs)`. -/
def maxFloats (x : PyFloat) (xs : List PyFloat) : PyFloat :=
  xs.foldl (fun m y => if m.lt y then y else m) x

/-! ## The archive -/

/-- The archived reports, in the order in which they came. -/
abbrev Archive := List Fields

/-- `archive_report`. -/
def archiveReport (archive : Archive) : Payload → Archive
  | .dict report => if (report.get? "correlation_id").isSome then archive ++ [report] else archive
  | .other _ => archive

/-- `archive_batch`. -/
def archiveBatch (archive : Archive) (reports : List Payload) : Archive :=
  reports.foldl archiveReport archive

/-- `fetch_all`. -/
def fetchAll (archive : Archive) : List Fields := archive

structure ArchiveTrends where
  totalArchived : ℕ := 0
  averageConfidence : PyFloat := .fin 0
  confidenceMin : PyFloat := .fin 0
  confidenceMax : PyFloat := .fin 0
  governancePressureDistribution : Dict String ℕ :=
    Dict.ofItems [("none", 0), ("low", 0), ("medium", 0), ("high", 0)]

/-- The numbers under `confidence_score`. -/
def confidenceScores (reports : List Fields) : List PyFloat :=
  reports.filterMap fun r => (val r "confidence_score").num?

/-- The loop that counts the pressures; `none` when a pressure cannot be hashed. -/
def countPressures? (counts : Dict String ℕ) : List Fields → Option (Dict String ℕ)
  | [] => some counts
  | r :: rs =>
    let pressure := r.getD "governance_pressure" (.str "none")
    if pressure.hashable then
      match pressure with
      | .str p =>
        match counts.get? p with
        | some n => countPressures? (counts.set p (n + 1)) rs
        | none => countPressures? counts rs
      | _ => countPressures? counts rs
    else none

/-- `compute_trends` of the archive; all zero for an empty archive and when it raises. -/
def Archive.computeTrends (archive : Archive) : ArchiveTrends :=
  match countPressures? ({} : ArchiveTrends).governancePressureDistribution archive with
  | none => {}
  | some pressures =>
    match confidenceScores archive with
    | [] => { totalArchived := archive.length, governancePressureDistribution := pressures }
    | x :: xs =>
      { totalArchived := archive.length
        averageConfidence := round2 (meanFloats (x :: xs))
        confidenceMin := round2 (minFloats x xs)
        confidenceMax := round2 (maxFloats x xs)
        governancePressureDistribution := pressures }

/-! ## The memory -/

/-- `DecisionIntelligenceMemoryService`. -/
structure Memory where
  cachedReports : List Fields := []

/-- `load_from_archive`. -/
def Memory.loadFromArchive (m : Memory) (reports : List Fields) : Memory :=
  { m with cachedReports := reports }

structure Statistics where
  count : ℕ := 0
  avg : Option PyFloat := none
  min : Option PyFloat := none
  max : Option PyFloat := none

/-- `_compute_statistics`, of numbers. -/
def computeStatistics : List PyFloat → Statistics
  | [] => {}
  | x :: xs =>
    { count := xs.length + 1
      avg := some (meanFloats (x :: xs))
      min := some (minFloats x xs)
      max := some (maxFloats x xs) }

structure MemoryTrends where
  reportCount : ℕ
  confidence : Statistics
  governancePressure : Statistics
  riskFlagFrequency : Dict String ℕ
  tradeVolume : Statistics

/-- A number from 0 to 1. -/
def unitInterval? (v : Value) : Option PyFloat :=
  v.num?.filter fun x => (PyFloat.fin 0).le x && x.le (.fin 1)

/-- A number that is not negative. -/
def volume? (v : Value) : Option PyFloat := v.num?.filter ((PyFloat.fin 0).le ·)

/-- The texts among the flags of a report. -/
def flagTexts (r : Fields) : List String :=
  match r.getD "risk_flags" (.list []) with
  | .list flags => flags.filterMap fun
    | .str s => some s
    | _ => none
  | _ => []

/-- `compute_trends` of the memory, over all reports. -/
def Memory.computeTrends (m : Memory) : MemoryTrends where
  reportCount := m.cachedReports.length
  confidence :=
    computeStatistics (m.cachedReports.filterMap fun r => unitInterval? (val r "confidence_score"))
  governancePressure :=
    computeStatistics (m.cachedReports.filterMap fun r => unitInterval? (val r "governance_pressure"))
  riskFlagFrequency := Dict.groupBy id (fun n _ => n + 1) 0 (m.cachedReports.flatMap flagTexts)
  tradeVolume :=
    computeStatistics (m.cachedReports.filterMap fun r => volume? (val r "trade_volume"))

end Reports
