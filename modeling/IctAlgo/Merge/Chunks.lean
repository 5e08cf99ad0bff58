import IctAlgo.Lib.Dict
import IctAlgo.Lib.Sorting
import IctAlgo.Lib.Strptime
import Mathlib.Data.String.Basic

/-!
# Merging chunks of a CSV file

`merge_chunk_csvs` of `scripts/merge_chunk_csvs.py`. A file is its lines of cells as `csv.reader` reads
them: the header, then the rows, which may have fewer or more cells than the header.
-/

set_option autoImplicit false

namespace Merge

open Lib

abbrev Cells := List String

/-- The exceptions of a merge; `sys.exit` is one. -/
inductive MergeError where
  | valueError (message : String)
  | attributeError
  | typeError
  | exit (code : ℕ)
  deriving DecidableEq

/-! ## Rows -/

/-- A row of `csv.DictReader`: a cell that is missing is `None`, those that are too many are under the
key `None`. -/
structure Row where
  fields : Dict String (Option String)
  rest : Cells

def readRow (header cells : Cells) : Row where
  fields := Dict.ofItems (header.zip
    (cells.map some ++ List.replicate (header.length - cells.length) none))
  rest := cells.drop header.length

/-- `row.get(col, "")`. -/
def Row.key (row : Row) (col : String) : Option String := row.fields.getD col (some "")

/-- The line that `csv.DictWriter` writes, with no text for `None`. -/
def Row.written (row : Row) (header : Cells) : Cells :=
  header.map fun col => (row.fields.getD col none).getD ""

/-- The rows of a file, without its blank lines. -/
def readRows (header : Cells) (lines : List Cells) : List Row :=
  (lines.filter (· ≠ [])).map (readRow header)

/-- `load_csv_with_header`. -/
def loadCsvWithHeader : List Cells → Except MergeError (Cells × List Row)
  | [] => .error (.valueError "CSV is empty or has no header")
  | header :: lines => .ok (header, readRows header lines)

/-! ## Duplicates -/

/-- The loop of `deduplicate_by_key`. -/
def deduplicateFrom (col : String) (seen : List (Option String)) : List Row → List Row
  | [] => []
  | row :: rows =>
    if row.key col ∈ seen then deduplicateFrom col seen rows
    else row :: deduplicateFrom col (row.key col :: seen) rows

/-- `deduplicate_by_key`: of the rows with one text in the column, the first. -/
def deduplicateByKey (col : String) (rows : List Row) : List Row := deduplicateFrom col [] rows

/-! ## Times -/

open Strptime in
/-- The formats of `parse_datetime_flexible`: `%Y-%m-%d %H:%M:%S`, `%Y-%m-%dT%H:%M:%SZ` and
`%Y-%m-%d %H:%M`. -/
def formats : List (List Item) :=
  let date := [.field .year, .char '-', .field .month, .char '-', .field .day]
  let time := [.field .hour, .char ':', .field .minute, .char ':', .field .second]
  [date ++ [.blanks] ++ time, date ++ [.char 'T'] ++ time ++ [.char 'Z'],
    date ++ [.blanks, .field .hour, .char ':', .field .minute]]

/-- `parse_datetime_flexible`, in seconds; `none` for a `ValueError`. -/
def parseDatetimeFlexible? (text : String) : Option ℕ :=
  formats.findSome? fun format => Strptime.strptime? format (Strptime.strip text.toList)

example : parseDatetimeFlexible? " 2026-01-05T10:00:07z" =
    parseDatetimeFlexible? "2026-1-5  10:0:7" := by decide +kernel
example : parseDatetimeFlexible? "2026-02-29 10:00" = none := by decide +kernel

/-- A key of `sort_rows_by_datetime`: a time, or the text of what is none behind the last time. -/
inductive SortKey where
  | instant (t : ℕ)
  | text (s : String)
  deriving DecidableEq

/-- `a < b`, which raises for a time and a tuple. -/
def SortKey.lt? : SortKey → SortKey → Option Bool
  | .instant t, .instant u => some (decide (t < u))
  | .text s, .text u => some (decide (s < u))
  | _, _ => none

def sortKey (text : String) : SortKey :=
  match parseDatetimeFlexible? text with
  | some t => .instant t
  | none => .text text

/-- The row with its key; `None` has no `strip`. -/
def keyed (col : String) (row : Row) : Except MergeError (SortKey × Row) :=
  match row.key col with
  | some text => .ok (sortKey text, row)
  | none => .error .attributeError

/-- `sort_rows_by_datetime`: the keys first, then the sort. -/
def sortRowsByDatetime (col : String) (rows : List Row) : Except MergeError (List Row) := do
  let pairs ← rows.mapM (keyed col)
  match sort? (fun a b => a.1.lt? b.1) pairs with
  | some sorted => return sorted.map (·.2)
  | none => throw .typeError

/-! ## The merge -/

/-- The first of the names that is in the header. -/
def datetimeCol? (header : Cells) : Option String :=
  ["datetime", "time", "timestamp"].find? fun col => header.contains col

/-- The rows without duplicates, in order, as they are written; a row with too many cells cannot be
written. -/
def mergeRows (header : Cells) (col : String) (rows : List Row) :
    Except MergeError (List Cells) := do
  let sortedRows ← sortRowsByDatetime col (deduplicateByKey col rows)
  if sortedRows.all (·.rest.isEmpty) then
    return header :: sortedRows.map (·.written header)
  else
    throw (.exit 1)

/-- `merge_chunk_csvs`: the lines of the merged file. -/
def mergeChunkCsvs (inputs : List (List Cells)) : Except MergeError (List Cells) := do
  if inputs.isEmpty then
    throw (.valueError "No input files provided")
  match inputs.mapM loadCsvWithHeader with
  | .error _ => throw (.exit 1)
  | .ok [] => throw (.exit 1)
  | .ok ((header, rows) :: chunks) =>
    if chunks.all (·.1 = header) then
      match datetimeCol? header with
      | some col => mergeRows header col (rows ++ chunks.flatMap (·.2))
      | none => throw (.exit 1)
    else
      throw (.exit 1)

end Merge
