import IctAlgo.Candles.Convert

/-!
# Merging candle files

`TwelveDataMerger` of `scripts/merge_twelvedata_csvs.py` and `merge_candles` of
`scripts/merge_m1_candles.py`. Both keep, of the rows with one timestamp text, the first; the one drops
duplicates before it sorts by time, the other sorts by the text before. The replay file that the first
may write besides and the reports on the console are left out.
-/

set_option autoImplicit false

namespace Candles

open Lib
open Merge (Cells Row readRow readRows deduplicateByKey)

/-- The exceptions of a merge; `sys.exit` is one. -/
inductive MergeError
  | noMatch (pattern : String)
  | noFile (path : String)
  | noInputs
  | noDelimiter (path : String)
  | emptyFile (path : String)
  | missingColumns (path : String)
  | invalidHeader (path : String)
  | invalidDatetime (path : String) (rowNum : ℕ) (text : String)
  | nonNumeric (col path : String) (rowNum : ℕ)
  | noRows
  | extraFields
  | typeError
  | attributeError
  | exit (code : ℕ)
  deriving DecidableEq

/-- The files and directories that a merge reads. -/
structure FileSystem where
  pathExists : String → Bool
  glob : String → List String
  contents : String → CsvFile

/-- The loop over rows that counts those of a text that was seen. -/
def countDuplicates (col : String) (seen : List (Option String)) : List Row → ℕ
  | [] => 0
  | row :: rows =>
    if seen.contains (row.key col) then countDuplicates col seen rows + 1
    else countDuplicates col (row.key col :: seen) rows

/-- The time of a row in seconds, if its timestamp is one. -/
def rowTime? (col : String) (row : Row) : Option ℕ :=
  (row.key col).bind fun text => Strptime.strptime? Strptime.dateTimeFormat text.toList

/-! ## `TwelveDataMerger` -/

section
variable (cc : CellConv) (fs : FileSystem)

/-- The paths of a token of `--inputs`. -/
def expandToken (token : String) : Except MergeError (List String) :=
  if token = "" then .ok []
  else if token.toList.any (['*', '?', '['].contains ·) then
    if (fs.glob token).isEmpty then .error (.noMatch token) else .ok (fs.glob token)
  else if fs.pathExists token then .ok [token]
  else .error (.noFile token)

/-- `expand_inputs`. -/
def expandInputs (inputsArg : String) : Except MergeError (List String) := do
  let tokens := (inputsArg.toList.splitOn ',').map String.ofList
  let expanded ← (tokens.map strip).mapM (expandToken fs)
  if expanded.flatten.isEmpty then throw .noInputs
  return expanded.flatten.dedup.insertionSort (· ≤ ·)

/-- A row with stripped cells; the name of the cells that are too many is `None`, which has no
`strip`. -/
def stripRow (row : Row) : Except MergeError Row :=
  if row.rest.isEmpty then .ok { row with fields := row.fields.mapVals (·.map strip) }
  else .error .attributeError

/-- `float(row[col])` does not raise. -/
def checkPrice (path : String) (rowNum : ℕ) (row : Row) (col : String) : Except MergeError Unit :=
  match row.key col with
  | none => .error .typeError
  | some text => if (cc.floatText text).isSome then .ok () else .error (.nonNumeric col path rowNum)

/-- `datetime.strptime` does not raise. -/
def checkDatetime (path : String) (rowNum : ℕ) (row : Row) : Except MergeError Unit :=
  match row.key "datetime" with
  | none => .error .typeError
  | some text =>
    if (rowTime? "datetime" row).isSome then .ok () else .error (.invalidDatetime path rowNum text)

/-- The body of the loop of `read_file`. -/
def readCandle (path : String) (item : Row × ℕ) : Except MergeError Row := do
  let row ← stripRow item.1
  checkDatetime path item.2 row
  ["open", "high", "low", "close"].forM (checkPrice cc path item.2 row)
  return row

/-- `detect_delimiter`. -/
def fileDelimiter (path : String) : Except MergeError Char :=
  let firstLine := (fs.contents path).firstLine.toList
  if firstLine.contains ';' then .ok ';'
  else if firstLine.contains ',' then .ok ','
  else .error (.noDelimiter path)

/-- `read_file`. -/
def readFile (path : String) : Except MergeError (List Row) := do
  let delimiter ← fileDelimiter fs path
  match (fs.contents path).lines delimiter with
  | [] => throw (.emptyFile path)
  | header :: lines =>
    let fieldnames := header.map strip
    if ["datetime", "open", "high", "low", "close"].all fieldnames.contains then
      ((readRows fieldnames lines).zipIdx 2).mapM (readCandle cc path)
    else throw (.missingColumns path)

/-- What `merge` writes and reports. -/
structure Merged where
  rows : List Row
  rowsReadTotal : ℕ
  duplicatesRemoved : ℕ

/-- `merge`. -/
def mergeTwelvedata (inputsArg : String) : Except MergeError Merged := do
  let inputFiles ← expandInputs fs inputsArg
  let read ← inputFiles.mapM (readFile cc fs)
  let collectedRows := deduplicateByKey "datetime" read.flatten
  let sortedRows := collectedRows.insertionSort fun a b =>
    (rowTime? "datetime" a).getD 0 ≤ (rowTime? "datetime" b).getD 0
  if sortedRows.isEmpty then throw .noRows
  return {
    rows := sortedRows
    rowsReadTotal := (read.map (·.length)).sum
    duplicatesRemoved := countDuplicates "datetime" [] read.flatten }

end

/-! ## `merge_candles` -/

section
variable (fs : FileSystem)

def candleHeader : Cells := ["timestamp", "open", "high", "low", "close", "volume"]

/-- The check of a row; the first cell of a row is there. -/
def checkCandle (path : String) (item : Row × ℕ) : Except MergeError Unit :=
  if (rowTime? "timestamp" item.1).isSome then .ok ()
  else .error (.invalidDatetime path item.2 (tsText "timestamp" item.1))

/-- `validate_candle_csv`. -/
def validateCandleCsv (path : String) : Except MergeError (List Row) :=
  match (fs.contents path).lines ',' with
  | [] => .error (.invalidHeader path)
  | header :: lines => do
    if header = candleHeader then
      let rows := readRows header lines
      (rows.zipIdx 2).forM (checkCandle path)
      return rows
    else throw (.invalidHeader path)

/-- What `merge_candles` writes and reports. -/
structure MergedCandles where
  rows : List Row
  totalInput : ℕ
  duplicates : ℤ

/-- `merge_candles`. The number of rows is kept for each path; a row with too many cells cannot be
written. -/
def mergeCandles (inputPaths : List String) : Except MergeError MergedCandles :=
  match inputPaths.mapM (validateCandleCsv fs) with
  | .error _ => .error (.exit 1)
  | .ok read =>
    let inputCounts := Dict.ofItems (inputPaths.zip (read.map (·.length)))
    let allRows := read.flatten.insertionSort fun a b => tsText "timestamp" a ≤ tsText "timestamp" b
    let dedupedRows := deduplicateByKey "timestamp" allRows
    let totalInput := inputCounts.values.sum
    if dedupedRows.all (·.rest.isEmpty) then
      .ok {
        rows := dedupedRows
        totalInput
        duplicates := totalInput - dedupedRows.length }
    else .error .extraFields

end

end Candles
