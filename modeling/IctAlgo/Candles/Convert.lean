import IctAlgo.Lib.PyVal
import IctAlgo.Lib.Strftime
import IctAlgo.Merge.Chunks

/-!
# Replay files

`TwelveDataConverter` of `scripts/convert_twelvedata_to_replay_csv.py`. A file is its first line, and
its lines of cells as `csv.reader` reads them with a delimiter. What `float` reads from a text and its
lower case are a parameter (`CellConv`).
-/

set_option autoImplicit false

namespace Candles

open Lib
open Merge (Cells Row readRows)

structure CellConv where
  floatText : String → Option PyFloat
  lower : String → String

/-- ASCII letters and whole numbers only. -/
def CellConv.plain : CellConv where
  floatText text :=
    if text ≠ "" ∧ text.toList.all Char.isDigit then
      some (.fin (Nat.ofDigitChars 10 text.toList 0 : ℕ))
    else none
  lower := String.toLower

structure CsvFile where
  firstLine : String
  lines : Char → List Cells

/-- The exceptions of a conversion; all but the last three are a `ValueError`. -/
inductive ConvertError
  | emptyFile
  | noDelimiter (line : String)
  | noHeader
  | noDatetimeColumn (available : Cells)
  | missingColumn (required : String) (available : Cells)
  | emptyDatetime (rowNum : ℕ)
  | emptyCell (col : String) (rowNum : ℕ)
  | nonNumeric (col val : String) (rowNum : ℕ)
  | noRows
  | duplicateTimestamps (texts : List String)
  | conversion (text : String)
  | typeError
  | attributeError
  | overflowError
  deriving DecidableEq

/-! ## Loading -/

/-- `text.strip()`. -/
def strip (text : String) : String := String.ofList (Strptime.strip text.toList)

def requiredCols : List String := ["open", "high", "low", "close"]

def timestampCols : List String := ["datetime", "timestamp", "time"]

/-- `detect_delimiter`. -/
def detectDelimiter (firstLine : String) : Except ConvertError Char :=
  let semicolonCount := firstLine.toList.count ';'
  let commaCount := firstLine.toList.count ','
  if firstLine = "" then .error .emptyFile
  else if commaCount < semicolonCount then .ok ';'
  else if 0 < commaCount then .ok ','
  else .error (.noDelimiter firstLine)

/-- What `validate_and_load` returns, and the header it keeps. -/
structure Loaded where
  headers : Cells
  dtCol : String
  rows : List Row

section
variable (cc : CellConv)

/-- `available_lower`. -/
def availableLower (headers : Cells) : Dict String String :=
  Dict.ofItems (headers.map fun h => (strip (cc.lower h), h))

/-- The checks of a number of a row; `None` has no `strip`. -/
def checkNumber (available : Dict String String) (row : Row) (rowNum : ℕ) (col : String) :
    Except ConvertError Unit :=
  match row.key (available.getD col col) with
  | none => .error .attributeError
  | some text =>
    if strip text = "" then .error (.emptyCell col rowNum)
    else if (cc.floatText (strip text)).isSome then .ok ()
    else .error (.nonNumeric col (strip text) rowNum)

/-- The checks of a row. -/
def checkRow (headers : Cells) (dtCol : String) (item : Row × ℕ) : Except ConvertError Unit :=
  match item.1.key dtCol with
  | none => .error .attributeError
  | some text =>
    if strip text = "" then .error (.emptyDatetime item.2)
    else requiredCols.forM (checkNumber cc (availableLower cc headers) item.1 item.2)

def checkHeader (headers : Cells) (required : String) : Except ConvertError Unit :=
  if ((availableLower cc headers).get? required).isSome then .ok ()
  else .error (.missingColumn required headers)

/-- `validate_and_load`. -/
def validateAndLoad (file : CsvFile) : Except ConvertError Loaded := do
  let delimiter ← detectDelimiter file.firstLine
  match file.lines delimiter with
  | [] | [] :: _ => throw .noHeader
  | headers :: lines =>
    match headers.find? fun col => timestampCols.contains (strip (cc.lower col)) with
    | none => throw (.noDatetimeColumn headers)
    | some dtCol =>
      requiredCols.forM (checkHeader cc headers)
      let rows := readRows headers lines
      (rows.zipIdx 2).forM (checkRow cc headers dtCol)
      if rows.isEmpty then throw .noRows
      return { headers, dtCol, rows }

/-! ## Timestamps -/

open Strptime in
/-- The formats of `normalize_timestamp`: `%Y-%m-%d %H:%M:%S`, `%Y-%m-%dT%H:%M:%SZ` and
`%Y-%m-%dT%H:%M:%S`. -/
def timestampFormats : List (List Item) :=
  let date := [.field .year, .char '-', .field .month, .char '-', .field .day]
  let time := [.field .hour, .char ':', .field .minute, .char ':', .field .second]
  [dateTimeFormat, date ++ [.char 'T'] ++ time ++ [.char 'Z'], date ++ [.char 'T'] ++ time]

/-- The time that `normalize_timestamp` reads. -/
def readTimestamp? (tsStr : String) : Option Strptime.Fields :=
  timestampFormats.findSome? fun format => Strptime.datetime? format (strip tsStr).toList

/-- `normalize_timestamp`. -/
def normalizeTimestamp (tsStr : String) : Except ConvertError String :=
  match readTimestamp? tsStr with
  | some dt => .ok dt.text
  | none => .error (.conversion (strip tsStr))

/-- The timestamp of a row that is loaded, which has one. -/
def tsText (dtCol : String) (row : Row) : String := (row.key dtCol).getD ""

/-- The texts that occur again, after those of `seen`. -/
def duplicatesFrom (seen : List String) : List String → List String
  | [] => []
  | ts :: tss => if ts ∈ seen then ts :: duplicatesFrom seen tss else duplicatesFrom (ts :: seen) tss

/-- `detect_duplicate_timestamps`. -/
def detectDuplicateTimestamps (dtCol : String) (rows : List Row) : List String :=
  duplicatesFrom [] (rows.map fun row => strip (tsText dtCol row))

structure Gap where
  fromTs : String
  toTs : String
  candlesMissing : ℕ
  deriving DecidableEq

/-- The seconds before the end of the year 9999. -/
def endOfTime : ℕ := 3652059 * 86400

/-- A normalized timestamp in seconds. -/
def parseTs (ts : String) : Except ConvertError ℕ :=
  match Strptime.strptime? Strptime.dateTimeFormat ts.toList with
  | some t => .ok t
  | none => .error (.conversion ts)

/-- `detect_gaps`. -/
def detectGaps (intervalMinutes : ℕ) : List String → Except ConvertError (List Gap)
  | [] | [_] => .ok []
  | ts :: ts' :: tss => do
    let current ← parseTs ts
    let nextTs ← parseTs ts'
    let expectedNext := current + intervalMinutes * 60
    if endOfTime ≤ expectedNext then throw .overflowError
    let gaps ← detectGaps intervalMinutes (ts' :: tss)
    if expectedNext < nextTs then
      let minutesGap := (nextTs - expectedNext) / 60
      return ⟨ts, ts', minutesGap / intervalMinutes⟩ :: gaps
    else
      return gaps

/-! ## The conversion -/

/-- A row of the output. -/
structure ReplayRow where
  timestamp : String
  openPrice : PyFloat
  high : PyFloat
  low : PyFloat
  close : PyFloat
  volume : PyFloat
  deriving DecidableEq

/-- `float(row.get(col))`; a cell that is missing is `None`. -/
def floatCell (row : Row) (col : String) : Except ConvertError PyFloat :=
  match row.key col with
  | none => .error .typeError
  | some text =>
    match cc.floatText text with
    | some x => .ok x
    | none => .error (.conversion text)

variable (defaultVolume : PyFloat)

def volumeCell (headers : Cells) (row : Row) : Except ConvertError PyFloat :=
  match (availableLower cc headers).get? "volume" with
  | some col => floatCell cc row col
  | none => .ok defaultVolume

/-- The body of the loop over the rows. -/
def convertRow (headers : Cells) (dtCol : String) (row : Row) : Except ConvertError ReplayRow := do
  let available := availableLower cc headers
  let timestamp ← normalizeTimestamp (tsText dtCol row)
  let openPrice ← floatCell cc row (available.getD "open" "open")
  let high ← floatCell cc row (available.getD "high" "high")
  let low ← floatCell cc row (available.getD "low" "low")
  let close ← floatCell cc row (available.getD "close" "close")
  let volume ← volumeCell cc defaultVolume headers row
  return { timestamp, openPrice, high, low, close, volume }

/-- The rows that are written, and what the audit reports. -/
structure Conversion where
  rows : List ReplayRow
  gaps : List Gap
  sortingApplied : Bool
  volumeInjected : Bool

/-- `convert`; an exception leaves no output. -/
def convert (file : CsvFile) : Except ConvertError Conversion := do
  let loaded ← validateAndLoad cc file
  let duplicates := detectDuplicateTimestamps loaded.dtCol loaded.rows
  if duplicates ≠ [] then throw (.duplicateTimestamps duplicates)
  let converted ← loaded.rows.mapM (convertRow cc defaultVolume loaded.headers loaded.dtCol)
  let sortedConverted := converted.insertionSort fun a b => a.timestamp ≤ b.timestamp
  let gaps ← detectGaps 5 (sortedConverted.map (·.timestamp))
  return {
    rows := sortedConverted
    gaps
    sortingApplied := sortedConverted ≠ converted
    volumeInjected := ((availableLower cc loaded.headers).get? "volume").isNone }

end

end Candles
