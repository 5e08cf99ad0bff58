import IctAlgo.Lib.Decimal
import IctAlgo.Lib.Json
import IctAlgo.Merge.Chunks
import IctAlgo.Replay.Tagger

/-!
# Exported signals

`scripts/export_signals_to_jsonl.py`: every `stride`-th candle of a CSV file becomes a signal of a
JSONL file, long and short in turn. Prices are finite, and what `float` reads from a text is a
parameter. `Parsers.standard` are the functions of the standard library that read the file back.
-/

set_option autoImplicit false

namespace Replay

open Lib
open Lib.Decimal (roundTo)
open Merge (Row)

/-! ## Candles -/

/-- A candle, with the keys the exporter reads. -/
structure ExportCandle where
  timestamp : Strptime.Fields
  high : ℚ
  low : ℚ
  close : ℚ
  valid : timestamp.valid = true

/-- Why a row gives no candle: a `ValueError` or a `KeyError`, which skip it, or another exception. -/
inductive RowError
  | malformed
  | raised (e : LoadError)

section
variable (floatText : String → Option ℚ)

/-- `float(row[col])`. -/
def floatCell (row : Row) (col : String) : Except RowError ℚ :=
  match row.fields.get? col with
  | none => .error .malformed
  | some none => .error (.raised .typeError)
  | some (some text) =>
    match floatText text with
    | some q => .ok q
    | none => .error .malformed

/-- The time of a row. -/
def timestampCell (row : Row) : Except RowError { p : Strptime.Fields // p.valid = true } :=
  match row.fields.get? "timestamp" with
  | none => .error .malformed
  | some none => .error (.raised .attributeError)
  | some (some text) =>
    match h : Strptime.datetime? Strptime.dateTimeFormat (Strptime.strip text.toList) with
    | some p => .ok ⟨p, Strptime.valid_of_datetime? h⟩
    | none => .error .malformed

/-- The body of the loop over the rows. -/
def exportCandle (row : Row) : Except RowError ExportCandle := do
  let timestamp ← timestampCell row
  let _open ← floatCell floatText row "open"
  let high ← floatCell floatText row "high"
  let low ← floatCell floatText row "low"
  let close ← floatCell floatText row "close"
  if (row.fields.get? "volume").isSome then
    let _volume ← floatCell floatText row "volume"
  return { timestamp := timestamp.1, high, low, close, valid := timestamp.2 }

/-- The candles of the rows, without the malformed ones. -/
def exportCandles : List Row → Except LoadError (List ExportCandle)
  | [] => .ok []
  | row :: rows =>
    match exportCandle floatText row with
    | .ok candle => (candle :: ·) <$> exportCandles rows
    | .error .malformed => exportCandles rows
    | .error (.raised e) => .error e

/-- `load_candles_csv` of a file with these rows, if it exists. -/
def loadCandlesCsv (path : String) (file : Option (List Row)) : Except LoadError (List ExportCandle) := do
  let some rows := file | .error (.fileNotFound s!"Candles CSV not found: {path}")
  let candles ← exportCandles floatText rows
  if candles = [] then .error (.valueError s!"No valid candles loaded from {path}")
  else return candles.insertionSort fun a b => a.timestamp.instant ≤ b.timestamp.instant

end

/-! ## Signals -/

/-- A signal, with what is not the same in all of them. -/
structure ExportSignal where
  signalId : String
  timestamp : Strptime.Fields
  direction : String
  signalType : String
  entry : ℚ
  sl : ℚ
  tp : ℚ
  session : String
  candleIndex : ℕ

def getSessionFromHour (hour : ℕ) : String :=
  if hour < 8 then "asian" else if 8 ≤ hour ∧ hour < 16 then "london" else "new_york"

/-- `f"{n:03d}"`. -/
def threeDigits (n : ℕ) : String :=
  String.ofList (List.replicate (3 - (Nat.toDigits 10 n).length) '0' ++ Nat.toDigits 10 n)

/-- The variables of the loop over the candles. -/
structure ExportLoop where
  signalCount : ℕ := 0
  lastRisk : ℚ := 0

namespace ExportLoop

variable (l : ExportLoop) (candle : ExportCandle)

def isLong : Bool := l.signalCount % 2 = 0

/-- The risk of a candle: of one without a spread it is the last one. -/
def risk : ℚ :=
  if candle.high - candle.low = 0 then (if l.lastRisk > 0 then l.lastRisk else 1 / 10000)
  else candle.high - candle.low

/-- `float(f"{x:.5f}")` of the levels. -/
def signal (idx : ℕ) : ExportSignal where
  signalId := "syn_" ++ threeDigits (l.signalCount + 1)
  timestamp := candle.timestamp
  direction := if l.isLong then "long" else "short"
  signalType := if l.isLong then "bullish_choch" else "bearish_bos"
  entry := roundTo 5 candle.close
  sl := roundTo 5 (if l.isLong then candle.close - l.risk candle else candle.close + l.risk candle)
  tp := roundTo 5
    (if l.isLong then candle.close + 2 * l.risk candle else candle.close - 2 * l.risk candle)
  session := getSessionFromHour candle.timestamp.hour
  candleIndex := idx

def next : ExportLoop where
  signalCount := l.signalCount + 1
  lastRisk := if candle.high - candle.low = 0 then l.lastRisk else candle.high - candle.low

/-- The loop. -/
def run (maxSignals : ℤ) (l : ExportLoop) : List (ExportCandle × ℕ) → List ExportSignal
  | [] => []
  | (candle, idx) :: sampled =>
    if maxSignals ≤ l.signalCount then []
    else l.signal candle idx :: run maxSignals (l.next candle) sampled

end ExportLoop

/-- The candles at the indices of `range(0, len(candles), stride)`. -/
def sampled (candles : List ExportCandle) (stride : ℤ) : List (ExportCandle × ℕ) :=
  if 0 < stride then candles.zipIdx.filter fun e => (e.2 : ℤ) % stride = 0 else []

def generateSignals (candles : List ExportCandle) (stride maxSignals : ℤ) :
    Except LoadError (List ExportSignal) :=
  if stride = 0 then .error (.valueError "range() arg 3 must not be zero")
  else
    let signals := ExportLoop.run maxSignals {} (sampled candles stride)
    if signals = [] then .error (.valueError
      s!"No signals generated from {candles.length} candles with stride={stride}")
    else .ok signals

/-! ## The file -/

/-- The `repr` of a number with five decimals, which has an exponent if only the last of them is not
zero; no price is as large as `10 ^ 16`, from where on there is one too. -/
def floatRepr (x : ℚ) : List Char :=
  let k := (x * 10 ^ 5).num
  Json.signText (k < 0) ++
    if 0 < k.natAbs ∧ k.natAbs < 10 then Nat.toDigits 10 k.natAbs ++ ['e', '-', '0', '5']
    else Nat.toDigits 10 (k.natAbs / 10 ^ 5) ++
      '.' :: Json.trimZeros (Strptime.pad 5 (k.natAbs % 10 ^ 5))

namespace ExportSignal

variable (s : ExportSignal)

def metaFields : List (String × Json) :=
  [("generated_from_candle_index", .num (.int s.candleIndex)),
    ("generation_method", .str "synthetic_deterministic")]

def fields : List (String × Json) :=
  [("signal_id", .str s.signalId), ("timestamp", .str s.timestamp.text), ("symbol", .str "EURUSD"),
    ("timeframe", .str "1m"), ("direction", .str s.direction), ("signal_type", .str s.signalType),
    ("entry", .num (.float s.entry)), ("sl", .num (.float s.sl)), ("tp", .num (.float s.tp)),
    ("session", .str s.session), ("meta", .obj s.metaFields)]

end ExportSignal

/-- `write_signals_jsonl`. -/
def writeSignalsJsonl (signals : List ExportSignal) : List Char :=
  Json.writeLines floatRepr (signals.map fun s => .obj s.fields)

/-- `main`: the text that is written. -/
def exportSignals (floatText : String → Option ℚ) (path : String) (file : Option (List Row))
    (stride maxSignals : ℤ) : Except LoadError (List Char) := do
  let candles ← loadCandlesCsv floatText path file
  let signals ← generateSignals candles stride maxSignals
  return writeSignalsJsonl signals

/-! ## Reading the file -/

mutual

/-- Every float of the document is a number. -/
def finite : Json → Bool
  | .special _ => false
  | .arr vs => allFinite vs
  | .obj fields => fieldsFinite fields
  | .null | .bool _ | .num _ | .str _ => true

def allFinite : List Json → Bool
  | [] => true
  | v :: vs => finite v && allFinite vs

def fieldsFinite : List (String × Json) → Bool
  | [] => true
  | (_, v) :: fields => finite v && fieldsFinite fields

end

section
variable (str : Json → String)

mutual

/-- What `json.loads` returns for a document whose floats are numbers, with the `str` of the
values. -/
def JsonValue.ofJson : Json → JsonValue
  | .null => .null
  | .bool b => .bool b
  | .num (.int n) => .number n (str (.num (.int n)))
  | .num (.float x) => .number x (str (.num (.float x)))
  | .special _ => .null
  | .str s => .string s
  | .arr vs => .array (str (.arr vs))
  | .obj fields => .object (JsonValue.ofFields fields) (str (.obj fields))

def JsonValue.ofFields : List (String × Json) → List (String × JsonValue)
  | [] => []
  | (k, v) :: fields => (k, JsonValue.ofJson v) :: JsonValue.ofFields fields

end

/-- `%Y-%m-%d %H:%M:%S`, the format of the loader. -/
def timestampFmt : String := "%Y-%m-%d %H:%M:%S"

/-- The functions of the standard library. What they do with other texts, documents and formats, and
what they raise, is that of `P`. -/
def Parsers.standard (P : Parsers) : Parsers where
  strip text := String.ofList (Strptime.strip text.toList)
  loads text :=
    match Json.read text.toList with
    | some v => if finite v then .ok (JsonValue.ofJson str v) else P.loads text
    | none => P.loads text
  strptime text fmt :=
    match Strptime.strptime? Strptime.dateTimeFormat text.toList with
    | some t => if fmt = timestampFmt then .ok t else P.strptime text fmt
    | none => P.strptime text fmt
  float := P.float

end

end Replay
