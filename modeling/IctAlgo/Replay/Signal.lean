import Mathlib.Data.List.Sort
import Mathlib.Algebra.Order.Ring.Rat
import IctAlgo.Lib.Dict

/-!
# Replay signals

`SignalLoader.load_jsonl` of `backtest_replay/signal_loader.py`: one JSON record a line, blank lines
skipped, the signals sorted by timestamp. A line that does not parse makes the whole load fail.
Times are seconds, prices rationals.
-/

set_option autoImplicit false

namespace Replay

open Lib

/-- What `json.loads` returns. A number and a list come with their `str`. -/
inductive JsonValue
  | null
  | bool (b : Bool)
  | number (value : ℚ) (text : String)
  | string (s : String)
  | array (text : String)
  | object (fields : List (String × JsonValue)) (text : String)

/-- `str(value)`. -/
def JsonValue.toText : JsonValue → String
  | .null => "None"
  | .bool b => if b then "True" else "False"
  | .number _ text => text
  | .string s => s
  | .array text => text
  | .object _ text => text

/-- What ends a load: a `FileNotFoundError`, a `ValueError` with its text, or an exception the
loader does not catch. -/
inductive LoadError
  | fileNotFound (path : String)
  | valueError (text : String)
  | typeError
  | attributeError
  deriving DecidableEq

/-- The functions of the standard library that read text. An error is the `str` of the
`ValueError` they raise. -/
structure Parsers where
  strip : String → String
  loads : String → Except String JsonValue
  strptime : String → String → Except String ℚ
  float : String → Except String ℚ

/-- `ReplaySignal`, as the loader builds it. -/
structure ReplaySignal where
  signalId : String
  timestamp : ℚ
  symbol : String
  timeframe : String
  direction : String
  signalType : String
  entry : ℚ
  sl : ℚ
  tp : ℚ
  session : JsonValue
  metaData : JsonValue

namespace Parsers

variable (P : Parsers)

/-- A `ValueError` in line `n`, or another exception as it is. -/
def inLine (n : ℕ) (line : String) : Except String ℚ → Except LoadError ℚ
  | .ok q => .ok q
  | .error e => .error (.valueError s!"Error parsing JSONL line {n}: {e}\nLine: {line}")

/-- `float(value)`. -/
def toFloat (n : ℕ) (line : String) : JsonValue → Except LoadError ℚ
  | .bool b => .ok (if b then 1 else 0)
  | .number q _ => .ok q
  | .string s => inLine n line (P.float s)
  | .null | .array _ | .object _ _ => .error .typeError

/-- `datetime.strptime(ts_str, timestamp_fmt)`. -/
def toTimestamp (fmt : String) (n : ℕ) (line : String) : JsonValue → Except LoadError ℚ
  | .string s => inLine n line (P.strptime s fmt)
  | _ => .error .typeError

/-- The signal of a record. `lower` is needed on ASCII letters only: no other character has one of
the letters of the two directions as its lower case. -/
def parseRecord (fmt : String) (n : ℕ) (line : String) (data : List (String × JsonValue)) :
    Except LoadError ReplaySignal := do
  let get (key : String) (dflt : JsonValue) := (data.lookup key).getD dflt
  let ts ← P.toTimestamp fmt n line (get "timestamp" (.string ""))
  let entry ← P.toFloat n line (get "entry" (.number 0 "0"))
  let sl ← P.toFloat n line (get "sl" (.number 0 "0"))
  let tp ← P.toFloat n line (get "tp" (.number 0 "0"))
  return {
    signalId := (get "signal_id" (.string s!"sig_{n}")).toText
    timestamp := ts
    symbol := (get "symbol" (.string "")).toText
    timeframe := (get "timeframe" (.string "")).toText
    direction := (get "direction" (.string "")).toText.toLower
    signalType := (get "signal_type" (.string "")).toText
    entry, sl, tp
    session := get "session" .null
    metaData := get "meta" (.object [] "\x7b\x7d") }

/-- The body of the loop over the lines: line `n` of the file. -/
def parseLine (fmt : String) (n : ℕ) (line : String) :
    Except LoadError (Option ReplaySignal) :=
  let line := P.strip line
  if line = "" then .ok none
  else match P.loads line with
    | .error e => .error (.valueError s!"Error parsing JSONL line {n}: {e}\nLine: {line}")
    | .ok (.object data _) => some <$> P.parseRecord fmt n line data
    | .ok _ => .error .attributeError

/-- The signals of the lines from line `n` on. -/
def parseLines (fmt : String) : ℕ → List String → Except LoadError (List ReplaySignal)
  | _, [] => .ok []
  | n, line :: lines => do
    let signal ← P.parseLine fmt n line
    let signals ← parseLines fmt (n + 1) lines
    return signal.toList ++ signals

/-- `load_jsonl` of a file with these lines, if it exists. -/
def loadJsonl (path : String) (fmt : String) (file : Option (List String)) :
    Except LoadError (List ReplaySignal) := do
  let some lines := file | .error (.fileNotFound s!"JSONL not found: {path}")
  let signals ← P.parseLines fmt 1 lines
  let signals := signals.insertionSort fun a b => a.timestamp ≤ b.timestamp
  if signals = [] then .error (.valueError "No valid signals loaded from JSONL")
  else return signals

/-! ## Lemmas -/

section
variable {P} {fmt : String}

theorem parseLines_cons {n : ℕ} {line : String} {lines : List String}
    {signals : List ReplaySignal} (h : P.parseLines fmt n (line :: lines) = .ok signals) :
    ∃ signal rest, P.parseLine fmt n line = .ok signal ∧ P.parseLines fmt (n + 1) lines = .ok rest ∧
      signals = signal.toList ++ rest := by
  rcases h1 : P.parseLine fmt n line with _ | signal
  · simp [parseLines, h1, bind, Except.bind] at h
  · rcases h2 : P.parseLines fmt (n + 1) lines with _ | rest
    · simp [parseLines, h1, h2, bind, Except.bind] at h
    · refine ⟨signal, rest, rfl, rfl, ?_⟩
      simpa [parseLines, h1, h2, bind, Except.bind, pure, Except.pure, eq_comm] using h

/-- Line `i` of a file that loads parses, and its signal is among the loaded ones. -/
theorem parseLines_mem {lines : List String} :
    ∀ {n : ℕ} {signals : List ReplaySignal}, P.parseLines fmt n lines = .ok signals →
      ∀ {i : ℕ} {line : String}, lines[i]? = some line →
        ∃ signal, P.parseLine fmt (n + i) line = .ok signal ∧ ∀ s ∈ signal, s ∈ signals := by
  induction lines with
  | nil => intro n signals _ i line hi; simp at hi
  | cons l lines ih =>
    intro n signals h i line hi
    obtain ⟨signal, rest, hl, hrest, rfl⟩ := parseLines_cons h
    cases i with
    | zero =>
      obtain rfl : l = line := by simpa using hi
      refine ⟨signal, hl, fun s hs => List.mem_append_left _ ?_⟩
      simpa using hs
    | succ i =>
      obtain ⟨s, hs, hmem⟩ := ih hrest (i := i) (by simpa using hi)
      rw [Nat.add_right_comm] at hs
      exact ⟨s, hs, fun x hx => List.mem_append_right _ (hmem x hx)⟩

/-- A file that loads exists, and its lines parse into the loaded signals. -/
theorem loadJsonl_ok {path : String} {file : Option (List String)} {signals : List ReplaySignal}
    (h : P.loadJsonl path fmt file = .ok signals) :
    ∃ lines parsed, file = some lines ∧ P.parseLines fmt 1 lines = .ok parsed ∧
      ∀ s, s ∈ signals ↔ s ∈ parsed := by
  rcases file with _ | lines
  · cases h
  · rcases h1 : P.parseLines fmt 1 lines with _ | parsed
    · simp [loadJsonl, h1, bind, Except.bind] at h
    · refine ⟨lines, parsed, rfl, h1, fun s => ?_⟩
      simp only [loadJsonl, h1, bind, Except.bind] at h
      split at h
      · cases h
      · cases h
        exact List.mem_insertionSort _

end

end Parsers

end Replay
