import IctAlgo.Lib.Sorting
import IctAlgo.Replay.Export
import IctAlgo.Replay.Proof.Direction

/-!
# Exported signals are loaded

The file that the exporter writes is read back signal by signal: `floatRepr` denotes a level
(`spells_floatRepr`), a line gives its record (`parseLine_signal`), and the signals are in the order
of their candles (`ordered_run`), so that the sorting of the loader changes nothing.
-/

set_option autoImplicit false

namespace Replay

open Lib
open Lib.Decimal (roundTo roundHalfEven)
open Merge (Row)

/-! ## Levels -/

theorem floatRepr_digits (k : ℤ) : floatRepr (k / 10 ^ 5) = Json.signText (k < 0) ++
    if 0 < k.natAbs ∧ k.natAbs < 10 then Nat.toDigits 10 k.natAbs ++ ['e', '-', '0', '5']
    else Nat.toDigits 10 (k.natAbs / 10 ^ 5) ++
      '.' :: Json.trimZeros (Strptime.pad 5 (k.natAbs % 10 ^ 5)) := by
  have hnum : ((k / 10 ^ 5 : ℚ) * 10 ^ 5).num = k := by
    rw [div_mul_cancel₀ _ (by norm_num)]
    exact Rat.num_intCast k
  unfold floatRepr
  rw [hnum]

theorem isDigit_digitChar : ∀ k < 10, (Nat.digitChar k).isDigit = true := by decide

theorem isDigit_pad {k n : ℕ} : ∀ d ∈ Strptime.pad k n, d.isDigit = true := by
  induction k generalizing n with
  | zero => intro d hd; cases hd
  | succ k ih =>
    intro d hd
    rcases List.mem_append.1 hd with hd | hd
    · exact ih d hd
    · obtain rfl := List.mem_singleton.1 hd
      exact isDigit_digitChar _ (Nat.mod_lt _ (by decide))

theorem isDigit_trimZeros (n : ℕ) : ∀ d ∈ Json.trimZeros (Strptime.pad 5 n), d.isDigit = true := by
  intro d hd
  rcases Json.mem_trimZeros hd with rfl | hd
  · rfl
  · exact isDigit_pad d hd

theorem signOf_mul_natAbs_rat (k : ℤ) : (Json.signOf (k < 0) : ℚ) * (k.natAbs : ℚ) = k := by
  rw [← Int.cast_natCast, ← Int.cast_mul, Json.signOf_mul_natAbs]

/-- The text of a number with five decimals denotes it. -/
theorem literal_floatRepr (k : ℤ) : Json.Literal (floatRepr (k / 10 ^ 5)) (k / 10 ^ 5) := by
  have hsign := signOf_mul_natAbs_rat k
  rw [floatRepr_digits]
  split_ifs with hsmall
  · have hvalue : (Json.signOf (k < 0) : ℚ) * k.natAbs * 10 ^ (-(Json.natOf ['0', '5'] : ℤ)) =
        k / 10 ^ 5 := by
      rw [hsign]
      rfl
    rw [← hvalue]
    have hds : ∀ d ∈ ['0', '5'], d.isDigit = true := by simp
    exact Json.literal_exponent _ _ (by simp) hds
  · have hdigits : (k.natAbs / 10 ^ 5 : ℕ) +
        Json.fractionOf (Json.trimZeros (Strptime.pad 5 (k.natAbs % 10 ^ 5))) =
          (k.natAbs : ℚ) / 10 ^ 5 := by
      have hsplit : (k.natAbs : ℚ) = (k.natAbs / 10 ^ 5 : ℕ) * 10 ^ 5 + (k.natAbs % 10 ^ 5 : ℕ) := by
        exact_mod_cast (Nat.div_add_mod' k.natAbs (10 ^ 5)).symm
      rw [Json.fractionOf_trimZeros, Json.fractionOf_pad, Nat.mod_mod]
      conv_rhs => rw [hsplit]
      field_simp
    have hvalue : (Json.signOf (k < 0) : ℚ) * ((k.natAbs / 10 ^ 5 : ℕ) +
        Json.fractionOf (Json.trimZeros (Strptime.pad 5 (k.natAbs % 10 ^ 5)))) = k / 10 ^ 5 := by
      rw [hdigits, ← mul_div_assoc, hsign]
    rw [← hvalue]
    exact Json.literal_decimal _ _ (Json.trimZeros_ne_nil _) (isDigit_trimZeros _)

theorem literal_roundTo (q : ℚ) : Json.Literal (floatRepr (roundTo 5 q)) (roundTo 5 q) :=
  literal_floatRepr (roundHalfEven (q * 10 ^ 5))

/-! ## Records -/

/-- The lines of a file with this text. -/
def textLines (text : List Char) : List String := (Json.fileLines text).map String.ofList

/-- The levels have five decimals. -/
structure ExportSignal.Rounded (s : ExportSignal) : Prop where
  entry : ∃ q, s.entry = roundTo 5 q
  sl : ∃ q, s.sl = roundTo 5 q
  tp : ∃ q, s.tp = roundTo 5 q
  valid : s.timestamp.valid = true

/-- The signal that is loaded. -/
def ExportSignal.loaded (str : Json → String) (s : ExportSignal) : ReplaySignal where
  signalId := s.signalId
  timestamp := s.timestamp.instant
  symbol := "EURUSD"
  timeframe := "1m"
  direction := s.direction.toLower
  signalType := s.signalType
  entry := s.entry
  sl := s.sl
  tp := s.tp
  session := .string s.session
  metaData := .ofJson str (.obj s.metaFields)

theorem ExportSignal.Rounded.writable {s : ExportSignal} (h : s.Rounded) :
    Json.Writable floatRepr (.obj s.fields) := by
  obtain ⟨⟨entry, hentry⟩, ⟨sl, hsl⟩, ⟨tp, htp⟩, -⟩ := h
  have hlevel {x q : ℚ} (hx : x = roundTo 5 q) : Json.Writable floatRepr (.num (.float x)) := by
    rw [hx]
    exact .float (literal_roundTo q)
  have hmeta : Json.Writable floatRepr (.obj s.metaFields) := by
    refine .obj (by simp [metaFields]) fun f hf => ?_
    simp only [metaFields, List.mem_cons, List.not_mem_nil, or_false] at hf
    rcases hf with rfl | rfl
    · exact .int _
    · exact .str _
  refine .obj (by simp [fields]) fun f hf => ?_
  simp only [fields, List.mem_cons, List.not_mem_nil, or_false] at hf
  rcases hf with rfl | rfl | rfl | rfl | rfl | rfl | rfl | rfl | rfl | rfl | rfl
  · exact .str _
  · exact .str _
  · exact .str _
  · exact .str _
  · exact .str _
  · exact .str _
  · exact hlevel hentry
  · exact hlevel hsl
  · exact hlevel htp
  · exact .str _
  · exact hmeta

section
variable (P : Parsers) (str : Json → String)

theorem strptime_text {p : Strptime.Fields} (h : p.valid = true) :
    (P.standard str).strptime p.text timestampFmt = .ok (p.instant : ℚ) := by
  have hread : Strptime.strptime? Strptime.dateTimeFormat p.text.toList = some p.instant := by
    rw [Strptime.strptime?_eq, Strptime.datetime?_text h]
    rfl
  simp only [Parsers.standard, hread]
  rfl

theorem parseRecord_signal {s : ExportSignal} (h : s.Rounded) (n : ℕ) (line : String) :
    (P.standard str).parseRecord timestampFmt n line (JsonValue.ofFields str s.fields) =
      .ok (s.loaded str) := by
  simp [Parsers.parseRecord, ExportSignal.fields, JsonValue.ofFields, JsonValue.ofJson,
    List.lookup_cons, Parsers.toTimestamp, strptime_text P str h.valid, Parsers.inLine, Parsers.toFloat,
    JsonValue.toText, ExportSignal.loaded, bind, Except.bind, pure, Except.pure]

/-- The line of a signal, as it is read. -/
def signalLine (s : ExportSignal) : String :=
  String.ofList (Json.write floatRepr (.obj s.fields) ++ ['\n'])

theorem parseLine_signal {s : ExportSignal} (h : s.Rounded) (n : ℕ) :
    (P.standard str).parseLine timestampFmt n (signalLine s) = .ok (some (s.loaded str)) := by
  have hstrip : (P.standard str).strip (signalLine s) =
      String.ofList (Json.write floatRepr (.obj s.fields)) := by
    simp only [Parsers.standard, signalLine, String.toList_ofList, Json.strip_write]
  have hne : String.ofList (Json.write floatRepr (.obj s.fields)) ≠ "" := by
    intro heq
    have hnil := congrArg String.toList heq
    rw [String.toList_ofList] at hnil
    exact absurd (congrArg List.length hnil) (Nat.ne_of_gt h.writable.length_pos)
  have hload : (P.standard str).loads (String.ofList (Json.write floatRepr (.obj s.fields))) =
      .ok (.object (JsonValue.ofFields str s.fields) (str (.obj s.fields))) := by
    have hfinite : finite (.obj s.fields) = true := rfl
    simp only [Parsers.standard, String.toList_ofList, Json.read_write h.writable, hfinite, if_pos,
      JsonValue.ofJson]
  simp only [Parsers.parseLine, hstrip, if_neg hne, hload, parseRecord_signal P str h]
  rfl

theorem parseLines_signals {signals : List ExportSignal} (h : ∀ s ∈ signals, s.Rounded) (n : ℕ) :
    (P.standard str).parseLines timestampFmt n (signals.map signalLine) =
      .ok (signals.map (·.loaded str)) := by
  induction signals generalizing n with
  | nil => rfl
  | cons s signals ih =>
    have htail := ih (fun s hs => h s (List.mem_cons_of_mem _ hs)) (n + 1)
    simp only [List.map_cons, Parsers.parseLines, parseLine_signal P str (h s (List.mem_cons_self ..)),
      htail]
    rfl

/-! ## The order of the signals -/

/-- The signals of a run are those of some of its candles, in their order. -/
theorem run_timestamps (maxSignals : ℤ) (l : ExportLoop) (sampled : List (ExportCandle × ℕ)) :
    ((ExportLoop.run maxSignals l sampled).map (·.timestamp)).Sublist
      ((sampled.map Prod.fst).map (·.timestamp)) := by
  induction sampled generalizing l with
  | nil => exact List.Sublist.refl _
  | cons e sampled ih =>
    obtain ⟨candle, idx⟩ := e
    unfold ExportLoop.run
    split
    · exact List.nil_sublist _
    · exact (ih (l.next candle)).cons_cons _

theorem run_rounded (maxSignals : ℤ) (l : ExportLoop) (sampled : List (ExportCandle × ℕ)) :
    ∀ s ∈ ExportLoop.run maxSignals l sampled, s.Rounded := by
  induction sampled generalizing l with
  | nil => intro s hs; cases hs
  | cons e sampled ih =>
    obtain ⟨candle, idx⟩ := e
    intro s hs
    unfold ExportLoop.run at hs
    split at hs
    · cases hs
    · rcases List.mem_cons.1 hs with rfl | hs
      · exact ⟨⟨_, rfl⟩, ⟨_, rfl⟩, ⟨_, rfl⟩, candle.valid⟩
      · exact ih _ s hs

/-- The candles are in the order of their times. -/
def InOrder (candles : List ExportCandle) : Prop :=
  candles.Pairwise fun a b => a.timestamp.instant ≤ b.timestamp.instant

theorem sampled_sublist (candles : List ExportCandle) (stride : ℤ) :
    ((sampled candles stride).map Prod.fst).Sublist candles := by
  unfold sampled
  split
  · have h := (List.filter_sublist (p := fun e => (e.2 : ℤ) % stride = 0) (l := candles.zipIdx)).map
      Prod.fst
    rwa [List.zipIdx_map_fst] at h
  · exact List.nil_sublist _

variable {candles : List ExportCandle} {stride maxSignals : ℤ} {signals : List ExportSignal}

theorem generateSignals_ok (h : generateSignals candles stride maxSignals = .ok signals) :
    signals = ExportLoop.run maxSignals {} (sampled candles stride) ∧ signals ≠ [] := by
  unfold generateSignals at h
  split at h
  · cases h
  · dsimp only at h
    split at h
    · cases h
    · cases h
      exact ⟨rfl, ‹_›⟩

theorem ordered_generateSignals (horder : InOrder candles)
    (h : generateSignals candles stride maxSignals = .ok signals) :
    (signals.map (·.loaded str)).Pairwise fun a b => a.timestamp ≤ b.timestamp := by
  obtain ⟨rfl, -⟩ := generateSignals_ok h
  have hsub := (run_timestamps maxSignals {} (sampled candles stride)).trans
    ((sampled_sublist candles stride).map ExportCandle.timestamp)
  have hcandles : (candles.map (·.timestamp)).Pairwise fun p q => p.instant ≤ q.instant :=
    List.pairwise_map.2 horder
  have hsignals := List.pairwise_map.1 (hcandles.sublist hsub)
  exact List.pairwise_map.2 (hsignals.imp fun hle => Nat.cast_le.2 hle)

theorem loadJsonl_generated (horder : InOrder candles)
    (h : generateSignals candles stride maxSignals = .ok signals) (path : String) :
    (P.standard str).loadJsonl path timestampFmt (some (textLines (writeSignalsJsonl signals))) =
      .ok (signals.map (·.loaded str)) := by
  obtain ⟨hrun, hne⟩ := generateSignals_ok h
  have hrounded : ∀ s ∈ signals, s.Rounded := by
    rw [hrun]
    exact run_rounded _ _ _
  have hlines : textLines (writeSignalsJsonl signals) = signals.map signalLine := by
    unfold textLines writeSignalsJsonl
    rw [Json.fileLines_writeLines, List.map_map, List.map_map]
    · rfl
    · intro v hv
      obtain ⟨s, hs, rfl⟩ := List.mem_map.1 hv
      exact (hrounded s hs).writable
  have hsorted := (ordered_generateSignals str horder h).insertionSort_eq
  have hsome : signals.map (·.loaded str) ≠ [] := by simpa using hne
  rw [hlines]
  simp only [Parsers.loadJsonl, parseLines_signals P str hrounded, bind, Except.bind, hsorted,
    if_neg hsome]
  rfl

end

/-! ## The export -/

section
variable {floatText : String → Option ℚ} {csvPath : String} {file : Option (List Row)}
  {candles : List ExportCandle} {stride maxSignals : ℤ} {text : List Char}

theorem loadCandlesCsv_inOrder (h : loadCandlesCsv floatText csvPath file = .ok candles) :
    InOrder candles := by
  cases file with
  | none => cases h
  | some rows =>
    cases hrows : exportCandles floatText rows with
    | error e => simp [loadCandlesCsv, hrows, bind, Except.bind] at h
    | ok read =>
      simp only [loadCandlesCsv, hrows, bind, Except.bind] at h
      split at h
      · cases h
      · cases h
        exact sortBy_pairwise (fun c : ExportCandle => c.timestamp.instant) read

theorem exportSignals_ok (h : exportSignals floatText csvPath file stride maxSignals = .ok text) :
    ∃ candles signals, loadCandlesCsv floatText csvPath file = .ok candles ∧
      generateSignals candles stride maxSignals = .ok signals ∧ text = writeSignalsJsonl signals := by
  cases hcandles : loadCandlesCsv floatText csvPath file with
  | error e => simp [exportSignals, hcandles, bind, Except.bind] at h
  | ok candles =>
    cases hsignals : generateSignals candles stride maxSignals with
    | error e => simp [exportSignals, hcandles, hsignals, bind, Except.bind] at h
    | ok signals =>
      simp only [exportSignals, hcandles, hsignals, bind, Except.bind] at h
      exact ⟨candles, signals, rfl, hsignals, (Except.ok.inj h).symm⟩

/-- **The exported file is loaded** as the signals that were generated, in their order. -/
theorem exported_loads (P : Parsers) (str : Json → String) (path : String)
    (h : exportSignals floatText csvPath file stride maxSignals = .ok text) :
    ∃ candles signals, loadCandlesCsv floatText csvPath file = .ok candles ∧
      generateSignals candles stride maxSignals = .ok signals ∧
      (P.standard str).loadJsonl path timestampFmt (some (textLines text)) =
        .ok (signals.map fun s : ExportSignal => s.loaded str) := by
  obtain ⟨candles, signals, hcandles, hsignals, rfl⟩ := exportSignals_ok h
  have horder := loadCandlesCsv_inOrder hcandles
  exact ⟨candles, signals, hcandles, hsignals, loadJsonl_generated P str horder hsignals path⟩

end

/-! ## One candle -/

/-- Digits only. -/
def wholePrice (text : String) : Option ℚ :=
  if text ≠ "" ∧ text.toList.all Char.isDigit then some (Nat.ofDigitChars 10 text.toList 0 : ℕ)
  else none

/-- The parsers that take nothing but what the exporter writes. -/
def noOther : Parsers where
  strip text := text
  loads text := .error text
  strptime text _ := .error text
  float text := .error text

def oneBar : List Row :=
  Merge.readRows ["timestamp", "open", "high", "low", "close"]
    [["2026-01-01 18:02:00", "2", "3", "1", "2"]]

theorem oneBar_exports : ∃ text, exportSignals wholePrice "m1.csv" (some oneBar) 240 200 = .ok text := by
  have hok : (exportSignals wholePrice "m1.csv" (some oneBar) 240 200).isOk = true := by
    decide +kernel
  cases h : exportSignals wholePrice "m1.csv" (some oneBar) 240 200 with
  | error e =>
    rw [h] at hok
    cases hok
  | ok text => exact ⟨text, rfl⟩

theorem exported_loads_oneBar :
    ∃ text, exportSignals wholePrice "m1.csv" (some oneBar) 240 200 = .ok text ∧
      ∃ candles signals, loadCandlesCsv wholePrice "m1.csv" (some oneBar) = .ok candles ∧
        generateSignals candles 240 200 = .ok signals ∧
        (noOther.standard fun _ => "").loadJsonl "signals.jsonl" timestampFmt (some (textLines text)) =
          .ok (signals.map fun s : ExportSignal => s.loaded fun _ => "") := by
  obtain ⟨text, h⟩ := oneBar_exports
  exact ⟨text, h, exported_loads noOther (fun _ => "") "signals.jsonl" h⟩

end Replay
