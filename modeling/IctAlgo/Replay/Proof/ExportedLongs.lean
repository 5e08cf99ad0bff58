import IctAlgo.Replay.Proof.Exported

/-!
# Exported longs

The exporter writes `long`, the loader keeps it in lower case and the tagger compares with `LONG`, so
the levels of an exported long are read as those of a short: its stop, below the entry, is touched by
every candle that reaches it from below or lies above it, and its target by every candle that does not
lie above it. A replay of the exported file decides each long at the first candle after it.

* `exported_longs`: with which outcome.
-/

set_option autoImplicit false

namespace Replay

open Lib
open Lib.Decimal (roundTo roundTo_mono)
open Merge (Row)

/-! ## Levels of the longs -/

/-- Stop, entry and target of a long are in this order. -/
def ExportSignal.Ascending (s : ExportSignal) : Prop :=
  s.direction = "long" → s.sl ≤ s.entry ∧ s.entry ≤ s.tp

namespace ExportLoop

variable {l : ExportLoop} {candle : ExportCandle}

theorem risk_nonneg (hlast : 0 ≤ l.lastRisk) (hcandle : candle.low ≤ candle.high) :
    0 ≤ l.risk candle := by
  unfold risk
  split_ifs
  · exact hlast
  · norm_num
  · linarith

theorem next_lastRisk (hlast : 0 ≤ l.lastRisk) (hcandle : candle.low ≤ candle.high) :
    0 ≤ (l.next candle).lastRisk := by
  unfold next
  dsimp only
  split_ifs
  · exact hlast
  · linarith

theorem signal_ascending (hlast : 0 ≤ l.lastRisk) (hcandle : candle.low ≤ candle.high) (idx : ℕ) :
    (l.signal candle idx).Ascending := by
  intro hdir
  have hrisk := risk_nonneg hlast hcandle
  have hlong : l.isLong = true := by
    by_contra hshort
    rw [Bool.not_eq_true] at hshort
    simp [signal, hshort] at hdir
  simp only [signal, hlong, if_true]
  exact ⟨roundTo_mono (by linarith), roundTo_mono (by linarith)⟩

theorem run_ascending (maxSignals : ℤ) {sampled : List (ExportCandle × ℕ)}
    (h : ∀ e ∈ sampled, e.1.low ≤ e.1.high) : ∀ {l : ExportLoop}, 0 ≤ l.lastRisk →
      ∀ s ∈ run maxSignals l sampled, s.Ascending := by
  induction sampled with
  | nil => intro l _ s hs; cases hs
  | cons e sampled ih =>
    intro l hlast s hs
    obtain ⟨candle, idx⟩ := e
    have hcandle : candle.low ≤ candle.high := h (candle, idx) (List.mem_cons_self ..)
    unfold run at hs
    split at hs
    · cases hs
    · rcases List.mem_cons.1 hs with rfl | hs
      · exact signal_ascending hlast hcandle idx
      · exact ih (fun e he => h e (List.mem_cons_of_mem _ he)) (next_lastRisk hlast hcandle) s hs

end ExportLoop

theorem generateSignals_ascending {candles : List ExportCandle} {stride maxSignals : ℤ}
    {signals : List ExportSignal} (hcandles : ∀ c ∈ candles, c.low ≤ c.high)
    (h : generateSignals candles stride maxSignals = .ok signals) : ∀ s ∈ signals, s.Ascending := by
  obtain ⟨rfl, -⟩ := generateSignals_ok h
  refine ExportLoop.run_ascending maxSignals (fun e he => hcandles e.1 ?_) le_rfl
  exact (sampled_sublist candles stride).subset (List.mem_map_of_mem he)

/-! ## Their tags -/

namespace ReplaySignal

variable (s : ReplaySignal)

/-- The first candle after the signal. -/
def next? (candles : List Candle) : Option Candle := candles.find? fun c => s.timestamp < c.timestamp

/-- The variables of the loop at the end, if the first candle after the signal decides: a loss unless
the candle lies below the stop. -/
def settle (t : Scan) (c : Candle) : Scan :=
  if s.sl ≤ c.high then exitAt c (s.excursions c t) s.sl .loss (-1)
  else exitAt c (s.excursions c t) s.tp .win (s.entry - s.tp)

variable {s}

theorem risk_ascending (hdir : s.direction ≠ "LONG") (hsl : s.sl ≤ s.entry) : s.risk = 1 := by
  unfold risk
  rw [if_neg hdir, if_pos (sub_nonpos.2 hsl)]

theorem scan_ascending (hdir : s.direction ≠ "LONG") (hsl : s.sl ≤ s.entry) (htp : s.entry ≤ s.tp)
    (t : Scan) {candles : List Candle} (h : ∀ c ∈ candles, c.low ≤ c.high) :
    s.scan t candles = ((s.next? candles).map (s.settle t)).getD t := by
  induction candles with
  | nil => rfl
  | cons c cs ih =>
    unfold scan next?
    by_cases hlater : c.timestamp ≤ s.timestamp
    · rw [if_pos hlater, List.find?_cons_of_neg (by simpa using hlater)]
      exact ih fun c hc => h c (List.mem_cons_of_mem _ hc)
    · have hfound : (c :: cs).find? (fun c => s.timestamp < c.timestamp) = some c :=
        List.find?_cons_of_pos (by simpa using hlater)
      rw [if_neg hlater, hfound, Option.map_some, Option.getD_some]
      by_cases hstop : s.sl ≤ c.high
      · have hhit : s.slHit c = true := by simp [slHit, hdir, hstop]
        simp only [hhit, settle, if_pos hstop, Bool.true_and, if_true]
        split_ifs <;> rfl
      · have hmiss : s.slHit c = false := by simpa [slHit, hdir] using hstop
        have htarget : s.tpHit c = true := by
          have hrange := h c (List.mem_cons_self ..)
          have hbelow := not_le.1 hstop
          have hle : c.low ≤ s.tp := by linarith
          simp [tpHit, hdir, hle]
        simp only [hmiss, htarget, settle, if_neg hstop, Bool.false_and, Bool.false_eq_true, if_false,
          if_true, if_neg hdir, risk_ascending hdir hsl, div_one]

end ReplaySignal

/-- What the replay says of an exported long. -/
structure DecidedAtNext (s : ReplaySignal) (candles : List Candle) (o : ReplayOutcome) : Prop where
  waits : s.next? (sortCandles candles) = none → o.outcome = .unknown ∧ o.rMultiple = none
  loses : ∀ c, s.next? (sortCandles candles) = some c → s.sl ≤ c.high →
    o.outcome = .loss ∧ o.rMultiple = some (-1) ∧ o.exitPrice = some s.sl ∧
      o.exitTime = some c.timestamp
  wins : ∀ c, s.next? (sortCandles candles) = some c → c.high < s.sl →
    o.outcome = .win ∧ o.rMultiple = some (s.entry - s.tp) ∧ o.exitPrice = some s.tp ∧
      o.exitTime = some c.timestamp
  never_gains : ∀ r, o.rMultiple = some r → r ≤ 0

theorem decidedAtNext_tag {s : ReplaySignal} (hdir : s.direction ≠ "LONG") (hsl : s.sl ≤ s.entry)
    (htp : s.entry ≤ s.tp) {candles : List Candle} (h : ∀ c ∈ candles, c.low ≤ c.high) :
    DecidedAtNext s candles (s.tag (sortCandles candles)) := by
  have hsorted : ∀ c ∈ sortCandles candles, c.low ≤ c.high := fun c hc =>
    h c ((List.mem_insertionSort _).1 hc)
  have hscan := ReplaySignal.scan_ascending hdir hsl htp {} hsorted
  have hnone (hn : s.next? (sortCandles candles) = none) : s.scan {} (sortCandles candles) = {} := by
    rw [hscan, hn]
    rfl
  have hsome {c : Candle} (hc : s.next? (sortCandles candles) = some c) :
      s.scan {} (sortCandles candles) = s.settle {} c := by
    rw [hscan, hc]
    rfl
  have hloss {c : Candle} (hc : s.next? (sortCandles candles) = some c) (hstop : s.sl ≤ c.high) :
      s.scan {} (sortCandles candles) =
        ReplaySignal.exitAt c (s.excursions c {}) s.sl .loss (-1) := by
    rw [hsome hc, ReplaySignal.settle, if_pos hstop]
  have hwin {c : Candle} (hc : s.next? (sortCandles candles) = some c) (hstop : c.high < s.sl) :
      s.scan {} (sortCandles candles) =
        ReplaySignal.exitAt c (s.excursions c {}) s.tp .win (s.entry - s.tp) := by
    rw [hsome hc, ReplaySignal.settle, if_neg (not_le.2 hstop)]
  constructor
  · intro hn
    rw [ReplaySignal.tag, hnone hn]
    exact ⟨rfl, rfl⟩
  · intro c hc hstop
    rw [ReplaySignal.tag, hloss hc hstop]
    exact ⟨rfl, rfl, rfl, rfl⟩
  · intro c hc hstop
    rw [ReplaySignal.tag, hwin hc hstop]
    exact ⟨rfl, rfl, rfl, rfl⟩
  · intro r hr
    cases hn : s.next? (sortCandles candles) with
    | none =>
      rw [ReplaySignal.tag, hnone hn] at hr
      cases hr
    | some c =>
      rcases le_or_gt s.sl c.high with hstop | hstop
      · rw [ReplaySignal.tag, hloss hn hstop] at hr
        obtain rfl : -1 = r := Option.some.inj hr
        norm_num
      · rw [ReplaySignal.tag, hwin hn hstop] at hr
        obtain rfl : s.entry - s.tp = r := Option.some.inj hr
        exact sub_nonpos.2 htp

/-! ## The replay of the exported file -/

section
variable {floatText : String → Option ℚ} {csvPath : String} {file : Option (List Row)}
  {bars : List ExportCandle} {stride maxSignals : ℤ} {text : List Char}

theorem run_direction (maxSignals : ℤ) {l : ExportLoop} {sampled : List (ExportCandle × ℕ)} :
    ∀ s ∈ ExportLoop.run maxSignals l sampled, s.direction = "long" ∨ s.direction = "short" := by
  induction sampled generalizing l with
  | nil => intro s hs; cases hs
  | cons e sampled ih =>
    intro s hs
    obtain ⟨candle, idx⟩ := e
    unfold ExportLoop.run at hs
    split at hs
    · cases hs
    · rcases List.mem_cons.1 hs with rfl | hs
      · cases hlong : l.isLong <;> simp [ExportLoop.signal, hlong]
      · exact ih s hs

theorem loaded_direction (str : Json → String) {s : ExportSignal}
    (h : s.direction = "long" ∨ s.direction = "short") : (s.loaded str).direction = s.direction := by
  have hlower : ("long" : String).toLower = "long" ∧ ("short" : String).toLower = "short" := by
    decide +kernel
  rcases h with h | h
  · exact (congrArg String.toLower h).trans (hlower.1.trans h.symm)
  · exact (congrArg String.toLower h).trans (hlower.2.trans h.symm)

/-- **The replay of an exported file** decides every long at the first candle after it, as a loss if
the candle reaches the stop or lies above it and as a win without a gain if it lies below; no long has
a gain. -/
theorem exported_longs (P : Parsers) (str : Json → String) (args : ReplayArgs) (path : String)
    (hbars : loadCandlesCsv floatText csvPath file = .ok bars) (hrange : ∀ c ∈ bars, c.low ≤ c.high)
    (h : exportSignals floatText csvPath file stride maxSignals = .ok text)
    {candles : List Candle} (hcandles : ∀ c ∈ candles, c.low ≤ c.high)
    {trades : List (ReplaySignal × ReplayOutcome)}
    (hreplay : (P.standard str).replay args path timestampFmt (some (textLines text)) candles =
      .ok trades) :
    ∀ t ∈ trades, t.1.direction = "long" → DecidedAtNext t.1 candles t.2 := by
  obtain ⟨bars', signals, hbars', hsignals, rfl⟩ := exportSignals_ok h
  obtain rfl : bars' = bars := Except.ok.inj (hbars'.symm.trans hbars)
  have hload := loadJsonl_generated P str (loadCandlesCsv_inOrder hbars) hsignals path
  have hascending := generateSignals_ascending hrange hsignals
  rw [replay_eq hload] at hreplay
  obtain rfl := Except.ok.inj hreplay
  intro t ht hlong
  obtain ⟨signal, hsignal, rfl⟩ := List.mem_map.1 ht
  obtain ⟨s, hs, rfl⟩ := List.mem_map.1 (List.mem_of_mem_filter hsignal)
  have hword : s.direction = "long" ∨ s.direction = "short" := by
    rw [(generateSignals_ok hsignals).1] at hs
    exact run_direction maxSignals s hs
  have hdir : s.direction = "long" := (loaded_direction str hword).symm.trans hlong
  obtain ⟨hsl, htp⟩ := hascending s hs hdir
  have hcase : (s.loaded str).direction ≠ "LONG" := by
    rw [hlong]
    decide
  exact decidedAtNext_tag hcase hsl htp hcandles

end

/-- A candle between 1 and 3, a long from 2, and a candle below its stop. -/
theorem exported_longs_oneBar :
    ∃ text trades, exportSignals wholePrice "m1.csv" (some oneBar) 240 200 = .ok text ∧
      (noOther.standard fun _ => "").replay {} "signals.jsonl" timestampFmt (some (textLines text))
        [⟨10 ^ 12, 1 / 2, 1 / 4⟩] = .ok trades ∧
      ∀ t ∈ trades, t.1.direction = "long" → DecidedAtNext t.1 [⟨10 ^ 12, 1 / 2, 1 / 4⟩] t.2 := by
  obtain ⟨text, h⟩ := oneBar_exports
  obtain ⟨bars, signals, hbars, hsignals, htext⟩ := exportSignals_ok h
  have hload := loadJsonl_generated noOther (fun _ => "") (loadCandlesCsv_inOrder hbars) hsignals
    "signals.jsonl"
  have hrange : ∀ c ∈ bars, c.low ≤ c.high := by
    have hall : (loadCandlesCsv wholePrice "m1.csv" (some oneBar)).toOption.all
        (fun bars => bars.all fun c => c.low ≤ c.high) = true := by decide +kernel
    rw [hbars] at hall
    simpa [Except.toOption] using hall
  subst htext
  refine ⟨_, _, h, replay_eq hload _, ?_⟩
  refine exported_longs noOther (fun _ => "") {} "signals.jsonl" hbars hrange h ?_ (replay_eq hload _)
  simp
  norm_num

end Replay
