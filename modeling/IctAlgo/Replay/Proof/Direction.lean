import IctAlgo.Replay.Tagger

/-!
# The direction of a replayed signal

The simulation of a trade: a long ends at the first candle after the signal whose low reaches the
stop or whose high reaches the target, the stop first (`simulateLong`); a short is the long of the
mirror image, all prices negated (`simulate`).

* `tag_long`, `tag_short`: the tagger simulates a long for the direction `LONG`, a short for any
  other one.
* `replay_direction_iff`: the loader writes directions in lower case, so that a replay simulates the
  side of a record exactly when the record is a short.
-/

set_option autoImplicit false

namespace Replay

/-! ## The simulation -/

/-- The side of a trade. -/
inductive Side
  | long | short
  deriving DecidableEq

/-- The word a direction field spells it with. -/
def Side.word : Side → String
  | .long => "long"
  | .short => "short"

def Candle.mirror (c : Candle) : Candle := { c with high := -c.low, low := -c.high }

def ReplayOutcome.mirror (o : ReplayOutcome) : ReplayOutcome :=
  { o with exitPrice := o.exitPrice.map (- ·) }

/-- The largest of the values, if one is positive. -/
def peak (vs : List ℚ) : Option ℚ :=
  let m := vs.foldl max 0
  if m > 0 then some m else none

namespace ReplaySignal

variable (s : ReplaySignal)

def mirror : ReplaySignal := { s with entry := -s.entry, sl := -s.sl, tp := -s.tp }

/-- The risk of a long. -/
def longRisk : ℚ := if s.entry - s.sl ≤ 0 then 1 else s.entry - s.sl

/-- The candle ends a long. -/
def touches (c : Candle) : Bool := c.low ≤ s.sl || c.high ≥ s.tp

def stopped (c : Candle) : Bool := c.low ≤ s.sl

/-- The candles after the signal up to the one that ends the long. -/
def held (candles : List Candle) : List Candle :=
  let after := candles.filter fun c => s.timestamp < c.timestamp
  after.takeWhile (!s.touches ·) ++ (after.find? s.touches).toList

/-- The candle that ends a long. -/
def exit? (candles : List Candle) : Option Candle :=
  (candles.filter fun c => s.timestamp < c.timestamp).find? s.touches

/-- The simulation of a long over candles in the order of time. -/
def simulateLong (candles : List Candle) : ReplayOutcome where
  signalId := s.signalId
  outcome := (s.exit? candles).elim .unknown fun c => if s.stopped c then .loss else .win
  rMultiple := (s.exit? candles).map fun c =>
    if s.stopped c then -1 else (s.tp - s.entry) / s.longRisk
  mae := peak ((s.held candles).map fun c => (s.entry - c.low) / s.longRisk)
  mfe := peak ((s.held candles).map fun c => (c.high - s.entry) / s.longRisk)
  exitPrice := (s.exit? candles).map fun c => if s.stopped c then s.sl else s.tp
  exitTime := (s.exit? candles).map (·.timestamp)

/-- The simulation of a trade. -/
def simulate (side : Side) (candles : List Candle) : ReplayOutcome :=
  match side with
  | .long => s.simulateLong (sortCandles candles)
  | .short => (s.mirror.simulateLong ((sortCandles candles).map Candle.mirror)).mirror

end ReplaySignal

/-! ## A long -/

theorem raise_eq_max (m v : ℚ) : raise m v = max m v := by
  unfold raise
  split <;> rename_i h
  · exact (max_eq_right (le_of_lt h)).symm
  · exact (max_eq_left (not_lt.1 h)).symm

/-- The guard of the update leaves out values that would not raise the maximum. -/
theorem raise_guarded {m d r : ℚ} (hm : 0 ≤ m) (hr : 0 < r) :
    (if 0 < d then raise m (d / r) else m) = max m (d / r) := by
  split <;> rename_i h
  · exact raise_eq_max m _
  · have : d / r ≤ 0 := div_nonpos_of_nonpos_of_nonneg (not_lt.1 h) hr.le
    exact (max_eq_left (this.trans hm)).symm

namespace ReplaySignal

variable {s : ReplaySignal}

theorem longRisk_pos : 0 < s.longRisk := by
  unfold longRisk
  split <;> rename_i h
  · exact one_pos
  · exact not_le.1 h

section
variable (hs : s.direction = "LONG")
include hs

theorem risk_long : s.risk = s.longRisk := by
  simp [risk, longRisk, hs]

theorem excursions_long {t : Scan} (c : Candle) (h1 : 0 ≤ t.mae) (h2 : 0 ≤ t.mfe) :
    s.excursions c t =
      { t with
        mae := max t.mae ((s.entry - c.low) / s.longRisk)
        mfe := max t.mfe ((c.high - s.entry) / s.longRisk) } := by
  have hmae := raise_guarded (d := s.entry - c.low) h1 (longRisk_pos (s := s))
  have hmfe := raise_guarded (d := c.high - s.entry) h2 (longRisk_pos (s := s))
  rw [← hmae, ← hmfe]
  simp [excursions, hs, risk_long hs]

/-- The loop from the state `t`: the maxima go on from those of `t`, and the first candle that
touches a level decides the exit. -/
theorem scan_long (cs : List Candle) : ∀ {t : Scan}, 0 ≤ t.mae → 0 ≤ t.mfe →
    s.scan t cs =
      { mae := ((s.held cs).map fun c => (s.entry - c.low) / s.longRisk).foldl max t.mae
        mfe := ((s.held cs).map fun c => (c.high - s.entry) / s.longRisk).foldl max t.mfe
        exitPrice := (s.exit? cs).elim t.exitPrice
          fun c => some (if s.stopped c then s.sl else s.tp)
        exitTime := (s.exit? cs).elim t.exitTime fun c => some c.timestamp
        rMultiple := (s.exit? cs).elim t.rMultiple
          fun c => some (if s.stopped c then -1 else (s.tp - s.entry) / s.longRisk)
        outcome := (s.exit? cs).elim t.outcome fun c => if s.stopped c then .loss else .win } := by
  induction cs with
  | nil => intro t _ _; rfl
  | cons c cs ih =>
    intro t h1 h2
    by_cases hc : c.timestamp ≤ s.timestamp
    · have hheld : s.held (c :: cs) = s.held cs := by simp [held, not_lt.2 hc]
      have hexit : s.exit? (c :: cs) = s.exit? cs := by simp [exit?, not_lt.2 hc]
      rw [scan, if_pos hc, ih h1 h2, hheld, hexit]
    · have hlt : s.timestamp < c.timestamp := not_le.1 hc
      rw [scan, if_neg hc, excursions_long hs c h1 h2]
      by_cases ht : s.touches c = true
      · have hheld : s.held (c :: cs) = [c] := by simp [held, hlt, ht]
        have hexit : s.exit? (c :: cs) = some c := by simp [exit?, hlt, ht]
        rw [hheld, hexit]
        by_cases hsl : c.low ≤ s.sl
        · simp [slHit, tpHit, stopped, exitAt, hs, hsl]
        · have htp : c.high ≥ s.tp := by simpa [touches, hsl] using ht
          simp [slHit, tpHit, stopped, exitAt, hs, hsl, htp, risk_long hs]
      · have hheld : s.held (c :: cs) = c :: s.held cs := by simp [held, hlt, ht]
        have hexit : s.exit? (c :: cs) = s.exit? cs := by simp [exit?, hlt, ht]
        have hno : ¬c.low ≤ s.sl ∧ ¬c.high ≥ s.tp := by simpa [touches] using ht
        rw [hheld, hexit]
        simp only [slHit, tpHit, hs, hno.1, hno.2]
        exact ih (le_max_of_le_left h1) (le_max_of_le_left h2)

/-- The tagger simulates a long for the direction `LONG`. -/
theorem tag_long (cs : List Candle) : s.tag cs = s.simulateLong cs := by
  rw [tag, scan_long hs cs le_rfl le_rfl]
  cases h : s.exit? cs with
  | none => simp [outcomeOf, simulateLong, peak, h]
  | some c => simp [outcomeOf, simulateLong, peak, h]

end

/-! ## A short -/

/-- The mirror image of a short, as a long. -/
def flip (s : ReplaySignal) : ReplaySignal := { s.mirror with direction := "LONG" }

end ReplaySignal

def Scan.mirror (t : Scan) : Scan := { t with exitPrice := t.exitPrice.map (- ·) }

namespace ReplaySignal

section
variable {s : ReplaySignal} (hs : s.direction ≠ "LONG")
include hs

theorem risk_flip : s.flip.risk = s.risk := by
  simp only [risk, flip, mirror, if_neg hs, ↓reduceIte, neg_sub_neg]

theorem slHit_flip (c : Candle) : s.flip.slHit c.mirror = s.slHit c := by
  simp [slHit, flip, mirror, Candle.mirror, hs]

theorem tpHit_flip (c : Candle) : s.flip.tpHit c.mirror = s.tpHit c := by
  simp [tpHit, flip, mirror, Candle.mirror, hs]

theorem excursions_flip (c : Candle) (t : Scan) :
    s.flip.excursions c.mirror t.mirror = (s.excursions c t).mirror := by
  rw [excursions, excursions, risk_flip hs, if_neg hs]
  simp [flip, mirror, Candle.mirror, Scan.mirror, neg_add_eq_sub]

/-- The loop for a short is the mirror image of the loop for the long. -/
theorem scan_flip (cs : List Candle) : ∀ t : Scan,
    s.flip.scan t.mirror (cs.map Candle.mirror) = (s.scan t cs).mirror := by
  induction cs with
  | nil => intro t; rfl
  | cons c cs ih =>
    intro t
    by_cases hc : c.timestamp ≤ s.timestamp
    · rw [List.map_cons, scan, scan, if_pos hc, if_pos (by exact hc), ih]
    · rw [List.map_cons, scan, scan, if_neg hc, if_neg (by exact hc), slHit_flip hs, tpHit_flip hs,
        excursions_flip hs, risk_flip hs]
      split
      · rfl
      · split
        · rfl
        · split
          · simp [exitAt, Scan.mirror, flip, mirror, neg_add_eq_sub, Candle.mirror]
          · exact ih _

/-- The tagger simulates a short for every direction but `LONG`. -/
theorem tag_short (cs : List Candle) :
    s.tag cs = (s.mirror.simulateLong (cs.map Candle.mirror)).mirror := by
  have hlong : s.mirror.simulateLong (cs.map Candle.mirror) =
      s.flip.outcomeOf (s.scan {} cs).mirror := by
    have h := tag_long (s := s.flip) rfl (cs.map Candle.mirror)
    rw [tag, show ({} : Scan) = Scan.mirror {} from rfl, scan_flip hs] at h
    exact h.symm
  rw [hlong, tag]
  rcases s.scan {} cs with ⟨_, _, _ | _, _, _, _⟩ <;>
    simp [outcomeOf, ReplayOutcome.mirror, Scan.mirror, flip, mirror]

end

/-! ## The replay -/

/-- A candle above all levels: the target of a long, the stop of a short. -/
def above (s : ReplaySignal) : Candle :=
  let price := max (max s.entry s.sl) s.tp + 1
  ⟨s.timestamp + 1, price, price⟩

theorem above_stops (s : ReplaySignal) : s.sl < (above s).low ∧ s.tp < (above s).high := by
  refine ⟨lt_of_le_of_lt ?_ (lt_add_one _), lt_of_le_of_lt ?_ (lt_add_one _)⟩
  · exact (le_max_right _ _).trans (le_max_left _ _)
  · exact le_max_right _ _

theorem simulate_long_above (s : ReplaySignal) : (s.simulate .long [above s]).outcome = .win := by
  obtain ⟨hsl, htp⟩ := above_stops s
  have htime : s.timestamp < (above s).timestamp := lt_add_one _
  have hexit : s.exit? [above s] = some (above s) := by simp [exit?, htime, touches, htp.le]
  have hnot : s.stopped (above s) = false := by simpa [stopped] using hsl
  simp [simulate, simulateLong, sortCandles, hexit, hnot]

theorem simulate_short_above (s : ReplaySignal) : (s.simulate .short [above s]).outcome = .loss := by
  have htime : s.timestamp < (above s).timestamp := lt_add_one _
  have hlow : s.sl ≤ (above s).high := (above_stops s).1.le
  have hstop : s.mirror.stopped (above s).mirror = true := by
    simpa [stopped, mirror, Candle.mirror] using hlow
  have hexit : s.mirror.exit? [(above s).mirror] = some (above s).mirror := by
    have htouch : s.mirror.touches (above s).mirror = true := by
      simp [touches, show decide _ = true from hstop]
    have hlt : s.mirror.timestamp < (above s).mirror.timestamp := htime
    simp [exit?, hlt, htouch]
  simp [simulate, simulateLong, ReplayOutcome.mirror, sortCandles, hexit, hstop]

end ReplaySignal

section
variable {P : Parsers} {args : ReplayArgs} {path fmt : String} {lines : List String}
  {signal : ReplaySignal} {side : Side}

/-- `signal` is the signal of a record of the file whose direction field spells `side`. -/
inductive Record (P : Parsers) (fmt : String) (lines : List String) (side : Side)
    (signal : ReplaySignal) : Prop
  | intro {i : ℕ} {line text word : String} {data : List (String × JsonValue)}
      (hline : lines[i]? = some line) (hne : P.strip line ≠ "")
      (hdata : P.loads (P.strip line) = .ok (.object data text))
      (hword : data.lookup "direction" = some (.string word)) (hspells : word.toLower = side.word)
      (hparse : P.parseRecord fmt (i + 1) (P.strip line) data = .ok signal)

theorem parseRecord_direction {n : ℕ} {line : String} {data : List (String × JsonValue)}
    (h : P.parseRecord fmt n line data = .ok signal) :
    signal.direction = ((data.lookup "direction").getD (.string "")).toText.toLower := by
  simp only [Parsers.parseRecord, bind, Except.bind] at h
  repeat' split at h
  all_goals first | cases h; rfl | cases h

theorem Record.direction (h : Record P fmt lines side signal) : signal.direction = side.word := by
  obtain ⟨_, _, _, hword, hspells, hparse⟩ := h
  rw [parseRecord_direction hparse, hword, ← hspells]
  rfl

theorem Record.mem (h : Record P fmt lines side signal) {signals : List ReplaySignal}
    (hload : P.loadJsonl path fmt (some lines) = .ok signals) : signal ∈ signals := by
  obtain ⟨hline, hne, hdata, _, _, hparse⟩ := h
  obtain ⟨_, parsed, hlines, hok, hmem⟩ := Parsers.loadJsonl_ok hload
  cases hlines
  obtain ⟨s, hs, hin⟩ := Parsers.parseLines_mem hok hline
  rw [Nat.add_comm] at hs
  have hsome : s = some signal := by
    simpa [Parsers.parseLine, hne, hdata, hparse, Functor.map, Except.map, eq_comm] using hs
  exact (hmem signal).2 (hin signal hsome)

/-- In every replay of the file the signal has the outcome of the simulation of `side`. -/
def Simulates (P : Parsers) (args : ReplayArgs) (path fmt : String) (lines : List String)
    (signal : ReplaySignal) (side : Side) : Prop :=
  ∀ candles tagged, P.replay args path fmt (some lines) candles = .ok tagged →
    (signal, signal.simulate side candles) ∈ tagged

/-- The replay pairs the signals that pass the filters with their tags. -/
theorem replay_eq {file : Option (List String)} {signals : List ReplaySignal}
    (hload : P.loadJsonl path fmt file = .ok signals) (candles : List Candle) :
    P.replay args path fmt file candles =
      .ok ((signals.filter args.keeps).map fun s => (s, s.tag (sortCandles candles))) := by
  have hzip := List.zip_map' (f := id) (g := fun s => s.tag (sortCandles candles))
    (l := signals.filter args.keeps)
  simp only [List.map_id, id_eq] at hzip
  rw [Parsers.replay, hload, ← hzip]
  rfl

/-- **A replay simulates the side of a record** exactly when the record is a short: the tagger
compares with `LONG`, the loader never writes it. -/
theorem replay_direction_iff {signals : List ReplaySignal}
    (hload : P.loadJsonl path fmt (some lines) = .ok signals)
    (hrecord : Record P fmt lines side signal) (hkeeps : args.keeps signal = true) :
    Simulates P args path fmt lines signal side ↔ side = .short := by
  have hdir : signal.direction ≠ "LONG" := by
    rw [hrecord.direction]
    cases side <;> decide
  have htag (candles : List Candle) : signal.tag (sortCandles candles) =
      signal.simulate .short candles := ReplaySignal.tag_short hdir _
  constructor
  · intro h
    cases side with
    | short => rfl
    | long =>
      have hmem := h [signal.above] _ (replay_eq hload _)
      simp only [List.mem_map, Prod.mk.injEq] at hmem
      obtain ⟨s, _, hs, hout⟩ := hmem
      rw [hs, htag] at hout
      have hloss := signal.simulate_short_above
      rw [hout, signal.simulate_long_above] at hloss
      cases hloss
  · rintro rfl candles tagged h
    rw [replay_eq hload] at h
    cases h
    refine List.mem_map.2 ⟨signal, List.mem_filter.2 ⟨hrecord.mem hload, hkeeps⟩, ?_⟩
    rw [htag]

end

/-! ## One record -/

def recordLine (word : String) : String :=
  "\x7b\"signal_id\": \"s1\", \"timestamp\": \"2024-01-01 10:30:00\", \"symbol\": \"EURUSD\", " ++
    "\"entry\": 100, \"sl\": 99, \"tp\": 102, \"direction\": \"" ++ word ++ "\"\x7d"

/-- The parsers on a file of this one line. -/
def oneRecord (word : String) : Parsers where
  strip line := line
  loads line := .ok <| .object
    [("signal_id", .string "s1"), ("timestamp", .string "2024-01-01 10:30:00"),
      ("symbol", .string "EURUSD"), ("entry", .number 100 "100"), ("sl", .number 99 "99"),
      ("tp", .number 102 "102"), ("direction", .string word)] line
  strptime _ _ := .ok 1704105000
  float s := .error s

/-- Its signal. -/
def oneSignal (word : String) : ReplaySignal where
  signalId := "s1"
  timestamp := 1704105000
  symbol := "EURUSD"
  timeframe := ""
  direction := word.toLower
  signalType := ""
  entry := 100
  sl := 99
  tp := 102
  session := .null
  metaData := .object [] "\x7b\x7d"

theorem oneRecord_record {word : String} {side : Side} (h : word.toLower = side.word)
    (hne : recordLine word ≠ "") :
    Record (oneRecord word) "%Y-%m-%d %H:%M:%S" [recordLine word] side (oneSignal word) :=
  .intro (i := 0) rfl hne rfl rfl h rfl

/-- The record of a short, spelled `SHORT`. -/
theorem replay_direction_short :
    Simulates (oneRecord "SHORT") {} "signals.jsonl" "%Y-%m-%d %H:%M:%S" [recordLine "SHORT"]
      (oneSignal "SHORT") .short ↔ Side.short = .short :=
  replay_direction_iff (show (oneRecord "SHORT").loadJsonl "signals.jsonl" "%Y-%m-%d %H:%M:%S"
    (some [recordLine "SHORT"]) = .ok [oneSignal "SHORT"] from rfl)
    (oneRecord_record (by decide +kernel) (by decide)) (by decide)

/-- A record of a long at 100 with stop 99 and target 102, and a candle that only reaches the
target: the replay reports the loss of a short. -/
theorem longRecord_taggedShort :
    Record (oneRecord "Long") "%Y-%m-%d %H:%M:%S" [recordLine "Long"] .long (oneSignal "Long") ∧
      ¬Simulates (oneRecord "Long") {} "signals.jsonl" "%Y-%m-%d %H:%M:%S" [recordLine "Long"]
        (oneSignal "Long") .long := by
  refine ⟨oneRecord_record (by decide +kernel) (by decide), fun h => ?_⟩
  have hmem := h [⟨1704108600, 205 / 2, 201 / 2⟩] _ rfl
  have hout := congrArg (fun p => p.2.outcome) (List.mem_singleton.1 hmem)
  revert hout
  decide +kernel

end Replay
