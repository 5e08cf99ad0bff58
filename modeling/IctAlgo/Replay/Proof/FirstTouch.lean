import Mathlib.Data.Set.Image
import Mathlib.Order.Bounds.Basic
import Mathlib.Tactic.MkIffOfInductiveProp
import Mathlib.Tactic.Ring
import IctAlgo.Lib.FirstMatch
import IctAlgo.Lib.Sorting
import IctAlgo.Replay.Proof.Direction

/-!
# The first touch

What a tag is to say, without a loop: the exit candle is the earliest one after the signal that
touches a level, whatever the order of the input (`ReplaySignal.Exit`), and the excursions are taken
over the candles that are no later (`ReplaySignal.scanned`).

* `firstTouch_iff`: the tagger meets it exactly unless `tie_break_on` is `WIN` and the exit candle
  touches both levels.
* `bothTouched_loses`: such a candle.
-/

set_option autoImplicit false

namespace Replay

open Lib FirstMatch

/-! ## What a tag is to say -/

/-- The levels at which a trade ends. -/
inductive Level
  | stop | target
  deriving DecidableEq

/-- The level `tie_break_on` prefers. -/
def TieBreak.level : TieBreak → Level
  | .loss => .stop
  | .win => .target

def Level.outcome : Level → Outcome
  | .stop => .loss
  | .target => .win

/-- The word of a direction in `ReplaySignal`. -/
def Side.literal : Side → String
  | .long => "LONG"
  | .short => "SHORT"

/-- The sign of a price move in favour of the side. -/
def Side.sign : Side → ℚ
  | .long => 1
  | .short => -1

/-- The best of the values as the tagger reports it: only a positive one. -/
def IsPeak (vs : Set ℚ) : Option ℚ → Prop
  | none => ∀ v ∈ vs, v ≤ 0
  | some m => 0 < m ∧ IsGreatest vs m

namespace ReplaySignal

section
variable (s : ReplaySignal) (side : Side)

/-- The distance from the entry to the stop, positive on its proper side. -/
def riskOn : ℚ := side.sign * (s.entry - s.sl)

def touchesStop (c : Candle) : Bool :=
  match side with
  | .long => c.low ≤ s.sl
  | .short => s.sl ≤ c.high

def touchesTarget (c : Candle) : Bool :=
  match side with
  | .long => s.tp ≤ c.high
  | .short => c.low ≤ s.tp

def touchesLevel (c : Candle) : Bool := s.touchesStop side c || s.touchesTarget side c

/-- The largest move against the trade within a candle. -/
def adverse (c : Candle) : ℚ :=
  match side with
  | .long => (s.entry - c.low) / s.riskOn side
  | .short => (c.high - s.entry) / s.riskOn side

/-- The largest move in its favour. -/
def favourable (c : Candle) : ℚ :=
  match side with
  | .long => (c.high - s.entry) / s.riskOn side
  | .short => (s.entry - c.low) / s.riskOn side

/-- The candles a scan looks at: after the signal, and not after a candle that touches a level. -/
def scanned (candles : List Candle) : Set Candle :=
  {c | c ∈ candles ∧ s.timestamp < c.timestamp ∧ ∀ d ∈ candles, s.timestamp < d.timestamp →
    s.touchesLevel side d = true → c.timestamp ≤ d.timestamp}

/-- The first candle after the signal that touches a level. -/
def Exit (candles : List Candle) (c : Candle) : Prop :=
  c ∈ s.scanned side candles ∧ s.touchesLevel side c = true

/-- The level at which a touching candle ends the trade. -/
def levelAt (tie : TieBreak) (c : Candle) : Level :=
  if s.touchesStop side c && s.touchesTarget side c then tie.level
  else if s.touchesStop side c then .stop
  else .target

def price : Level → ℚ
  | .stop => s.sl
  | .target => s.tp

/-- The outcome reports the exit of the trade at this candle. -/
@[mk_iff]
structure ExitsAt (tie : TieBreak) (c : Candle) (o : ReplayOutcome) : Prop where
  outcome : o.outcome = (s.levelAt side tie c).outcome
  exitPrice : o.exitPrice = some (s.price (s.levelAt side tie c))
  exitTime : o.exitTime = some c.timestamp
  rMultiple : o.rMultiple =
    some (side.sign * (s.price (s.levelAt side tie c) - s.entry) / s.riskOn side)

/-- The outcome reports that the trade does not end. -/
structure StaysOpen (o : ReplayOutcome) : Prop where
  outcome : o.outcome = .unknown
  exitPrice : o.exitPrice = none
  exitTime : o.exitTime = none
  rMultiple : o.rMultiple = none

/-- The outcome of the first touch. -/
@[mk_iff firstTouch_def]
structure FirstTouch (tie : TieBreak) (candles : List Candle) (o : ReplayOutcome) : Prop where
  signalId : o.signalId = s.signalId
  ends : (∀ c ∈ candles, s.timestamp < c.timestamp → s.touchesLevel side c = false) ∧
      StaysOpen o ∨
    ∃ c, s.Exit side candles c ∧ s.ExitsAt side tie c o
  mae : IsPeak (s.adverse side '' s.scanned side candles) o.mae
  mfe : IsPeak (s.favourable side '' s.scanned side candles) o.mfe

end

/-- The candle that ends the trade touches both levels, and `tie_break_on` is `WIN`. -/
def Disputed (s : ReplaySignal) (side : Side) (tie : TieBreak) (candles : List Candle) : Prop :=
  tie = .win ∧ ∃ c, s.Exit side candles c ∧
    s.touchesStop side c = true ∧ s.touchesTarget side c = true

end ReplaySignal

/-! ## Excursions -/

/-- `peak` gives the greatest of the values, if it is positive. -/
theorem isPeak_peak (vs : List ℚ) : IsPeak {v | v ∈ vs} (peak vs) := by
  have hmax : (0 :: vs).max? = some (vs.foldl max 0) := rfl
  obtain ⟨hmem, hle⟩ := List.max?_eq_some_iff.1 hmax
  have hvs : ∀ v ∈ vs, v ≤ vs.foldl max 0 := fun v hv => hle v (List.mem_cons_of_mem 0 hv)
  unfold peak
  dsimp only
  split <;> rename_i hpos
  · have hne : vs.foldl max 0 ≠ 0 := ne_of_gt hpos
    exact ⟨hpos, (List.mem_cons.1 hmem).resolve_left hne, hvs⟩
  · exact fun v hv => (hvs v hv).trans (not_lt.1 hpos)

theorem mem_sortCandles {candles : List Candle} {c : Candle} :
    c ∈ sortCandles candles ↔ c ∈ candles := List.mem_insertionSort _

theorem Candle.mirror_involutive : Function.Involutive Candle.mirror := by
  intro c
  simp [Candle.mirror]

namespace ReplaySignal

variable {s : ReplaySignal} {side : Side} {tie : TieBreak} {candles : List Candle}

/-! ## The scan in the order of time -/

/-- The order of the input does not matter. -/
theorem scanned_sortCandles : s.scanned side (sortCandles candles) = s.scanned side candles := by
  simp only [scanned, mem_sortCandles]

section
variable (h : candles.Pairwise fun c d => c.timestamp < d.timestamp)
include h

/-- The candles the loop holds a long through are those a scan looks at. -/
theorem mem_held {c : Candle} : c ∈ s.held candles ↔ c ∈ s.scanned .long candles := by
  have hafter := h.filter fun c => s.timestamp < c.timestamp
  have hheld : s.held candles =
    upTo s.touches (candles.filter fun c => s.timestamp < c.timestamp) := rfl
  rw [hheld, mem_upTo hafter]
  simp [scanned, and_assoc, and_imp, touches, touchesLevel, touchesStop, touchesTarget]

theorem exit?_eq_some {c : Candle} : s.exit? candles = some c ↔ s.Exit .long candles c := by
  have hafter := h.filter fun c => s.timestamp < c.timestamp
  rw [exit?, find?_eq_some_iff_le hafter]
  simp only [Exit, scanned, touches, touchesLevel, touchesStop, touchesTarget, List.mem_filter,
    decide_eq_true_eq, and_imp, Set.mem_ofPred_eq, ge_iff_le, and_assoc]
  tauto

end

theorem exit?_eq_none : s.exit? candles = none ↔
    ∀ c ∈ candles, s.timestamp < c.timestamp → s.touchesLevel .long c = false := by
  simp [exit?, List.find?_eq_none, touches, touchesLevel, touchesStop, touchesTarget]

/-! ## A long -/

theorem longRisk_eq (hrisk : 0 < s.riskOn .long) : s.longRisk = s.riskOn .long := by
  have hpos : ¬ s.entry - s.sl ≤ 0 := by simpa [riskOn, Side.sign] using hrisk
  simp [longRisk, riskOn, Side.sign, hpos]

/-- Outside of a dispute a candle that touches the stop ends the trade there. -/
theorem levelAt_eq {c : Candle} (h : tie = .win → s.touchesStop side c = true →
    s.touchesTarget side c = false) :
    s.levelAt side tie c = if s.touchesStop side c then .stop else .target := by
  unfold levelAt
  cases hstop : s.touchesStop side c with
  | false => simp
  | true =>
    cases tie with
    | loss => simp [TieBreak.level]
    | win => simp [h rfl hstop]

/-- The exit the tagger reports for a long. -/
theorem exitsAt_simulateLong {c : Candle} (hexit : s.exit? candles = some c)
    (hrisk : 0 < s.riskOn .long) :
    s.ExitsAt .long tie c (s.simulateLong candles) ↔
      ¬ (tie = .win ∧ s.touchesStop .long c = true ∧ s.touchesTarget .long c = true) := by
  have hstopped : s.stopped c = s.touchesStop .long c := rfl
  refine ⟨fun h hdispute => ?_, fun h => ?_⟩
  · obtain ⟨rfl, hstop, htarget⟩ := hdispute
    have hout := h.outcome
    simp [simulateLong, hexit, hstopped, levelAt, hstop, htarget, TieBreak.level,
      Level.outcome] at hout
  · have hlevel : s.levelAt .long tie c = if s.touchesStop .long c then .stop else .target := by
      refine levelAt_eq fun htie hstop => Bool.eq_false_iff.2 fun htarget => ?_
      exact h ⟨htie, hstop, htarget⟩
    have hloss : (s.sl - s.entry) / s.riskOn .long = -1 := by
      rw [div_eq_iff hrisk.ne']
      simp [riskOn, Side.sign]
    have hsign : Side.long.sign = 1 := rfl
    cases hstop : s.touchesStop .long c with
    | false =>
      constructor <;>
        simp [simulateLong, hexit, hstopped, hlevel, hstop, longRisk_eq hrisk, Level.outcome, price,
          hsign]
    | true =>
      constructor <;>
        simp [simulateLong, hexit, hstopped, hlevel, hstop, Level.outcome, price, hsign, hloss]

/-- The tag of a long over candles in the order of time. -/
theorem firstTouch_simulateLong (h : candles.Pairwise fun c d => c.timestamp < d.timestamp)
    (hrisk : 0 < s.riskOn .long) :
    s.FirstTouch .long tie candles (s.simulateLong candles) ↔ ¬ s.Disputed .long tie candles := by
  have hpeak (f : Candle → ℚ) :
      IsPeak (f '' s.scanned .long candles) (peak ((s.held candles).map f)) := by
    have himage : f '' s.scanned .long candles = {v | v ∈ (s.held candles).map f} := by
      ext v
      simp [← mem_held h]
    rw [himage]
    exact isPeak_peak _
  have hmae : IsPeak (s.adverse .long '' s.scanned .long candles) (s.simulateLong candles).mae := by
    simp only [simulateLong, longRisk_eq hrisk]
    exact hpeak (s.adverse .long)
  have hmfe : IsPeak (s.favourable .long '' s.scanned .long candles)
      (s.simulateLong candles).mfe := by
    simp only [simulateLong, longRisk_eq hrisk]
    exact hpeak (s.favourable .long)
  refine ⟨fun hfirst hdispute => ?_, fun hdispute => ?_⟩
  · obtain ⟨rfl, c, hc, hboth⟩ := hdispute
    have hexit := (exit?_eq_some h).2 hc
    obtain ⟨hnone, -⟩ | ⟨d, hd, hends⟩ := hfirst.ends
    · rw [← exit?_eq_none, hexit] at hnone
      cases hnone
    · rw [(exit?_eq_some h).2 hd] at hexit
      obtain rfl := Option.some.inj hexit
      exact (exitsAt_simulateLong ((exit?_eq_some h).2 hd) hrisk).1 hends ⟨rfl, hboth⟩
  · refine ⟨rfl, ?_, hmae, hmfe⟩
    cases hexit : s.exit? candles with
    | none =>
      refine Or.inl ⟨exit?_eq_none.1 hexit, ?_⟩
      constructor <;> simp [simulateLong, hexit]
    | some c =>
      have hc := (exit?_eq_some h).1 hexit
      refine Or.inr ⟨c, hc, (exitsAt_simulateLong hexit hrisk).2 fun hboth => ?_⟩
      exact hdispute ⟨hboth.1, c, hc, hboth.2⟩

/-! ## A short -/

theorem touchesStop_mirror (c : Candle) :
    s.mirror.touchesStop .long c.mirror = s.touchesStop .short c := by
  simp [touchesStop, mirror, Candle.mirror]

theorem touchesTarget_mirror (c : Candle) :
    s.mirror.touchesTarget .long c.mirror = s.touchesTarget .short c := by
  simp [touchesTarget, mirror, Candle.mirror]

theorem touchesLevel_mirror (c : Candle) :
    s.mirror.touchesLevel .long c.mirror = s.touchesLevel .short c := by
  rw [touchesLevel, touchesStop_mirror, touchesTarget_mirror, touchesLevel]

theorem riskOn_mirror : s.mirror.riskOn .long = s.riskOn .short := by
  show 1 * (-s.entry - -s.sl) = -1 * (s.entry - s.sl)
  ring

theorem adverse_mirror (c : Candle) : s.mirror.adverse .long c.mirror = s.adverse .short c := by
  show (-s.entry - -c.high) / s.mirror.riskOn .long = (c.high - s.entry) / s.riskOn .short
  rw [riskOn_mirror, neg_sub_neg]

theorem favourable_mirror (c : Candle) :
    s.mirror.favourable .long c.mirror = s.favourable .short c := by
  show (-c.low - -s.entry) / s.mirror.riskOn .long = (s.entry - c.low) / s.riskOn .short
  rw [riskOn_mirror, neg_sub_neg]

theorem levelAt_mirror (c : Candle) :
    s.mirror.levelAt .long tie c.mirror = s.levelAt .short tie c := by
  rw [levelAt, touchesStop_mirror, touchesTarget_mirror, levelAt]

theorem price_mirror (level : Level) : s.mirror.price level = -s.price level := by
  cases level <;> rfl

/-- The scan of the mirror image looks at the mirror images. -/
theorem scanned_mirror : s.mirror.scanned .long (candles.map Candle.mirror) =
    Candle.mirror '' s.scanned .short candles := by
  ext c'
  obtain ⟨c, rfl⟩ := Candle.mirror_involutive.surjective c'
  rw [Candle.mirror_involutive.injective.mem_set_image]
  simp only [scanned, Set.mem_ofPred_eq, List.forall_mem_map, touchesLevel_mirror,
    List.mem_map_of_injective Candle.mirror_involutive.injective]
  exact Iff.rfl

theorem exit_mirror {c : Candle} :
    s.mirror.Exit .long (candles.map Candle.mirror) c.mirror ↔ s.Exit .short candles c := by
  rw [Exit, scanned_mirror, Candle.mirror_involutive.injective.mem_set_image, touchesLevel_mirror,
    Exit]

theorem exitsAt_mirror {c : Candle} {o : ReplayOutcome} :
    s.mirror.ExitsAt .long tie c.mirror o.mirror ↔ s.ExitsAt .short tie c o := by
  have hprice : o.mirror.exitPrice = some (s.mirror.price (s.levelAt .short tie c)) ↔
      o.exitPrice = some (s.price (s.levelAt .short tie c)) := by
    simp [ReplayOutcome.mirror, price_mirror]
  have hr : Side.long.sign * (s.mirror.price (s.levelAt .short tie c) - s.mirror.entry) =
      Side.short.sign * (s.price (s.levelAt .short tie c) - s.entry) := by
    rw [price_mirror]
    show 1 * (_ - -s.entry) = -1 * _
    ring
  rw [exitsAt_iff, exitsAt_iff, levelAt_mirror, hprice, hr, riskOn_mirror]
  exact Iff.rfl

/-- A short is tagged as its mirror image. -/
theorem firstTouch_mirror {o : ReplayOutcome} :
    s.mirror.FirstTouch .long tie (candles.map Candle.mirror) o.mirror ↔
      s.FirstTouch .short tie candles o := by
  have hopen : StaysOpen o.mirror ↔ StaysOpen o := by
    refine ⟨fun h => ?_, fun h => ?_⟩
    · exact ⟨h.outcome, Option.map_eq_none_iff.1 h.exitPrice, h.exitTime, h.rMultiple⟩
    · exact ⟨h.outcome, Option.map_eq_none_iff.2 h.exitPrice, h.exitTime, h.rMultiple⟩
  have hends : (∃ c, s.mirror.Exit .long (candles.map Candle.mirror) c ∧
        s.mirror.ExitsAt .long tie c o.mirror) ↔
      ∃ c, s.Exit .short candles c ∧ s.ExitsAt .short tie c o := by
    rw [Candle.mirror_involutive.surjective.exists]
    simp only [exit_mirror, exitsAt_mirror]
  rw [firstTouch_def, firstTouch_def, hends, hopen, scanned_mirror, Set.image_image, Set.image_image,
    List.forall_mem_map]
  simp only [adverse_mirror, favourable_mirror, touchesLevel_mirror]
  exact Iff.rfl

theorem disputed_mirror :
    s.mirror.Disputed .long tie (candles.map Candle.mirror) ↔ s.Disputed .short tie candles := by
  rw [Disputed, Disputed, Candle.mirror_involutive.surjective.exists]
  simp only [exit_mirror, touchesStop_mirror, touchesTarget_mirror]

end ReplaySignal

/-! ## The tagger -/

theorem ReplayOutcome.mirror_mirror (o : ReplayOutcome) : o.mirror.mirror = o := by
  simp [ReplayOutcome.mirror]

namespace ReplaySignal

variable {s : ReplaySignal} {side : Side} {tie : TieBreak} {candles : List Candle}

/-- The input in the order of time is as good as the input. -/
theorem firstTouch_sortCandles {o : ReplayOutcome} :
    s.FirstTouch side tie (sortCandles candles) o ↔ s.FirstTouch side tie candles o := by
  simp only [firstTouch_def, Exit, scanned_sortCandles, mem_sortCandles]

theorem disputed_sortCandles :
    s.Disputed side tie (sortCandles candles) ↔ s.Disputed side tie candles := by
  simp only [Disputed, Exit, scanned_sortCandles]

/-- The tag of a signal, by its side. -/
theorem firstTouch_tag (hdistinct : (candles.map (·.timestamp)).Nodup)
    (hdir : s.direction = side.literal) (hrisk : 0 < s.riskOn side) :
    s.FirstTouch side tie candles (s.tag (sortCandles candles)) ↔
      ¬ s.Disputed side tie candles := by
  have hsorted := sortBy_strict Candle.timestamp candles hdistinct
  rw [← firstTouch_sortCandles, ← disputed_sortCandles]
  cases side with
  | long =>
    rw [tag_long hdir]
    exact firstTouch_simulateLong hsorted hrisk
  | short =>
    have hne : s.direction ≠ "LONG" := by
      rw [hdir]
      decide
    have hmirrored : ((sortCandles candles).map Candle.mirror).Pairwise
        fun c d => c.timestamp < d.timestamp := List.pairwise_map.2 hsorted
    rw [tag_short hne, ← firstTouch_mirror, ReplayOutcome.mirror_mirror, ← disputed_mirror]
    exact firstTouch_simulateLong hmirrored (riskOn_mirror ▸ hrisk)

end ReplaySignal

/-- **Each signal with positive risk has the tag of its first touch** exactly unless the candle it
ends at touches both levels and `tie_break_on` is `WIN`. -/
theorem firstTouch_iff (signals : List ReplaySignal) (candles : List Candle) (tie : TieBreak)
    (hdistinct : (candles.map (·.timestamp)).Nodup) {i : ℕ} {s : ReplaySignal}
    (hs : signals[i]? = some s) {side : Side} (hdir : s.direction = side.literal)
    (hrisk : 0 < s.riskOn side) :
    (∃ o, (tagFromCandles signals candles tie)[i]? = some o ∧ s.FirstTouch side tie candles o) ↔
      ¬ s.Disputed side tie candles := by
  have htag : (tagFromCandles signals candles tie)[i]? = some (s.tag (sortCandles candles)) := by
    rw [tagFromCandles, List.getElem?_map, hs]
    rfl
  rw [htag, ← ReplaySignal.firstTouch_tag hdistinct hdir hrisk]
  simp

/-! ## A candle that touches both levels -/

/-- A long at 100 with stop 99 and target 102. -/
def tieSignal : ReplaySignal := { oneSignal "LONG" with direction := "LONG" }

/-- The candle after it, from 98.5 to 102.5. -/
def tieCandle : Candle := ⟨1704105060, 205 / 2, 197 / 2⟩

/-- By default the stop counts. -/
theorem tieCandle_loses :
    ∃ o, (tagFromCandles [tieSignal] [tieCandle] .loss)[0]? = some o ∧
      tieSignal.FirstTouch .long .loss [tieCandle] o := by
  have hdir : tieSignal.direction = Side.long.literal := rfl
  refine (firstTouch_iff [tieSignal] [tieCandle] .loss (by decide +kernel) (i := 0) rfl hdir
    (by decide +kernel)).2 ?_
  simp [ReplaySignal.Disputed]

/-- With `WIN` the target is to count, and the candle is tagged as a loss too. -/
theorem bothTouched_loses :
    ([tieCandle].map (·.timestamp)).Nodup ∧ tieSignal.direction = Side.long.literal ∧
      0 < tieSignal.riskOn .long ∧
      ¬ ∃ o, (tagFromCandles [tieSignal] [tieCandle] .win)[0]? = some o ∧
        tieSignal.FirstTouch .long .win [tieCandle] o := by
  refine ⟨by decide +kernel, rfl, by decide +kernel, fun h => ?_⟩
  obtain ⟨o, ho, hfirst⟩ := h
  have hloss : (tieSignal.tag [tieCandle]).outcome = .loss := by decide +kernel
  obtain rfl : tieSignal.tag [tieCandle] = o := Option.some.inj ho
  obtain ⟨hnone, -⟩ | ⟨c, hc, hends⟩ := hfirst.ends
  · have htouch := hnone tieCandle List.mem_cons_self (by decide +kernel)
    revert htouch
    decide +kernel
  · obtain rfl : c = tieCandle := List.mem_singleton.1 hc.1.1
    have hwin := hends.outcome
    rw [hloss] at hwin
    revert hwin
    decide +kernel

end Replay
