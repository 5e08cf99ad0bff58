import IctAlgo.Candles.Convert
import IctAlgo.Lib.Raising
import IctAlgo.Lib.Sorting

/-!
# One candle for an instant

* `convertRow_written`: the timestamp of a row that is converted is written for its instant.
* `detectGaps_ok_iff`: the search for gaps raises exactly when a timestamp that is not the last is too
  late.
* `convert_ok_iff`: when a conversion returns, and what.
* `convert_sound_iff`: two rows of one instant are found exactly when they are written alike.
-/

set_option autoImplicit false

namespace Candles

open Lib Lib.Raising Lib.Strptime
open Merge (Cells Row)

/-! ## Definitions -/

/-- The instant of a timestamp of the output. -/
def tsInstant? (ts : String) : Option ℕ := strptime? dateTimeFormat ts.toList

/-- The instant that a row denotes, if its timestamp has one of the formats. -/
def rowInstant? (dtCol : String) (row : Row) : Option ℕ :=
  (readTimestamp? (tsText dtCol row)).map Fields.instant

/-- Two rows denote one instant. -/
def SameInstant (dtCol : String) (row row' : Row) : Prop :=
  ∃ t, rowInstant? dtCol row = some t ∧ rowInstant? dtCol row' = some t

/-- No two rows denote one instant. -/
def DistinctInstants (loaded : Loaded) : Prop :=
  loaded.rows.Pairwise fun row row' => ¬SameInstant loaded.dtCol row row'

/-- The timestamps are more than five minutes apart. -/
def isGap (ts ts' : String) : Bool :=
  match tsInstant? ts, tsInstant? ts' with
  | some t, some t' => t + 5 * 60 < t'
  | _, _ => false

/-- The timestamps are of instants, the first before the second. -/
def Before (ts ts' : String) : Prop :=
  ∃ t t', tsInstant? ts = some t ∧ tsInstant? ts' = some t' ∧ t < t'

/-- The neighbours in a list. -/
def neighbours {α : Type} (xs : List α) : List (α × α) := xs.zip xs.tail

section
variable (cc : CellConv) (defaultVolume : PyFloat)

/-- One row for each row of the input, with strictly increasing timestamps, and the gaps between them. -/
structure Accurate (loaded : Loaded) (out : Conversion) : Prop where
  rows : ∃ converted, loaded.rows.mapM (convertRow cc defaultVolume loaded.headers loaded.dtCol) =
    .ok converted ∧ out.rows.Perm converted
  length : out.rows.length = loaded.rows.length
  increasing : out.rows.Pairwise fun a b => Before a.timestamp b.timestamp
  gaps : out.gaps.map (fun gap => (gap.fromTs, gap.toTs)) =
    (neighbours (out.rows.map (·.timestamp))).filter fun pair => isGap pair.1 pair.2

/-- A conversion raises or is accurate, and raises when two rows denote one instant. -/
structure Sound (file : CsvFile) : Prop where
  accurate : ∀ out, convert cc defaultVolume file = .ok out →
    ∃ loaded, validateAndLoad cc file = .ok loaded ∧ Accurate cc defaultVolume loaded out
  raises : ∀ loaded, validateAndLoad cc file = .ok loaded → ¬DistinctInstants loaded →
    ∃ e, convert cc defaultVolume file = .error e

/-- The instant is within five minutes of the end of time. -/
def late (t : ℕ) : Bool := endOfTime ≤ t + 5 * 60

/-- What else a file is rejected for: a check of its rows, two timestamps that are written alike, a row
that is not converted, or two instants at the end of time. -/
structure Passes (file : CsvFile) (loaded : Loaded) : Prop where
  loads : validateAndLoad cc file = .ok loaded
  texts : (loaded.rows.map fun row => strip (tsText loaded.dtCol row)).Nodup
  converts : ∀ row ∈ loaded.rows, ∃ r,
    convertRow cc defaultVolume loaded.headers loaded.dtCol row = .ok r
  notLate : loaded.rows.countP (fun row => (rowInstant? loaded.dtCol row).any late) ≤ 1

/-! ## Rows -/

/-- A timestamp that is written for an instant. -/
def Written (t : ℕ) (ts : String) : Prop := ∃ dt : Fields, dt.valid = true ∧ dt.instant = t ∧ dt.text = ts

theorem Written.instant {t : ℕ} {ts : String} (h : Written t ts) : tsInstant? ts = some t := by
  obtain ⟨dt, hvalid, rfl, rfl⟩ := h
  rw [tsInstant?, strptime?_eq, datetime?_text hvalid]
  rfl

theorem Written.lt_iff {t t' : ℕ} {ts ts' : String} (h : Written t ts) (h' : Written t' ts') :
    ts < ts' ↔ t < t' := by
  obtain ⟨dt, hvalid, rfl, rfl⟩ := h
  obtain ⟨dt', hvalid', rfl, rfl⟩ := h'
  exact Fields.text_lt_iff hvalid hvalid'

theorem Written.eq_iff {t t' : ℕ} {ts ts' : String} (h : Written t ts) (h' : Written t' ts') :
    ts = ts' ↔ t = t' := by
  have hlt := h.lt_iff h'
  have hgt := h'.lt_iff h
  refine ⟨fun heq => ?_, fun heq => ?_⟩
  · rw [heq] at hlt hgt
    have := mt hlt.2 (lt_irrefl _)
    have := mt hgt.2 (lt_irrefl _)
    omega
  · rw [heq] at hlt hgt
    exact eq_of_le_of_ge (not_lt.1 (mt hgt.1 (lt_irrefl _))) (not_lt.1 (mt hlt.1 (lt_irrefl _)))

variable {cc defaultVolume}

theorem readTimestamp?_valid {text : String} {dt : Fields} (h : readTimestamp? text = some dt) :
    dt.valid = true := by
  obtain ⟨format, -, hformat⟩ := List.exists_of_findSome?_eq_some h
  exact valid_of_datetime? hformat

/-- The timestamp of a row that is converted is written for its instant. -/
theorem convertRow_written {headers : Cells} {dtCol : String} {row : Row} {r : ReplayRow}
    (h : convertRow cc defaultVolume headers dtCol row = .ok r) :
    ∃ t, rowInstant? dtCol row = some t ∧ Written t r.timestamp := by
  simp only [convertRow, bind_ok_iff] at h
  obtain ⟨ts, hts, _, -, _, -, _, -, _, -, _, -, hr⟩ := h
  cases hr
  unfold normalizeTimestamp at hts
  cases hread : readTimestamp? (tsText dtCol row) with
  | none => rw [hread] at hts; cases hts
  | some dt =>
    rw [hread] at hts
    refine ⟨dt.instant, by rw [rowInstant?, hread]; rfl, dt, readTimestamp?_valid hread, rfl, ?_⟩
    exact Except.ok.inj hts

theorem duplicatesFrom_eq_nil_iff {seen tss : List String} :
    duplicatesFrom seen tss = [] ↔ tss.Nodup ∧ ∀ ts ∈ tss, ts ∉ seen := by
  induction tss generalizing seen with
  | nil => simp [duplicatesFrom]
  | cons ts tss ih =>
    unfold duplicatesFrom
    split
    · rename_i hseen
      simp [hseen]
    · rename_i hseen
      rw [ih, List.nodup_cons]
      simp only [List.mem_cons, not_or, forall_eq_or_imp]
      refine ⟨fun ⟨hnodup, hnew⟩ => ⟨⟨fun hmem => (hnew ts hmem).1 rfl, hnodup⟩, hseen,
        fun x hx => (hnew x hx).2⟩, fun ⟨⟨hts, hnodup⟩, _, hnew⟩ => ⟨hnodup, fun x hx => ⟨?_, hnew x hx⟩⟩⟩
      rintro rfl
      exact hts hx

/-! ## Gaps -/

theorem parseTs_written {t : ℕ} {ts : String} (h : Written t ts) : parseTs ts = .ok t := by
  have hinstant := h.instant
  unfold tsInstant? at hinstant
  unfold parseTs
  rw [hinstant]

theorem isGap_written {t t' : ℕ} {ts ts' : String} (h : Written t ts) (h' : Written t' ts') :
    isGap ts ts' = decide (t + 5 * 60 < t') := by
  unfold isGap
  rw [h.instant, h'.instant]

/-- One step of the search. -/
theorem detectGaps_cons {t t' : ℕ} {ts ts' : String} (h : Written t ts) (h' : Written t' ts')
    (tss : List String) : detectGaps 5 (ts :: ts' :: tss) =
      if late t then .error .overflowError
      else (detectGaps 5 (ts' :: tss)).map fun gaps =>
        if isGap ts ts' then ⟨ts, ts', (t' - (t + 5 * 60)) / 60 / 5⟩ :: gaps else gaps := by
  rw [detectGaps, parseTs_written h, parseTs_written h', isGap_written h h']
  simp only [bind, Except.bind, late, decide_eq_true_eq]
  split
  · rfl
  · cases detectGaps 5 (ts' :: tss) with
    | error e => rfl
    | ok gaps =>
      simp only [pure, Except.pure, Except.map]
      split <;> rfl

/-- The search raises exactly when a timestamp that is not the last is late. -/
theorem detectGaps_isOk_iff {ts : List ℕ} {tss : List String} (h : List.Forall₂ Written ts tss) :
    (∃ gaps, detectGaps 5 tss = .ok gaps) ↔ ∀ t ∈ ts.dropLast, late t = false := by
  induction h with
  | nil => simp [detectGaps]
  | cons hfirst hrest ih =>
    cases hrest with
    | nil => simp [detectGaps]
    | @cons t' ts' ts tss hsecond hrest =>
      rw [detectGaps_cons hfirst hsecond, List.dropLast_cons_cons, List.forall_mem_cons, ← ih]
      cases late _ with
      | true => simp
      | false =>
        cases detectGaps 5 (ts' :: tss) <;> simp [Except.map]

/-- The gaps are the neighbours that are more than five minutes apart. -/
theorem detectGaps_pairs {ts : List ℕ} {tss : List String} (h : List.Forall₂ Written ts tss)
    {gaps : List Gap} (hgaps : detectGaps 5 tss = .ok gaps) :
    gaps.map (fun gap => (gap.fromTs, gap.toTs)) =
      (neighbours tss).filter fun pair => isGap pair.1 pair.2 := by
  induction h generalizing gaps with
  | nil => cases hgaps; rfl
  | cons hfirst hrest ih =>
    cases hrest with
    | nil => cases hgaps; rfl
    | @cons t' ts' ts tss hsecond hrest =>
      rw [detectGaps_cons hfirst hsecond] at hgaps
      cases hlate : late _ with
      | true => rw [hlate] at hgaps; cases hgaps
      | false =>
        rw [hlate] at hgaps
        cases htail : detectGaps 5 (ts' :: tss) with
        | error e => rw [htail] at hgaps; cases hgaps
        | ok found =>
          rw [htail] at hgaps
          obtain rfl := Except.ok.inj hgaps
          have hfound := ih htail
          unfold neighbours at hfound ⊢
          rw [List.tail_cons] at hfound
          rw [List.tail_cons, List.zip_cons_cons, List.filter_cons, ← hfound]
          dsimp only
          split <;> rfl

/-- Of instants in order, only the last is late if at most one is. -/
theorem late_dropLast_iff {ts : List ℕ} (hs : ts.Pairwise (· ≤ ·)) :
    (∀ t ∈ ts.dropLast, late t = false) ↔ ts.countP late ≤ 1 := by
  rcases ts.eq_nil_or_concat with rfl | ⟨init, last, rfl⟩
  · simp
  · rw [List.concat_eq_append, List.dropLast_concat, List.countP_append, List.countP_singleton]
    rw [List.concat_eq_append, List.pairwise_append] at hs
    refine ⟨fun h => ?_, fun h t ht => ?_⟩
    · rw [List.countP_eq_zero.2 fun t ht => by simp [h t ht]]
      split <;> omega
    · by_contra hlate
      rw [Bool.not_eq_false] at hlate
      have hlast : late last = true := by
        have hle := hs.2.2 t ht last List.mem_cons_self
        simp only [late, decide_eq_true_eq] at hlate ⊢
        omega
      have hcount : 0 < init.countP late := List.countP_pos_iff.2 ⟨t, ht, hlate⟩
      rw [hlast, if_pos rfl] at h
      omega

/-! ## The conversion -/

section
variable {loaded : Loaded} {converted : List ReplayRow}

/-- The instant of a row of the output. -/
def timeOf (r : ReplayRow) : ℕ := (tsInstant? r.timestamp).getD 0

theorem timeOf_written {t : ℕ} {r : ReplayRow} (h : Written t r.timestamp) : timeOf r = t := by
  unfold timeOf
  rw [h.instant]
  rfl

/-- A row and what it is converted to. -/
theorem converted_written
    (h : loaded.rows.mapM (convertRow cc defaultVolume loaded.headers loaded.dtCol) = .ok converted) :
    List.Forall₂ (fun row r => rowInstant? loaded.dtCol row = some (timeOf r) ∧
      Written (timeOf r) r.timestamp) loaded.rows converted := by
  refine (mapM_ok_iff.1 h).imp fun row r hrow => ?_
  obtain ⟨t, hinstant, hwritten⟩ := convertRow_written hrow
  rw [timeOf_written hwritten]
  exact ⟨hinstant, hwritten⟩

theorem written_of_mem
    (h : loaded.rows.mapM (convertRow cc defaultVolume loaded.headers loaded.dtCol) = .ok converted)
    {r : ReplayRow} (hr : r ∈ converted) : Written (timeOf r) r.timestamp := by
  obtain ⟨_, -, -, hwritten⟩ := exists_of_mem_right (converted_written h) hr
  exact hwritten

/-- The rows in the order in which they are written. -/
def sortedRows (converted : List ReplayRow) : List ReplayRow :=
  converted.insertionSort fun a b => a.timestamp ≤ b.timestamp

theorem sortedRows_written
    (h : loaded.rows.mapM (convertRow cc defaultVolume loaded.headers loaded.dtCol) = .ok converted) :
    List.Forall₂ Written ((sortedRows converted).map timeOf)
      ((sortedRows converted).map (·.timestamp)) := by
  rw [List.forall₂_map_left_iff, List.forall₂_map_right_iff, List.forall₂_same]
  exact fun r hr => written_of_mem h ((List.perm_insertionSort _ _).mem_iff.1 hr)

theorem sortedRows_ordered
    (h : loaded.rows.mapM (convertRow cc defaultVolume loaded.headers loaded.dtCol) = .ok converted) :
    ((sortedRows converted).map timeOf).Pairwise (· ≤ ·) := by
  have hsorted := sortBy_pairwise ReplayRow.timestamp converted
  rw [List.pairwise_map]
  refine hsorted.imp_of_mem fun {a b} ha hb hle => ?_
  have hwritten := written_of_mem h ((List.perm_insertionSort _ _).mem_iff.1 ha)
  have hwritten' := written_of_mem h ((List.perm_insertionSort _ _).mem_iff.1 hb)
  exact not_lt.1 (mt (hwritten'.lt_iff hwritten).2 (not_lt.2 hle))

/-- As many rows are late as are read for late instants. -/
theorem countP_late
    (h : loaded.rows.mapM (convertRow cc defaultVolume loaded.headers loaded.dtCol) = .ok converted) :
    ((sortedRows converted).map timeOf).countP late =
      loaded.rows.countP fun row => (rowInstant? loaded.dtCol row).any late := by
  have hperm : ((sortedRows converted).map timeOf).Perm (converted.map timeOf) :=
    (List.perm_insertionSort _ _).map timeOf
  rw [hperm.countP_eq]
  have hall := converted_written h
  generalize loaded.rows = rows at hall
  clear h hperm
  induction hall with
  | nil => rfl
  | cons hrow _ ih =>
    rw [List.map_cons, List.countP_cons, List.countP_cons, ih, hrow.1]
    rfl

theorem timestamps_nodup
    (h : loaded.rows.mapM (convertRow cc defaultVolume loaded.headers loaded.dtCol) = .ok converted)
    (hdistinct : DistinctInstants loaded) : (converted.map (·.timestamp)).Nodup := by
  rw [List.Nodup, List.pairwise_map]
  refine pairwise_of_forall₂ (converted_written h) (fun row row' r r' hrow hrow' hnot heq => ?_)
    hdistinct
  have htime := (hrow.2.eq_iff hrow'.2).1 heq
  exact hnot ⟨timeOf r, hrow.1, by rw [htime]; exact hrow'.1⟩

/-- With distinct instants, the rows are written in strict order. -/
theorem sortedRows_increasing
    (h : loaded.rows.mapM (convertRow cc defaultVolume loaded.headers loaded.dtCol) = .ok converted)
    (hdistinct : DistinctInstants loaded) :
    (sortedRows converted).Pairwise fun a b => Before a.timestamp b.timestamp := by
  have hstrict := sortBy_strict ReplayRow.timestamp converted (timestamps_nodup h hdistinct)
  refine hstrict.imp_of_mem fun {a b} ha hb hlt => ?_
  have hwritten := written_of_mem h ((List.perm_insertionSort _ _).mem_iff.1 ha)
  have hwritten' := written_of_mem h ((List.perm_insertionSort _ _).mem_iff.1 hb)
  exact ⟨_, _, hwritten.instant, hwritten'.instant, (hwritten.lt_iff hwritten').1 hlt⟩

end

section
variable {file : CsvFile}

/-- What a conversion that returns has done. -/
theorem convert_ok {out : Conversion} (h : convert cc defaultVolume file = .ok out) :
    ∃ loaded converted gaps, validateAndLoad cc file = .ok loaded ∧
      (loaded.rows.map fun row => strip (tsText loaded.dtCol row)).Nodup ∧
      loaded.rows.mapM (convertRow cc defaultVolume loaded.headers loaded.dtCol) = .ok converted ∧
      detectGaps 5 ((sortedRows converted).map (·.timestamp)) = .ok gaps ∧
      out.rows = sortedRows converted ∧ out.gaps = gaps := by
  unfold convert at h
  obtain ⟨loaded, hloads, h⟩ := bind_ok_iff.1 h
  dsimp only at h
  split_ifs at h with hduplicates
  · cases h
  obtain ⟨converted, hconverted, h⟩ := bind_ok_iff.1 h
  obtain ⟨gaps, hgaps, h⟩ := bind_ok_iff.1 h
  cases h
  have hnodup := duplicatesFrom_eq_nil_iff.1 (not_not.1 hduplicates)
  exact ⟨loaded, converted, gaps, hloads, hnodup.1, hconverted, hgaps, rfl, rfl⟩

/-- A conversion returns exactly for a file that is not rejected. -/
theorem convert_isOk_iff : (∃ out, convert cc defaultVolume file = .ok out) ↔
    ∃ loaded, Passes cc defaultVolume file loaded := by
  refine ⟨fun ⟨out, hout⟩ => ?_, fun ⟨loaded, hpasses⟩ => ?_⟩
  · obtain ⟨loaded, converted, gaps, hloads, hnodup, hconverted, hgaps, -, -⟩ := convert_ok hout
    refine ⟨loaded, hloads, hnodup, mapM_isOk_iff.1 ⟨converted, hconverted⟩, ?_⟩
    rw [← countP_late hconverted, ← late_dropLast_iff (sortedRows_ordered hconverted)]
    exact (detectGaps_isOk_iff (sortedRows_written hconverted)).1 ⟨gaps, hgaps⟩
  · obtain ⟨converted, hconverted⟩ := mapM_isOk_iff.2 hpasses.converts
    have hlate := hpasses.notLate
    rw [← countP_late hconverted, ← late_dropLast_iff (sortedRows_ordered hconverted)] at hlate
    obtain ⟨gaps, hgaps⟩ := (detectGaps_isOk_iff (sortedRows_written hconverted)).2 hlate
    have hduplicates : detectDuplicateTimestamps loaded.dtCol loaded.rows = [] :=
      duplicatesFrom_eq_nil_iff.2 ⟨hpasses.texts, fun _ _ => List.not_mem_nil⟩
    have hrest : convert cc defaultVolume file = .ok
        ⟨sortedRows converted, gaps, sortedRows converted ≠ converted,
          ((availableLower cc loaded.headers).get? "volume").isNone⟩ := by
      unfold convert
      refine bind_ok_iff.2 ⟨loaded, hpasses.loads, ?_⟩
      dsimp only
      rw [if_neg (not_not.2 hduplicates)]
      exact bind_ok_iff.2 ⟨converted, hconverted, bind_ok_iff.2 ⟨gaps, hgaps, rfl⟩⟩
    exact ⟨_, hrest⟩

end

/-- **One candle for an instant, or an exception**, exactly when no file that is not rejected anyway has
two notations of one instant. -/
theorem convert_sound_iff (cc : CellConv) (defaultVolume : PyFloat) (file : CsvFile) :
    Sound cc defaultVolume file ↔
      ∀ loaded, Passes cc defaultVolume file loaded → DistinctInstants loaded := by
  refine ⟨fun h loaded hpasses => ?_, fun h => ⟨fun out hout => ?_, fun loaded hloads hsame => ?_⟩⟩
  · by_contra hsame
    obtain ⟨e, he⟩ := h.raises loaded hpasses.loads hsame
    obtain ⟨out, hout⟩ := convert_isOk_iff.2 ⟨loaded, hpasses⟩
    rw [he] at hout
    cases hout
  · obtain ⟨loaded', hpasses⟩ := convert_isOk_iff.1 ⟨out, hout⟩
    obtain ⟨loaded, converted, gaps, hloads, -, hconverted, hgaps, hrows, hout⟩ := convert_ok hout
    obtain rfl := Except.ok.inj (hloads.symm.trans hpasses.loads)
    have hperm : out.rows.Perm converted := by
      rw [hrows]
      exact List.perm_insertionSort _ _
    have hlength := (mapM_ok_iff.1 hconverted).length_eq
    refine ⟨loaded, hloads, ⟨converted, hconverted, hperm⟩, hperm.length_eq.trans hlength.symm, ?_, ?_⟩
    · rw [hrows]
      exact sortedRows_increasing hconverted (h loaded hpasses)
    · rw [hout, hrows]
      exact detectGaps_pairs (sortedRows_written hconverted) hgaps
  · cases hout : convert cc defaultVolume file with
    | error e => exact ⟨e, rfl⟩
    | ok out =>
      obtain ⟨loaded', hpasses⟩ := convert_isOk_iff.1 ⟨out, hout⟩
      obtain rfl := Except.ok.inj (hloads.symm.trans hpasses.loads)
      exact absurd (h loaded hpasses) hsame

/-- One instant in two notations. -/
def twoNotations : CsvFile where
  firstLine := "datetime;open;high;low;close"
  lines _ := [["datetime", "open", "high", "low", "close"],
    ["2026-01-31 15:15:00", "4865", "4866", "4864", "4865"],
    ["2026-01-31T15:15:00Z", "4870", "4871", "4869", "4870"]]

/-- Both rows are written, with the same timestamp. -/
theorem twoNotations_not_sound : ¬Sound .plain (.fin 0) twoNotations := by
  intro h
  have hwritten : ((convert .plain (.fin 0) twoNotations).toOption.map fun out =>
      out.rows.map (·.timestamp)) = some ["2026-01-31 15:15:00", "2026-01-31 15:15:00"] := by
    decide +kernel
  cases hout : convert .plain (.fin 0) twoNotations with
  | error e =>
    rw [hout] at hwritten
    cases hwritten
  | ok out =>
    obtain ⟨loaded, -, haccurate⟩ := h.accurate out hout
    rw [hout] at hwritten
    have hrows : out.rows.map ReplayRow.timestamp = ["2026-01-31 15:15:00", "2026-01-31 15:15:00"] :=
      Option.some.inj hwritten
    have hincreasing := List.pairwise_map.2 haccurate.increasing
    rw [hrows] at hincreasing
    obtain ⟨t, t', ht, ht', hlt⟩ := List.rel_of_pairwise_cons hincreasing List.mem_cons_self
    rw [ht] at ht'
    exact absurd (Option.some.inj ht') hlt.ne

end

end Candles
