import IctAlgo.Orchestrator.Process

/-!
# Normalised decisions

* `Shape`: the shape of a decision that later code relies on; `Normal`: what normalisation keeps.
* `get?_nextFields`: what `_normalize_decision` returns, key by key.
* `normalizeDecision_of_normal`: a normalised decision is not changed again.
* `normalises_iff`: the decisions that are brought into the shape.
-/

set_option autoImplicit false

namespace Orchestrator

open Lib

/-! ## Definitions -/

/-- The part of `datetime` that reads and writes ISO texts. -/
structure IsoClock where
  Moment : Type
  /-- `datetime.fromisoformat(text)`. -/
  parse : String → Option Moment
  /-- `m.isoformat()`. -/
  format : Moment → String
  aware : Moment → Bool
  /-- `m.replace(tzinfo=timezone.utc)`. -/
  inUtc : Moment → Moment
  /-- `int(m.timestamp() * 1000)`. -/
  ms : Moment → ℤ
  parse_empty : parse "" = none
  aware_inUtc : ∀ m, aware (inUtc m) = true
  parse_format : ∀ m, aware m = true → parse (format m) = some m

namespace IsoClock

variable (clock : IsoClock)

/-- The text and the milliseconds of a moment. -/
def instant (m : clock.Moment) : Instant := ⟨clock.format m, clock.ms m⟩

/-- The moment of a text, in UTC if it has no time zone. -/
def read (text : String) : Option Instant :=
  (clock.parse text).map fun m => clock.instant (if clock.aware m then m else clock.inUtc m)

end IsoClock

/-- The clock behind `isoText` and the moment of the call, and what `str` and `upper` do. -/
structure Reads (cv : Conv) (clock : IsoClock) (now : Instant) : Prop where
  isoText : cv.isoText = clock.read
  now : ∃ m, clock.aware m = true ∧ now = clock.instant m
  display_ne : ∀ v : Value, v.truthy = true → cv.display v ≠ ""
  upper_ne : ∀ s, s ≠ "" → cv.upper s ≠ ""
  upper_upper : ∀ s, cv.upper (cv.upper s) = cv.upper s
  upper_unknown : cv.upper "UNKNOWN" = "UNKNOWN"

/-- A value of a JSON type. -/
def Value.isJson : Value → Bool
  | .object .. => false
  | _ => true

/-- An `int`; a `bool` is one. -/
def Value.isInt : Value → Bool
  | .int _ | .bool _ => true
  | _ => false

/-- The fields that get a shape. -/
def shaped : List String :=
  ["symbol", "confidence", "timestamp", "timestamp_ms", "duration_ms", "summary", "repair_used",
    "fallback_used", "tags"]

/-- The shape of a decision. -/
structure Shape (clock : IsoClock) (d : Fields) : Prop where
  symbol : ∃ s, s ≠ "" ∧ d.get? "symbol" = some (.str s)
  confidence : ∃ q : ℚ, 0 ≤ q ∧ q ≤ 1 ∧ d.get? "confidence" = some (.float (.fin q))
  instant : ∃ text m, clock.parse text = some m ∧ clock.aware m = true ∧
    d.get? "timestamp" = some (.str text) ∧ d.get? "timestamp_ms" = some (.int (clock.ms m))
  durationMs : ∃ v, d.get? "duration_ms" = some v ∧ v.isInt = true
  summary : ∃ s, d.get? "summary" = some (.str s)
  repairUsed : ∃ b, d.get? "repair_used" = some (.bool b)
  fallbackUsed : ∃ b, d.get? "fallback_used" = some (.bool b)
  tags : ∃ ts : List String, d.get? "tags" = some (.list (ts.map .str))

/-- The other fields are unchanged; the two that have a default are added. -/
structure Keeps (d d' : Fields) : Prop where
  kept : ∀ key v, key ∉ shaped → d.get? key = some v → d'.get? key = some v
  added : ∀ key, key ∉ shaped → key ∉ ["bias", "recommendation"] → d.get? key = none →
    d'.get? key = none

/-- The conversions of `process_decision` do not raise; `bool` never does. -/
structure Converts (cv : Conv) (d : Fields) : Prop where
  confidence : (cv.float? (val d "confidence")).isSome = true
  timestampMs : (cv.int? (val d "timestamp_ms")).isSome = true
  durationMs : (cv.int? (val d "duration_ms")).isSome = true

/-- A decision is brought into the shape, once and for all. -/
def Normalises (cv : Conv) (clock : IsoClock) (now : Instant) (d : Fields) : Prop :=
  ∃ d', cv.normalizeDecision now (.dict d) = some d' ∧ Shape clock d' ∧ Keeps d d' ∧ Converts cv d' ∧
    ∀ now', cv.normalizeDecision now' (.dict d') = some d'

/-- Tags that `list` makes texts of: none, a text, a dictionary, or texts. -/
def TextTags (v : Value) : Prop :=
  v.truthy = false ∨ (∃ s, v = .str s) ∨ (∃ items, v = .dict items) ∨
    ∃ ts : List String, v = .list (ts.map .str)

/-- The fields that are there and are not converted have their types. -/
structure PlainFields (d : Fields) : Prop where
  durationMs : ∀ v, d.get? "duration_ms" = some v → v.isInt = true
  summary : ∀ v, d.get? "summary" = some v → ∃ s, v = .str s
  repairUsed : ∀ v, d.get? "repair_used" = some v → ∃ b, v = .bool b
  fallbackUsed : ∀ v, d.get? "fallback_used" = some v → ∃ b, v = .bool b
  tags : TextTags (val d "tags")

section
variable (cv : Conv)

/-! ## What is returned -/

theorem get?_setDefault (d : Fields) (k j : String) (v : Value) :
    (Conv.setDefault d k v).get? j = if j = k then some ((d.get? k).getD v) else d.get? j := by
  unfold Conv.setDefault
  cases hget : d.get? k with
  | some w =>
    rw [Option.isSome_some, if_pos rfl]
    split
    · rename_i hj
      rw [hj, hget]
      rfl
    · rfl
  | none => exact Dict.get?_set d k j v

/-- The moment of a decision. -/
def momentOf (now : Instant) (d : Fields) : Instant :=
  cv.instantOf now (if (val d "timestamp").truthy then val d "timestamp" else val d "timestamp_iso")

/-- What `_normalize_decision` returns, for the duration and the tags that it reads. -/
def nextFields (now : Instant) (d : Fields) (durationMs : ℤ) (tags : List Value) : Fields :=
  let symbol := val d "symbol"
  let conf := (cv.float? (d.getD "confidence" (.float (.fin 0)))).getD (.fin 0)
  let t := momentOf cv now d
  let d' := d.set "symbol" (.str (if symbol.truthy then cv.upper (cv.text symbol) else "UNKNOWN"))
  let d' := d'.set "confidence" (.float (Conv.clampConfidence conf))
  let d' := (d'.set "timestamp" (.str t.iso)).set "timestamp_ms" (.int t.ms)
  let d' := Conv.setDefault d' "bias" (.str "neutral")
  let d' := Conv.setDefault d' "recommendation" (.str "do_nothing")
  let d' := Conv.setDefault d' "duration_ms" (.int durationMs)
  let d' := Conv.setDefault d' "summary" (.str (cv.text (d.getD "summary" (.str ""))))
  let d' := Conv.setDefault d' "repair_used" (.bool (val d "repair_used").truthy)
  let d' := Conv.setDefault d' "fallback_used" (.bool (val d "fallback_used").truthy)
  d'.set "tags" (.list tags)

theorem normalizeDecision_eq (now : Instant) (d : Fields) :
    cv.normalizeDecision now (.dict d) = (cv.intOr0? (val d "duration_ms")).bind fun durationMs =>
      (cv.tagsOf (val d "tags")).bind fun tags => some (nextFields cv now d durationMs tags) := by
  unfold Conv.normalizeDecision nextFields momentOf
  simp only [val, Dict.getD, get?_setDefault, Dict.get?_set, String.reduceEq, if_false,
    Option.bind_eq_bind, Option.bind_some, Option.pure_def]
  rfl

theorem exists_nextFields {now : Instant} {d d' : Fields}
    (h : cv.normalizeDecision now (.dict d) = some d') :
    ∃ durationMs tags, cv.tagsOf (val d "tags") = some tags ∧
      d' = nextFields cv now d durationMs tags := by
  rw [normalizeDecision_eq] at h
  obtain ⟨durationMs, -, h⟩ := Option.bind_eq_some_iff.1 h
  obtain ⟨tags, htags, h⟩ := Option.bind_eq_some_iff.1 h
  exact ⟨durationMs, tags, htags, (Option.some.inj h).symm⟩

/-- The value of a key in what is returned. -/
def nextValue (now : Instant) (d : Fields) (durationMs : ℤ) (tags : List Value) : String → Option Value
  | "symbol" => some (.str (if (val d "symbol").truthy then cv.upper (cv.text (val d "symbol"))
      else "UNKNOWN"))
  | "confidence" => some (.float (Conv.clampConfidence
      ((cv.float? (d.getD "confidence" (.float (.fin 0)))).getD (.fin 0))))
  | "timestamp" => some (.str (momentOf cv now d).iso)
  | "timestamp_ms" => some (.int (momentOf cv now d).ms)
  | "bias" => some (d.getD "bias" (.str "neutral"))
  | "recommendation" => some (d.getD "recommendation" (.str "do_nothing"))
  | "duration_ms" => some (d.getD "duration_ms" (.int durationMs))
  | "summary" => some (d.getD "summary" (.str (cv.text (d.getD "summary" (.str "")))))
  | "repair_used" => some (d.getD "repair_used" (.bool (val d "repair_used").truthy))
  | "fallback_used" => some (d.getD "fallback_used" (.bool (val d "fallback_used").truthy))
  | "tags" => some (.list tags)
  | key => d.get? key

theorem get?_nextFields {now : Instant} {d : Fields} {durationMs : ℤ} {tags : List Value}
    (key : String) :
    (nextFields cv now d durationMs tags).get? key = nextValue cv now d durationMs tags key := by
  unfold nextFields nextValue
  split
  case h_12 hsymbol hconf hts hms hbias hrec hduration hsummary hrepair hfallback htags =>
    simp only [get?_setDefault, Dict.get?_set]
    rw [if_neg htags, if_neg hfallback, if_neg hrepair, if_neg hsummary, if_neg hduration, if_neg hrec,
      if_neg hbias, if_neg hms, if_neg hts, if_neg hconf, if_neg hsymbol]
  all_goals
    simp only [get?_setDefault, Dict.get?_set, Dict.getD, String.reduceEq, if_true, if_false]

end

section
variable {cv : Conv} {clock : IsoClock} {now : Instant} {d : Fields}

/-! ## Single fields -/

theorem val_of_get? {key : String} {v : Value} (h : d.get? key = some v) : val d key = v := by
  unfold val Dict.getD
  rw [h]
  rfl

theorem setDefault_of_get? {key : String} {v : Value} (w : Value) (h : d.get? key = some v) :
    Conv.setDefault d key w = d := by
  unfold Conv.setDefault
  rw [h]
  rfl

theorem clampConfidence_of_mem {q : ℚ} (h0 : 0 ≤ q) (h1 : q ≤ 1) :
    Conv.clampConfidence (.fin q) = .fin q := by
  have hmin : (if PyFloat.lt (.fin q) (.fin 1) then PyFloat.fin q else .fin 1) = .fin q := by
    rcases h1.lt_or_eq with hlt | rfl
    · exact if_pos (decide_eq_true hlt)
    · exact ite_self _
  unfold Conv.clampConfidence
  rw [hmin]
  rcases h0.lt_or_eq with hlt | rfl
  · exact if_pos (decide_eq_true hlt)
  · exact ite_self _

theorem clampConfidence_mem (conf : PyFloat) :
    ∃ q : ℚ, 0 ≤ q ∧ q ≤ 1 ∧ Conv.clampConfidence conf = .fin q := by
  have hone : Conv.clampConfidence (.fin 1) = .fin 1 := clampConfidence_of_mem zero_le_one le_rfl
  cases conf with
  | inf => exact ⟨1, zero_le_one, le_rfl, hone⟩
  | negInf => exact ⟨0, le_rfl, zero_le_one, rfl⟩
  | nan => exact ⟨1, zero_le_one, le_rfl, hone⟩
  | fin q =>
    by_cases h1 : q < 1
    · by_cases h0 : 0 < q
      · exact ⟨q, h0.le, h1.le, clampConfidence_of_mem h0.le h1.le⟩
      · refine ⟨0, le_rfl, zero_le_one, ?_⟩
        simp only [Conv.clampConfidence, PyFloat.lt, h1, h0, decide_true, decide_false, if_true,
          Bool.false_eq_true, if_false]
    · refine ⟨1, zero_le_one, le_rfl, Eq.trans ?_ hone⟩
      simp only [Conv.clampConfidence, PyFloat.lt, h1, lt_irrefl, decide_false, Bool.false_eq_true,
        if_false]

theorem tagsOf_texts (ts : List String) : cv.tagsOf (.list (ts.map .str)) = some (ts.map .str) := by
  unfold Conv.tagsOf
  cases ts with
  | nil => rfl
  | cons t ts => rfl

/-- Where `list` raises or leaves something else than texts. -/
theorem textTags_iff (cv : Conv) {v : Value} (hjson : v.isJson = true) :
    TextTags v ↔ ∃ ts : List String, cv.tagsOf v = some (ts.map .str) := by
  refine ⟨fun h => ?_, fun ⟨ts, h⟩ => ?_⟩
  · obtain hfalse | ⟨s, rfl⟩ | ⟨items, rfl⟩ | ⟨ts, rfl⟩ := h
    · exact ⟨[], by unfold Conv.tagsOf; rw [hfalse]; rfl⟩
    · unfold Conv.tagsOf
      split
      · exact ⟨[], rfl⟩
      · exact ⟨_, rfl⟩
    · unfold Conv.tagsOf
      split
      · exact ⟨[], rfl⟩
      · refine ⟨items.map Prod.fst, ?_⟩
        rw [List.map_map]
        rfl
    · exact ⟨ts, tagsOf_texts ts⟩
  · by_cases hfalse : v.truthy = false
    · exact .inl hfalse
    · rw [Bool.not_eq_false] at hfalse
      unfold Conv.tagsOf at h
      rw [hfalse] at h
      cases v with
      | str s => exact .inr (.inl ⟨s, rfl⟩)
      | dict items => exact .inr (.inr (.inl ⟨items, rfl⟩))
      | list xs => exact .inr (.inr (.inr ⟨ts, congrArg _ (Option.some.inj h)⟩))
      | object cls truth ref => cases hjson
      | _ => cases h

theorem intOr0?_of_isInt {v : Value} (h : v.isInt = true) : ∃ n, cv.intOr0? v = some n := by
  unfold Conv.intOr0?
  split
  · cases v with
    | int n => exact ⟨_, rfl⟩
    | bool b => exact ⟨_, rfl⟩
    | _ => cases h
  · exact ⟨_, rfl⟩

/-- What normalisation keeps: the shape, a symbol in upper case, a timestamp as it is written, and the
defaults. -/
structure Normal (cv : Conv) (d : Fields) : Prop where
  symbol : ∃ s, s ≠ "" ∧ cv.upper s = s ∧ d.get? "symbol" = some (.str s)
  confidence : ∃ q : ℚ, 0 ≤ q ∧ q ≤ 1 ∧ d.get? "confidence" = some (.float (.fin q))
  instant : ∃ t : Instant, t.iso ≠ "" ∧ cv.isoText t.iso = some t ∧
    d.get? "timestamp" = some (.str t.iso) ∧ d.get? "timestamp_ms" = some (.int t.ms)
  bias : ∃ v, d.get? "bias" = some v
  recommendation : ∃ v, d.get? "recommendation" = some v
  durationMs : ∃ v, d.get? "duration_ms" = some v ∧ v.isInt = true
  summary : ∃ v, d.get? "summary" = some v
  repairUsed : ∃ v, d.get? "repair_used" = some v
  fallbackUsed : ∃ v, d.get? "fallback_used" = some v
  tags : ∃ ts : List String, d.get? "tags" = some (.list (ts.map .str))

theorem truthy_str {s : String} (h : s ≠ "") : (Value.str s).truthy = true := decide_eq_true h

/-- A normalised decision is not changed again. -/
theorem normalizeDecision_of_normal (h : Normal cv d) (now : Instant) :
    cv.normalizeDecision now (.dict d) = some d := by
  obtain ⟨symbol, hne, hupper, hsymbol⟩ := h.symbol
  obtain ⟨q, h0, h1, hconf⟩ := h.confidence
  obtain ⟨t, hiso, hread, hts, hms⟩ := h.instant
  obtain ⟨bias, hbias⟩ := h.bias
  obtain ⟨rec, hrec⟩ := h.recommendation
  obtain ⟨duration, hduration, hint⟩ := h.durationMs
  obtain ⟨summary, hsummary⟩ := h.summary
  obtain ⟨repair, hrepair⟩ := h.repairUsed
  obtain ⟨fallback, hfallback⟩ := h.fallbackUsed
  obtain ⟨ts, htags⟩ := h.tags
  obtain ⟨n, hn⟩ : ∃ n, cv.intOr0? duration = some n := intOr0?_of_isInt hint
  have hmoment : momentOf cv now d = t := by
    unfold momentOf
    rw [val_of_get? hts, if_pos (truthy_str hiso)]
    change (if t.iso = "" then now else (cv.isoText t.iso).getD now) = t
    rw [if_neg hiso, hread]
    rfl
  have hsymbol' : (if (val d "symbol").truthy then cv.upper (cv.text (val d "symbol")) else "UNKNOWN") =
      symbol := by
    rw [val_of_get? hsymbol, if_pos (truthy_str hne)]
    exact hupper
  have hconf' : Conv.clampConfidence
      ((cv.float? (d.getD "confidence" (.float (.fin 0)))).getD (.fin 0)) = .fin q := by
    unfold Dict.getD
    rw [hconf]
    exact clampConfidence_of_mem h0 h1
  rw [normalizeDecision_eq, val_of_get? hduration, val_of_get? htags, hn, tagsOf_texts]
  refine congrArg some ?_
  unfold nextFields
  dsimp only
  rw [hmoment, hsymbol', hconf', Dict.set_self hsymbol, Dict.set_self hconf, Dict.set_self hts,
    Dict.set_self hms, setDefault_of_get? _ hbias, setDefault_of_get? _ hrec,
    setDefault_of_get? _ hduration, setDefault_of_get? _ hsummary, setDefault_of_get? _ hrepair,
    setDefault_of_get? _ hfallback, Dict.set_self htags]

/-! ## The shape -/

/-- The moment of a decision is one that is written with a time zone. -/
theorem momentOf_aware (hreads : Reads cv clock now) (d : Fields) :
    ∃ m, clock.aware m = true ∧ momentOf cv now d = clock.instant m := by
  obtain ⟨m, hm, hnow⟩ := hreads.now
  unfold momentOf
  generalize (if (val d "timestamp").truthy then val d "timestamp" else val d "timestamp_iso") = ts
  unfold Conv.instantOf
  split
  · split
    · exact ⟨m, hm, hnow⟩
    · rename_i text _
      rw [hreads.isoText]
      unfold IsoClock.read
      cases hparse : clock.parse text with
      | none => exact ⟨m, hm, hnow⟩
      | some m' =>
        refine ⟨if clock.aware m' then m' else clock.inUtc m', ?_, rfl⟩
        split
        · assumption
        · exact clock.aware_inUtc m'
  · exact ⟨m, hm, hnow⟩

theorem read_format (hreads : Reads cv clock now) {m : clock.Moment} (hm : clock.aware m = true) :
    cv.isoText (clock.format m) = some (clock.instant m) := by
  rw [hreads.isoText]
  unfold IsoClock.read
  rw [clock.parse_format m hm, Option.map_some, if_pos hm]

theorem format_ne (clock : IsoClock) {m : clock.Moment} (hm : clock.aware m = true) :
    clock.format m ≠ "" := by
  intro hempty
  have hparse := clock.parse_format m hm
  rw [hempty, clock.parse_empty] at hparse
  cases hparse

theorem text_ne (hreads : Reads cv clock now) {v : Value} (h : v.truthy = true) : cv.text v ≠ "" := by
  cases v with
  | str s => exact of_decide_eq_true h
  | _ => exact hreads.display_ne _ h

theorem normal_nextFields (hreads : Reads cv clock now) (h : PlainFields d) (durationMs : ℤ)
    (ts : List String) : Normal cv (nextFields cv now d durationMs (ts.map .str)) := by
  obtain ⟨m, hm, hmoment⟩ := momentOf_aware hreads d
  obtain ⟨q, h0, h1, hconf⟩ := clampConfidence_mem
    ((cv.float? (d.getD "confidence" (.float (.fin 0)))).getD (.fin 0))
  refine ⟨?_, ⟨q, h0, h1, ?_⟩, ⟨clock.instant m, format_ne clock hm, read_format hreads hm, ?_, ?_⟩,
    ⟨_, get?_nextFields cv _⟩, ⟨_, get?_nextFields cv _⟩, ⟨_, get?_nextFields cv _, ?_⟩,
    ⟨_, get?_nextFields cv _⟩, ⟨_, get?_nextFields cv _⟩, ⟨_, get?_nextFields cv _⟩,
    ⟨ts, get?_nextFields cv _⟩⟩
  · by_cases htruthy : (val d "symbol").truthy = true
    · refine ⟨_, hreads.upper_ne _ (text_ne hreads htruthy), hreads.upper_upper _, ?_⟩
      rw [get?_nextFields]
      exact congrArg (fun s => some (Value.str s)) (if_pos htruthy)
    · refine ⟨"UNKNOWN", by decide, hreads.upper_unknown, ?_⟩
      rw [get?_nextFields]
      exact congrArg (fun s => some (Value.str s)) (if_neg htruthy)
  · rw [get?_nextFields, ← hconf]
    rfl
  · rw [get?_nextFields, ← hmoment]
    rfl
  · rw [get?_nextFields, ← hmoment]
    rfl
  · unfold Dict.getD
    cases hduration : d.get? "duration_ms" with
    | none => rfl
    | some v => exact h.durationMs v hduration

/-- A field that is set when it is absent has the type of its default. -/
theorem getD_plain {key : String} {v : Value} {p : Value → Prop}
    (h : ∀ w, d.get? key = some w → p w) (hv : p v) : p (d.getD key v) := by
  unfold Dict.getD
  cases hget : d.get? key with
  | none => exact hv
  | some w => exact h w hget

theorem shape_nextFields (hreads : Reads cv clock now) (h : PlainFields d) (durationMs : ℤ)
    (ts : List String) : Shape clock (nextFields cv now d durationMs (ts.map .str)) := by
  have hnormal := normal_nextFields hreads h durationMs ts
  obtain ⟨m, hm, hmoment⟩ := momentOf_aware hreads d
  obtain ⟨symbol, hne, -, hsymbol⟩ := hnormal.symbol
  refine ⟨⟨symbol, hne, hsymbol⟩, hnormal.confidence,
    ⟨clock.format m, m, clock.parse_format m hm, hm, ?_, ?_⟩, hnormal.durationMs, ?_, ?_, ?_,
    hnormal.tags⟩
  · rw [get?_nextFields]
    exact congrArg (fun t : Instant => some (Value.str t.iso)) hmoment
  · rw [get?_nextFields]
    exact congrArg (fun t : Instant => some (Value.int t.ms)) hmoment
  · obtain ⟨s, hs⟩ := getD_plain (p := fun v => ∃ s, v = .str s) h.summary ⟨_, rfl⟩
    exact ⟨s, (get?_nextFields cv _).trans (congrArg some hs)⟩
  · obtain ⟨b, hb⟩ := getD_plain (p := fun v => ∃ b, v = .bool b) h.repairUsed ⟨_, rfl⟩
    exact ⟨b, (get?_nextFields cv _).trans (congrArg some hb)⟩
  · obtain ⟨b, hb⟩ := getD_plain (p := fun v => ∃ b, v = .bool b) h.fallbackUsed ⟨_, rfl⟩
    exact ⟨b, (get?_nextFields cv _).trans (congrArg some hb)⟩

theorem keeps_nextFields (cv : Conv) (now : Instant) (d : Fields) (durationMs : ℤ)
    (tags : List Value) : Keeps d (nextFields cv now d durationMs tags) := by
  refine ⟨fun key v hkey hv => ?_, fun key hkey hdefault hnone => ?_⟩
  · rw [get?_nextFields]
    unfold nextValue
    split
    case h_5 | h_6 =>
      unfold Dict.getD
      rw [hv]
      rfl
    case h_12 => exact hv
    all_goals exact absurd (by decide) hkey
  · rw [get?_nextFields]
    unfold nextValue
    split
    case h_5 | h_6 => exact absurd (by decide) hdefault
    case h_12 => exact hnone
    all_goals exact absurd (by decide) hkey

theorem converts_of_shape (h : Shape clock d) : Converts cv d := by
  obtain ⟨q, -, -, hconf⟩ := h.confidence
  obtain ⟨_, _, -, -, -, hms⟩ := h.instant
  obtain ⟨v, hv, hint⟩ := h.durationMs
  refine ⟨by rw [val_of_get? hconf]; rfl, by rw [val_of_get? hms]; rfl, ?_⟩
  rw [val_of_get? hv]
  cases v with
  | int n => rfl
  | bool b => rfl
  | _ => cases hint

/-- **Normalised decisions.** A decision of JSON values is brought into the shape that later code relies
on, once and for all, exactly when the fields that are taken as they are have their types. -/
theorem normalises_iff (hreads : Reads cv clock now)
    (hjson : ∀ key v, d.get? key = some v → v.isJson = true) :
    Normalises cv clock now d ↔ PlainFields d := by
  have htags : (val d "tags").isJson = true := by
    unfold val Dict.getD
    cases hget : d.get? "tags" with
    | none => rfl
    | some v => exact hjson _ v hget
  refine ⟨fun ⟨d', hd', hshape, _⟩ => ?_, fun h => ?_⟩
  · obtain ⟨durationMs, tags, hread, rfl⟩ := exists_nextFields cv hd'
    -- a field that is there stays as it is
    have hstays : ∀ {key : String} {v w : Value} (x : Value), d.get? key = some v →
        nextValue cv now d durationMs tags key = some (d.getD key x) →
        (nextFields cv now d durationMs tags).get? key = some w → v = w := by
      intro key v w x hv hnext hw
      rw [get?_nextFields, hnext] at hw
      unfold Dict.getD at hw
      rw [hv] at hw
      exact Option.some.inj hw
    obtain ⟨duration, hduration, hint⟩ := hshape.durationMs
    obtain ⟨summary, hsummary⟩ := hshape.summary
    obtain ⟨repair, hrepair⟩ := hshape.repairUsed
    obtain ⟨fallback, hfallback⟩ := hshape.fallbackUsed
    obtain ⟨ts, hts⟩ := hshape.tags
    refine ⟨fun v hv => ?_, fun v hv => ⟨summary, hstays _ hv rfl hsummary⟩,
      fun v hv => ⟨repair, hstays _ hv rfl hrepair⟩,
      fun v hv => ⟨fallback, hstays _ hv rfl hfallback⟩, (textTags_iff cv htags).2 ⟨ts, ?_⟩⟩
    · rw [hstays _ hv rfl hduration]
      exact hint
    · rw [get?_nextFields] at hts
      rw [hread, Value.list.inj (Option.some.inj hts)]
  · obtain ⟨ts, hts⟩ := (textTags_iff cv htags).1 h.tags
    obtain ⟨durationMs, hduration⟩ : ∃ n, cv.intOr0? (val d "duration_ms") = some n := by
      unfold val Dict.getD
      cases hget : d.get? "duration_ms" with
      | none => exact ⟨0, rfl⟩
      | some v => exact intOr0?_of_isInt (h.durationMs v hget)
    have hshape := shape_nextFields hreads h durationMs ts
    refine ⟨_, ?_, hshape, keeps_nextFields cv now d durationMs _, converts_of_shape hshape,
      normalizeDecision_of_normal (normal_nextFields hreads h durationMs ts)⟩
    rw [normalizeDecision_eq, hduration, hts]
    rfl

end

/-! ## Three decisions -/

/-- A clock that reads one text. -/
def mondayClock : IsoClock where
  Moment := Unit
  parse text := if text = "2026-01-05T10:00:00+00:00" then some () else none
  format _ := "2026-01-05T10:00:00+00:00"
  aware _ := true
  inUtc := id
  ms _ := 1767607200000
  parse_empty := by decide
  aware_inUtc _ := rfl
  parse_format _ _ := if_pos rfl

/-- Reads ASCII letters and this text only. -/
def mondayConv : Conv :=
  { Conv.plain with isoText := mondayClock.read, display := fun _ => "?" }

theorem toUpper_toUpper (c : Char) : c.toUpper.toUpper = c.toUpper := by
  unfold Char.toUpper
  split
  · rename_i h
    rw [dif_neg]
    rintro ⟨hlow, hhigh⟩
    rw [UInt32.le_iff_toNat_le] at hlow hhigh h
    rw [UInt32.le_iff_toNat_le] at h
    simp at hlow hhigh h
    omega
  · rfl

theorem mondayReads : Reads mondayConv mondayClock (mondayClock.instant ()) where
  isoText := rfl
  now := ⟨(), rfl, rfl⟩
  display_ne _ _ := by
    change "?" ≠ ""
    decide
  upper_ne s h := by
    intro hempty
    have hlist := congrArg String.toList hempty
    rw [show mondayConv.upper s = s.map Char.toUpper from rfl, String.toList_map, String.toList_empty,
      List.map_eq_nil_iff, String.toList_eq_nil_iff] at hlist
    exact h hlist
  upper_upper s := by
    change (s.map Char.toUpper).map Char.toUpper = s.map Char.toUpper
    refine String.toList_injective ?_
    simp only [String.toList_map, List.map_map]
    exact List.map_congr_left fun c _ => toUpper_toUpper c
  upper_unknown := by decide +kernel

/-- A decision that is well formed. -/
def mondayDecision : Fields :=
  Dict.ofItems [("symbol", .str "eurusd"), ("timestamp", .str "2026-01-05T10:00:00+00:00"),
    ("duration_ms", .int 5), ("tags", .str "a, b"), ("note", .null)]

/-- The duration is there, but null. -/
def nullDuration : Fields := Dict.ofItems [("symbol", .str "eurusd"), ("duration_ms", .null)]

/-- The tags are a number. -/
def numberTags : Fields := Dict.ofItems [("symbol", .str "eurusd"), ("tags", .int 5)]

theorem mondayDecision_json : ∀ key v, mondayDecision.get? key = some v → v.isJson = true := by
  have hall : ∀ item ∈ mondayDecision.items, item.2.isJson = true := by decide +kernel
  intro key v hv
  exact hall (key, v) (Dict.get?_eq_some_iff.1 hv)

theorem mondayDecision_plain : PlainFields mondayDecision where
  durationMs v hv := by
    rw [show mondayDecision.get? "duration_ms" = some (.int 5) from rfl] at hv
    cases hv
    rfl
  summary v hv := by cases hv
  repairUsed v hv := by cases hv
  fallbackUsed v hv := by cases hv
  tags := .inr (.inl ⟨"a, b", rfl⟩)

theorem mondayDecision_normalises :
    Normalises mondayConv mondayClock (mondayClock.instant ()) mondayDecision :=
  (normalises_iff mondayReads mondayDecision_json).2 mondayDecision_plain

/-- A null is kept, and a number is no list. -/
theorem unconverted_not_normalises :
    ¬Normalises mondayConv mondayClock (mondayClock.instant ()) nullDuration ∧
      ¬Normalises mondayConv mondayClock (mondayClock.instant ()) numberTags := by
  refine ⟨fun ⟨d', hd', hshape, _⟩ => ?_, fun ⟨d', hd', _⟩ => ?_⟩
  · obtain ⟨durationMs, tags, -, rfl⟩ := exists_nextFields _ hd'
    obtain ⟨v, hv, hint⟩ := hshape.durationMs
    rw [get?_nextFields] at hv
    obtain rfl : Value.null = v := Option.some.inj hv
    cases hint
  · obtain ⟨_, tags, htags, -⟩ := exists_nextFields _ hd'
    cases htags

end Orchestrator
