import IctAlgo.Signals.Screening

/-!
# Notations of an instant

`Written i`: the ways in which a signal writes an instant. The killzone test and the decision of the
worker are those of the instant (`Kept`) exactly when the hour that the text shows lies in the windows
that the hour in UTC lies in (`ShowsWindow`).
-/

set_option autoImplicit false

namespace Signals

open Lib Lib.Isoformat Orchestrator

/-! ## Definitions -/

/-- A time in UTC, in milliseconds since 1970, of the years that `datetime` has. -/
structure Instant where
  ms : ℤ
  nonneg : 0 ≤ epoch * 1000 + ms
  lt_max : (epoch * 1000 + ms) * 1000 < Datetime.maxWall

namespace Instant

variable (i : Instant)

/-- The hour in UTC. -/
def hour : ℤ := i.ms / 1000 % 86400 / 3600

/-- The reading of a wall clock in UTC, in microseconds. -/
def wall : ℤ := (epoch * 1000 + i.ms) * 1000

/-- The seconds since 1970. -/
def seconds : ℚ := i.ms / 1000

end Instant

/-- The notations of an instant. -/
inductive Written (i : Instant) where
  | milliseconds
  | utc (t : IsoTime) (h : t.wall = i.wall)
  | offset (t : IsoTime) (z : Zone) (h : t.wall - z.offset = i.wall)
  | seconds (cs : List Char) (h : decimal? cs = some i.seconds)

/-- The same windows are open. -/
def SameWindows (hour hour' : ℤ) : Prop :=
  (7 ≤ hour ∧ hour < 10 ↔ 7 ≤ hour' ∧ hour' < 10) ∧
    (12 ≤ hour ∧ hour < 15 ↔ 12 ≤ hour' ∧ hour' < 15)

/-- A signal with this timestamp. -/
def withTimestamp (items : List (String × Value)) (ts : Value) : Value :=
  .dict (Dict.setItems items "timestamp" ts)

namespace Written

variable {i : Instant} (n : Written i) (py : Py)

def value : Value :=
  match n with
  | .milliseconds => .int i.ms
  | .utc t _ => .str (String.ofList (t.text ++ ['Z']))
  | .offset t z _ => .str (String.ofList (t.text ++ z.text))
  | .seconds cs _ => .str (String.ofList cs)

/-- The test answers for the hour in UTC, and the decision is that for the milliseconds. -/
def Kept : Prop :=
  (∀ session, isInKillzone py n.value session = .ok (inWindow session i.hour)) ∧
    ∀ items, (screen py (withTimestamp items n.value)).map Screened.isAccepted =
      (screen py (withTimestamp items (.int i.ms))).map Screened.isAccepted

/-- The hour of the text lies in the windows of the hour in UTC. A number of seconds shows no hour,
unless it is read as a day. -/
def ShowsWindow : Prop :=
  match n with
  | .offset t _ _ => SameWindows t.fields.hour i.hour
  | .seconds cs _ => ∀ dt, py.laterIso cs = some dt → SameWindows dt.hour i.hour
  | _ => True

end Written

/-! ## Hours -/

theorem inWindow_iff {hour hour' : ℤ} :
    (∀ session, inWindow session hour = inWindow session hour') ↔ SameWindows hour hour' := by
  refine ⟨fun h => ?_, fun h session => ?_⟩
  · have hlondon := h "london"
    have hny := h "ny"
    have hown : hasText "london" "london" = true ∧ hasText "ny" "ny" = true := by decide +kernel
    have hother : hasText "ny" "london" = false ∧ hasText "london" "ny" = false := by decide +kernel
    simp only [inWindow, hown, hother, Bool.true_and, Bool.false_and, Bool.or_false, Bool.false_or]
      at hlondon hny
    refine ⟨?_, ?_⟩
    · simpa using Bool.eq_iff_iff.1 hlondon
    · simpa using Bool.eq_iff_iff.1 hny
  · unfold inWindow
    congr 2
    · exact Bool.eq_iff_iff.2 (by simpa using h.1)
    · exact Bool.eq_iff_iff.2 (by simpa using h.2)

section
variable (offset : Option ℤ)

theorem hour_of_seconds {s u : ℤ} (h0 : 0 ≤ u) (h1 : u < 1000000) :
    (⟨(epoch + s) * 1000000 + u, offset⟩ : Datetime).hour = s % 86400 / 3600 := by
  simp only [Datetime.hour, Datetime.microsPerDay, Datetime.microsPerMinute, epoch]
  omega

theorem Instant.hour_wall (i : Instant) : (⟨i.wall, offset⟩ : Datetime).hour = i.hour := by
  simp only [Datetime.hour, Datetime.microsPerDay, Datetime.microsPerMinute, Instant.wall,
    Instant.hour, epoch]
  omega

theorem hour_isoTime (t : IsoTime) :
    (⟨t.wall, offset⟩ : Datetime).hour = t.fields.hour := by
  obtain ⟨-, hhour, hminute, hsecond⟩ := Strptime.Fields.valid_iff.1 t.valid
  have hmicros := t.micros_lt
  simp only [Datetime.hour, Datetime.microsPerDay, Datetime.microsPerMinute, IsoTime.wall,
    Strptime.Fields.instant]
  omega

end

/-! ## The test -/

section
variable (py : Py) (session : String)

theorem isInKillzone_of_time {ts : Value} {dt : Datetime}
    (h : parseTimestamp py ts = .ok (some dt)) :
    isInKillzone py ts session = .ok (inWindow session dt.hour) := by
  unfold isInKillzone
  rw [h]
  rfl

theorem parseTimestamp_iso {cs : List Char} {dt : Datetime} (h : isoformat? (stripZ cs) = some dt) :
    parseTimestamp py (.str (String.ofList cs)) = .ok (some dt) := by
  simp only [parseTimestamp, String.toList_ofList, Py.fromisoformat, h, Option.some_or]

theorem stripZ_concat (cs : List Char) : stripZ (cs ++ ['Z']) = cs := by
  simp [stripZ]

theorem stripZ_of_ne {cs : List Char} (h : cs.getLast? ≠ some 'Z') : stripZ cs = cs := if_neg h

variable (i : Instant)

theorem killzone_milliseconds :
    isInKillzone py (.int i.ms) session = .ok (inWindow session i.hour) := by
  have hlow := i.nonneg
  have hup := i.lt_max
  have htime : utcfromtimestamp (i.ms / 1000) = .ok ⟨(epoch + i.ms / 1000) * 1000000 + 0, none⟩ := by
    unfold utcfromtimestamp utcOfMicros?
    unfold epoch Datetime.maxWall Datetime.microsPerDay at *
    dsimp only
    rw [if_pos (by omega)]
    dsimp only
    congr 2
    omega
  have hparse : parseTimestamp py (.int i.ms) =
      .ok (some ⟨(epoch + i.ms / 1000) * 1000000 + 0, none⟩) := by
    simp only [parseTimestamp, htime]
    rfl
  rw [isInKillzone_of_time py session hparse, hour_of_seconds none le_rfl (by decide)]
  rfl

theorem killzone_utc (t : IsoTime) (h : t.wall = i.wall) :
    isInKillzone py (.str (String.ofList (t.text ++ ['Z']))) session =
      .ok (inWindow session i.hour) := by
  have hiso : isoformat? (stripZ (t.text ++ ['Z'])) = some ⟨t.wall, none⟩ := by
    rw [stripZ_concat, t.isoformat?_text]
  rw [isInKillzone_of_time py session (parseTimestamp_iso py hiso), h, i.hour_wall]

theorem stripZ_zone (cs : List Char) (z : Zone) : stripZ (cs ++ z.text) = cs ++ z.text := by
  have hdigit : ∀ d < 10, Nat.digitChar d ≠ 'Z' := by decide
  have hlast : (cs ++ z.text).getLast? = some (Nat.digitChar (z.minutes % 10)) := by
    simp [Zone.text, Strptime.pad_two]
  apply stripZ_of_ne
  rw [hlast]
  exact fun h => hdigit _ (Nat.mod_lt _ (by decide)) (Option.some.inj h)

theorem killzone_offset (t : IsoTime) (z : Zone) :
    isInKillzone py (.str (String.ofList (t.text ++ z.text))) session =
      .ok (inWindow session t.fields.hour) := by
  have hiso : isoformat? (stripZ (t.text ++ z.text)) = some ⟨t.wall, some z.offset⟩ := by
    rw [stripZ_zone, t.isoformat?_zone]
  rw [isInKillzone_of_time py session (parseTimestamp_iso py hiso), hour_isoTime]

theorem stripZ_decimal {cs : List Char} {q : ℚ} (h : decimal? cs = some q) : stripZ cs = cs := by
  apply stripZ_of_ne
  intro hlast
  obtain hminus | hdigit := decimal?_mem h _ (List.mem_of_getLast? hlast)
  · exact absurd hminus (by decide)
  · exact absurd hdigit (by decide)

/-- A number of seconds is the instant, unless it is read as a day. -/
theorem killzone_seconds (cs : List Char) (h : decimal? cs = some i.seconds) :
    isInKillzone py (.str (String.ofList cs)) session =
      .ok (inWindow session (((py.laterIso cs).map (·.hour)).getD i.hour)) := by
  have hlow := i.nonneg
  have hup := i.lt_max
  simp only [epoch, Datetime.maxWall, Datetime.microsPerDay] at hlow hup
  obtain ⟨x, micros, hx, h0, h1, htime⟩ := utcfromtimestamp?_nearest (t := i.ms) (by omega)
  have hutc : utcOfMicros? (i.ms / 1000 * 1000000 + micros) =
      some ⟨(epoch + i.ms / 1000) * 1000000 + micros, none⟩ := by
    unfold utcOfMicros? epoch Datetime.maxWall Datetime.microsPerDay
    dsimp only
    rw [if_pos (by omega)]
    congr 2
    ring
  have hfloat : (py.float cs).bind utcfromtimestamp? =
      some ⟨(epoch + i.ms / 1000) * 1000000 + micros, none⟩ := by
    simp only [Py.float, h, Instant.seconds, hx, Option.bind_some, htime, hutc]
  have hparse : parseTimestamp py (.str (String.ofList cs)) =
      .ok ((py.laterIso cs).or (some ⟨(epoch + i.ms / 1000) * 1000000 + micros, none⟩)) := by
    simp only [parseTimestamp, String.toList_ofList, stripZ_decimal h, Py.fromisoformat,
      isoformat?_decimal h, Option.none_or, hfloat]
  cases hlater : py.laterIso cs with
  | some dt =>
    rw [hlater] at hparse
    exact isInKillzone_of_time py session hparse
  | none =>
    rw [hlater] at hparse
    rw [isInKillzone_of_time py session hparse, hour_of_seconds none h0 h1]
    rfl

end

/-! ## The decision -/

section
variable (py : Py) (items : List (String × Value)) (ts ts' : Value)

theorem lookup_timestamp (key : String) :
    (Dict.setItems items "timestamp" ts).lookup key =
      if key = "timestamp" then some ts else items.lookup key := Dict.lookup_setItems _ _ _ _

theorem contains_withTimestamp (key : String) :
    py.contains (withTimestamp items ts) key = py.contains (withTimestamp items ts') key := by
  simp only [withTimestamp, Py.contains, lookup_timestamp]
  split <;> rfl

theorem item_withTimestamp {key : String} (h : key ≠ "timestamp") :
    py.item (withTimestamp items ts) key = py.item (withTimestamp items ts') key := by
  simp only [withTimestamp, Py.item, lookup_timestamp, if_neg h]

theorem item_timestamp : py.item (withTimestamp items ts) "timestamp" = .ok ts := by
  simp only [withTimestamp, Py.item, lookup_timestamp, if_pos]

theorem get_withTimestamp {key : String} (h : key ≠ "timestamp") (default : Value) :
    py.get (withTimestamp items ts) key default = py.get (withTimestamp items ts') key default := by
  simp only [withTimestamp, Py.get, lookup_timestamp, if_neg h]

theorem firstMissing_cons (v : Value) (key : String) (keys : List String) :
    firstMissing py (.ok v) (key :: keys) =
      (py.contains v key).bind fun found =>
        if found then firstMissing py (.ok v) keys else .ok (some key) := rfl

theorem firstMissing_withTimestamp (keys : List String) :
    firstMissing py (.ok (withTimestamp items ts)) keys =
      firstMissing py (.ok (withTimestamp items ts')) keys := by
  induction keys with
  | nil => rfl
  | cons key keys ih =>
    rw [firstMissing_cons, firstMissing_cons, contains_withTimestamp py items ts ts' key, ih]

theorem validateSignal_withTimestamp :
    validateSignal py (withTimestamp items ts) = validateSignal py (withTimestamp items ts') := by
  unfold validateSignal confidenceError
  rw [firstMissing_withTimestamp py items ts ts', item_withTimestamp py items ts ts' (by decide),
    item_withTimestamp py items ts ts' (by decide)]

theorem passesConfluence_withTimestamp (n : ℤ) :
    passesConfluence py (withTimestamp items ts) n =
      passesConfluence py (withTimestamp items ts') n := by
  unfold passesConfluence
  rw [get_withTimestamp py items ts ts' (by decide)]

/-- The end of the screening of a dictionary: the score is compared. -/
theorem isAccepted_scored (score : ℤ) :
    ((py.setItem (withTimestamp items ts) "confidence" (.int score)).bind fun signalData =>
        (py.item signalData "confidence").bind fun confidence =>
          (py.less confidence 75).bind fun low =>
            if low = true then .ok (.dropped "Signal dropped: low confidence")
            else .ok (.accepted signalData)).map Screened.isAccepted = .ok (!(score < 75)) := by
  simp only [withTimestamp, Py.setItem, Py.item, Py.less, Except.bind, Dict.lookup_setItems,
    if_pos]
  by_cases hlow : score < 75
  · simp [hlow, Except.map, Screened.isAccepted]
  · simp [hlow, Except.map, Screened.isAccepted]

section
variable {ts ts'} (h : isInKillzone py ts defaultSession = isInKillzone py ts' defaultSession)
include h

theorem scoreSignal_withTimestamp :
    scoreSignal py (withTimestamp items ts) = scoreSignal py (withTimestamp items ts') := by
  unfold scoreSignal
  rw [get_withTimestamp py items ts ts' (by decide), item_timestamp, item_timestamp,
    item_withTimestamp py items ts ts' (by decide)]
  show _ = (py.get (withTimestamp items ts') "confluences" (.list []) >>= fun conf =>
    py.len conf >>= fun n => isInKillzone py ts' defaultSession >>= _)
  rw [← h]
  rfl

/-- Where the test answers alike the decision is the same. -/
theorem isAccepted_withTimestamp :
    (screen py (withTimestamp items ts)).map Screened.isAccepted =
      (screen py (withTimestamp items ts')).map Screened.isAccepted := by
  unfold screen
  rw [validateSignal_withTimestamp py items ts ts', passesConfluence_withTimestamp py items ts ts',
    item_timestamp, item_timestamp, scoreSignal_withTimestamp py items h]
  cases validateSignal py (withTimestamp items ts') with
  | error e => rfl
  | ok err =>
    cases err with
    | some err => rfl
    | none =>
      show (Except.bind (passesConfluence py (withTimestamp items ts') 2) _).map _ =
        (Except.bind (passesConfluence py (withTimestamp items ts') 2) _).map _
      cases passesConfluence py (withTimestamp items ts') 2 with
      | error e => rfl
      | ok passes =>
        cases passes with
        | false => rfl
        | true =>
          show (Except.bind (isInKillzone py ts defaultSession) _).map _ =
            (Except.bind (isInKillzone py ts' defaultSession) _).map _
          rw [h]
          cases isInKillzone py ts' defaultSession with
          | error e => rfl
          | ok inside =>
            cases inside with
            | false => rfl
            | true =>
              show (Except.bind (scoreSignal py (withTimestamp items ts')) _).map _ =
                (Except.bind (scoreSignal py (withTimestamp items ts')) _).map _
              cases scoreSignal py (withTimestamp items ts') with
              | error e => rfl
              | ok score =>
                exact (isAccepted_scored py items ts score).trans
                  (isAccepted_scored py items ts' score).symm

end

end

/-! ## Notations -/

theorem inWindow_eq_iff (py : Py) (ts : Value) {hour hour' : ℤ}
    (h : ∀ session, isInKillzone py ts session = .ok (inWindow session hour)) :
    (∀ session, isInKillzone py ts session = .ok (inWindow session hour')) ↔
      SameWindows hour hour' := by
  simp only [h, Except.ok.injEq]
  exact inWindow_iff

/-- The answers of the test for a notation. -/
theorem Written.test_iff {i : Instant} (n : Written i) (py : Py) :
    (∀ session, isInKillzone py n.value session = .ok (inWindow session i.hour)) ↔
      n.ShowsWindow py := by
  cases n with
  | milliseconds => exact iff_of_true (fun session => killzone_milliseconds py session i) trivial
  | utc t h => exact iff_of_true (fun session => killzone_utc py session i t h) trivial
  | offset t z h => exact inWindow_eq_iff py _ fun session => killzone_offset py session t z
  | seconds cs h =>
    rw [Written.value, inWindow_eq_iff py _ fun session => killzone_seconds py session i cs h]
    show _ ↔ ∀ dt, py.laterIso cs = some dt → SameWindows dt.hour i.hour
    cases py.laterIso cs with
    | some dt => simp
    | none => simp [SameWindows]

/-- **The killzone test.** It answers for the instant, and the worker decides alike however the instant
is written, exactly when the hour that the text shows lies in the windows of the hour in UTC. -/
theorem killzone_kept_iff (py : Py) (i : Instant) (n : Written i) : n.Kept py ↔ n.ShowsWindow py := by
  unfold Written.Kept
  rw [n.test_iff py]
  refine and_iff_left_of_imp fun h items => ?_
  apply isAccepted_withTimestamp
  rw [(n.test_iff py).2 h, killzone_milliseconds]

/-- Seven o'clock in UTC, ten o'clock three hours east of it. -/
def sevenUtc : Instant where
  ms := 1704092400000
  nonneg := by decide
  lt_max := by decide

def tenEast : IsoTime where
  fields := ⟨2024, 1, 1, 10, 0, 0⟩
  micros := 0
  precision := .seconds
  valid := by decide
  micros_lt := by decide
  expressed := by decide

def threeHours : Zone := ⟨false, 3, 0, by decide, by decide⟩

/-- No other notations, and objects without methods. -/
def plainPy : Py where
  laterIso _ := none
  otherFloat _ := none
  intText := String.toInt?
  otherTimestamp _ := Py.typeError ""
  objectContains _ _ := Py.typeError ""
  objectItem _ _ := Py.typeError ""
  objectSetItem _ _ _ := Py.typeError ""
  objectGet _ _ _ := Py.typeError ""
  objectLen _ := Py.typeError ""
  objectInt _ := Py.typeError ""
  objectLess _ _ := Py.typeError ""

theorem killzone_lost : ¬ ∀ (py : Py) (i : Instant) (n : Written i), n.Kept py := by
  intro h
  have hwall : tenEast.wall - threeHours.offset = sevenUtc.wall := by decide +kernel
  have hkept := h plainPy sevenUtc (.offset tenEast threeHours hwall)
  have hshows : SameWindows 10 sevenUtc.hour :=
    ((Written.offset tenEast threeHours hwall).test_iff plainPy).1 hkept.1
  exact absurd hshows.1 (by decide +kernel)

end Signals
