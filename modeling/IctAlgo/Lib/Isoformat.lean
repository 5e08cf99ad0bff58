import Mathlib.Tactic.Linarith
import IctAlgo.Lib.Decimal
import IctAlgo.Lib.FloatSum
import IctAlgo.Lib.Strftime

/-!
# ISO texts, and seconds since 1970

`isoformat?` reads `YYYY-MM-DD[*HH[:MM[:SS[.fff[fff]]]][+HH:MM[:SS[.ffffff]]]]`, where `*` is any
character; `decimal?` a number without an exponent; `utcfromtimestamp?` is the time of a number of
seconds, a float being rounded to microseconds as `datetime` does.

* `isoformat?_text`: a text that is written is read back.
* `utcfromtimestamp?_nearest`: rounding keeps the second of a number of milliseconds.
-/

set_option autoImplicit false

namespace Lib.Isoformat

open Strptime Decimal

/-! ## Reading -/

/-- `k` digits at the start of a text. -/
def digits? (k : ℕ) (cs : List Char) : Option (ℕ × List Char) :=
  number? (List.replicate k (digitIn 0 9)) 0 cs

structure Time where
  hour : ℕ
  minute : ℕ := 0
  second : ℕ := 0
  micros : ℕ := 0
  deriving DecidableEq

/-- `fff` or `ffffff`. -/
def fraction? (cs : List Char) : Option ℕ :=
  if cs.length = 3 then (digits? 3 cs).map fun m => m.1 * 1000
  else if cs.length = 6 then (digits? 6 cs).map Prod.fst
  else none

/-- `SS[.fff[fff]]` -/
def second? (t : Time) (cs : List Char) : Option Time :=
  match digits? 2 cs with
  | some (second, []) => some { t with second }
  | some (second, '.' :: cs) => (fraction? cs).map fun micros => { t with second, micros }
  | _ => none

/-- `MM[:SS[.fff[fff]]]` -/
def minute? (t : Time) (cs : List Char) : Option Time :=
  match digits? 2 cs with
  | some (minute, []) => some { t with minute }
  | some (minute, ':' :: cs) => second? { t with minute } cs
  | _ => none

/-- `HH[:MM[:SS[.fff[fff]]]]` -/
def time? (cs : List Char) : Option Time :=
  match digits? 2 cs with
  | some (hour, []) => some { hour }
  | some (hour, ':' :: cs) => minute? { hour } cs
  | _ => none

def Time.total (t : Time) : ℤ := ((t.hour * 60 + t.minute) * 60 + t.second) * 1000000 + t.micros

/-- The offset after its sign, which is less than a day. -/
def zone? (sign : ℤ) (cs : List Char) : Option ℤ :=
  if cs.length = 5 || cs.length = 8 || cs.length = 15 then
    (time? cs).bind fun t =>
      if t.total < Datetime.microsPerDay then some (sign * t.total) else none
  else none

/-- The day at the start of a text. -/
def date? (cs : List Char) : Option (ℕ × ℕ × ℕ × List Char) :=
  match digits? 4 cs with
  | some (year, '-' :: cs) =>
    match digits? 2 cs with
    | some (month, '-' :: cs) => (digits? 2 cs).map fun m => (year, month, m.1, m.2)
    | _ => none
  | _ => none

def isSign (c : Char) : Bool := c = '+' || c = '-'

/-- The fields of a time, if they are ones. -/
def assemble? (year month day : ℕ) (t : Time) (offset : Option ℤ) : Option Datetime :=
  let p : Fields := ⟨year, month, day, t.hour, t.minute, t.second⟩
  if p.valid then some ⟨p.instant * 1000000 + t.micros, offset⟩ else none

/-- `datetime.fromisoformat(text)`; `none` for a `ValueError`. -/
def isoformat? (cs : List Char) : Option Datetime :=
  match date? cs with
  | some (year, month, day, []) => assemble? year month day { hour := 0 } none
  | some (year, month, day, _ :: cs) =>
    (time? (cs.takeWhile (!isSign ·))).bind fun t =>
      match cs.dropWhile (!isSign ·) with
      | [] => assemble? year month day t none
      | sign :: cs => (zone? (if sign = '-' then -1 else 1) cs).bind fun offset =>
          assemble? year month day t (some offset)
  | none => none

/-! ## Numbers -/

/-- One or more digits, as a number. -/
def whole? (cs : List Char) : Option ℕ :=
  if cs = [] then none else (digits? cs.length cs).map Prod.fst

/-- A number in decimal notation. -/
def decimal? (cs : List Char) : Option ℚ :=
  let body := if cs.head? = some '-' then cs.tail else cs
  let sign : ℚ := if cs.head? = some '-' then -1 else 1
  match body.dropWhile (· ≠ '.') with
  | [] => (whole? body).map fun n : ℕ => sign * n
  | _ :: fraction => (whole? (body.takeWhile (· ≠ '.'))).bind fun n =>
      (whole? fraction).map fun m : ℕ => sign * (n + m / 10 ^ fraction.length)

/-- The seconds from the start of the year 1 to 1970. -/
def epoch : ℤ := 62135596800

def utcOfMicros? (micros : ℤ) : Option Datetime :=
  let wall := epoch * 1000000 + micros
  if 0 ≤ wall ∧ wall < Datetime.maxWall then some { wall } else none

/-- `utcfromtimestamp(x)`; `none` when it raises. -/
def utcfromtimestamp? : PyFloat → Option Datetime
  | .fin q =>
    let seconds := q.num.tdiv q.den
    match Binary64.nearest ((q - seconds) * 1000000) with
    | .fin micros => utcOfMicros? (seconds * 1000000 + roundHalfEven micros)
    | _ => none
  | _ => none

example : isoformat? "2024-01-01T10:00:00.250+03:00".toList =
    some ⟨63839700000250000, some 10800000000⟩ := by decide +kernel

/-! ## Writing -/

/-- How many digits a fraction is written with. -/
inductive Precision where
  | seconds | milliseconds | microseconds

/-- Nothing is cut off. -/
def Precision.expresses (micros : ℕ) : Precision → Bool
  | .seconds => micros = 0
  | .milliseconds => micros % 1000 = 0
  | .microseconds => true

def Precision.text (micros : ℕ) : Precision → List Char
  | .seconds => []
  | .milliseconds => '.' :: pad 3 (micros / 1000)
  | .microseconds => '.' :: pad 6 micros

/-- A time with the precision it is written with. -/
structure IsoTime where
  fields : Fields
  micros : ℕ
  precision : Precision
  valid : fields.valid = true
  micros_lt : micros < 1000000
  expressed : precision.expresses micros = true

/-- An offset in hours and minutes. -/
structure Zone where
  negative : Bool
  hours : ℕ
  minutes : ℕ
  hours_lt : hours < 24
  minutes_lt : minutes < 60

def Zone.offset (z : Zone) : ℤ :=
  (if z.negative then -1 else 1) * ((z.hours * 60 + z.minutes) * 60 * 1000000)

def Zone.text (z : Zone) : List Char :=
  (if z.negative then '-' else '+') :: (pad 2 z.hours ++ ':' :: pad 2 z.minutes)

namespace IsoTime

variable (t : IsoTime)

def time : Time := ⟨t.fields.hour, t.fields.minute, t.fields.second, t.micros⟩

/-- The reading of the wall clock. -/
def wall : ℤ := t.fields.instant * 1000000 + t.micros

def timeText : List Char :=
  pad 2 t.fields.hour ++ ':' :: (pad 2 t.fields.minute ++ ':' :: (pad 2 t.fields.second ++
    t.precision.text t.micros))

def text : List Char :=
  pad 4 t.fields.year ++ '-' :: (pad 2 t.fields.month ++ '-' :: (pad 2 t.fields.day ++
    'T' :: t.timeText))

end IsoTime

/-! ## Reading what is written -/

theorem number?_append (ds es : List DigitClass) (n : ℕ) (cs : List Char) :
    number? (ds ++ es) n cs = (number? ds n cs).bind fun m => number? es m.1 m.2 := by
  induction ds generalizing n cs with
  | nil => rfl
  | cons d ds ih =>
    cases cs with
    | nil => rfl
    | cons c cs =>
      simp only [List.cons_append, number?, Option.bind_assoc]
      exact congrArg _ (funext fun k => ih _ _)

theorem number?_pad {k n : ℕ} (h : n < 10 ^ k) (rest : List Char) :
    number? (List.replicate k (digitIn 0 9)) 0 (pad k n ++ rest) = some (n, rest) := by
  induction k generalizing n rest with
  | zero =>
    obtain rfl : n = 0 := by simpa using h
    rfl
  | succ k ih =>
    have hdigit : n % 10 < 10 := Nat.mod_lt _ (by decide)
    have hlt : n / 10 < 10 ^ k := by
      rw [Nat.pow_succ] at h
      omega
    rw [List.replicate_succ', number?_append, pad, List.append_assoc, ih hlt, Option.bind_some]
    simp only [List.singleton_append, number?, digitIn_digitChar hdigit]
    rw [if_pos (by omega), Option.bind_some]
    congr 2
    omega

theorem digits?_pad {k n : ℕ} (h : n < 10 ^ k) (rest : List Char) :
    digits? k (pad k n ++ rest) = some (n, rest) := number?_pad h rest

theorem not_isSign_pad {k n : ℕ} : ∀ c ∈ pad k n, isSign c = false := by
  induction k generalizing n with
  | zero => exact fun c hc => absurd hc List.not_mem_nil
  | succ k ih =>
    have hdigit : ∀ d < 10, isSign (Nat.digitChar d) = false := by decide
    intro c hc
    rw [pad, List.mem_append, List.mem_singleton] at hc
    obtain hc | rfl := hc
    · exact ih c hc
    · exact hdigit _ (Nat.mod_lt _ (by decide))

namespace IsoTime

variable (t : IsoTime)

theorem fraction?_text {cs : List Char} (h : t.precision.text t.micros = '.' :: cs) :
    fraction? cs = some t.micros := by
  have hmicros := t.micros_lt
  have hexpressed := t.expressed
  cases hp : t.precision with
  | seconds =>
    rw [hp] at h
    cases h
  | milliseconds =>
    rw [hp] at h hexpressed
    obtain rfl := (List.cons.inj h).2
    have hread := digits?_pad (k := 3) (n := t.micros / 1000) (by omega) []
    rw [List.append_nil] at hread
    have hmod : t.micros % 1000 = 0 := of_decide_eq_true hexpressed
    rw [fraction?, if_pos (length_pad 3 _), hread, Option.map_some, Option.some.injEq]
    omega
  | microseconds =>
    rw [hp] at h
    obtain rfl := (List.cons.inj h).2
    have hread := digits?_pad (k := 6) (n := t.micros) (by omega) []
    rw [List.append_nil] at hread
    rw [fraction?, length_pad, if_neg (by decide), if_pos rfl, hread, Option.map_some]

theorem time?_timeText : time? t.timeText = some t.time := by
  obtain ⟨-, -, -, hhour, hminute, hsecond⟩ := Fields.bounds t.valid
  simp only [time?, timeText, minute?, second?, digits?_pad hhour, digits?_pad hminute,
    digits?_pad hsecond]
  cases htext : t.precision.text t.micros with
  | nil =>
    have hmicros : t.micros = 0 := by
      have hexpressed := t.expressed
      cases hp : t.precision with
      | seconds =>
        rw [hp] at hexpressed
        exact of_decide_eq_true hexpressed
      | _ =>
        rw [hp] at htext
        cases htext
    unfold time
    rw [hmicros]
  | cons c cs =>
    have hdot : c = '.' := by
      cases hp : t.precision with
      | seconds =>
        rw [hp] at htext
        cases htext
      | _ =>
        rw [hp] at htext
        exact (List.cons.inj htext).1.symm
    subst hdot
    simp only [t.fraction?_text htext, Option.map_some]
    rfl

theorem not_isSign_timeText : ∀ c ∈ t.timeText, isSign c = false := by
  have hfraction : ∀ c ∈ t.precision.text t.micros, isSign c = false := by
    intro c hc
    cases hp : t.precision with
    | seconds =>
      rw [hp] at hc
      cases hc
    | _ =>
      rw [hp, Precision.text, List.mem_cons] at hc
      obtain rfl | hc := hc
      · decide
      · exact not_isSign_pad c hc
  intro c hc
  simp only [timeText, List.mem_append, List.mem_cons] at hc
  obtain hc | rfl | hc | rfl | hc | hc := hc
  · exact not_isSign_pad c hc
  · decide
  · exact not_isSign_pad c hc
  · decide
  · exact not_isSign_pad c hc
  · exact hfraction c hc

theorem date?_text (rest : List Char) : date? (t.text ++ rest) =
    some (t.fields.year, t.fields.month, t.fields.day, 'T' :: (t.timeText ++ rest)) := by
  obtain ⟨hyear, hmonth, hday, -⟩ := Fields.bounds t.valid
  unfold date? text
  simp only [List.append_assoc, List.cons_append]
  rw [digits?_pad hyear]
  simp only [digits?_pad hmonth, digits?_pad hday, Option.map_some]

theorem assemble?_fields (offset : Option ℤ) :
    assemble? t.fields.year t.fields.month t.fields.day t.time offset = some ⟨t.wall, offset⟩ := by
  unfold assemble?
  exact if_pos t.valid

/-- The offset begins at the first sign after the day. -/
theorem split_zone (rest : List Char) (h : ∀ c ∈ rest.head?, isSign c = true) :
    (t.timeText ++ rest).takeWhile (!isSign ·) = t.timeText ∧
      (t.timeText ++ rest).dropWhile (!isSign ·) = rest := by
  have htime : ∀ c ∈ t.timeText, (!isSign c) = true := fun c hc => by
    rw [t.not_isSign_timeText c hc]
    rfl
  rw [List.takeWhile_append_of_pos htime, List.dropWhile_append_of_pos htime]
  cases rest with
  | nil => exact ⟨List.append_nil _, rfl⟩
  | cons c rest =>
    have hc : isSign c = true := h c rfl
    simp [hc]

/-- A time without an offset is read back. -/
theorem isoformat?_text : isoformat? t.text = some ⟨t.wall, none⟩ := by
  have hdate := t.date?_text []
  obtain ⟨htake, hdrop⟩ := t.split_zone [] fun c hc => by cases hc
  rw [List.append_nil] at hdate
  unfold isoformat?
  rw [hdate]
  dsimp only
  rw [htake, hdrop, t.time?_timeText]
  exact t.assemble?_fields none

theorem zone?_text (sign : ℤ) (z : Zone) : zone? sign (pad 2 z.hours ++ ':' :: pad 2 z.minutes) =
    some (sign * ((z.hours * 60 + z.minutes) * 60 * 1000000)) := by
  have hhours := z.hours_lt
  have hminutes := z.minutes_lt
  have hread := digits?_pad (k := 2) (n := z.minutes) (by omega) []
  rw [List.append_nil] at hread
  have htime : time? (pad 2 z.hours ++ ':' :: pad 2 z.minutes) =
      some { hour := z.hours, minute := z.minutes } := by
    simp only [time?, minute?, digits?_pad (show z.hours < 10 ^ 2 by omega), hread]
  have hlength : (pad 2 z.hours ++ ':' :: pad 2 z.minutes).length = 5 := by
    simp [length_pad]
  have htotal : ({ hour := z.hours, minute := z.minutes } : Time).total =
      (z.hours * 60 + z.minutes) * 60 * 1000000 := by simp [Time.total]
  unfold zone?
  rw [hlength, if_pos (by decide), htime, Option.bind_some, htotal, if_pos]
  unfold Datetime.microsPerDay
  omega

/-- A time with an offset is read back. -/
theorem isoformat?_zone (z : Zone) :
    isoformat? (t.text ++ z.text) = some ⟨t.wall, some z.offset⟩ := by
  obtain ⟨htake, hdrop⟩ := t.split_zone z.text fun c hc => by
    obtain rfl := Option.some.inj hc
    split <;> decide
  unfold isoformat?
  rw [t.date?_text]
  dsimp only
  rw [htake, hdrop, t.time?_timeText, Option.bind_some]
  unfold Zone.text Zone.offset
  dsimp only
  rw [zone?_text, Option.bind_some, t.assemble?_fields]
  cases z.negative <;> rfl

end IsoTime

/-! ## Numbers of milliseconds -/

section
variable {k : ℤ} {x : ℚ}

theorem tdiv_eq_floor (h : 0 ≤ x) : x.num.tdiv x.den = ⌊x⌋ := by
  rw [Int.tdiv_eq_ediv_of_nonneg (Rat.num_nonneg.2 h), Rat.floor_def']

theorem tdiv_eq_ceil (h : x ≤ 0) : x.num.tdiv x.den = ⌈x⌉ := by
  have hneg := tdiv_eq_floor (x := -x) (neg_nonneg.2 h)
  rw [Rat.num_neg_eq_neg_num, Rat.den_neg_eq_den, Int.neg_tdiv, Int.floor_neg] at hneg
  exact neg_injective hneg

/-- The microseconds of a fraction of a second. -/
theorem micros_between (lo hi : ℤ) (hlo : lo.natAbs ≤ 2 ^ 53) (hhi : hi.natAbs ≤ 2 ^ 53)
    (hlox : lo ≤ x) (hxhi : x ≤ hi) :
    ∃ m, Binary64.nearest x = .fin m ∧ lo ≤ roundHalfEven m ∧ roundHalfEven m ≤ hi := by
  obtain ⟨m, hm, hlom, hmhi⟩ := Binary64.nearest_between (Binary64.nearest_intCast hlo)
    (Binary64.nearest_intCast hhi) hlox hxhi
  exact ⟨m, hm, le_roundHalfEven hlom, roundHalfEven_le hmhi⟩

theorem utcfromtimestamp?_of_near (hlo : k ≤ x) (hhi : x ≤ k + 1023 / 1024) :
    ∃ micros, 0 ≤ micros ∧ micros < 1000000 ∧
      utcfromtimestamp? (.fin x) = utcOfMicros? (k * 1000000 + micros) := by
  obtain hnonneg | hneg := le_or_gt 0 k
  · have hfloor : ⌊x⌋ = k := Int.floor_eq_iff.2 ⟨hlo, by linarith⟩
    have hx : 0 ≤ x := (Int.cast_nonneg hnonneg).trans hlo
    obtain ⟨m, hm, hlom, hmhi⟩ := micros_between (x := (x - k) * 1000000) 0 999024
      (by decide) (by decide) (by push_cast; linarith) (by push_cast; linarith)
    refine ⟨roundHalfEven m, hlom, by omega, ?_⟩
    simp only [utcfromtimestamp?, tdiv_eq_floor hx, hfloor, hm]
  · have hx : x ≤ 0 := by
      have hk : (k : ℚ) ≤ -1 := by exact_mod_cast Int.le_sub_one_of_lt hneg
      linarith
    obtain heq | hlt := hlo.eq_or_lt
    · have hceil : ⌈x⌉ = k := by rw [← heq, Int.ceil_intCast]
      obtain ⟨m, hm, hlom, hmhi⟩ := micros_between (x := (x - k) * 1000000) 0 0
        (by decide) (by decide) (by simp [heq]) (by simp [heq])
      refine ⟨roundHalfEven m, hlom, by omega, ?_⟩
      simp only [utcfromtimestamp?, tdiv_eq_ceil hx, hceil, hm]
    · have hceil : ⌈x⌉ = k + 1 := Int.ceil_eq_iff.2 ⟨by push_cast; linarith, by push_cast; linarith⟩
      obtain ⟨m, hm, hlom, hmhi⟩ := micros_between (x := (x - (k + 1 : ℤ)) * 1000000)
        (-1000000) (-976) (by decide) (by decide) (by push_cast; linarith)
        (by push_cast; linarith)
      refine ⟨1000000 + roundHalfEven m, by omega, by omega, ?_⟩
      simp only [utcfromtimestamp?, tdiv_eq_ceil hx, hceil, hm]
      congr 1
      ring

/-- Rounding a number of milliseconds to a float keeps the second. -/
theorem utcfromtimestamp?_nearest {t : ℤ} (h : t.natAbs ≤ 2 ^ 52) : ∃ x micros,
    Binary64.nearest (t / 1000) = .fin x ∧ 0 ≤ micros ∧ micros < 1000000 ∧
      utcfromtimestamp? (.fin x) = utcOfMicros? (t / 1000 * 1000000 + micros) := by
  have hmod : 0 ≤ t % 1000 ∧ t % 1000 < 1000 := by omega
  have hsplit : (t / 1000 : ℚ) = (t / 1000 : ℤ) + (t % 1000 : ℤ) / 1000 := by
    have hdiv : (t : ℚ) = ((t / 1000 : ℤ) : ℚ) * 1000 + (t % 1000 : ℤ) := by
      exact_mod_cast (Int.ediv_mul_add_emod t 1000).symm
    rw [hdiv]
    ring
  have hlow : (0 : ℚ) ≤ (t % 1000 : ℤ) := Int.cast_nonneg hmod.1
  have hup : ((t % 1000 : ℤ) : ℚ) ≤ 999 := by exact_mod_cast Int.le_of_lt_add_one hmod.2
  have hupper : Binary64.nearest (((t / 1000 : ℤ) : ℚ) + 1023 / 1024) =
      .fin (((t / 1000 : ℤ) : ℚ) + 1023 / 1024) := by
    have hdyadic := Binary64.nearest_div_two_pow (n := t / 1000 * 1024 + 1023) (j := 10)
      (by omega) (by decide)
    have hcast : (((t / 1000 * 1024 + 1023 : ℤ) : ℚ) / 2 ^ 10) =
        ((t / 1000 : ℤ) : ℚ) + 1023 / 1024 := by
      push_cast
      ring
    rwa [hcast] at hdyadic
  obtain ⟨x, hx, hlo, hhi⟩ := Binary64.nearest_between (q := (t / 1000 : ℚ))
    (Binary64.nearest_intCast (n := t / 1000) (by omega)) hupper (by rw [hsplit]; linarith)
    (by rw [hsplit]; linarith)
  obtain ⟨micros, hnonneg, hlt, htime⟩ := utcfromtimestamp?_of_near hlo hhi
  exact ⟨x, micros, hx, hnonneg, hlt, htime⟩

end

/-! ## A number is no ISO text -/

/-- A digit or the point. -/
def isDecimal (c : Char) : Bool := (digitIn 0 9 c).isSome || c = '.'

theorem number?_digits {k a n : ℕ} {cs rest : List Char}
    (h : number? (List.replicate k (digitIn 0 9)) a cs = some (n, rest)) :
    ∃ front, cs = front ++ rest ∧ front.length = k ∧ ∀ c ∈ front, isDecimal c = true := by
  induction k generalizing a cs with
  | zero =>
    obtain ⟨rfl, rfl⟩ := Prod.mk.inj (Option.some.inj h)
    exact ⟨[], rfl, rfl, fun c hc => absurd hc List.not_mem_nil⟩
  | succ k ih =>
    cases cs with
    | nil => cases h
    | cons c cs =>
      obtain ⟨digit, hdigit, hrest⟩ := Option.bind_eq_some_iff.1 h
      obtain ⟨front, rfl, hlength, hfront⟩ := ih hrest
      have hc : isDecimal c = true := by simp [isDecimal, hdigit]
      exact ⟨c :: front, rfl, by rw [List.length_cons, hlength], List.forall_mem_cons.2 ⟨hc, hfront⟩⟩

theorem whole?_digits {cs : List Char} {n : ℕ} (h : whole? cs = some n) :
    ∀ c ∈ cs, isDecimal c = true := by
  unfold whole? at h
  split at h
  · cases h
  · obtain ⟨⟨m, rest⟩, hread, -⟩ := Option.map_eq_some_iff.1 h
    obtain ⟨front, hcs, hlength, hfront⟩ := number?_digits hread
    have hrest : rest = [] := by
      have htotal := congrArg List.length hcs
      rw [List.length_append, hlength] at htotal
      exact List.length_eq_zero_iff.1 (by omega)
    rw [hrest, List.append_nil] at hcs
    rwa [hcs]

/-- After its sign a number has digits and a point. -/
theorem decimal?_digits {cs : List Char} {q : ℚ} (h : decimal? cs = some q) :
    ∀ c ∈ if cs.head? = some '-' then cs.tail else cs, isDecimal c = true := by
  unfold decimal? at h
  generalize (if cs.head? = some '-' then cs.tail else cs) = body at h ⊢
  have hbody := List.takeWhile_append_dropWhile (p := (· ≠ '.')) (l := body)
  dsimp only at h
  split at h
  · obtain ⟨n, hn, -⟩ := Option.map_eq_some_iff.1 h
    exact whole?_digits hn
  · rename_i point fraction hdrop
    obtain ⟨n, hn, hfraction⟩ := Option.bind_eq_some_iff.1 h
    obtain ⟨m, hm, -⟩ := Option.map_eq_some_iff.1 hfraction
    have hpoint : point = '.' := by
      have hhead := List.head?_dropWhile_not (fun c => decide (c ≠ '.')) body
      rw [hdrop] at hhead
      simpa using hhead
    intro c hc
    rw [← hbody, hdrop, List.mem_append, List.mem_cons] at hc
    obtain hc | rfl | hc := hc
    · exact whole?_digits hn c hc
    · rw [hpoint]
      decide
    · exact whole?_digits hm c hc

theorem decimal?_tail {cs : List Char} {q : ℚ} (h : decimal? cs = some q) :
    ∀ c ∈ cs.tail, isDecimal c = true := by
  have hdigits := decimal?_digits h
  split at hdigits
  · exact hdigits
  · exact fun c hc => hdigits c (List.mem_of_mem_tail hc)

theorem decimal?_mem {cs : List Char} {q : ℚ} (h : decimal? cs = some q) :
    ∀ c ∈ cs, c = '-' ∨ isDecimal c = true := by
  have hdigits := decimal?_digits h
  intro c hc
  split at hdigits
  · rename_i hminus
    cases cs with
    | nil => cases hc
    | cons c' cs =>
      obtain rfl := Option.some.inj hminus
      obtain rfl | hc := List.mem_cons.1 hc
      · exact .inl rfl
      · exact .inr (hdigits c hc)
  · exact .inr (hdigits c hc)

/-- A number is not read as a day. -/
theorem isoformat?_decimal {cs : List Char} {q : ℚ} (h : decimal? cs = some q) :
    isoformat? cs = none := by
  have hdate : date? cs = none := by
    unfold date?
    split
    · rename_i year rest hyear
      obtain ⟨front, rfl, hlength, -⟩ := number?_digits hyear
      have hminus : '-' ∈ (front ++ '-' :: rest).tail := by
        rw [List.tail_append_of_ne_nil (by rintro rfl; cases hlength)]
        simp
      exact absurd (decimal?_tail h _ hminus) (by decide)
    · rfl
  unfold isoformat?
  rw [hdate]

end Lib.Isoformat
