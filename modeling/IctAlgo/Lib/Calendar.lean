import Mathlib.Algebra.Order.Ring.Rat

/-!
# Dates and times

`ordinal`: the number of a day of the Gregorian calendar. `Datetime`: a wall clock reading in
microseconds since the first day of the year 1, with the fixed offset of its time zone if it has one; as
in Python, a naive one and an aware one do not compare. Others compare by their `instant`, which is not
so within a time zone whose offset changes.
-/

set_option autoImplicit false

namespace Lib

namespace Calendar

def isLeap (year : ℕ) : Bool := year % 4 = 0 && (year % 100 ≠ 0 || year % 400 = 0)

/-- The number of days of a month from 1 to 12. -/
def daysInMonth (year month : ℕ) : ℕ :=
  if month = 2 then if isLeap year then 29 else 28
  else if month = 4 || month = 6 || month = 9 || month = 11 then 30
  else 31

def daysBeforeYear (year : ℕ) : ℕ :=
  let y := year - 1
  y * 365 + y / 4 - y / 100 + y / 400

def daysBeforeMonth (year month : ℕ) : ℕ :=
  (List.range (month - 1)).foldl (fun days m => days + daysInMonth year (m + 1)) 0

/-- The day is one of the calendar that `datetime` takes. -/
def validDate (year month day : ℕ) : Bool :=
  1 ≤ year && year ≤ 9999 && 1 ≤ month && month ≤ 12 && 1 ≤ day && day ≤ daysInMonth year month

/-- The number of a day, from 0 on. -/
def ordinal (year month day : ℕ) : ℕ := daysBeforeYear year + daysBeforeMonth year month + (day - 1)

example : ordinal 1970 1 1 = 719162 := by decide
example : ordinal 2024 3 1 = ordinal 2024 2 28 + 2 := by decide

/-! ### The order of the days -/

theorem daysBeforeYear_succ {year : ℕ} (h : 1 ≤ year) :
    daysBeforeYear (year + 1) = daysBeforeYear year + 365 + if isLeap year then 1 else 0 := by
  obtain ⟨n, rfl⟩ := Nat.exists_eq_add_of_le' h
  have hleap : isLeap (n + 1) = true ↔ 4 ∣ n + 1 ∧ (¬100 ∣ n + 1 ∨ 400 ∣ n + 1) := by
    simp [isLeap, Nat.dvd_iff_mod_eq_zero]
  have hcentury : 100 ∣ n + 1 → 4 ∣ n + 1 := (Nat.dvd_trans (by decide))
  have hcycle : 400 ∣ n + 1 → 100 ∣ n + 1 := (Nat.dvd_trans (by decide))
  have hle : n / 100 ≤ n / 4 := Nat.div_le_div_left (by decide) (by decide)
  simp only [daysBeforeYear, Nat.add_sub_cancel, Nat.succ_div, hleap]
  generalize n / 4 = a at hle ⊢
  generalize n / 100 = b at hle ⊢
  -- a year has a leap day by the rule of four years, but for three of four centuries
  by_cases hfour : 4 ∣ n + 1
  · by_cases hhundred : 100 ∣ n + 1
    · by_cases hcycle' : 400 ∣ n + 1
      · simp only [hfour, hhundred, hcycle', not_true_eq_false, false_or, and_self, ↓reduceIte]
        omega
      · simp only [hfour, hhundred, hcycle', not_true_eq_false, or_self, and_false, ↓reduceIte]
        omega
    · simp only [hfour, hhundred, mt hcycle hhundred, not_false_eq_true, true_or, and_self, ↓reduceIte]
      omega
  · have hhundred := mt hcentury hfour
    simp only [hfour, hhundred, mt hcycle hhundred, false_and, ↓reduceIte]
    omega

theorem daysBeforeYear_lt {year year' : ℕ} (hpos : 1 ≤ year) (h : year < year') :
    daysBeforeYear year + 365 + (if isLeap year then 1 else 0) ≤ daysBeforeYear year' := by
  induction year', h using Nat.le_induction with
  | base => exact (daysBeforeYear_succ hpos).ge
  | succ year' hle ih =>
    rw [daysBeforeYear_succ (hpos.trans (Nat.le_of_succ_le hle))]
    omega

theorem daysBeforeMonth_succ (year : ℕ) {month : ℕ} (h : 1 ≤ month) :
    daysBeforeMonth year (month + 1) = daysBeforeMonth year month + daysInMonth year month := by
  obtain ⟨m, rfl⟩ := Nat.exists_eq_add_of_le' h
  simp [daysBeforeMonth, List.range_succ]

theorem daysBeforeMonth_lt (year : ℕ) {month month' : ℕ} (hpos : 1 ≤ month) (h : month < month') :
    daysBeforeMonth year month + daysInMonth year month ≤ daysBeforeMonth year month' := by
  induction month', h using Nat.le_induction with
  | base => exact (daysBeforeMonth_succ year hpos).ge
  | succ month' hle ih =>
    rw [daysBeforeMonth_succ year (hpos.trans (Nat.le_of_succ_le hle))]
    omega

theorem daysBeforeMonth_end (year : ℕ) :
    daysBeforeMonth year 13 = 365 + if isLeap year then 1 else 0 := by
  cases h : isLeap year <;> simp [daysBeforeMonth, daysInMonth, h, List.range_succ]

theorem validDate_iff {year month day : ℕ} : validDate year month day = true ↔
    1 ≤ year ∧ year ≤ 9999 ∧ 1 ≤ month ∧ month ≤ 12 ∧ 1 ≤ day ∧ day ≤ daysInMonth year month := by
  simp [validDate, and_assoc]

/-- The days are numbered in their order. -/
theorem ordinal_lt {year month day year' month' day' : ℕ} (h : validDate year month day = true)
    (h' : validDate year' month' day' = true)
    (hlt : year < year' ∨ year = year' ∧ (month < month' ∨ month = month' ∧ day < day')) :
    ordinal year month day < ordinal year' month' day' := by
  obtain ⟨hyear, -, hmonth, hmonth', hday, hday'⟩ := validDate_iff.1 h
  obtain ⟨-, -, -, -, hpos, -⟩ := validDate_iff.1 h'
  unfold ordinal
  rcases hlt with hlt | ⟨rfl, hlt | ⟨rfl, hlt⟩⟩
  · have hyears := daysBeforeYear_lt hyear hlt
    have hmonths := daysBeforeMonth_lt year hmonth (Nat.lt_succ_of_le hmonth')
    rw [daysBeforeMonth_end] at hmonths
    omega
  · have hmonths := daysBeforeMonth_lt year hmonth hlt
    omega
  · omega

end Calendar

/-- A `datetime`, naive or with a fixed offset. -/
structure Datetime where
  wall : ℤ
  offset : Option ℤ := none
  deriving DecidableEq

namespace Datetime

def microsPerMinute : ℤ := 60000000

def microsPerDay : ℤ := 86400000000

/-- The end of the year 9999. -/
def maxWall : ℤ := 3652059 * microsPerDay

/-- The day on the wall clock. -/
def date (d : Datetime) : ℤ := d.wall / microsPerDay

def hour (d : Datetime) : ℤ := d.wall % microsPerDay / (60 * microsPerMinute)

/-- `a - b` in microseconds, which raises for a naive and an aware one. -/
def sub? (a b : Datetime) : Option ℤ :=
  match a.offset, b.offset with
  | none, none => some (a.wall - b.wall)
  | some x, some y => some (a.wall - x - (b.wall - y))
  | _, _ => none

/-- `a < b`. -/
def lt? (a b : Datetime) : Option Bool := (a.sub? b).map (· < 0)

/-- `d + timedelta(minutes=m)`, which raises outside of the calendar. -/
def addMinutes? (d : Datetime) (m : ℤ) : Option Datetime :=
  let wall := d.wall + m * microsPerMinute
  if 0 ≤ wall ∧ wall < maxWall then some { d with wall } else none

/-! ### Instants -/

/-- It has the offset of its time zone. -/
def aware (d : Datetime) : Bool := d.offset.isSome

/-- The time in UTC, or on the wall clock of a naive one. -/
def instant (d : Datetime) : ℤ := d.wall - d.offset.getD 0

theorem sub?_eq (a b : Datetime) :
    a.sub? b = if a.aware = b.aware then some (a.instant - b.instant) else none := by
  unfold sub? aware instant
  cases a.offset <;> cases b.offset <;> simp

theorem lt?_eq (a b : Datetime) :
    a.lt? b = if a.aware = b.aware then some (decide (a.instant < b.instant)) else none := by
  unfold lt?
  rw [sub?_eq]
  split
  · simp
  · rfl

theorem addMinutes?_eq_some {d e : Datetime} {m : ℤ} (h : d.addMinutes? m = some e) :
    e.aware = d.aware ∧ e.instant = d.instant + m * microsPerMinute := by
  simp only [addMinutes?] at h
  split at h
  · obtain rfl := Option.some.inj h
    refine ⟨rfl, ?_⟩
    simp only [instant]
    omega
  · cases h

end Datetime

end Lib
