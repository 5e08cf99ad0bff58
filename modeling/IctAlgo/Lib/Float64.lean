import Mathlib.Tactic.Positivity
import IctAlgo.Lib.Decimal
import IctAlgo.Lib.PyVal

/-!
# Arithmetic of binary64 numbers

A finite float is a multiple of `2 ^ -1074`; counted in this unit a number is rounded to 53
significant bits, ties to even (`roundUnits`), and what leaves the range becomes infinite
(`nearest`). An operation rounds its exact result. There is one zero.

* `nearest_mono`, `nearest_idem`: rounding keeps the order and what is a float.
* `nearest_between`: so it does not leave an interval between two floats.
* `mul_lt_self`, `self_lt_mul`: a factor that differs from 1 by `2 ^ -52` or more moves a float.
-/

set_option autoImplicit false

namespace Lib.Binary64

open Decimal

/-- The number of units in 1. -/
@[irreducible] def scale : ℕ := 2 ^ 1074

/-- The first number of units that is out of range. -/
@[irreducible] def outOfRange : ℕ := 2 ^ 2098

/-- The number of the last bits of `u` units that are rounded away. -/
def excess (u : ℚ) : ℕ := ⌊|u|⌋.natAbs.log2 - 52

/-- A number of units rounded to 53 significant bits. -/
def roundUnits (u : ℚ) : ℤ := roundHalfEven (u / (2 ^ excess u : ℕ)) * (2 ^ excess u : ℕ)

/-- The float nearest to `q`. -/
def nearest (q : ℚ) : PyFloat :=
  if (roundUnits (q * scale)).natAbs < outOfRange then .fin (roundUnits (q * scale) / scale)
  else if 0 < q then .inf else .negInf

/-- `q` is a float. -/
def Representable (q : ℚ) : Prop := nearest q = .fin q

instance (q : ℚ) : Decidable (Representable q) := inferInstanceAs (Decidable (_ = _))

theorem Representable.nearest_eq {q : ℚ} (h : Representable q) : nearest q = .fin q := h

/-- The float a decimal literal stands for. -/
def literal (q : ℚ) : ℚ :=
  match nearest q with
  | .fin p => p
  | _ => q

/-- `-x`. -/
def neg : PyFloat → PyFloat
  | .fin p => .fin (-p)
  | .inf => .negInf
  | .negInf => .inf
  | .nan => .nan

/-- `abs(x)`. -/
def abs : PyFloat → PyFloat
  | .fin p => .fin |p|
  | .inf | .negInf => .inf
  | .nan => .nan

/-- `x + y`. -/
def add : PyFloat → PyFloat → PyFloat
  | .fin p, .fin q => nearest (p + q)
  | .nan, _ | _, .nan | .inf, .negInf | .negInf, .inf => .nan
  | .inf, _ | _, .inf => .inf
  | .negInf, _ | _, .negInf => .negInf

/-- `x - y`. -/
def sub (x y : PyFloat) : PyFloat := add x (neg y)

/-- An infinity of the sign of `q`; a zero has none. -/
def infinite (q : ℚ) : PyFloat := if 0 < q then .inf else if q < 0 then .negInf else .nan

theorem infinite_of_pos {q : ℚ} (h : 0 < q) : infinite q = .inf := if_pos h

theorem infinite_neg {q : ℚ} (h : 0 < q) : infinite (-q) = .negInf := by
  unfold infinite
  rw [if_neg (by linarith), if_pos (by linarith)]

/-- `x * y`. -/
def mul : PyFloat → PyFloat → PyFloat
  | .fin p, .fin q => nearest (p * q)
  | .nan, _ | _, .nan => .nan
  | .fin p, .inf | .inf, .fin p => infinite p
  | .fin p, .negInf | .negInf, .fin p => infinite (-p)
  | .inf, .inf | .negInf, .negInf => .inf
  | .inf, .negInf | .negInf, .inf => .negInf

/-- `x / q` for a finite divisor, which raises for zero. -/
def div : PyFloat → ℚ → PyFloat
  | .fin p, q => nearest (p / q)
  | .inf, q => infinite q
  | .negInf, q => infinite (-q)
  | .nan, _ => .nan

/-- `float(n)`, which raises for an integer out of range. -/
def floatOfInt? (n : ℤ) : Option PyFloat :=
  match nearest n with
  | .fin q => some (.fin q)
  | _ => none

/-! ## Significant bits -/

theorem scale_pos : (0 : ℚ) < scale := by
  apply Nat.cast_pos.2
  unfold scale
  apply Nat.pow_pos
  exact Nat.two_pos

theorem two_pow_pos (s : ℕ) : (0 : ℚ) < (2 ^ s : ℕ) := Nat.cast_pos.2 (Nat.two_pow_pos s)

theorem lt_two_pow_excess (u : ℚ) : |u| < (2 ^ (53 + excess u) : ℕ) := by
  have hfloor : (⌊|u|⌋.natAbs : ℤ) = ⌊|u|⌋ := Int.natAbs_of_nonneg (Int.floor_nonneg.2 (abs_nonneg u))
  have hlog : ⌊|u|⌋.natAbs < 2 ^ (⌊|u|⌋.natAbs.log2 + 1) := Nat.lt_log2_self
  have hle : 2 ^ (⌊|u|⌋.natAbs.log2 + 1) ≤ 2 ^ (53 + excess u) :=
    Nat.pow_le_pow_right Nat.two_pos (by unfold excess; omega)
  have hint : ⌊|u|⌋ < (2 ^ (53 + excess u) : ℕ) := by
    rw [← hfloor]
    exact_mod_cast hlog.trans_le hle
  exact_mod_cast Int.floor_lt.1 hint

/-- Bits are rounded away only where 53 of them are left. -/
theorem two_pow_excess_le {u : ℚ} (h : excess u ≠ 0) : (2 ^ (52 + excess u) : ℕ) ≤ |u| := by
  have hne : ⌊|u|⌋.natAbs ≠ 0 := by
    intro hzero
    unfold excess at h
    rw [hzero] at h
    exact h (by decide)
  have hlog : 2 ^ (52 + excess u) ≤ ⌊|u|⌋.natAbs := by
    have hexp : 52 + excess u = ⌊|u|⌋.natAbs.log2 := by
      unfold excess at h ⊢
      omega
    rw [hexp]
    exact Nat.log2_self_le hne
  have hfloor : (⌊|u|⌋.natAbs : ℤ) = ⌊|u|⌋ := Int.natAbs_of_nonneg (Int.floor_nonneg.2 (abs_nonneg u))
  have hint : ((2 ^ (52 + excess u) : ℕ) : ℤ) ≤ ⌊|u|⌋ := by
    rw [← hfloor]
    exact_mod_cast hlog
  exact_mod_cast Int.le_floor.1 hint

theorem excess_mono {u v : ℚ} (h : |u| ≤ |v|) : excess u ≤ excess v := by
  have hnonneg : 0 ≤ ⌊|u|⌋ := Int.floor_nonneg.2 (abs_nonneg u)
  have hfloor : ⌊|u|⌋ ≤ ⌊|v|⌋ := Int.floor_le_floor h
  unfold excess
  by_cases hzero : ⌊|u|⌋.natAbs = 0
  · rw [hzero]
    exact Nat.zero_le _
  · have hlog : ⌊|u|⌋.natAbs.log2 ≤ ⌊|v|⌋.natAbs.log2 := by
      rw [Nat.le_log2 (by omega)]
      exact (Nat.log2_self_le hzero).trans (by omega)
    omega

theorem excess_neg (u : ℚ) : excess (-u) = excess u := by
  unfold excess
  rw [abs_neg]

theorem roundUnits_neg (u : ℚ) : roundUnits (-u) = -roundUnits u := by
  have heven := roundHalfEven_even_sub 0 (u / (2 ^ excess u : ℕ))
  rw [mul_zero, Int.cast_zero, zero_sub, zero_sub] at heven
  unfold roundUnits
  rw [excess_neg, neg_div, heven, neg_mul]

theorem exists_roundUnits_eq (u : ℚ) :
    ∃ (m : ℤ) (s : ℕ), m.natAbs ≤ 2 ^ 53 ∧ roundUnits u = m * (2 ^ s : ℕ) := by
  refine ⟨roundHalfEven (u / (2 ^ excess u : ℕ)), excess u, ?_, rfl⟩
  have habs : |u / (2 ^ excess u : ℕ)| ≤ ((2 ^ 53 : ℕ) : ℚ) := by
    rw [abs_div, abs_of_pos (two_pow_pos _), div_le_iff₀ (two_pow_pos _)]
    refine (lt_two_pow_excess u).le.trans_eq ?_
    rw [Nat.pow_add, Nat.cast_mul]
  have hlo : -((2 ^ 53 : ℕ) : ℤ) ≤ roundHalfEven (u / (2 ^ excess u : ℕ)) := by
    apply le_roundHalfEven
    push_cast at habs ⊢
    exact (abs_le.1 habs).1
  have hhi : roundHalfEven (u / (2 ^ excess u : ℕ)) ≤ ((2 ^ 53 : ℕ) : ℤ) := by
    apply roundHalfEven_le
    push_cast at habs ⊢
    exact (abs_le.1 habs).2
  omega

/-- A number of at most 53 significant bits is not rounded. -/
theorem roundUnits_of_bits {m : ℤ} (h : m.natAbs ≤ 2 ^ 53) (s : ℕ) :
    roundUnits (m * (2 ^ s : ℕ) : ℤ) = m * (2 ^ s : ℕ) := by
  -- the bits rounded away are among the last `s`, except for a power of two
  have hshort : ∀ {n : ℤ} {s : ℕ}, n.natAbs < 2 ^ 53 →
      roundUnits (n * (2 ^ s : ℕ) : ℤ) = n * (2 ^ s : ℕ) := by
    intro n s hn
    have hexcess : excess (n * (2 ^ s : ℕ) : ℤ) ≤ s := by
      have hfloor : ⌊|((n * (2 ^ s : ℕ) : ℤ) : ℚ)|⌋.natAbs = n.natAbs * 2 ^ s := by
        rw [← Int.cast_abs, Int.floor_intCast, Int.natAbs_abs, Int.natAbs_mul, Int.natAbs_natCast]
      unfold excess
      rw [hfloor]
      by_cases hzero : n.natAbs * 2 ^ s = 0
      · rw [hzero]
        exact Nat.zero_le _
      · have hlog : (n.natAbs * 2 ^ s).log2 < 53 + s := by
          rw [Nat.log2_lt hzero, Nat.pow_add]
          exact Nat.mul_lt_mul_of_pos_right hn (Nat.two_pow_pos s)
        omega
    generalize hu : ((n * (2 ^ s : ℕ) : ℤ) : ℚ) = u at hexcess
    have hsplit : (2 ^ s : ℕ) = 2 ^ (s - excess u) * 2 ^ excess u := by
      rw [← Nat.pow_add, Nat.sub_add_cancel hexcess]
    have hquot : u / (2 ^ excess u : ℕ) = ((n * (2 ^ (s - excess u) : ℕ) : ℤ) : ℚ) := by
      rw [div_eq_iff (two_pow_pos _).ne']
      calc u = ((n * (2 ^ s : ℕ) : ℤ) : ℚ) := hu.symm
        _ = ((n * (2 ^ (s - excess u) : ℕ) : ℤ) : ℚ) * (2 ^ excess u : ℕ) := by
          rw [hsplit]
          push_cast
          ring
    unfold roundUnits
    rw [hquot, roundHalfEven_intCast, mul_assoc, ← Nat.cast_mul, ← hsplit]
  obtain hlt | heq := h.lt_or_eq
  · exact hshort hlt
  · obtain ⟨k, rfl⟩ : ∃ k : ℤ, m = 2 * k := ⟨m / 2, by omega⟩
    have hk : k.natAbs < 2 ^ 53 := by omega
    have hpow : 2 * k * (2 ^ s : ℕ) = k * (2 ^ (s + 1) : ℕ) := by
      push_cast
      ring
    rw [hpow]
    exact hshort hk

theorem roundUnits_idem (u : ℚ) : roundUnits (roundUnits u) = roundUnits u := by
  obtain ⟨m, s, hm, heq⟩ := exists_roundUnits_eq u
  rw [heq, roundUnits_of_bits hm]

theorem roundUnits_nonneg {u : ℚ} (h : 0 ≤ u) : 0 ≤ roundUnits u := by
  have hquot : 0 ≤ roundHalfEven (u / (2 ^ excess u : ℕ)) := by
    apply le_roundHalfEven
    rw [Int.cast_zero]
    exact div_nonneg h (two_pow_pos _).le
  unfold roundUnits
  exact mul_nonneg hquot (Int.natCast_nonneg _)

/-- Numbers that keep different bits have a power of two between them, which both roundings
respect. -/
theorem roundUnits_mono_of_nonneg {u v : ℚ} (hu : 0 ≤ u) (h : u ≤ v) :
    roundUnits u ≤ roundUnits v := by
  have hv := hu.trans h
  have hle : excess u ≤ excess v := excess_mono (by rwa [abs_of_nonneg hu, abs_of_nonneg hv])
  obtain hlt | heq := hle.lt_or_eq
  · have hlow : u ≤ (2 ^ (52 + excess v) : ℕ) := by
      have hbits := (lt_two_pow_excess u).le
      rw [abs_of_nonneg hu] at hbits
      exact hbits.trans (Nat.cast_le.2 (Nat.pow_le_pow_right Nat.two_pos (by omega)))
    have hhigh : ((2 ^ (52 + excess v) : ℕ) : ℚ) ≤ v := by
      have hbits := two_pow_excess_le (u := v) (by omega)
      rwa [abs_of_nonneg hv] at hbits
    have hrest : 52 + excess v = 52 + excess v - excess u + excess u := by omega
    calc roundUnits u ≤ (2 ^ (52 + excess v - excess u) : ℕ) * (2 ^ excess u : ℕ) := by
          apply mul_le_mul_of_nonneg_right _ (Int.natCast_nonneg _)
          apply roundHalfEven_le
          rw [div_le_iff₀ (two_pow_pos _), Int.cast_natCast, ← Nat.cast_mul, ← Nat.pow_add, ← hrest]
          exact hlow
      _ = (2 ^ 52 : ℕ) * (2 ^ excess v : ℕ) := by
          rw [← Nat.cast_mul, ← Nat.cast_mul, ← Nat.pow_add, ← Nat.pow_add, ← hrest]
      _ ≤ roundUnits v := by
          apply mul_le_mul_of_nonneg_right _ (Int.natCast_nonneg _)
          apply le_roundHalfEven
          rw [le_div_iff₀ (two_pow_pos _), Int.cast_natCast, ← Nat.cast_mul, ← Nat.pow_add]
          exact hhigh
  · unfold roundUnits
    rw [heq]
    apply mul_le_mul_of_nonneg_right _ (Int.natCast_nonneg _)
    apply roundHalfEven_mono
    exact div_le_div_of_nonneg_right h (two_pow_pos _).le

theorem roundUnits_nonpos {u : ℚ} (h : u ≤ 0) : roundUnits u ≤ 0 := by
  have hflip := roundUnits_nonneg (neg_nonneg.2 h)
  rw [roundUnits_neg] at hflip
  omega

theorem roundUnits_mono {u v : ℚ} (h : u ≤ v) : roundUnits u ≤ roundUnits v := by
  obtain hu | hu := le_total 0 u
  · exact roundUnits_mono_of_nonneg hu h
  · obtain hv | hv := le_total 0 v
    · exact (roundUnits_nonpos hu).trans (roundUnits_nonneg hv)
    · have hflip := roundUnits_mono_of_nonneg (neg_nonneg.2 hv) (neg_le_neg h)
      rw [roundUnits_neg, roundUnits_neg] at hflip
      omega

/-! ## Rounding to a float -/

theorem outOfRange_pos : 0 < outOfRange := by
  unfold outOfRange
  apply Nat.pow_pos
  exact Nat.two_pos

theorem nearest_mono {p q : ℚ} (h : p ≤ q) : (nearest p).le (nearest q) = true := by
  have hround := roundUnits_mono (mul_le_mul_of_nonneg_right h scale_pos.le)
  have hrange := outOfRange_pos
  have hsign : ∀ {r : ℚ}, ¬0 < r → roundUnits (r * scale) ≤ 0 := fun hr =>
    roundUnits_nonpos (mul_nonpos_of_nonpos_of_nonneg (not_lt.1 hr) scale_pos.le)
  unfold nearest
  by_cases hp : (roundUnits (p * scale)).natAbs < outOfRange
  · rw [if_pos hp]
    by_cases hq : (roundUnits (q * scale)).natAbs < outOfRange
    · rw [if_pos hq]
      exact decide_eq_true ((div_le_div_iff_of_pos_right scale_pos).2 (Int.cast_le.2 hround))
    · have hup : 0 < q := by
        by_contra hdown
        have := hsign hdown
        omega
      rw [if_neg hq, if_pos hup]
      rfl
  · rw [if_neg hp]
    by_cases hup : 0 < p
    · have := roundUnits_nonneg (mul_nonneg hup.le scale_pos.le)
      rw [if_pos hup, if_neg (by omega), if_pos (hup.trans_le h)]
      rfl
    · rw [if_neg hup]
      split
      · rfl
      · split <;> rfl

theorem units_div_scale (z : ℤ) : (z / scale * scale : ℚ) = z := div_mul_cancel₀ _ scale_pos.ne'

theorem nearest_ne_nan (q : ℚ) : nearest q ≠ .nan := by
  unfold nearest
  split
  · simp
  · split <;> simp

/-- Numbers are ordered, NaN is not. -/
theorem lt_eq_false_iff {x y : PyFloat} (hx : x ≠ .nan) (hy : y ≠ .nan) :
    x.lt y = false ↔ y.le x = true := by
  cases x <;> cases y <;> simp_all [PyFloat.lt, PyFloat.le]

theorem eq_of_le_of_le {x y : PyFloat} (h : x.le y = true) (h' : y.le x = true) : x = y := by
  cases x <;> cases y <;> simp_all [PyFloat.le, PyFloat.lt]
  apply le_antisymm h h'

/-- The float is what it is rounded to. -/
theorem nearest_idem {p q : ℚ} (h : nearest p = .fin q) : Representable q := by
  unfold nearest at h
  split at h
  · rename_i hrange
    obtain rfl := PyFloat.fin.inj h
    unfold Representable nearest
    rw [units_div_scale, roundUnits_idem, if_pos hrange]
  · split at h <;> cases h

theorem nearest_neg (q : ℚ) : nearest (-q) = neg (nearest q) := by
  have hunits : roundUnits (-q * scale) = -roundUnits (q * scale) := by rw [neg_mul, roundUnits_neg]
  by_cases hrange : (roundUnits (q * scale)).natAbs < outOfRange
  · unfold nearest
    rw [hunits, Int.natAbs_neg, if_pos hrange, if_pos hrange, Int.cast_neg, neg_div]
    rfl
  · have hne : q ≠ 0 := by
      rintro rfl
      have hzero : roundUnits (0 * scale) = 0 := by
        rw [zero_mul]
        exact roundUnits_idem 0 ▸ roundUnits_of_bits (m := 0) (by decide) 0
      rw [hzero] at hrange
      exact hrange outOfRange_pos
    unfold nearest
    rw [hunits, Int.natAbs_neg, if_neg hrange, if_neg hrange]
    obtain hneg | hpos := hne.lt_or_gt
    · rw [if_pos (neg_pos.2 hneg), if_neg hneg.not_gt]
      rfl
    · rw [if_neg (by linarith), if_pos hpos]
      rfl

theorem scale_eq {j : ℕ} (hj : j ≤ 1074) : scale = 2 ^ (1074 - j) * 2 ^ j := by
  unfold scale
  rw [← Nat.pow_add, Nat.sub_add_cancel hj]

/-- Numbers of at most 53 bits are floats. -/
theorem nearest_div_two_pow {n : ℤ} {j : ℕ} (h : n.natAbs ≤ 2 ^ 53) (hj : j ≤ 1074) :
    Representable (n / 2 ^ j) := by
  have hscale := scale_eq hj
  have hunits : (n / 2 ^ j * scale : ℚ) = (n * (2 ^ (1074 - j) : ℕ) : ℤ) := by
    rw [hscale, Nat.cast_mul, Int.cast_mul, Int.cast_natCast, Nat.cast_pow (2 : ℕ) j, Nat.cast_ofNat]
    rw [mul_comm ((2 ^ (1074 - j) : ℕ) : ℚ), ← mul_assoc, div_mul_cancel₀ _ (pow_ne_zero j two_ne_zero)]
  have hle : 2 ^ (1074 - j) ≤ scale := by
    rw [hscale]
    exact Nat.le_mul_of_pos_right _ (Nat.two_pow_pos j)
  have hrange : (n * ((2 ^ (1074 - j) : ℕ) : ℤ)).natAbs < outOfRange := by
    rw [Int.natAbs_mul, Int.natAbs_natCast]
    calc n.natAbs * 2 ^ (1074 - j) ≤ 2 ^ 53 * scale := Nat.mul_le_mul h hle
      _ < outOfRange := by
        unfold scale outOfRange
        rw [← Nat.pow_add]
        apply Nat.pow_lt_pow_right
        · decide
        · decide
  unfold Representable nearest
  rw [hunits, roundUnits_of_bits h, if_pos hrange, ← hunits, mul_div_cancel_right₀ _ scale_pos.ne']

/-- Integers of at most 53 bits are floats. -/
theorem nearest_intCast {n : ℤ} (h : n.natAbs ≤ 2 ^ 53) : Representable n := by
  have hint := nearest_div_two_pow (j := 0) h (Nat.zero_le _)
  rwa [pow_zero, div_one] at hint

theorem nearest_zero : Representable 0 := nearest_intCast (n := 0) (by decide)

/-- A number between two floats is rounded to one between them. -/
theorem nearest_between {a b q : ℚ} (ha : Representable a) (hb : Representable b)
    (haq : a ≤ q) (hqb : q ≤ b) : ∃ x, nearest q = .fin x ∧ a ≤ x ∧ x ≤ b := by
  have hlo := nearest_mono haq
  have hhi := nearest_mono hqb
  rw [ha.nearest_eq] at hlo
  rw [hb.nearest_eq] at hhi
  generalize nearest q = y at hlo hhi
  cases y with
  | fin x => exact ⟨x, rfl, of_decide_eq_true hlo, of_decide_eq_true hhi⟩
  | inf => cases hhi
  | negInf => cases hlo
  | nan => cases hlo

theorem nearest_nonpos {q : ℚ} (h : q ≤ 0) : (nearest q).le (.fin 0) = true := by
  have hmono := nearest_mono h
  rwa [nearest_zero.nearest_eq] at hmono

theorem floatOfInt?_nonpos {n : ℤ} {x : PyFloat} (h : floatOfInt? n = some x) (hn : n ≤ 0) :
    x.le (.fin 0) = true := by
  have hle := nearest_nonpos (Int.cast_nonpos.2 hn)
  unfold floatOfInt? at h
  generalize nearest n = y at h hle
  cases y with
  | fin q => rwa [← Option.some.inj h]
  | _ => cases h

theorem floatOfInt?_pos {n : ℤ} {x : PyFloat} (h : floatOfInt? n = some x) (hn : 0 < n) :
    PyFloat.lt (.fin 0) x = true := by
  have hone : Representable 1 := by exact_mod_cast nearest_intCast (n := 1) (by decide)
  have hle := nearest_mono (Int.cast_le.2 (Int.add_one_le_of_lt hn) : ((0 + 1 : ℤ) : ℚ) ≤ n)
  rw [zero_add, Int.cast_one, hone.nearest_eq] at hle
  unfold floatOfInt? at h
  generalize nearest n = y at h hle
  cases y with
  | fin q =>
    rw [← Option.some.inj h]
    exact decide_eq_true (zero_lt_one.trans_le (of_decide_eq_true hle))
  | _ => cases h

theorem outOfRange_eq : outOfRange = 2 ^ 1024 * scale := by
  unfold outOfRange scale
  rw [← Nat.pow_add]

theorem roundUnits_outOfRange : roundUnits outOfRange = outOfRange := by
  have hpow : ∀ s : ℕ, roundUnits (2 ^ s : ℕ) = (2 ^ s : ℕ) := by
    intro s
    have hbits := roundUnits_of_bits (m := 1) (by decide) s
    rwa [one_mul, Int.cast_natCast] at hbits
  unfold outOfRange
  exact hpow 2098

theorem nearest_of_large {q : ℚ} (h : (outOfRange : ℤ) ≤ roundUnits (q * scale)) (hq : 0 < q) :
    nearest q = .inf := by
  have hlarge : outOfRange ≤ (roundUnits (q * scale)).natAbs := Int.ofNat_le.1 (h.trans Int.le_natAbs)
  unfold nearest
  rw [if_neg (not_lt.2 hlarge), if_pos hq]

theorem floatOfInt?_of_inf {n : ℤ} (h : nearest n = .inf) : floatOfInt? n = none := by
  unfold floatOfInt?
  rw [h]

/-- An integer of more than 1024 bits is out of range. -/
theorem floatOfInt?_of_large {n : ℕ} (h : 2 ^ 1024 ≤ n) : floatOfInt? n = none := by
  have hunits : outOfRange ≤ n * scale := outOfRange_eq.trans_le (Nat.mul_le_mul_right scale h)
  have hpos : 0 < n := Nat.pos_of_mul_pos_right (outOfRange_pos.trans_le hunits)
  apply floatOfInt?_of_inf
  apply nearest_of_large
  · rw [← roundUnits_outOfRange, Int.cast_natCast, ← Nat.cast_mul]
    exact roundUnits_mono (Nat.cast_le.2 hunits)
  · exact_mod_cast hpos

/-! ## Neighbours -/

/-- A float is a whole number of units that is not rounded. -/
theorem exists_units {p : ℚ} (hp : Representable p) :
    ∃ z : ℤ, p * scale = z ∧ roundUnits z = z := by
  unfold Representable nearest at hp
  split at hp
  · have heq := PyFloat.fin.inj hp
    refine ⟨roundUnits (p * scale), ?_, roundUnits_idem _⟩
    nth_rewrite 1 [← heq]
    exact units_div_scale _
  · split at hp <;> cases hp

/-- The units of a positive float are a multiple of the last bit kept. -/
theorem exists_bits {p : ℚ} (hp : Representable p) (h0 : 0 ≤ p) :
    ∃ m : ℤ, p * scale = m * (2 ^ excess (p * scale) : ℕ) ∧ 0 ≤ m ∧ m < (2 ^ 53 : ℕ) := by
  obtain ⟨z, hz, hround⟩ := exists_units hp
  have hnonneg : 0 ≤ p * scale := mul_nonneg h0 scale_pos.le
  rw [hz] at hnonneg ⊢
  refine ⟨roundHalfEven (z / (2 ^ excess z : ℕ)), ?_, ?_, ?_⟩
  · calc (z : ℚ) = roundUnits z := by rw [hround]
      _ = roundHalfEven (z / (2 ^ excess z : ℕ)) * (2 ^ excess z : ℕ) := by
        unfold roundUnits
        rw [Int.cast_mul, Int.cast_natCast]
  · apply le_roundHalfEven
    rw [Int.cast_zero]
    exact div_nonneg hnonneg (two_pow_pos _).le
  · have hlt := lt_two_pow_excess (z : ℚ)
    rw [abs_of_nonneg hnonneg, ← hround] at hlt
    have hbits : roundHalfEven (z / (2 ^ excess z : ℕ)) * (2 ^ excess z : ℕ) <
        (2 ^ 53 : ℕ) * (2 ^ excess z : ℕ) := by
      rw [← Nat.cast_mul, ← Nat.pow_add]
      have hround' : roundUnits z < (2 ^ (53 + excess z) : ℕ) := by
        rw [hround] at hlt ⊢
        exact_mod_cast hlt
      exact hround'
    exact lt_of_mul_lt_mul_right hbits (Int.natCast_nonneg _)

/-- Two floats are not closer together than the last bits of the greater one. -/
theorem float_gap {p q : ℚ} (hp : Representable p) (hq : Representable q) (h0 : 0 ≤ p)
    (h : p < q) : q ≤ 2 ^ 54 * (q - p) := by
  have hunits : p * scale < q * scale := mul_lt_mul_of_pos_right h scale_pos
  have hp0 : 0 ≤ p * scale := mul_nonneg h0 scale_pos.le
  have hexcess : excess (p * scale) ≤ excess (q * scale) := by
    apply excess_mono
    rw [abs_of_nonneg hp0, abs_of_nonneg (hp0.trans hunits.le)]
    exact hunits.le
  obtain ⟨m, hm, -, hmlt⟩ := exists_bits hp h0
  obtain ⟨n, hn, -, hnlt⟩ := exists_bits hq (h0.trans h.le)
  generalize ha : excess (p * scale) = a at hm hexcess
  generalize hb : excess (q * scale) = b at hn hexcess
  -- `q` counted in the last bits of `p`
  have hpow : (2 ^ b : ℕ) = 2 ^ (b - a) * 2 ^ a := by rw [← Nat.pow_add, Nat.sub_add_cancel hexcess]
  have hn' : q * scale = (n * (2 ^ (b - a) : ℕ) : ℤ) * (2 ^ a : ℕ) := by
    rw [hn, hpow]
    push_cast
    ring
  have hgap : n * (2 ^ (b - a) : ℕ) ≤ 2 ^ 54 * (n * (2 ^ (b - a) : ℕ) - m) := by
    have hless : m < n * (2 ^ (b - a) : ℕ) := by
      rw [hm, hn'] at hunits
      exact_mod_cast lt_of_mul_lt_mul_right hunits (two_pow_pos a).le
    obtain rfl | hlt := hexcess.eq_or_lt
    · rw [Nat.sub_self] at hless ⊢
      omega
    · have hbig : ((2 ^ 52 : ℕ) : ℤ) * (2 ^ b : ℕ) ≤ n * (2 ^ b : ℕ) := by
        have hbits := two_pow_excess_le (u := q * scale) (by omega)
        rw [abs_of_nonneg (hp0.trans hunits.le), hb, hn, Nat.pow_add] at hbits
        exact_mod_cast hbits
      have hn52 : ((2 ^ 52 : ℕ) : ℤ) ≤ n :=
        le_of_mul_le_mul_right hbig (Int.natCast_pos.2 (Nat.two_pow_pos b))
      have htwo : ((2 ^ 1 : ℕ) : ℤ) ≤ (2 ^ (b - a) : ℕ) :=
        Int.ofNat_le.2 (Nat.pow_le_pow_right Nat.two_pos (by omega))
      have hlow : ((2 ^ 52 : ℕ) : ℤ) * (2 ^ 1 : ℕ) ≤ n * (2 ^ (b - a) : ℕ) :=
        mul_le_mul hn52 htwo (Int.natCast_nonneg _) ((Int.natCast_nonneg _).trans hn52)
      generalize n * ((2 ^ (b - a) : ℕ) : ℤ) = N at hlow ⊢
      omega
  refine le_of_mul_le_mul_right ?_ scale_pos
  calc q * scale = (n * (2 ^ (b - a) : ℕ) : ℤ) * (2 ^ a : ℕ) := hn'
    _ ≤ (2 ^ 54 * (n * (2 ^ (b - a) : ℕ) - m) : ℤ) * (2 ^ a : ℕ) :=
      mul_le_mul_of_nonneg_right (Int.cast_le.2 hgap) (two_pow_pos a).le
    _ = 2 ^ 54 * (q - p) * scale := by
      rw [mul_assoc, sub_mul q, hn', hm]
      push_cast
      ring

/-- At least one unit is not halved by the rounding. -/
theorem half_le_roundUnits {u : ℚ} (h : 1 ≤ u) : u / 2 ≤ roundUnits u := by
  have hu : 0 ≤ u := zero_le_one.trans h
  have hone : 1 ≤ u / (2 ^ excess u : ℕ) := by
    rw [le_div_iff₀ (two_pow_pos _), one_mul]
    by_cases he : excess u = 0
    · rwa [he, pow_zero, Nat.cast_one]
    · have hbits := two_pow_excess_le he
      rw [abs_of_nonneg hu] at hbits
      refine le_trans ?_ hbits
      exact Nat.cast_le.2 (Nat.pow_le_pow_right Nat.two_pos (Nat.le_add_left _ _))
  obtain ⟨hclose, -⟩ := roundHalfEven_spec (u / (2 ^ excess u : ℕ))
  have hhalf : u / (2 ^ excess u : ℕ) / 2 ≤ roundHalfEven (u / (2 ^ excess u : ℕ)) := by
    have := abs_le.1 hclose
    linarith
  unfold roundUnits
  push_cast at hhalf ⊢
  have hpow : (0 : ℚ) < 2 ^ excess u := by positivity
  calc u / 2 = u / 2 ^ excess u / 2 * 2 ^ excess u := by field_simp
    _ ≤ _ := mul_le_mul_of_nonneg_right hhalf hpow.le

theorem nearest_nonneg {q : ℚ} (h : 0 ≤ q) : PyFloat.le (.fin 0) (nearest q) = true := by
  have hmono := nearest_mono h
  rwa [nearest_zero.nearest_eq] at hmono

theorem half_le_nearest {q : ℚ} (h : 1 ≤ q * scale) :
    PyFloat.le (.fin (q / 2)) (nearest q) = true := by
  have hq : 0 < q := pos_of_mul_pos_left (zero_lt_one.trans_le h) scale_pos.le
  unfold nearest
  rw [if_pos hq]
  split
  · refine decide_eq_true ?_
    rw [le_div_iff₀ scale_pos, div_mul_eq_mul_div]
    exact half_le_roundUnits h
  · rfl

/-! ## Comparisons -/

theorem le_eq_false_of_lt {x y : PyFloat} (h : x.lt y = true) : y.le x = false := by
  cases x <;> cases y <;> simp_all [PyFloat.lt, PyFloat.le]

theorem le_of_le_eq_false {q : ℚ} {x : PyFloat} (hx : x ≠ .nan)
    (h : PyFloat.le (.fin q) x = false) : x.le (.fin q) = true := by
  cases x with
  | fin r => exact decide_eq_true (le_of_not_ge (of_decide_eq_false h))
  | negInf => rfl
  | inf => cases h
  | nan => exact absurd rfl hx

theorem le_of_le_eq_false' {q : ℚ} {x : PyFloat} (hx : x ≠ .nan)
    (h : x.le (.fin q) = false) : PyFloat.le (.fin q) x = true := by
  cases x with
  | fin r => exact decide_eq_true (le_of_not_ge (of_decide_eq_false h))
  | inf => rfl
  | negInf => cases h
  | nan => exact absurd rfl hx

theorem lt_of_le_of_lt {x : PyFloat} {p q : ℚ} (h : x.le (.fin p) = true) (hlt : p < q) :
    x.lt (.fin q) = true := by
  cases x with
  | fin r => exact decide_eq_true ((of_decide_eq_true h).trans_lt hlt)
  | negInf => rfl
  | _ => cases h

theorem lt_of_lt_of_le {x : PyFloat} {p q : ℚ} (hlt : p < q) (h : PyFloat.le (.fin q) x = true) :
    PyFloat.lt (.fin p) x = true := by
  cases x with
  | fin r => exact decide_eq_true (hlt.trans_le (of_decide_eq_true h))
  | inf => rfl
  | _ => cases h

/-! ## Relative differences -/

theorem neg_lt_zero {x : PyFloat} (h : PyFloat.lt (.fin 0) x = true) :
    (neg x).lt (.fin 0) = true := by
  cases x with
  | fin q => exact decide_eq_true (neg_neg_of_pos (of_decide_eq_true h))
  | inf => rfl
  | _ => cases h

theorem neg_le_zero {x : PyFloat} (h : PyFloat.le (.fin 0) x = true) :
    (neg x).le (.fin 0) = true := by
  cases x with
  | fin q => exact decide_eq_true (neg_nonpos.2 (of_decide_eq_true h))
  | inf => rfl
  | _ => cases h

theorem sub_eq_neg_sub (p q : ℚ) : sub (.fin p) (.fin q) = neg (sub (.fin q) (.fin p)) := by
  show nearest (p + -q) = neg (nearest (q + -p))
  rw [← nearest_neg]
  congr 1
  ring

theorem neg_div_fin (x : PyFloat) {r : ℚ} (hr : 0 < r) : div (neg x) r = neg (div x r) := by
  cases x with
  | fin q =>
    show nearest (-q / r) = neg (nearest (q / r))
    rw [← nearest_neg, neg_div]
  | inf =>
    show infinite (-r) = neg (infinite r)
    rw [infinite_neg hr, infinite_of_pos hr]
    rfl
  | negInf =>
    show infinite r = neg (infinite (-r))
    rw [infinite_neg hr, infinite_of_pos hr]
    rfl
  | nan => rfl

section
variable {p q r : ℚ}

theorem div_sub_nonneg (h : p ≤ q) (hr : 0 < r) :
    PyFloat.le (.fin 0) (div (sub (.fin q) (.fin p)) r) = true := by
  have hsub : PyFloat.le (.fin 0) (nearest (q + -p)) = true := nearest_nonneg (by linarith)
  show PyFloat.le (.fin 0) (div (nearest (q + -p)) r) = true
  generalize nearest (q + -p) = x at hsub ⊢
  cases x with
  | fin y => exact nearest_nonneg (div_nonneg (of_decide_eq_true hsub) hr.le)
  | inf => simp [div, infinite_of_pos hr, PyFloat.le, PyFloat.lt]
  | _ => cases hsub

theorem div_sub_nonpos (h : p ≤ q) (hr : 0 < r) :
    (div (sub (.fin p) (.fin q)) r).le (.fin 0) = true := by
  rw [sub_eq_neg_sub, neg_div_fin _ hr]
  exact neg_le_zero (div_sub_nonneg h hr)

variable (hp : Representable p) (hq : Representable q)
include hp hq

theorem one_le_units_sub (h : p < q) : 1 ≤ (q - p) * scale := by
  obtain ⟨m, hm, -⟩ := exists_units hp
  obtain ⟨n, hn, -⟩ := exists_units hq
  have hlt : p * scale < q * scale := mul_lt_mul_of_pos_right h scale_pos
  rw [sub_mul, hm, hn] at *
  have hint : m < n := Int.cast_lt.1 hlt
  have hone : ((m + 1 : ℤ) : ℚ) ≤ n := Int.cast_le.2 hint
  push_cast at hone
  linarith

/-- The difference of two floats, relative to one that is no greater, is not lost. -/
theorem div_sub_pos (h0 : 0 ≤ p) (h : p < q) (hr : 0 < r) (hrq : r ≤ q) :
    PyFloat.lt (.fin 0) (div (sub (.fin q) (.fin p)) r) = true := by
  have hhalf : PyFloat.le (.fin ((q - p) / 2)) (sub (.fin q) (.fin p)) = true := by
    have hnear := half_le_nearest (one_le_units_sub hp hq h)
    rwa [sub_eq_add_neg q p] at hnear ⊢
  generalize sub (.fin q) (.fin p) = x at hhalf
  cases x with
  | fin y =>
    have hy : (q - p) / 2 ≤ y := of_decide_eq_true hhalf
    have hgap := float_gap hp hq h0 h
    have hratio : ((1 : ℤ) : ℚ) / 2 ^ 55 ≤ y / r := by
      rw [le_div_iff₀ hr, Int.cast_one]
      linarith
    have hle := nearest_mono hratio
    rw [(nearest_div_two_pow (by decide) (by decide)).nearest_eq] at hle
    have hpos : (0 : ℚ) < (1 : ℤ) / 2 ^ 55 := by norm_num
    exact lt_of_lt_of_le hpos hle
  | inf => simp [div, infinite_of_pos hr, PyFloat.lt]
  | _ => cases hhalf

theorem div_sub_neg (h0 : 0 ≤ p) (h : p < q) (hr : 0 < r) (hrq : r ≤ q) :
    (div (sub (.fin p) (.fin q)) r).lt (.fin 0) = true := by
  rw [sub_eq_neg_sub, neg_div_fin _ hr]
  exact neg_lt_zero (div_sub_pos hp hq h0 h hr hrq)

end

/-! ## Factors close to 1 -/

/-- The least positive float with 53 significant bits. -/
@[irreducible] def minNormal : ℚ := 1 / (2 ^ 1022 : ℕ)

theorem minNormal_pos : 0 < minNormal := by
  unfold minNormal
  exact one_div_pos.2 (two_pow_pos 1022)

theorem minNormal_units : minNormal * scale = (2 ^ 52 : ℕ) := by
  rw [scale_eq (j := 1022) (by decide), Nat.cast_mul]
  unfold minNormal
  rw [mul_left_comm, one_div, inv_mul_cancel₀ (two_pow_pos 1022).ne', mul_one]

/-- The float of a number of units with 53 bits, or the infinity above it. -/
theorem nearest_bits {m : ℤ} (h : m.natAbs ≤ 2 ^ 53) (h0 : 0 < m) (s : ℕ) :
    nearest ((m * (2 ^ s : ℕ) : ℤ) / scale) = .fin ((m * (2 ^ s : ℕ) : ℤ) / scale) ∨
      nearest ((m * (2 ^ s : ℕ) : ℤ) / scale) = .inf := by
  have hpos : (0 : ℚ) < (m * (2 ^ s : ℕ) : ℤ) / scale := by
    apply div_pos _ scale_pos
    exact Int.cast_pos.2 (mul_pos h0 (Int.natCast_pos.2 (Nat.two_pow_pos s)))
  unfold nearest
  rw [units_div_scale, roundUnits_of_bits h, if_pos hpos]
  split
  · exact .inl rfl
  · exact .inr rfl

/-- What is at most a float is not out of range. -/
theorem nearest_of_le {p q : ℚ} (hq : Representable q) (h0 : 0 ≤ p) (h : p ≤ q) :
    ∃ x, nearest p = .fin x := by
  obtain ⟨x, hx, -⟩ := nearest_between nearest_zero hq h0 h
  exact ⟨x, hx⟩

section
variable {p x : ℚ} (hp : Representable p)
include hp

/-- A float that is not among the smallest ones has a significand of 53 bits. -/
theorem exists_significand (hnormal : minNormal ≤ p) :
    ∃ (m : ℤ) (s : ℕ), (2 ^ 52 : ℕ) ≤ m ∧ m < (2 ^ 53 : ℕ) ∧ p * scale = m * (2 ^ s : ℕ) := by
  have h0 : 0 ≤ p := minNormal_pos.le.trans hnormal
  obtain ⟨m, hm, -, hlt⟩ := exists_bits hp h0
  refine ⟨m, excess (p * scale), ?_, hlt, hm⟩
  have hlow : ((2 ^ 52 : ℕ) : ℚ) * (2 ^ excess (p * scale) : ℕ) ≤ p * scale := by
    by_cases he : excess (p * scale) = 0
    · rw [he, pow_zero, Nat.cast_one, mul_one, ← minNormal_units]
      exact mul_le_mul_of_nonneg_right hnormal scale_pos.le
    · have hbits := two_pow_excess_le he
      rwa [abs_of_nonneg (mul_nonneg h0 scale_pos.le), Nat.pow_add, Nat.cast_mul] at hbits
  have hbits := le_of_mul_le_mul_right (hlow.trans_eq hm) (two_pow_pos _)
  exact_mod_cast hbits

/-- A factor below 1 makes the float smaller, by the last bit at least. -/
theorem nearest_mul_lt (hnormal : minNormal ≤ p) (hx : x ≤ 1 - 1 / 2 ^ 52) :
    (nearest (p * x)).lt (.fin p) = true := by
  obtain ⟨m, s, hlo, hhi, hm⟩ := exists_significand hp hnormal
  have hlo' : (2 : ℚ) ^ 52 ≤ m := by exact_mod_cast hlo
  have hprev : (((m - 1) * (2 ^ s : ℕ) : ℤ) : ℚ) / scale < p := by
    rw [div_lt_iff₀ scale_pos, hm, Int.cast_mul, Int.cast_natCast]
    exact mul_lt_mul_of_pos_right (Int.cast_lt.2 (Int.sub_one_lt_of_le le_rfl)) (two_pow_pos s)
  have hbelow : p * x ≤ (((m - 1) * (2 ^ s : ℕ) : ℤ) : ℚ) / scale := by
    rw [le_div_iff₀ scale_pos, mul_right_comm, hm, mul_right_comm, Int.cast_mul, Int.cast_natCast]
    apply mul_le_mul_of_nonneg_right _ (two_pow_pos s).le
    push_cast
    nlinarith
  have hle := nearest_mono hbelow
  obtain hfin | hinf := nearest_bits (m := m - 1) (by omega) (by omega) s
  · rw [hfin] at hle
    exact lt_of_le_of_lt hle hprev
  · have hpos : 0 < m - 1 := by omega
    have hnonneg : (0 : ℚ) ≤ ((m - 1) * (2 ^ s : ℕ) : ℤ) / scale := by
      apply div_nonneg _ scale_pos.le
      exact_mod_cast mul_nonneg hpos.le (Int.natCast_nonneg _)
    obtain ⟨y, hy⟩ := nearest_of_le hp hnonneg hprev.le
    rw [hinf] at hy
    cases hy

/-- A factor above 1 makes it greater. -/
theorem lt_nearest_mul (hnormal : minNormal ≤ p) (hx : 1 + 1 / 2 ^ 52 ≤ x) :
    PyFloat.lt (.fin p) (nearest (p * x)) = true := by
  obtain ⟨m, s, hlo, hhi, hm⟩ := exists_significand hp hnormal
  have hlo' : (2 : ℚ) ^ 52 ≤ m := by exact_mod_cast hlo
  have hnext : p < (((m + 1) * (2 ^ s : ℕ) : ℤ) : ℚ) / scale := by
    rw [lt_div_iff₀ scale_pos, hm, Int.cast_mul, Int.cast_natCast]
    exact mul_lt_mul_of_pos_right (Int.cast_lt.2 (Int.lt_add_one_of_le le_rfl)) (two_pow_pos s)
  have habove : (((m + 1) * (2 ^ s : ℕ) : ℤ) : ℚ) / scale ≤ p * x := by
    rw [div_le_iff₀ scale_pos, mul_right_comm, hm, mul_right_comm, Int.cast_mul, Int.cast_natCast]
    apply mul_le_mul_of_nonneg_right _ (two_pow_pos s).le
    push_cast
    nlinarith
  have hle := nearest_mono habove
  obtain hfin | hinf := nearest_bits (m := m + 1) (by omega) (by omega) s
  · rw [hfin] at hle
    exact lt_of_lt_of_le hnext hle
  · rw [hinf] at hle
    generalize nearest (p * x) = y at hle
    cases y with
    | inf => rfl
    | _ => cases hle

end

section
variable {p : ℚ} {x : PyFloat} (hp : Representable p)
include hp

theorem mul_le_self (h0 : 0 < p) (hx : x.le (.fin 1) = true) : (mul (.fin p) x).le (.fin p) = true := by
  cases x with
  | fin q =>
    have hmono := nearest_mono (mul_le_of_le_one_right h0.le (of_decide_eq_true hx : q ≤ 1))
    rwa [hp.nearest_eq] at hmono
  | negInf => simp [mul, infinite_neg h0, PyFloat.le, PyFloat.lt]
  | _ => cases hx

theorem self_le_mul (h0 : 0 < p) (hx : PyFloat.le (.fin 1) x = true) :
    PyFloat.le (.fin p) (mul (.fin p) x) = true := by
  cases x with
  | fin q =>
    have hmono := nearest_mono (le_mul_of_one_le_right h0.le (of_decide_eq_true hx : 1 ≤ q))
    rwa [hp.nearest_eq] at hmono
  | inf => simp [mul, infinite_of_pos h0, PyFloat.le, PyFloat.lt]
  | _ => cases hx

theorem mul_lt_self (hnormal : minNormal ≤ p) (hx : x.le (.fin (1 - 1 / 2 ^ 52)) = true) :
    (mul (.fin p) x).lt (.fin p) = true := by
  have h0 : 0 < p := minNormal_pos.trans_le hnormal
  cases x with
  | fin q => exact nearest_mul_lt hp hnormal (of_decide_eq_true hx)
  | negInf => simp [mul, infinite_neg h0, PyFloat.lt]
  | _ => cases hx

theorem self_lt_mul (hnormal : minNormal ≤ p) (hx : PyFloat.le (.fin (1 + 1 / 2 ^ 52)) x = true) :
    PyFloat.lt (.fin p) (mul (.fin p) x) = true := by
  have h0 : 0 < p := minNormal_pos.trans_le hnormal
  cases x with
  | fin q => exact lt_nearest_mul hp hnormal (of_decide_eq_true hx)
  | inf => simp [mul, infinite_of_pos h0, PyFloat.lt]
  | _ => cases hx

end

/-- A sum stays within a float that bounds it. -/
theorem add_le_fin {p q r : ℚ} {x : PyFloat} (hr : Representable r) (hle : p + q ≤ r)
    (hx : x.le (.fin q) = true) : (add (.fin p) x).le (.fin r) = true := by
  cases x with
  | fin y =>
    have hmono := nearest_mono ((add_le_add_right (of_decide_eq_true hx : y ≤ q) p).trans hle)
    rwa [hr.nearest_eq] at hmono
  | negInf => rfl
  | _ => cases hx

theorem fin_le_add {p q r : ℚ} {x : PyFloat} (hr : Representable r) (hle : r ≤ p + q)
    (hx : PyFloat.le (.fin q) x = true) : PyFloat.le (.fin r) (add (.fin p) x) = true := by
  cases x with
  | fin y =>
    have hmono := nearest_mono (hle.trans (add_le_add_right (of_decide_eq_true hx : q ≤ y) p))
    rwa [hr.nearest_eq] at hmono
  | inf => rfl
  | _ => cases hx

/-- A sum that does not exceed `cap` does not either with a smaller second term. -/
theorem add_not_exceeds {cap : ℚ} {t x y : PyFloat} (ht : PyFloat.lt (.fin cap) t = false)
    (hxy : x.le y = true) (h : PyFloat.lt (.fin cap) (add t y) = false) :
    PyFloat.lt (.fin cap) (add t x) = false := by
  cases t with
  | nan => rfl
  | inf => cases ht
  | negInf => cases x <;> rfl
  | fin a =>
    cases y with
    | nan => cases x <;> cases hxy
    | inf => cases h
    | negInf => cases x <;> first | rfl | cases hxy
    | fin c =>
      cases x with
      | nan | inf => cases hxy
      | negInf => rfl
      | fin b =>
        have hmono := nearest_mono (add_le_add_right (of_decide_eq_true hxy : b ≤ c) a)
        change PyFloat.lt (.fin cap) (nearest (a + c)) = false at h
        show PyFloat.lt (.fin cap) (nearest (a + b)) = false
        generalize nearest (a + b) = x, nearest (a + c) = y at hmono h
        cases x with
        | fin p =>
          cases y with
          | fin q => exact decide_eq_false (not_lt.2
              ((of_decide_eq_true hmono).trans (not_lt.1 (of_decide_eq_false h))))
          | inf => cases h
          | _ => cases hmono
        | inf => cases y <;> simp_all [PyFloat.lt, PyFloat.le]
        | _ => rfl

end Lib.Binary64
