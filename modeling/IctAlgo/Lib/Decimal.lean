import Mathlib.Data.Rat.Floor
import Mathlib.Tactic.Linarith

/-!
# Rounding to decimal digits

`roundHalfEven q` is the integer nearest to `q`, ties to even; `roundTo n q` keeps `n` decimal
digits.

* `roundHalfEven_eq`: an integer no further than a half is the rounded value, if it is even in a tie.
* `roundTo_one_sub`: the complement of a rounded ratio rounds to the rounded complement.
* `abs_sub_roundTo`: rounding to digits moves a number by half a unit of the last at most.
-/

set_option autoImplicit false

namespace Lib.Decimal

/-- `round(q)`. -/
def roundHalfEven (q : ℚ) : ℤ :=
  if Int.fract q < 1 / 2 then ⌊q⌋
  else if 1 / 2 < Int.fract q then ⌊q⌋ + 1
  else if ⌊q⌋ % 2 = 0 then ⌊q⌋ else ⌊q⌋ + 1

/-- `round(q, n)`. -/
def roundTo (n : ℕ) (q : ℚ) : ℚ := roundHalfEven (q * 10 ^ n) / 10 ^ n

/-- The rounded value: no further than a half, and even in a tie. -/
theorem roundHalfEven_spec (q : ℚ) :
    |q - roundHalfEven q| ≤ 1 / 2 ∧ (|q - roundHalfEven q| = 1 / 2 → roundHalfEven q % 2 = 0) := by
  have hq : q = ⌊q⌋ + Int.fract q := (Int.floor_add_fract q).symm
  have hnonneg := Int.fract_nonneg q
  have hlt := Int.fract_lt_one q
  unfold roundHalfEven
  split
  · rename_i hlow
    have habs : |q - ⌊q⌋| = Int.fract q := abs_of_nonneg hnonneg
    rw [habs]
    exact ⟨hlow.le, fun htie => absurd htie hlow.ne⟩
  · split
    · rename_i hhigh
      have habs : |q - ((⌊q⌋ + 1 : ℤ) : ℚ)| = 1 - Int.fract q := by
        rw [abs_sub_comm, abs_of_nonneg] <;> push_cast <;> linarith
      rw [habs]
      exact ⟨by linarith, fun htie => absurd htie (by linarith)⟩
    · have htie : Int.fract q = 1 / 2 := by linarith
      split
      · rename_i heven
        have habs : |q - ⌊q⌋| = Int.fract q := abs_of_nonneg hnonneg
        rw [habs]
        exact ⟨htie.le, fun _ => heven⟩
      · rename_i hodd
        have habs : |q - ((⌊q⌋ + 1 : ℤ) : ℚ)| = 1 / 2 := by
          rw [abs_sub_comm, abs_of_nonneg] <;> push_cast <;> linarith
        rw [habs]
        exact ⟨le_rfl, fun _ => by omega⟩

theorem roundHalfEven_eq {q : ℚ} {n : ℤ} (h : |q - n| ≤ 1 / 2) (htie : |q - n| = 1 / 2 → n % 2 = 0) :
    roundHalfEven q = n := by
  obtain ⟨h', htie'⟩ := roundHalfEven_spec q
  generalize roundHalfEven q = m at h' htie'
  have hq := abs_le.1 h
  have hq' := abs_le.1 h'
  by_contra hne
  -- two integers at most a half away are neighbours, with the number in the middle
  obtain hlt | hgt := Int.lt_or_gt_of_ne hne
  · have hnext : (m : ℚ) + 1 ≤ n := by exact_mod_cast hlt
    have hm : |q - m| = 1 / 2 := by rw [abs_of_nonneg] <;> linarith
    have hn : |q - n| = 1 / 2 := by rw [abs_of_nonpos] <;> linarith
    have heq : n = m + 1 := by
      have : (n : ℚ) = m + 1 := by linarith
      exact_mod_cast this
    have := htie' hm
    have := htie hn
    omega
  · have hnext : (n : ℚ) + 1 ≤ m := by exact_mod_cast hgt
    have hm : |q - m| = 1 / 2 := by rw [abs_of_nonpos] <;> linarith
    have hn : |q - n| = 1 / 2 := by rw [abs_of_nonneg] <;> linarith
    have heq : m = n + 1 := by
      have : (m : ℚ) = n + 1 := by linarith
      exact_mod_cast this
    have := htie' hm
    have := htie hn
    omega

theorem roundHalfEven_intCast (n : ℤ) : roundHalfEven (n : ℚ) = n := by
  apply roundHalfEven_eq
  · simp
  · simp

/-- Rounding is symmetric about half of an even integer. -/
theorem roundHalfEven_even_sub (k : ℤ) (q : ℚ) :
    roundHalfEven ((2 * k : ℤ) - q) = 2 * k - roundHalfEven q := by
  obtain ⟨h, htie⟩ := roundHalfEven_spec q
  have habs : |((2 * k : ℤ) : ℚ) - q - ((2 * k - roundHalfEven q : ℤ) : ℚ)| =
      |q - roundHalfEven q| := by
    rw [← abs_neg]
    congr 1
    push_cast
    ring
  apply roundHalfEven_eq
  · rw [habs]
    exact h
  · rw [habs]
    intro heq
    have := htie heq
    omega

/-- Rounding does not leave an interval with integer ends. -/
theorem roundHalfEven_le {q : ℚ} {n : ℤ} (h : q ≤ n) : roundHalfEven q ≤ n := by
  have hspec := (abs_le.1 (roundHalfEven_spec q).1).1
  by_contra hlt
  have hnext : (n : ℚ) + 1 ≤ roundHalfEven q := by exact_mod_cast not_le.1 hlt
  linarith

theorem le_roundHalfEven {q : ℚ} {n : ℤ} (h : n ≤ q) : n ≤ roundHalfEven q := by
  have hspec := (abs_le.1 (roundHalfEven_spec q).1).2
  by_contra hlt
  have hnext : (roundHalfEven q : ℚ) + 1 ≤ n := by exact_mod_cast not_le.1 hlt
  linarith

theorem roundHalfEven_mono {p q : ℚ} (h : p ≤ q) : roundHalfEven p ≤ roundHalfEven q := by
  have hp := (abs_le.1 (roundHalfEven_spec p).1).1
  have hq := (abs_le.1 (roundHalfEven_spec q).1).2
  by_contra hlt
  have hnext : (roundHalfEven q : ℚ) + 1 ≤ roundHalfEven p := by exact_mod_cast not_le.1 hlt
  have heq : p = q := by linarith
  rw [heq] at hlt
  exact hlt le_rfl

/-! ## Digits -/

section
variable {n : ℕ}

theorem roundTo_mono {p q : ℚ} (h : p ≤ q) : roundTo n p ≤ roundTo n q := by
  have hpow : (0 : ℚ) < 10 ^ n := by positivity
  have hround := roundHalfEven_mono (mul_le_mul_of_nonneg_right h hpow.le)
  unfold roundTo
  rw [div_le_div_iff_of_pos_right hpow]
  exact_mod_cast hround

theorem roundTo_mul (n : ℕ) (q : ℚ) : roundTo n q * 10 ^ n = roundHalfEven (q * 10 ^ n) := by
  unfold roundTo
  field_simp

theorem abs_sub_roundTo (n : ℕ) (q : ℚ) : |q - roundTo n q| * 10 ^ n ≤ 1 / 2 := by
  have hpow : (0 : ℚ) < 10 ^ n := by positivity
  have habs : |q - roundTo n q| * 10 ^ n = |q * 10 ^ n - roundHalfEven (q * 10 ^ n)| := by
    rw [← roundTo_mul, ← sub_mul, abs_mul, abs_of_pos hpow]
  rw [habs]
  exact (roundHalfEven_spec _).1

theorem roundTo_idem (n : ℕ) (q : ℚ) : roundTo n (roundTo n q) = roundTo n q := by
  have hq := roundTo_mul n q
  unfold roundTo at hq ⊢
  rw [hq, roundHalfEven_intCast]

/-- Rounding to digits does not leave an interval with integer ends either. -/
theorem roundTo_bounds (lo hi : ℤ) (n : ℕ) {q : ℚ} (hlo : lo ≤ q) (hhi : q ≤ hi) :
    lo ≤ roundTo n q ∧ roundTo n q ≤ hi := by
  have hpow : (0 : ℚ) < 10 ^ n := by positivity
  have hge : lo * 10 ^ n ≤ roundHalfEven (q * 10 ^ n) := by
    apply le_roundHalfEven
    push_cast
    exact mul_le_mul_of_nonneg_right hlo hpow.le
  have hle : roundHalfEven (q * 10 ^ n) ≤ hi * 10 ^ n := by
    apply roundHalfEven_le
    push_cast
    exact mul_le_mul_of_nonneg_right hhi hpow.le
  unfold roundTo
  constructor
  · rw [le_div_iff₀ hpow]
    exact_mod_cast hge
  · rw [div_le_iff₀ hpow]
    exact_mod_cast hle

/-- Rounding commutes with the complement. -/
theorem roundTo_compl (hn : n ≠ 0) (q : ℚ) : roundTo n (1 - q) = 1 - roundTo n q := by
  obtain ⟨m, rfl⟩ := Nat.exists_eq_succ_of_ne_zero hn
  have heven : (10 : ℚ) ^ (m + 1) = ((2 * (5 * 10 ^ m) : ℤ) : ℚ) := by
    push_cast
    ring
  unfold roundTo
  rw [sub_mul, one_mul, heven, roundHalfEven_even_sub, Int.cast_sub, sub_div, div_self]
  rw [← heven]
  positivity

/-- The complement of a rounded ratio, rounded again, is the rounded complement. -/
theorem roundTo_one_sub (hn : n ≠ 0) (q : ℚ) :
    roundTo n (1 - roundTo n q) = roundTo n (1 - q) := by
  rw [roundTo_compl hn, roundTo_idem, roundTo_compl hn]

end

end Lib.Decimal
