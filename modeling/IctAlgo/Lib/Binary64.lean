import Mathlib.Algebra.Order.Ring.Nat
import Mathlib.Data.Nat.Log

/-!
# Products of a natural number and a binary64 constant

A natural number is rounded to 53 significant bits, ties to even (`roundSig`). Multiplying or dividing
by a power of two moves the exponent only, so `x * c` for a constant `c = a / 2 ^ k` is
`roundSig (x * a) / 2 ^ k` as long as it is finite, and its integer part is the quotient in `ℕ`
(`truncMul`).

* `two_pow_le_roundSig`: rounding does not cross a power of two downwards.
* `ofInt_mono`: nor does it change the order of two integers.
-/

set_option autoImplicit false

namespace Lib.Binary64

/-- `n / 2 ^ s` rounded to the nearest integer, ties to even. -/
def roundShift (n s : ℕ) : ℕ :=
  if 2 ^ s < 2 * (n % 2 ^ s) ∨ (2 ^ s = 2 * (n % 2 ^ s) ∧ n / 2 ^ s % 2 = 1) then n / 2 ^ s + 1
  else n / 2 ^ s

/-- `n` rounded to 53 significant bits. -/
def roundSig (n : ℕ) : ℕ :=
  if n < 2 ^ 53 then n else roundShift n (n.log2 - 52) * 2 ^ (n.log2 - 52)

/-- The conversion of an integer: `none` when it is too large for a float. -/
def ofNat? (n : ℕ) : Option ℕ := if (roundSig n).log2 < 1024 then some (roundSig n) else none

/-- The integer part of the product of the float `x` and the float `a / 2 ^ k`. -/
def truncMul (x a k : ℕ) : ℕ := roundSig (x * a) / 2 ^ k

/-- Stands for the infinity: it is above every finite float. -/
def infinity : ℕ := 2 ^ 1024

/-- The float nearest to an integer. -/
def ofInt (z : ℤ) : ℤ := z.sign * (min (roundSig z.natAbs) infinity : ℕ)

theorem le_roundShift (n s : ℕ) : n / 2 ^ s ≤ roundShift n s := by
  unfold roundShift
  split
  · exact Nat.le_succ _
  · exact le_rfl

theorem two_pow_le_roundSig {n e : ℕ} (h : 2 ^ e ≤ n) : 2 ^ e ≤ roundSig n := by
  unfold roundSig
  split
  · exact h
  · rename_i hn
    have hpos : n ≠ 0 := by
      rintro rfl
      exact hn (by decide)
    have he : e ≤ n.log2 := (Nat.le_log2 hpos).2 h
    have hbig : 52 ≤ n.log2 := (Nat.le_log2 hpos).2 (le_trans (by decide) (not_lt.1 hn))
    have hquot : 2 ^ 52 ≤ n / 2 ^ (n.log2 - 52) := by
      rw [Nat.le_div_iff_mul_le (Nat.two_pow_pos _), ← Nat.pow_add]
      rw [show 52 + (n.log2 - 52) = n.log2 by omega]
      exact Nat.log2_self_le hpos
    calc 2 ^ e ≤ 2 ^ n.log2 := Nat.pow_le_pow_right (by decide) he
      _ = 2 ^ 52 * 2 ^ (n.log2 - 52) := by rw [← Nat.pow_add]; congr 1; omega
      _ ≤ roundShift n (n.log2 - 52) * 2 ^ (n.log2 - 52) :=
        Nat.mul_le_mul_right _ (hquot.trans (le_roundShift _ _))

theorem roundSig_of_lt {n : ℕ} (h : n < 2 ^ 53) : roundSig n = n := if_pos h

/-! ## Rounding keeps the order -/

theorem roundShift_le (n s : ℕ) : roundShift n s ≤ n / 2 ^ s + 1 := by
  unfold roundShift
  split
  · exact le_rfl
  · exact Nat.le_succ _

theorem roundShift_mono {n m : ℕ} (h : n ≤ m) (s : ℕ) : roundShift n s ≤ roundShift m s := by
  obtain hlt | heq := (Nat.div_le_div_right (c := 2 ^ s) h).lt_or_eq
  · exact ((roundShift_le n s).trans hlt).trans (le_roundShift m s)
  · have hn := Nat.div_add_mod n (2 ^ s)
    have hm := Nat.div_add_mod m (2 ^ s)
    rw [heq] at hn
    have hmod : n % 2 ^ s ≤ m % 2 ^ s := by omega
    unfold roundShift
    rw [heq]
    split
    · rw [if_pos (by omega)]
    · split
      · exact Nat.le_succ _
      · exact le_rfl

theorem roundSig_le {n : ℕ} (h : 2 ^ 53 ≤ n) : roundSig n ≤ 2 ^ (n.log2 + 1) := by
  have hpos : n ≠ 0 := by
    rintro rfl
    exact absurd h (by decide)
  have hbig : 52 ≤ n.log2 := (Nat.le_log2 hpos).2 (le_trans (by decide) h)
  have hquot : n / 2 ^ (n.log2 - 52) < 2 ^ 53 := by
    rw [Nat.div_lt_iff_lt_mul (Nat.two_pow_pos _), ← Nat.pow_add]
    rw [show 53 + (n.log2 - 52) = n.log2 + 1 by omega]
    exact Nat.lt_log2_self
  unfold roundSig
  rw [if_neg (not_lt.2 h)]
  calc roundShift n (n.log2 - 52) * 2 ^ (n.log2 - 52) ≤ 2 ^ 53 * 2 ^ (n.log2 - 52) :=
        Nat.mul_le_mul_right _ ((roundShift_le _ _).trans hquot)
    _ = 2 ^ (n.log2 + 1) := by rw [← Nat.pow_add]; congr 1; omega

/-- Rounding adds less than one part in `2 ^ 52`. -/
theorem roundSig_le_add (n : ℕ) : roundSig n ≤ n + n / 2 ^ 52 := by
  by_cases h : n < 2 ^ 53
  · rw [roundSig_of_lt h]
    exact Nat.le_add_right _ _
  have hpos : n ≠ 0 := by omega
  have hbig : 52 ≤ n.log2 := (Nat.le_log2 hpos).2 (le_trans (by decide) (not_lt.1 h))
  have hunit : 2 ^ (n.log2 - 52) ≤ n / 2 ^ 52 := by
    rw [Nat.le_div_iff_mul_le (Nat.two_pow_pos _), ← Nat.pow_add]
    rw [show n.log2 - 52 + 52 = n.log2 by omega]
    exact Nat.log2_self_le hpos
  unfold roundSig
  rw [if_neg h]
  calc roundShift n (n.log2 - 52) * 2 ^ (n.log2 - 52)
      ≤ (n / 2 ^ (n.log2 - 52) + 1) * 2 ^ (n.log2 - 52) :=
        Nat.mul_le_mul_right _ (roundShift_le _ _)
    _ = n / 2 ^ (n.log2 - 52) * 2 ^ (n.log2 - 52) + 2 ^ (n.log2 - 52) := by
        rw [Nat.add_mul, Nat.one_mul]
    _ ≤ n + n / 2 ^ 52 := Nat.add_le_add (Nat.div_mul_le_self _ _) hunit

theorem roundSig_mono {n m : ℕ} (h : n ≤ m) : roundSig n ≤ roundSig m := by
  by_cases hm : m < 2 ^ 53
  · rw [roundSig_of_lt hm, roundSig_of_lt (lt_of_le_of_lt h hm)]
    exact h
  by_cases hn : n < 2 ^ 53
  · rw [roundSig_of_lt hn]
    exact hn.le.trans (two_pow_le_roundSig (not_lt.1 hm))
  have hnpos : n ≠ 0 := by omega
  have hmpos : m ≠ 0 := by omega
  have hlog : n.log2 ≤ m.log2 := (Nat.le_log2 hmpos).2 ((Nat.log2_self_le hnpos).trans h)
  obtain hlt | heq := hlog.lt_or_eq
  · calc roundSig n ≤ 2 ^ (n.log2 + 1) := roundSig_le (not_lt.1 hn)
      _ ≤ 2 ^ m.log2 := Nat.pow_le_pow_right (by decide) hlt
      _ ≤ roundSig m := two_pow_le_roundSig (Nat.log2_self_le hmpos)
  · unfold roundSig
    rw [if_neg hn, if_neg hm, heq]
    exact Nat.mul_le_mul_right _ (roundShift_mono h _)

/-! ## Rounding of integers -/

section
variable {f : ℕ → ℕ}

theorem sign_mul_natCast (hzero : f 0 = 0) (n : ℕ) :
    (n : ℤ).sign * (f (n : ℤ).natAbs : ℤ) = f n := by
  rw [Int.natAbs_natCast]
  cases n with
  | zero => rw [hzero]; rfl
  | succ n => rw [Int.sign_natCast_of_ne_zero (Nat.succ_ne_zero n), Int.one_mul]

theorem sign_mul_neg (f : ℕ → ℕ) (z : ℤ) :
    (-z).sign * (f (-z).natAbs : ℤ) = -(z.sign * f z.natAbs) := by
  rw [Int.sign_neg, Int.natAbs_neg, Int.neg_mul]

/-- What keeps the order of the natural numbers keeps that of the integers. -/
theorem sign_mul_mono (hzero : f 0 = 0) (hf : ∀ {n m : ℕ}, n ≤ m → f n ≤ f m) {z z' : ℤ} (h : z ≤ z') :
    z.sign * (f z.natAbs : ℤ) ≤ z'.sign * f z'.natAbs := by
  obtain ⟨n, rfl | rfl⟩ := z.eq_nat_or_neg
  · obtain ⟨m, rfl⟩ := Int.eq_ofNat_of_zero_le ((Int.natCast_nonneg n).trans h)
    rw [sign_mul_natCast hzero, sign_mul_natCast hzero]
    exact Int.ofNat_le.2 (hf (Int.ofNat_le.1 h))
  · obtain ⟨m, rfl | rfl⟩ := z'.eq_nat_or_neg
    · rw [sign_mul_neg, sign_mul_natCast hzero, sign_mul_natCast hzero]
      omega
    · rw [sign_mul_neg, sign_mul_neg, sign_mul_natCast hzero, sign_mul_natCast hzero]
      have := hf (show m ≤ n by omega)
      omega

end

/-! ## Conversions -/

theorem ofInt_mono {z z' : ℤ} (h : z ≤ z') : ofInt z ≤ ofInt z' := by
  have hzero : min (roundSig 0) infinity = 0 := by rw [roundSig_of_lt (by decide), Nat.zero_min]
  exact sign_mul_mono (f := fun n => min (roundSig n) infinity) hzero
    (fun hle => min_le_min_right infinity (roundSig_mono hle)) h

theorem two_pow_le_infinity {e : ℕ} (h : e ≤ 1024) : 2 ^ e ≤ infinity := by
  unfold infinity
  apply Nat.pow_le_pow_right Nat.two_pos
  exact h

theorem ofInt_of_lt {z : ℤ} (h : z.natAbs < 2 ^ 53) : ofInt z = z := by
  have hsmall : z.natAbs ≤ infinity := h.le.trans (two_pow_le_infinity (by decide))
  unfold ofInt
  rw [roundSig_of_lt h, min_eq_left hsmall]
  exact Int.sign_mul_natAbs z

/-- The conversion keeps a lower bound that is itself small. -/
theorem le_of_ofNat? {b n x : ℕ} (hb : b ≤ 2 ^ 53) (h : ofNat? n = some x) (hn : b ≤ n) : b ≤ x := by
  unfold ofNat? at h
  split at h
  · obtain rfl := Option.some.inj h
    by_cases hlt : n < 2 ^ 53
    · rw [roundSig_of_lt hlt]
      exact hn
    · exact hb.trans (two_pow_le_roundSig (not_lt.1 hlt))
  · cases h

theorem ofNat?_of_lt {n : ℕ} (h : n < 2 ^ 53) : ofNat? n = some n := by
  unfold ofNat?
  rw [roundSig_of_lt h, if_pos]
  by_cases hn : n = 0
  · subst hn
    decide
  · exact ((Nat.log2_lt hn).2 h).trans (by decide)

end Lib.Binary64
