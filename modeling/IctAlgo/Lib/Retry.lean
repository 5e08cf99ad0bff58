import Mathlib.Data.List.Range
import Mathlib.Data.List.Basic

/-!
# Bounded retries

A loop that tries at most `n` times and ends with the first `final` answer. `tries` is what it sees,
`firstFinal` the number of the try it ends with, if one is final.

* `tries_eq`: a loop sees the answers up to that try, or all `n`.
* `firstFinal_eq_some_iff`, `firstFinal_eq_none_iff`: which try it is.
-/

set_option autoImplicit false

namespace Lib.Retry

variable {α : Type} (final : α → Bool) (answer : ℕ → α)

/-- The answers from the `k`-th on, up to the first final one, at most `n`. -/
def tries : ℕ → ℕ → List α
  | _, 0 => []
  | k, n + 1 =>
    if final (answer k) then [answer k] else answer k :: tries (k + 1) n

/-- The first final answer from the `k`-th on, among `n`. -/
def firstFinal : ℕ → ℕ → Option ℕ
  | _, 0 => none
  | k, n + 1 => if final (answer k) then some k else firstFinal (k + 1) n

variable {final answer} {k n i : ℕ}

theorem firstFinal_eq_some_iff :
    firstFinal final answer k n = some i ↔
      k ≤ i ∧ i < k + n ∧ final (answer i) = true ∧
        ∀ j, k ≤ j → j < i → final (answer j) = false := by
  induction n generalizing k with
  | zero =>
    refine ⟨fun h => (by cases h), fun h => ?_⟩
    omega
  | succ n ih =>
    rw [firstFinal]
    split
    · next hk =>
      constructor
      · rintro h
        cases h
        exact ⟨le_refl _, by omega, hk, fun j h1 h2 => by omega⟩
      · rintro ⟨hki, -, -, hall⟩
        by_cases hlt : k < i
        · rw [hall k (le_refl _) hlt] at hk
          cases hk
        · rw [show k = i by omega]
    · next hk =>
      rw [ih]
      constructor
      · rintro ⟨hki, hin, hi, hall⟩
        refine ⟨by omega, by omega, hi, fun j h1 h2 => ?_⟩
        by_cases hj : j = k
        · rw [hj, ← Bool.not_eq_true]
          exact hk
        · exact hall j (by omega) h2
      · rintro ⟨hki, hin, hi, hall⟩
        have hne : i ≠ k := by
          rintro rfl
          exact hk hi
        exact ⟨by omega, by omega, hi, fun j h1 h2 => hall j (by omega) h2⟩

theorem firstFinal_eq_none_iff :
    firstFinal final answer k n = none ↔ ∀ j, k ≤ j → j < k + n → final (answer j) = false := by
  induction n generalizing k with
  | zero => exact ⟨fun _ j h1 h2 => by omega, fun _ => rfl⟩
  | succ n ih =>
    rw [firstFinal]
    split
    · next hk =>
      refine ⟨fun h => (by cases h), fun h => ?_⟩
      rw [h k (le_refl _) (by omega)] at hk
      cases hk
    · next hk =>
      rw [ih]
      refine ⟨fun h j h1 h2 => ?_, fun h j h1 h2 => h j (by omega) (by omega)⟩
      by_cases hj : j = k
      · rw [hj, ← Bool.not_eq_true]
        exact hk
      · exact h j (by omega) (by omega)

/-- The number of tries. -/
def count (k n : ℕ) : Option ℕ → ℕ
  | none => n
  | some i => i + 1 - k

/-- **A loop sees the answers up to the first final one.** -/
theorem tries_eq :
    tries final answer k n =
      (List.range' k (count k n (firstFinal final answer k n))).map answer := by
  induction n generalizing k with
  | zero => rfl
  | succ n ih =>
    rw [tries, firstFinal]
    split
    · next hk => simp [count]
    · next hk =>
      rw [ih]
      cases h : firstFinal final answer (k + 1) n with
      | none => rfl
      | some i =>
        have hi := (firstFinal_eq_some_iff.1 h).1
        rw [count, count, show i + 1 - k = i + 1 - (k + 1) + 1 by omega, List.range'_succ,
          List.map_cons]

/-- It tries at most `n` times. -/
theorem count_le (h : firstFinal final answer k n = some i) : count k n (some i) ≤ n := by
  have hi := firstFinal_eq_some_iff.1 h
  simp only [count]
  omega

end Lib.Retry
