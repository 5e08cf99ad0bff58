import Mathlib.Data.List.Basic

/-!
# Tests that select the same

Two filters of a list agree when their tests agree on its elements, and so do two counts when one
test is weaker than the other.
-/

set_option autoImplicit false

namespace Lib

variable {α : Type} {p q : α → Bool} {xs : List α}

theorem filter_eq_filter_iff : xs.filter p = xs.filter q ↔ ∀ x ∈ xs, p x = q x := by
  refine ⟨fun h x hx => ?_, List.filter_congr⟩
  have hmem : x ∈ xs.filter p ↔ x ∈ xs.filter q := by rw [h]
  rw [List.mem_filter, List.mem_filter, and_iff_right hx, and_iff_right hx] at hmem
  exact Bool.eq_iff_iff.2 hmem

/-- A weaker test counts as many only where it is no weaker. -/
theorem countP_eq_countP_iff (h : ∀ x, p x → q x) :
    xs.countP q = xs.countP p ↔ ∀ x ∈ xs, q x → p x := by
  have hsub : (xs.filter p).Sublist (xs.filter q) := List.monotone_filter_right xs h
  rw [List.countP_eq_length_filter, List.countP_eq_length_filter]
  refine ⟨fun hlen x hx hq => ?_, fun hall => ?_⟩
  · have hmem : x ∈ xs.filter q := List.mem_filter.2 ⟨hx, hq⟩
    rw [← hsub.eq_of_length hlen.symm] at hmem
    exact (List.mem_filter.1 hmem).2
  · rw [filter_eq_filter_iff.2 fun x hx => Bool.eq_iff_iff.2 ⟨hall x hx, h x⟩]

end Lib
