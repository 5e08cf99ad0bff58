import Mathlib.Algebra.BigOperators.Group.List.Basic
import Mathlib.Algebra.Order.BigOperators.Group.List
import Mathlib.Algebra.Order.Group.Defs
import Mathlib.Algebra.Order.Sub.Basic
import Mathlib.Order.Bounds.Basic

/-!
# Partial sums and runs

The sums of the first elements of a list, how far they fall from one to a later one, and the runs of
consecutive elements with a property. One rule for each says what one more element makes of the
greatest: `isGreatest_partialSums_concat`, `isGreatest_falls_concat` and `isGreatest_runs_concat`.
-/

set_option autoImplicit false

namespace Lib

theorem length_snoc {α : Type*} (xs : List α) (x : α) : (xs ++ [x]).length = xs.length + 1 :=
  List.length_append

/-! ## Partial sums -/

section
variable {α : Type*} [AddCommGroup α]

/-- The sum of the first `n` elements. -/
def partialSum (xs : List α) (n : ℕ) : α := (xs.take n).sum

def partialSums (xs : List α) : Set α := {s | ∃ n ≤ xs.length, partialSum xs n = s}

/-- The differences of a partial sum and a later one. -/
def falls (xs : List α) : Set α :=
  {d | ∃ i j, i ≤ j ∧ j ≤ xs.length ∧ partialSum xs i - partialSum xs j = d}

@[simp] theorem partialSum_length (xs : List α) : partialSum xs xs.length = xs.sum := by
  rw [partialSum, List.take_length]

theorem partialSum_append_of_le {xs : List α} {n : ℕ} (h : n ≤ xs.length) (ys : List α) :
    partialSum (xs ++ ys) n = partialSum xs n := by
  rw [partialSum, List.take_append_of_le_length h]
  rfl

theorem partialSum_concat (xs : List α) (x : α) :
    partialSum (xs ++ [x]) (xs.length + 1) = xs.sum + x := by
  rw [← length_snoc xs x, partialSum_length, List.sum_append, List.sum_singleton]

variable [LinearOrder α]

theorem isGreatest_partialSums_nil : IsGreatest (partialSums ([] : List α)) 0 := by
  refine ⟨⟨0, le_rfl, rfl⟩, fun s hs => ?_⟩
  obtain ⟨n, -, rfl⟩ := hs
  rw [partialSum, List.take_nil]
  exact le_rfl

theorem isGreatest_partialSums_concat {xs : List α} {m : α} (h : IsGreatest (partialSums xs) m)
    (x : α) : IsGreatest (partialSums (xs ++ [x])) (max m (xs.sum + x)) := by
  obtain ⟨⟨k, hk, hm⟩, hle⟩ := h
  refine ⟨?_, fun s hs => ?_⟩
  · rcases max_choice m (xs.sum + x) with heq | heq
    · rw [heq]
      refine ⟨k, ?_, (partialSum_append_of_le hk [x]).trans hm⟩
      rw [length_snoc]
      exact Nat.le_succ_of_le hk
    · rw [heq]
      exact ⟨xs.length + 1, (length_snoc xs x).ge, partialSum_concat xs x⟩
  · obtain ⟨n, hn, rfl⟩ := hs
    rw [length_snoc] at hn
    rcases Nat.le_succ_iff.1 hn with hn | rfl
    · rw [partialSum_append_of_le hn]
      exact (hle ⟨n, hn, rfl⟩).trans (le_max_left _ _)
    · rw [partialSum_concat]
      exact le_max_right _ _

theorem isGreatest_falls_nil : IsGreatest (falls ([] : List α)) 0 := by
  refine ⟨⟨0, 0, le_rfl, le_rfl, sub_self _⟩, fun d hd => ?_⟩
  obtain ⟨i, j, -, -, rfl⟩ := hd
  simp [partialSum]

variable [IsOrderedAddMonoid α]

/-- The greatest fall to the new sum is the one from the greatest sum. -/
theorem isGreatest_falls_concat {xs : List α} {d m x : α} (h : IsGreatest (falls xs) d)
    (hm : IsGreatest (partialSums (xs ++ [x])) m) :
    IsGreatest (falls (xs ++ [x])) (max d (m - (xs.sum + x))) := by
  obtain ⟨⟨i, j, hij, hj, hd⟩, hle⟩ := h
  obtain ⟨⟨k, hk, hsum⟩, hmax⟩ := hm
  rw [length_snoc] at hk
  refine ⟨?_, fun d' hd' => ?_⟩
  · rcases max_choice d (m - (xs.sum + x)) with heq | heq
    · rw [heq]
      refine ⟨i, j, hij, ?_, ?_⟩
      · rw [length_snoc]
        exact Nat.le_succ_of_le hj
      · rw [partialSum_append_of_le (hij.trans hj), partialSum_append_of_le hj]
        exact hd
    · rw [heq]
      refine ⟨k, xs.length + 1, hk, (length_snoc xs x).ge, ?_⟩
      rw [hsum, partialSum_concat]
  · obtain ⟨i, j, hij, hj, rfl⟩ := hd'
    have hj' := hj
    rw [length_snoc] at hj'
    rcases Nat.le_succ_iff.1 hj' with hj' | rfl
    · rw [partialSum_append_of_le (hij.trans hj'), partialSum_append_of_le hj']
      exact (hle ⟨i, j, hij, hj', rfl⟩).trans (le_max_left _ _)
    · rw [partialSum_concat]
      exact (sub_le_sub_right (hmax ⟨i, hij.trans hj, rfl⟩) _).trans (le_max_right _ _)

/-- What only grows does not fall. -/
theorem isGreatest_falls_of_nonneg {xs : List α} (h : ∀ x ∈ xs, 0 ≤ x) :
    IsGreatest (falls xs) (0 : α) := by
  refine ⟨⟨0, 0, le_rfl, Nat.zero_le _, sub_self _⟩, fun d hd => ?_⟩
  obtain ⟨i, j, hij, -, rfl⟩ := hd
  have hsplit : partialSum xs j = partialSum xs i + ((xs.drop i).take (j - i)).sum := by
    unfold partialSum
    rw [← List.sum_append, ← List.take_add, Nat.add_sub_cancel' hij]
  rw [hsplit, sub_nonpos]
  refine le_add_of_nonneg_right (List.sum_nonneg fun x hx => ?_)
  exact h x (List.mem_of_mem_drop (List.mem_of_mem_take hx))

end

/-! ## Runs -/

section
variable {α : Type*} (p : α → Prop) (xs : List α)

/-- The lengths of the runs of elements with `p`. -/
def runs : Set ℕ := {n | ∃ run, run <:+: xs ∧ (∀ x ∈ run, p x) ∧ run.length = n}

/-- The lengths of those that reach the end. -/
def endRuns : Set ℕ := {n | ∃ run, run <:+ xs ∧ (∀ x ∈ run, p x) ∧ run.length = n}

end

section
variable {α : Type*} {p : α → Prop} {xs : List α} {x : α} {n m : ℕ}

theorem isGreatest_runs_nil : IsGreatest (runs p []) 0 := by
  refine ⟨⟨[], List.infix_rfl, List.forall_mem_nil p, rfl⟩, fun n hn => ?_⟩
  obtain ⟨run, hrun, -, rfl⟩ := hn
  rw [List.infix_nil.1 hrun]
  exact le_rfl

theorem isGreatest_endRuns_nil : IsGreatest (endRuns p []) 0 := by
  refine ⟨⟨[], List.suffix_rfl, List.forall_mem_nil p, rfl⟩, fun n hn => ?_⟩
  obtain ⟨run, hrun, -, rfl⟩ := hn
  rw [List.suffix_nil.1 hrun]
  exact le_rfl

/-- An element without `p` ends every run. -/
theorem isGreatest_endRuns_concat [Decidable (p x)] (h : IsGreatest (endRuns p xs) n) :
    IsGreatest (endRuns p (xs ++ [x])) (if p x then n + 1 else 0) := by
  obtain ⟨⟨run, hrun, hp, hlen⟩, hle⟩ := h
  split
  · rename_i hx
    refine ⟨⟨run ++ [x], ?_, ?_, by rw [length_snoc, hlen]⟩, fun k hk => ?_⟩
    · exact List.suffix_concat_iff.2 (Or.inr ⟨run, rfl, hrun⟩)
    · intro y hy
      rcases List.mem_append.1 hy with hy | hy
      · exact hp y hy
      · rw [List.mem_singleton.1 hy]
        exact hx
    · obtain ⟨run', hrun', hp', rfl⟩ := hk
      rcases List.suffix_concat_iff.1 hrun' with rfl | ⟨t, rfl, ht⟩
      · exact Nat.zero_le _
      · rw [length_snoc]
        exact Nat.succ_le_succ
          (hle ⟨t, ht, fun y hy => hp' y (List.mem_append_left _ hy), rfl⟩)
  · rename_i hx
    refine ⟨⟨[], List.nil_suffix, List.forall_mem_nil p, rfl⟩, fun k hk => ?_⟩
    obtain ⟨run', hrun', hp', rfl⟩ := hk
    rcases List.suffix_concat_iff.1 hrun' with rfl | ⟨t, rfl, -⟩
    · exact le_rfl
    · exact absurd (hp' x (List.mem_append_right _ List.mem_cons_self)) hx

theorem isGreatest_runs_concat (h : IsGreatest (runs p xs) m)
    (hend : IsGreatest (endRuns p (xs ++ [x])) n) : IsGreatest (runs p (xs ++ [x])) (max m n) := by
  obtain ⟨⟨run, hrun, hp, hlen⟩, hle⟩ := h
  obtain ⟨⟨run', hrun', hp', hlen'⟩, hle'⟩ := hend
  refine ⟨?_, fun k hk => ?_⟩
  · rcases max_choice m n with heq | heq
    · rw [heq]
      exact ⟨run, List.infix_concat_iff.2 (Or.inr hrun), hp, hlen⟩
    · rw [heq]
      exact ⟨run', List.infix_concat_iff.2 (Or.inl hrun'), hp', hlen'⟩
  · obtain ⟨t, ht, hpt, rfl⟩ := hk
    rcases List.infix_concat_iff.1 ht with ht | ht
    · exact (hle' ⟨t, ht, hpt, rfl⟩).trans (le_max_right _ _)
    · exact (hle ⟨t, ht, hpt, rfl⟩).trans (le_max_left _ _)

end

end Lib
