import Mathlib.Algebra.Order.Ring.Nat
import Mathlib.Data.List.TakeWhile

/-!
# Numbers and fields in texts

* `trailingNat_append`: the number at the end of a text is read back.
* `toString_int_inj`: numbers are told by their texts.
* `append_cons_inj`: a text is cut at the last separator.
* `intercalate_inj`: fields without the separator are told from any others, by the text that joins
  them.
-/

set_option autoImplicit false

namespace Lib.Text

/-- The number a text ends in. -/
def trailingNat (cs : List Char) : ℕ :=
  Nat.ofDigitChars 10 (cs.reverse.takeWhile Char.isDigit).reverse 0

theorem trailingNat_append (cs : List Char) {c : Char} (hc : c.isDigit = false) (n : ℕ) :
    trailingNat (cs ++ [c] ++ Nat.toDigits 10 n) = n := by
  have hdigits : ∀ d ∈ (Nat.toDigits 10 n).reverse, d.isDigit = true := fun d hd =>
    Nat.isDigit_of_mem_toDigits (by decide) (by decide) (List.mem_reverse.1 hd)
  unfold trailingNat
  rw [List.reverse_append, List.takeWhile_append_of_pos hdigits, List.reverse_append]
  simp [hc]

/-! ## Numbers as texts -/

theorem isDigit_of_mem_repr {n : ℕ} {c : Char} (h : c ∈ (Nat.repr n).toList) : c.isDigit = true := by
  rw [Nat.repr, String.toList_ofList] at h
  exact Nat.isDigit_of_mem_toDigits (by decide) (by decide) h

theorem repr_inj {m n : ℕ} (h : Nat.repr m = Nat.repr n) : m = n := by
  have hdigits := String.ofList_injective h
  have hread : ∀ k : ℕ, Nat.ofDigitChars 10 (Nat.toDigits 10 k) 0 = k := fun k => by simp
  rw [← hread m, hdigits, hread]

theorem toString_negSucc (n : ℕ) : toString (Int.negSucc n) = "-" ++ Nat.repr (n + 1) := rfl

/-- A number is written with digits and a minus only. -/
theorem notMem_toString_int {c : Char} (hdigit : c.isDigit = false) (hminus : c ≠ '-') (n : ℤ) :
    c ∉ (toString n).toList := by
  have hnat : ∀ m : ℕ, c ∉ (Nat.repr m).toList := fun m hmem => by
    rw [isDigit_of_mem_repr hmem] at hdigit
    cases hdigit
  cases n with
  | ofNat m => exact hnat m
  | negSucc m =>
    rw [toString_negSucc, String.toList_append, List.mem_append, not_or]
    exact ⟨fun hmem => hminus (List.mem_singleton.1 hmem), hnat _⟩

theorem toString_int_inj {m n : ℤ} (h : toString m = toString n) : m = n := by
  have hne : ∀ i j : ℕ, Nat.repr i ≠ "-" ++ Nat.repr (j + 1) := fun i j heq => by
    have hmem : '-' ∈ (Nat.repr i).toList := by
      rw [heq, String.toList_append]
      exact List.mem_append_left _ (List.mem_singleton.2 rfl)
    cases isDigit_of_mem_repr hmem
  cases m with
  | ofNat i =>
    cases n with
    | ofNat j => rw [repr_inj h]
    | negSucc j => exact absurd h (hne i j)
  | negSucc i =>
    cases n with
    | ofNat j => exact absurd h.symm (hne j i)
    | negSucc j =>
      rw [toString_negSucc, toString_negSucc, String.append_right_inj] at h
      rw [Nat.succ.inj (repr_inj h)]

/-! ## Cuts -/

theorem append_cons_inj {c : Char} {a a' b b' : List Char} (hb : c ∉ b) (hb' : c ∉ b')
    (h : a ++ c :: b = a' ++ c :: b') : a = a' ∧ b = b' := by
  obtain ⟨t, rfl, ht⟩ | ⟨t, rfl, ht⟩ := List.append_eq_append_iff.1 h
  · cases t with
    | nil => simpa using ht
    | cons d t =>
      obtain ⟨-, rfl⟩ := List.cons.inj ht
      exact absurd (by simp) hb
  · cases t with
    | nil => simpa using ht.symm
    | cons d t =>
      obtain ⟨-, rfl⟩ := List.cons.inj ht
      exact absurd (by simp) hb'

/-- The same of texts, at a separator of one character. -/
theorem append_sep_inj {sep : String} {c : Char} (hsep : sep.toList = [c]) {a a' b b' : String}
    (hb : c ∉ b.toList) (hb' : c ∉ b'.toList) (h : a ++ sep ++ b = a' ++ sep ++ b') :
    a = a' ∧ b = b' := by
  have hlist := congrArg String.toList h
  simp only [String.toList_append, hsep, List.append_assoc, List.singleton_append] at hlist
  obtain ⟨ha, hb⟩ := append_cons_inj hb hb' hlist
  exact ⟨String.toList_injective ha, String.toList_injective hb⟩

/-! ## Joined fields -/

/-- A text joined of some fields has the separators of the fields and those between them. -/
theorem count_intercalate (c : Char) (xs : List (List Char)) :
    ([c].intercalate xs).count c = (xs.map (List.count c)).sum + (xs.length - 1) := by
  induction xs with
  | nil => rfl
  | cons x xs ih =>
    cases xs with
    | nil => simp
    | cons y ys =>
      rw [List.intercalate_cons_cons, List.count_append, List.count_append, ih,
        List.count_singleton_self, List.map_cons (a := x), List.sum_cons]
      simp only [List.length_cons]
      omega

/-- As many fields, of which the one kind has no separators, are the same when they are joined to the
same text. -/
theorem intercalate_inj {c : Char} {xs ys : List String} (hlen : xs.length = ys.length)
    (hxs : ∀ x ∈ xs, c ∉ x.toList)
    (h : (String.singleton c).intercalate xs = (String.singleton c).intercalate ys) : xs = ys := by
  have hlist := congrArg String.toList h
  rw [String.toList_intercalate, String.toList_intercalate, String.toList_singleton] at hlist
  have hxs' : ∀ x ∈ xs.map String.toList, c ∉ x := by
    intro x hx
    obtain ⟨x, hmem, rfl⟩ := List.mem_map.1 hx
    exact hxs x hmem
  have hzero : ((xs.map String.toList).map (List.count c)).sum = 0 := by
    rw [List.sum_eq_zero_iff_forall_eq_nat]
    intro n hn
    obtain ⟨x, hx, rfl⟩ := List.mem_map.1 hn
    exact List.count_eq_zero.2 (hxs' x hx)
  have hys' : ∀ y ∈ ys.map String.toList, c ∉ y := by
    have hcount := congrArg (List.count c) hlist
    rw [count_intercalate, count_intercalate, hzero, List.length_map, List.length_map, hlen] at hcount
    have hsum : ((ys.map String.toList).map (List.count c)).sum = 0 := by omega
    rw [List.sum_eq_zero_iff_forall_eq_nat] at hsum
    exact fun y hy => List.count_eq_zero.1 (hsum _ (List.mem_map_of_mem hy))
  rw [← List.map_inj_right fun _ _ => String.toList_injective]
  cases xs with
  | nil => rw [List.length_eq_zero_iff.1 hlen.symm]
  | cons x xs =>
    cases ys with
    | nil => cases hlen
    | cons y ys =>
      rw [← List.splitOn_intercalate c hxs' (by simp), hlist,
        List.splitOn_intercalate c hys' (by simp)]

end Lib.Text
