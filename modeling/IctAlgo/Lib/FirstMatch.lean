import Mathlib.Data.List.TakeWhile
import Mathlib.Order.Lattice

/-!
# The first match in a list

Loops of the shape `for i, x in enumerate(xs): if p(x): xs[i] = y; break` (`replaceFirst`) and
`xs.remove(..)` (core's `eraseP`) act on the element `find?` finds. `split_find?` cuts the list
there; the rest follows from the cut. `upTo` is what a loop has seen when it breaks at the first
match; in a list in the order of a key both have a description that knows no positions.
-/

set_option autoImplicit false

namespace Lib.FirstMatch

variable {α : Type} {p : α → Bool} {x y : α} {l : List α}

/-- Overwrite the first element that satisfies `p` with `y`. -/
def replaceFirst (p : α → Bool) (y : α) : List α → List α
  | [] => []
  | x :: xs => if p x then y :: xs else x :: replaceFirst p y xs

theorem replaceFirst_append {as bs : List α} (has : ∀ a ∈ as, p a = false) (hx : p x = true) :
    replaceFirst p y (as ++ x :: bs) = as ++ y :: bs := by
  induction as with
  | nil => simp [replaceFirst, hx]
  | cons a as ih =>
    have ha : p a = false := has a List.mem_cons_self
    simp [replaceFirst, ha, ih fun b hb => has b (List.mem_cons_of_mem a hb)]

/-- The cut of the list at its first match. -/
theorem split_find? (h : l.find? p = some x) :
    ∃ as bs, l = as ++ x :: bs ∧ (∀ a ∈ as, p a = false) ∧
      (∀ y, replaceFirst p y l = as ++ y :: bs) ∧ l.eraseP p = as ++ bs := by
  obtain ⟨hx, as, bs, rfl, has⟩ := List.find?_eq_some_iff_append.1 h
  have has' : ∀ a ∈ as, p a = false := fun a ha => by simpa using has a ha
  refine ⟨as, bs, rfl, has', fun y => replaceFirst_append has' hx, ?_⟩
  rw [List.eraseP_append_right _ fun a ha => by simp [has' a ha], List.eraseP_cons_of_pos hx]

/-- Overwriting an element with itself. -/
theorem replaceFirst_self (h : l.find? p = some x) : replaceFirst p x l = l := by
  obtain ⟨as, bs, hl, -, hr, -⟩ := split_find? h
  rw [hr, hl]

/-- A member that matches makes the search succeed. -/
theorem find?_isSome_of_mem (hx : p x = true) (hm : x ∈ l) : ∃ z, l.find? p = some z := by
  have h : (l.find? p).isSome = true := List.find?_isSome.2 ⟨x, hm, hx⟩
  exact Option.isSome_iff_exists.1 h

/-- A stronger predicate the found element satisfies finds it too. -/
theorem find?_of_imp {q : α → Bool} (h : l.find? p = some x) (hq : q x = true)
    (himp : ∀ a, q a = true → p a = true) : l.find? q = some x := by
  obtain ⟨as, bs, rfl, has, -⟩ := split_find? h
  refine List.find?_eq_some_iff_append.2 ⟨hq, as, bs, rfl, fun a ha => ?_⟩
  cases hqa : q a with
  | false => rfl
  | true => exact absurd (himp a hqa) (by simp [has a ha])

theorem mem_of_mem_replaceFirst {z : α} (h : z ∈ replaceFirst p y l) : z = y ∨ z ∈ l := by
  induction l with
  | nil => exact Or.inr h
  | cons a l ih =>
    unfold replaceFirst at h
    split at h
    · rcases List.mem_cons.1 h with rfl | h
      · exact Or.inl rfl
      · exact Or.inr (List.mem_cons_of_mem a h)
    · rcases List.mem_cons.1 h with rfl | h
      · exact Or.inr List.mem_cons_self
      · exact (ih h).imp_right (List.mem_cons_of_mem a)

theorem replaceFirst_of_none (h : l.find? p = none) : replaceFirst p y l = l := by
  induction l with
  | nil => rfl
  | cons a l ih =>
    rw [List.find?_cons] at h
    cases ha : p a with
    | true => simp [ha] at h
    | false => simp [replaceFirst, ha, ih (by simpa [ha] using h)]

/-- A member that is not the first match stays. -/
theorem mem_replaceFirst {z : α} (hm : z ∈ l) (hne : l.find? p ≠ some z) :
    z ∈ replaceFirst p y l := by
  cases hf : l.find? p with
  | none => rwa [replaceFirst_of_none hf]
  | some x =>
    obtain ⟨as, bs, rfl, -, hr, -⟩ := split_find? hf
    have hzx : z ≠ x := fun heq => hne (heq ▸ hf)
    rw [hr]
    simp only [List.mem_append, List.mem_cons, hzx, false_or] at hm ⊢
    exact hm.imp_right Or.inr

theorem mem_eraseP {z : α} (hm : z ∈ l) (hne : l.find? p ≠ some z) : z ∈ l.eraseP p := by
  cases hf : l.find? p with
  | none =>
    have hz : ¬ p z = true := List.find?_eq_none.1 hf z hm
    exact (List.mem_eraseP_of_neg hz).2 hm
  | some x =>
    obtain ⟨as, bs, rfl, -, -, he⟩ := split_find? hf
    have hzx : z ≠ x := fun heq => hne (heq ▸ hf)
    rw [he]
    simp only [List.mem_append, List.mem_cons, hzx, false_or] at hm ⊢
    exact hm

/-! ## A list in the order of a key -/

/-- The elements up to the first one that satisfies `p`, which is included. -/
def upTo (p : α → Bool) (l : List α) : List α := l.takeWhile (!p ·) ++ (l.find? p).toList

theorem upTo_cons (a : α) : upTo p (a :: l) = if p a then [a] else a :: upTo p l := by
  unfold upTo
  split <;> rename_i ha <;> simp [ha]

section
variable {κ : Type} [LinearOrder κ] {key : α → κ}

/-- The first match is seen last: the key of nothing seen is above that of a match. -/
theorem mem_upTo (h : l.Pairwise (key · < key ·)) :
    x ∈ upTo p l ↔ x ∈ l ∧ ∀ y ∈ l, p y = true → key x ≤ key y := by
  induction l with
  | nil => simp [upTo]
  | cons a l ih =>
    obtain ⟨ha, hl⟩ := List.pairwise_cons.1 h
    rw [upTo_cons, List.forall_mem_cons]
    split <;> rename_i hp
    · rw [List.mem_singleton]
      constructor
      · rintro rfl
        exact ⟨List.mem_cons_self, fun _ => le_rfl, fun y hy _ => (ha y hy).le⟩
      · intro hx
        obtain ⟨hmem, hle, -⟩ := hx
        rcases List.mem_cons.1 hmem with rfl | hmem
        · rfl
        · exact absurd (hle hp) (not_le.2 (ha x hmem))
    · rw [List.mem_cons, ih hl, List.mem_cons]
      refine ⟨fun hx => ?_, fun hx => ?_⟩
      · rcases hx with rfl | ⟨hmem, hle⟩
        · exact ⟨Or.inl rfl, fun hpx => absurd hpx hp, fun y hy _ => (ha y hy).le⟩
        · exact ⟨Or.inr hmem, fun hpa => absurd hpa hp, hle⟩
      · obtain ⟨hmem, -, hle⟩ := hx
        exact hmem.imp_right fun hmem => ⟨hmem, hle⟩

/-- The first match is the one of the least key. -/
theorem find?_eq_some_iff_le (h : l.Pairwise (key · < key ·)) :
    l.find? p = some x ↔ x ∈ l ∧ p x = true ∧ ∀ y ∈ l, p y = true → key x ≤ key y := by
  have hseen := mem_upTo (p := p) (x := x) h
  rw [upTo, List.mem_append, Option.mem_toList] at hseen
  refine ⟨fun hx => ?_, fun hx => ?_⟩
  · obtain ⟨hmem, hle⟩ := hseen.1 (Or.inr hx)
    exact ⟨hmem, List.find?_some hx, hle⟩
  · obtain ⟨hmem, hp, hle⟩ := hx
    refine (hseen.2 ⟨hmem, hle⟩).resolve_left fun htake => ?_
    simpa [hp] using List.mem_takeWhile_imp htake

end

variable [DecidableEq α]

theorem count_eraseP (h : l.find? p = some x) (z : α) :
    (l.eraseP p).count z + (if x = z then 1 else 0) = l.count z := by
  obtain ⟨as, bs, rfl, -, -, he⟩ := split_find? h
  rw [he, List.count_append, List.count_append, List.count_cons]
  simp only [beq_iff_eq]
  omega

theorem count_replaceFirst (h : l.find? p = some x) (z : α) :
    (replaceFirst p y l).count z + (if x = z then 1 else 0) =
      l.count z + (if y = z then 1 else 0) := by
  obtain ⟨as, bs, rfl, -, hr, -⟩ := split_find? h
  rw [hr, List.count_append, List.count_append, List.count_cons, List.count_cons]
  simp only [beq_iff_eq]
  omega

end Lib.FirstMatch
