import Mathlib.Algebra.BigOperators.Group.Multiset.Basic
import IctAlgo.Lib.Float64
import IctAlgo.Lib.PartialSums

/-!
# Sums of binary64 numbers

A sum is rounded after each addition (`total`).

* `total_insert_le`: one more number that is not positive does not raise a sum, wherever it stands.
* `total_perm`: the order of the numbers does not matter when no sum of some of them is rounded.
* `Moves.of_concat`, `Moves.isGreatest_falls`: a running sum moves by one step for each number, and
  does not fall when they are positive.
-/

set_option autoImplicit false

namespace Lib.Binary64

/-- The sum of a loop that starts from `0.0`. -/
def total (xs : List PyFloat) : PyFloat := xs.foldl add (.fin 0)

/-- `sum(xs) / len(xs)`, for some numbers. -/
def mean (xs : List PyFloat) : PyFloat := div (total xs) xs.length

theorem mean_nil : mean [] = .fin 0 := by
  show nearest (0 / ((0 : ℕ) : ℚ)) = .fin 0
  rw [zero_div]
  exact nearest_zero.nearest_eq

theorem total_concat (xs : List PyFloat) (x : PyFloat) : total (xs ++ [x]) = add (total xs) x :=
  List.foldl_concat ..

/-! ## One more number in a sum -/

/-- The first sum is no greater, unless the second one can no longer become small. -/
def AtMost (x y : PyFloat) : Prop := x.le y = true ∨ y = .inf ∨ y = .nan

theorem AtMost.le_fin {x y : PyFloat} {q : ℚ} (h : AtMost x y) (hy : y.le (.fin q) = true) :
    x.le (.fin q) = true := by
  rcases h with h | rfl | rfl
  · cases x <;> cases y <;> simp_all [PyFloat.le, PyFloat.lt]
    exact h.trans hy
  · cases hy
  · cases hy

theorem negInf_atMost (y : PyFloat) : AtMost .negInf y := by
  cases y <;> simp [AtMost, PyFloat.le, PyFloat.lt]

theorem AtMost.add {x y : PyFloat} (h : AtMost x y) (z : PyFloat) :
    AtMost (add x z) (add y z) := by
  rcases h with h | rfl | rfl
  · cases z with
    | nan => exact .inr (.inr (by cases y <;> rfl))
    | inf =>
      cases y with
      | negInf => exact .inr (.inr rfl)
      | nan => exact .inr (.inr rfl)
      | _ => exact .inr (.inl rfl)
    | negInf =>
      cases x with
      | fin p => exact negInf_atMost _
      | negInf => exact negInf_atMost _
      | inf => cases y <;> simp [PyFloat.le, PyFloat.lt] at h; exact .inr (.inr rfl)
      | nan => cases y <;> cases h
    | fin r =>
      cases x with
      | fin p =>
        cases y with
        | fin q => exact .inl (nearest_mono (by simpa [PyFloat.le] using h))
        | inf => exact .inr (.inl rfl)
        | nan => cases h
        | negInf => cases h
      | negInf => exact negInf_atMost _
      | inf => cases y <;> simp [PyFloat.le, PyFloat.lt] at h; exact .inr (.inl rfl)
      | nan => cases y <;> cases h
  · cases z with
    | nan => exact .inr (.inr rfl)
    | negInf => exact .inr (.inr rfl)
    | _ => exact .inr (.inl rfl)
  · cases z <;> exact .inr (.inr rfl)

theorem AtMost.foldl {x y : PyFloat} (h : AtMost x y) (zs : List PyFloat) :
    AtMost (zs.foldl Binary64.add x) (zs.foldl Binary64.add y) := by
  induction zs generalizing x y with
  | nil => exact h
  | cons z zs ih => exact ih (h.add z)

/-- A finite result is rounded. -/
def IsFloat (x : PyFloat) : Prop := ∀ q, x = .fin q → Representable q

theorem isFloat_zero : IsFloat (.fin 0) := by
  intro q h
  obtain rfl := PyFloat.fin.inj h
  exact nearest_intCast (n := 0) (by decide)

theorem isFloat_add (x y : PyFloat) : IsFloat (add x y) := by
  intro q h
  cases x with
  | fin p =>
    cases y with
    | fin r => exact nearest_idem h
    | _ => cases h
  | _ => cases y <;> cases h

theorem isFloat_foldl {x : PyFloat} (h : IsFloat x) (zs : List PyFloat) :
    IsFloat (zs.foldl add x) := by
  induction zs generalizing x with
  | nil => exact h
  | cons z zs ih => exact ih (isFloat_add x z)

theorem add_atMost {x z : PyFloat} (h : IsFloat x) (hz : z.le (.fin 0) = true) :
    AtMost (add x z) x := by
  cases z with
  | fin q =>
    cases x with
    | fin p =>
      have hq : q ≤ 0 := by simpa [PyFloat.le] using hz
      have hle := nearest_mono (add_le_of_nonpos_right hq : p + q ≤ p)
      rw [h p rfl] at hle
      exact .inl hle
    | inf => exact .inr (.inl rfl)
    | nan => exact .inr (.inr rfl)
    | negInf => exact negInf_atMost _
  | negInf =>
    cases x with
    | inf => exact .inr (.inl rfl)
    | nan => exact .inr (.inr rfl)
    | _ => exact negInf_atMost _
  | inf => cases hz
  | nan => cases hz

/-- **A number that is not positive does not raise the sum.** -/
theorem total_insert_le {xs ys : List PyFloat} {z : PyFloat} {q : ℚ} (hz : z.le (.fin 0) = true)
    (h : (total (xs ++ ys)).le (.fin q) = true) : (total (xs ++ z :: ys)).le (.fin q) = true := by
  unfold total at h ⊢
  rw [List.foldl_append] at h ⊢
  exact ((add_atMost (isFloat_foldl isFloat_zero xs) hz).foldl ys).le_fin h

/-! ## Running sums -/

/-- The running sum of the numbers is finite; it moves by these steps. -/
structure Moves (xs : List PyFloat) (steps : List ℚ) : Prop where
  length : steps.length = xs.length
  running : ∀ n ≤ xs.length, total (xs.take n) = .fin (partialSum steps n)

theorem Moves.total_eq {xs : List PyFloat} {steps : List ℚ} (h : Moves xs steps) :
    total xs = .fin steps.sum := by
  have hall := h.running xs.length le_rfl
  rwa [List.take_length, ← h.length, partialSum_length] at hall

/-- One more number is one more step. -/
theorem Moves.of_concat {xs : List PyFloat} {x : PyFloat} {steps : List ℚ}
    (h : Moves (xs ++ [x]) steps) : ∃ init step, steps = init ++ [step] ∧ Moves xs init ∧
      add (total xs) x = .fin (init.sum + step) := by
  have hlength := h.length
  rw [length_snoc] at hlength
  obtain rfl | ⟨init, step, rfl⟩ := List.eq_nil_or_concat' steps
  · cases hlength
  rw [length_snoc] at hlength
  refine ⟨init, step, rfl, ⟨by omega, fun n hn => ?_⟩, ?_⟩
  · have hrunning := h.running n (by rw [length_snoc]; omega)
    rwa [List.take_append_of_le_length hn, partialSum_append_of_le (by omega)] at hrunning
  · rw [← total_concat, h.total_eq, List.sum_append, List.sum_singleton]

/-- A positive number does not lower a float. -/
theorem le_add_of_pos {p : ℚ} {x : PyFloat} (hp : Representable p) (hx : PyFloat.lt (.fin 0) x = true) :
    PyFloat.le (.fin p) (add (.fin p) x) = true := by
  apply fin_le_add (q := 0) hp
  · rw [add_zero]
  · cases x with
    | fin r => exact decide_eq_true (of_decide_eq_true hx : 0 < r).le
    | inf => rfl
    | _ => cases hx

theorem Moves.nonneg {xs : List PyFloat} {steps : List ℚ} (h : Moves xs steps)
    (hpos : ∀ x ∈ xs, PyFloat.lt (.fin 0) x = true) : ∀ step ∈ steps, 0 ≤ step := by
  induction xs using List.reverseRecOn generalizing steps with
  | nil =>
    rw [List.length_eq_zero_iff.1 h.length]
    intro step hstep
    cases hstep
  | append_singleton xs x ih =>
    obtain ⟨init, step, rfl, hinit, hadd⟩ := h.of_concat
    have hfloat : Representable init.sum := isFloat_foldl isFloat_zero xs _ hinit.total_eq
    have hle := le_add_of_pos hfloat (hpos x (List.mem_append_right _ (List.mem_singleton_self x)))
    rw [hinit.total_eq] at hadd
    rw [hadd] at hle
    have hstep : init.sum ≤ init.sum + step := of_decide_eq_true hle
    intro step' hstep'
    rcases List.mem_append.1 hstep' with hmem | hmem
    · exact ih hinit (fun y hy => hpos y (List.mem_append_left _ hy)) step' hmem
    · rw [List.mem_singleton.1 hmem]
      linarith

/-- The running sum of positive numbers does not fall. -/
theorem Moves.isGreatest_falls {xs : List PyFloat} {steps : List ℚ} (h : Moves xs steps)
    (hpos : ∀ x ∈ xs, PyFloat.lt (.fin 0) x = true) : IsGreatest (falls steps) 0 :=
  isGreatest_falls_of_nonneg (h.nonneg hpos)

/-! ## The order of the numbers -/

/-- No sum of some of the finite numbers is rounded. -/
def Unrounded (xs : Multiset PyFloat) : Prop :=
  ∀ qs : Multiset ℚ, qs.map .fin ≤ xs → nearest qs.sum = .fin qs.sum

theorem Unrounded.add_eq {p q : ℚ} {xs : Multiset PyFloat} (h : Unrounded (.fin p ::ₘ .fin q ::ₘ xs)) :
    add (.fin p) (.fin q) = .fin (p + q) := by
  change nearest (p + q) = _
  have hsum := h {p, q} (by simp [Multiset.insert_eq_cons])
  simpa [Multiset.insert_eq_cons] using hsum

theorem Unrounded.zero_cons {xs : Multiset PyFloat} (h : Unrounded xs) : Unrounded (.fin 0 ::ₘ xs) := by
  intro qs hqs
  by_cases hmem : (0 : ℚ) ∈ qs
  · obtain ⟨rest, rfl⟩ := Multiset.exists_cons_of_mem hmem
    rw [Multiset.map_cons, Multiset.cons_le_cons_iff] at hqs
    rw [Multiset.sum_cons, zero_add]
    exact h rest hqs
  · refine h qs ((Multiset.le_cons_of_notMem ?_).1 hqs)
    simpa using hmem

/-- The first addition of the loop. -/
theorem Unrounded.add_cons {x y : PyFloat} {xs : Multiset PyFloat} (h : Unrounded (x ::ₘ y ::ₘ xs)) :
    Unrounded (add x y ::ₘ xs) := by
  intro qs hqs
  have hrest : xs ≤ x ::ₘ y ::ₘ xs := (Multiset.le_cons_self _ _).trans (Multiset.le_cons_self _ _)
  by_cases hmem : add x y ∈ qs.map .fin
  · obtain ⟨r, hr, heq⟩ := Multiset.mem_map.1 hmem
    obtain ⟨rest, rfl⟩ := Multiset.exists_cons_of_mem hr
    rw [Multiset.map_cons, heq, Multiset.cons_le_cons_iff] at hqs
    cases x with
    | fin p =>
      cases y with
      | fin q =>
        rw [h.add_eq] at heq
        obtain rfl := PyFloat.fin.inj heq
        have hall := h (p ::ₘ q ::ₘ rest) (by simpa using hqs)
        simpa [add_assoc] using hall
      | _ => cases heq
    | _ => cases y <;> cases heq
  · exact h qs (((Multiset.le_cons_of_notMem hmem).1 hqs).trans hrest)

theorem Unrounded.add_swap {x y z : PyFloat} {xs : Multiset PyFloat}
    (h : Unrounded (x ::ₘ y ::ₘ z ::ₘ xs)) : add (add x y) z = add (add x z) y := by
  have h' : Unrounded (x ::ₘ z ::ₘ y ::ₘ xs) := by
    rwa [Multiset.cons_swap z y]
  cases x with
  | fin p =>
    cases y with
    | fin q =>
      cases z with
      | fin r =>
        have hq := h.add_cons
        have hr := h'.add_cons
        rw [h.add_eq] at hq ⊢
        rw [h'.add_eq] at hr ⊢
        rw [hq.add_eq, hr.add_eq, add_right_comm]
      | _ => rw [h.add_eq]; rfl
    | _ =>
      cases z with
      | fin r => rw [h'.add_eq]; rfl
      | _ => rfl
  | _ => cases y <;> cases z <;> rfl

theorem foldl_add_perm {xs ys : List PyFloat} (hp : xs.Perm ys) (x : PyFloat)
    (h : Unrounded (x ::ₘ (xs : Multiset PyFloat))) : xs.foldl add x = ys.foldl add x := by
  induction hp generalizing x with
  | nil => rfl
  | cons y _ ih => exact ih _ h.add_cons
  | swap y z l =>
    rw [← Multiset.cons_coe, ← Multiset.cons_coe] at h
    simp only [List.foldl_cons]
    rw [h.add_swap]
  | trans hp _ ih ih' =>
    rw [ih x h]
    rw [Multiset.coe_eq_coe.2 hp] at h
    exact ih' x h

/-- **The sum of numbers that are not rounded** does not depend on their order. -/
theorem total_perm {xs ys : List PyFloat} (hp : xs.Perm ys) (h : Unrounded xs) : total xs = total ys :=
  foldl_add_perm hp _ h.zero_cons

/-- Integers with an absolute sum of at most 53 bits are not rounded. -/
theorem unrounded_of_ints (ns : Multiset ℤ) (h : (ns.map Int.natAbs).sum ≤ 2 ^ 53) :
    Unrounded (ns.map fun n : ℤ => .fin n) := by
  have hsum : ∀ qs : Multiset ℚ, qs.map PyFloat.fin ≤ ns.map (fun n : ℤ => .fin n) →
      ∃ z : ℤ, qs.sum = z ∧ z.natAbs ≤ (ns.map Int.natAbs).sum := by
    clear h
    induction ns using Multiset.induction_on with
    | empty =>
      intro qs hqs
      rw [Multiset.map_zero, Multiset.le_zero, Multiset.map_eq_zero] at hqs
      exact ⟨0, by simp [hqs]⟩
    | cons n ns ih =>
      intro qs hqs
      rw [Multiset.map_cons] at hqs
      rw [Multiset.map_cons, Multiset.sum_cons]
      by_cases hmem : (n : ℚ) ∈ qs
      · obtain ⟨rest, rfl⟩ := Multiset.exists_cons_of_mem hmem
        rw [Multiset.map_cons, Multiset.cons_le_cons_iff] at hqs
        obtain ⟨z, hz, hle⟩ := ih rest hqs
        refine ⟨n + z, by simp [hz], ?_⟩
        omega
      · obtain ⟨z, hz, hle⟩ := ih qs ((Multiset.le_cons_of_notMem (by simpa using hmem)).1 hqs)
        exact ⟨z, hz, by omega⟩
  intro qs hqs
  obtain ⟨z, hz, hle⟩ := hsum qs hqs
  rw [hz]
  exact nearest_intCast (hle.trans h)

end Lib.Binary64
