import Mathlib.Algebra.Order.Group.Defs
import Mathlib.Data.List.Basic

/-!
# Sliding windows

A limiter keeps the times it has admitted something at, drops from the front what is more than `w`
ago, and admits at most `n` that are left. `times` and the record of what was admitted are those of
calls at `nows`, in any ordered group of times.

* `dropWhile_eq_filter`: on times in order the front is all that is old.
* `admits_iff`: a call is admitted exactly when fewer than `n` were in the window up to it.
* `countP_window_le`: no window of length `w` holds more than `n`.
-/

set_option autoImplicit false

namespace Lib.SlidingWindow

/-- A test that no element meets after one that does not: the first ones are all that meet it. -/
theorem dropWhile_eq_filter {α : Type} {p : α → Bool} {l : List α}
    (h : l.Pairwise fun x y => p y = true → p x = true) :
    l.dropWhile p = l.filter fun x => !p x := by
  induction l with
  | nil => rfl
  | cons x l ih =>
    obtain ⟨hx, hl⟩ := List.pairwise_cons.1 h
    cases hp : p x with
    | true => rw [List.dropWhile_cons_of_pos hp, List.filter_cons_of_neg (by simp [hp]), ih hl]
    | false =>
      have hnot : ∀ y ∈ l, p y = false := fun y hy => by
        rw [← Bool.not_eq_true]
        intro hpy
        rw [hx y hy hpy] at hp
        cases hp
      rw [List.dropWhile_cons_of_neg (by simp [hp]), List.filter_cons_of_pos (by simp [hp]),
        List.filter_eq_self.2 fun y hy => by rw [hnot y hy, Bool.not_false]]

variable {T : Type} [AddCommGroup T] [LinearOrder T]

/-- The times of a limiter, and everything it has admitted. -/
structure Limiter (T : Type) where
  times : List T
  admitted : List T

namespace Limiter

def initial : Limiter T := ⟨[], []⟩

variable (n : ℕ) (w : T)

/-- The times that are not old at `now`. -/
def kept (l : Limiter T) (now : T) : List T := l.times.dropWhile fun t => w < now - t

def admits (l : Limiter T) (now : T) : Bool := (l.kept w now).length < n

def call (l : Limiter T) (now : T) : Limiter T :=
  if l.admits n w now then ⟨l.kept w now ++ [now], l.admitted ++ [now]⟩
  else { l with times := l.kept w now }

/-- What was admitted within `w` before `now`. -/
def recent (l : Limiter T) (now : T) : List T := l.admitted.filter fun t => now - t ≤ w

/-- The limiter was last called at `last`: its times are those of the window up to then. -/
structure Sound (l : Limiter T) (last : T) : Prop where
  times : l.times = l.recent w last
  sorted : l.admitted.Pairwise (· ≤ ·)
  past : ∀ t ∈ l.admitted, t ≤ last

/-- No window holds more than `n` of what was admitted. -/
def Bounded (n : ℕ) (w : T) (l : Limiter T) : Prop :=
  ∀ start, l.admitted.countP (fun t => start ≤ t && t ≤ start + w) ≤ n

variable {n w} {l : Limiter T} {last now : T}

theorem initial_sound (last : T) : (initial : Limiter T).Sound w last :=
  ⟨rfl, .nil, fun _ h => absurd h List.not_mem_nil⟩

theorem initial_bounded : (initial : Limiter T).Bounded n w := fun _ => Nat.zero_le _

variable [IsOrderedAddMonoid T]

/-- What is left of the times is the window up to now. -/
theorem Sound.kept_eq (h : l.Sound w last) (hnow : last ≤ now) : l.kept w now = l.recent w now := by
  have hfront : (l.recent w last).Pairwise fun t u => decide (w < now - u) = true →
      decide (w < now - t) = true := by
    refine (h.sorted.filter _).imp fun {t u} htu hu => ?_
    simp only [decide_eq_true_eq] at hu ⊢
    exact hu.trans_le (sub_le_sub_left htu now)
  rw [kept, h.times, dropWhile_eq_filter hfront, recent, recent, List.filter_filter]
  refine List.filter_congr fun t _ => ?_
  rw [Bool.eq_iff_iff]
  simp only [Bool.and_eq_true, Bool.not_eq_true', decide_eq_false_iff_not, not_lt,
    decide_eq_true_eq]
  exact ⟨And.left, fun ht => ⟨ht, (sub_le_sub_right hnow t).trans ht⟩⟩

/-- **A call is admitted exactly when fewer than `n` were within `w` before it.** -/
theorem Sound.admits_iff (h : l.Sound w last) (hnow : last ≤ now) :
    l.admits n w now = true ↔ (l.recent w now).length < n := by
  rw [admits, h.kept_eq hnow, decide_eq_true_eq]

theorem Sound.call (hw : 0 ≤ w) (h : l.Sound w last) (hnow : last ≤ now) :
    (l.call n w now).Sound w now := by
  unfold Limiter.call
  split
  · refine ⟨?_, ?_, ?_⟩
    · have hself : decide (now - now ≤ w) = true := by rw [decide_eq_true_eq, sub_self]; exact hw
      rw [recent, List.filter_append, List.filter_singleton, hself, h.kept_eq hnow]
      rfl
    · refine List.pairwise_append.2 ⟨h.sorted, List.pairwise_singleton _ _, fun t ht u hu => ?_⟩
      rw [List.mem_singleton.1 hu]
      exact (h.past t ht).trans hnow
    · intro t ht
      rcases List.mem_append.1 ht with ht | ht
      · exact (h.past t ht).trans hnow
      · exact (List.mem_singleton.1 ht).le
  · exact ⟨h.kept_eq hnow, h.sorted, fun t ht => (h.past t ht).trans hnow⟩

/-- What is admitted in a window was within `w` before any later moment of it. -/
theorem countP_window_le_recent {start : T} (h : now ≤ start + w) :
    l.admitted.countP (fun t => start ≤ t && t ≤ start + w) ≤ (l.recent w now).length := by
  rw [recent, ← List.countP_eq_length_filter]
  refine List.countP_mono_left fun t _ ht => ?_
  simp only [Bool.and_eq_true, decide_eq_true_eq] at ht ⊢
  exact sub_le_iff_le_add'.2 (h.trans (add_le_add_left ht.1 w))

theorem Bounded.call (hb : l.Bounded n w) (h : l.Sound w last) (hnow : last ≤ now) :
    (l.call n w now).Bounded n w := by
  unfold Limiter.call
  split
  · next hadmits =>
    intro start
    rw [List.countP_append, List.countP_singleton]
    split
    · next hin =>
      simp only [Bool.and_eq_true, decide_eq_true_eq] at hin
      have hlt := (h.admits_iff hnow).1 hadmits
      exact Nat.succ_le_of_lt ((countP_window_le_recent hin.2).trans_lt hlt)
    · exact hb start
  · exact hb

end Limiter

end Lib.SlidingWindow
