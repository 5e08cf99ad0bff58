import Mathlib.Data.List.Dedup

/-!
# Caches that keep what was used last

A log has the latest call first, each with its key and its answer. `recent` is the last answer of
each key, latest first; a cache of `cap` answers that drops the one not used for the longest time is
the first `cap` of it (`touch_cache`). So it answers for a key exactly when fewer than `cap` others
were asked since (`lookup_cache_iff`).
-/

set_option autoImplicit false

namespace Lib.Recency

variable {κ ν : Type} [DecidableEq κ]

/-- The last answer of each key, latest first. -/
def recent : List (κ × ν) → List (κ × ν)
  | [] => []
  | e :: log => e :: (recent log).filter (·.1 ≠ e.1)

/-- The cache after an answer for `k`: it comes to the front, and the last one goes if there are too
many. -/
def touch (cap : ℕ) (cache : List (κ × ν)) (k : κ) (v : ν) : List (κ × ν) :=
  ((k, v) :: cache.filter (·.1 ≠ k)).take cap

/-- What a cache that was empty holds after the calls of a log. -/
def cache (cap : ℕ) (log : List (κ × ν)) : List (κ × ν) := (recent log).take cap

/-- The keys that were asked for after the last call for `k`. -/
def since (log : List (κ × ν)) (k : κ) : List κ := (log.takeWhile (·.1 ≠ k)).map Prod.fst

variable {cap : ℕ} {log : List (κ × ν)} {k : κ} {v : ν}

/-! ## The last answers -/

theorem mem_recent_keys : k ∈ (recent log).map Prod.fst ↔ k ∈ log.map Prod.fst := by
  induction log with
  | nil => rfl
  | cons e log ih =>
    simp only [recent, List.map_cons, List.mem_cons]
    refine or_congr_right' fun hne => ?_
    rw [← ih]
    simp only [List.mem_map, List.mem_filter, decide_eq_true_eq]
    constructor
    · rintro ⟨x, ⟨hx, -⟩, rfl⟩
      exact ⟨x, hx, rfl⟩
    · rintro ⟨x, hx, rfl⟩
      exact ⟨x, ⟨hx, hne⟩, rfl⟩

theorem nodup_recent_keys (log : List (κ × ν)) : ((recent log).map Prod.fst).Nodup := by
  induction log with
  | nil => exact List.nodup_nil
  | cons e log ih =>
    rw [recent, List.map_cons, List.nodup_cons]
    constructor
    · rintro hmem
      obtain ⟨x, hx, heq⟩ := List.mem_map.1 hmem
      have hne := (List.mem_filter.1 hx).2
      rw [decide_eq_true_eq] at hne
      exact hne heq
    · exact ih.sublist ((List.filter_sublist).map _)

theorem length_recent (log : List (κ × ν)) :
    (recent log).length = (log.map Prod.fst).dedup.length := by
  rw [← List.length_map (f := Prod.fst)]
  refine ((List.perm_ext_iff_of_nodup (nodup_recent_keys log) (List.nodup_dedup _)).2
    fun k => ?_).length_eq
  rw [List.mem_dedup, mem_recent_keys]

theorem lookup_filter_ne {l : List (κ × ν)} {j : κ} (h : k ≠ j) :
    (l.filter (·.1 ≠ j)).lookup k = l.lookup k := by
  induction l with
  | nil => rfl
  | cons e l ih =>
    obtain ⟨i, u⟩ := e
    by_cases hij : i = j
    · subst hij
      rw [List.filter_cons_of_neg (by simp), ih, List.lookup_cons, beq_false_of_ne h]
    · rw [List.filter_cons_of_pos (by simpa using hij), List.lookup_cons, List.lookup_cons, ih]

theorem lookup_recent : (recent log).lookup k = log.lookup k := by
  induction log with
  | nil => rfl
  | cons e log ih =>
    obtain ⟨j, u⟩ := e
    rw [recent, List.lookup_cons, List.lookup_cons]
    by_cases h : k = j
    · rw [h, beq_self_eq_true]
    · rw [beq_false_of_ne h, lookup_filter_ne h, ih]

/-! ## The calls since -/

/-- What ends a prefix is not filtered out. -/
theorem takeWhile_filter {α : Type} {p q : α → Bool} (h : ∀ x, q x = false → p x = true)
    (l : List α) : (l.filter p).takeWhile q = (l.takeWhile q).filter p := by
  induction l with
  | nil => rfl
  | cons x l ih =>
    cases hq : q x with
    | false => simp [h x hq, hq]
    | true =>
      cases hp : p x with
      | false => simp [hp, hq, ih]
      | true => simp [hp, hq, ih]

theorem takeWhile_recent (log : List (κ × ν)) (k : κ) :
    (recent log).takeWhile (·.1 ≠ k) = recent (log.takeWhile (·.1 ≠ k)) := by
  induction log with
  | nil => rfl
  | cons e log ih =>
    by_cases h : e.1 = k
    · simp [recent, h]
    · have hcomm : ∀ x : κ × ν, decide (x.1 ≠ k) = false → decide (x.1 ≠ e.1) = true := by
        intro x hx
        simp only [ne_eq, decide_not, Bool.not_eq_false', decide_eq_true_eq] at hx
        simpa [hx] using Ne.symm h
      rw [recent, List.takeWhile_cons_of_pos (by simpa using h),
        List.takeWhile_cons_of_pos (by simpa using h), recent, takeWhile_filter hcomm, ih]

theorem lookup_take {l : List (κ × ν)} {n : ℕ} :
    (l.take n).lookup k = some v ↔
      l.lookup k = some v ∧ (l.takeWhile (·.1 ≠ k)).length < n := by
  induction l generalizing n with
  | nil => simp
  | cons e l ih =>
    obtain ⟨j, u⟩ := e
    cases n with
    | zero => simp
    | succ n =>
      rw [List.take_succ_cons, List.lookup_cons, List.lookup_cons]
      by_cases h : k = j
      · subst h
        simp
      · rw [beq_false_of_ne h, ih, List.takeWhile_cons_of_pos (by simpa using Ne.symm h),
          List.length_cons, Nat.add_lt_add_iff_right]

/-- **The cache answers for a key** with its last answer, as long as fewer than `cap` other keys were
asked for since. -/
theorem lookup_cache_iff :
    (cache cap log).lookup k = some v ↔
      log.lookup k = some v ∧ (since log k).dedup.length < cap := by
  rw [cache, lookup_take, lookup_recent, takeWhile_recent, length_recent, since]

/-! ## Steps -/

/-- Without one key, the first entries are one fewer at most. -/
theorem take_filter_take {l : List (κ × ν)} (h : (l.map Prod.fst).Nodup) (n : ℕ) (k : κ) :
    ((l.take (n + 1)).filter (·.1 ≠ k)).take n = (l.filter (·.1 ≠ k)).take n := by
  induction l generalizing n with
  | nil => rfl
  | cons e l ih =>
    obtain ⟨hnot, hnodup⟩ := List.nodup_cons.1 h
    rw [List.take_succ_cons]
    by_cases hek : e.1 = k
    · have hall : ∀ x ∈ l, decide (x.1 ≠ k) = true := fun x hx => by
        have hne : x.1 ≠ k := by
          rintro rfl
          exact hnot (hek ▸ List.mem_map_of_mem hx)
        exact decide_eq_true hne
      rw [List.filter_cons_of_neg (by simpa using hek), List.filter_cons_of_neg (by simpa using hek),
        List.filter_eq_self.2 hall,
        List.filter_eq_self.2 fun x hx => hall x (List.mem_of_mem_take hx), List.take_take,
        Nat.min_self]
    · rw [List.filter_cons_of_pos (by simpa using hek), List.filter_cons_of_pos (by simpa using hek)]
      cases n with
      | zero => rfl
      | succ n => rw [List.take_succ_cons, List.take_succ_cons, ih hnodup n]

theorem touch_cache (cap : ℕ) (log : List (κ × ν)) (k : κ) (v : ν) :
    touch cap (cache cap log) k v = cache cap ((k, v) :: log) := by
  cases cap with
  | zero => rfl
  | succ cap =>
    rw [touch, cache, cache, recent, List.take_succ_cons, List.take_succ_cons,
      take_filter_take (nodup_recent_keys log) cap k]

end Lib.Recency
