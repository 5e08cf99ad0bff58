import Mathlib.Algebra.Order.Ring.Int
import Mathlib.Logic.Function.Basic

/-!
# Locks that expire

A lock is given for `ttl` units of time. It is given up by the token it holds, and a client whose time
is over may still be inside, since nobody tells it: `entered` says when those inside came in.

* `Safe`: who holds the lock, and how far apart those inside came in; each operation keeps it.
* `Safe.holder_iff`, `Safe.free_iff`: the lock is held by the one inside whose time is not over.
-/

set_option autoImplicit false

namespace Lib

structure Lease (ι : Type) where
  now : ℤ := 0
  /-- The token in the lock and its deadline. -/
  lock : Option (ι × ℤ) := none
  entered : ι → Option ℤ := fun _ => none

namespace Lease

variable {ι : Type} (ttl : ℤ) (l : Lease ι)

/-- The token in the lock, if its time is not over. -/
def holder : Option ι := l.lock.bind fun e => if l.now < e.2 then some e.1 else none

/-- A client tries for the lock. -/
def enter [DecidableEq ι] (i : ι) : Lease ι :=
  if l.holder = none then
    { l with lock := some (i, l.now + ttl), entered := Function.update l.entered i (some l.now) }
  else l

/-- A client gives up the lock, if it holds it still. -/
def leave [DecidableEq ι] (i : ι) : Lease ι :=
  { l with
    lock := if l.holder = some i then none else l.lock
    entered := Function.update l.entered i none }

def wait (ms : ℕ) : Lease ι := { l with now := l.now + ms }

/-- The lock is held by who has come in less than `ttl` ago, and those inside have come in at least
`ttl` apart. -/
structure Safe : Prop where
  past : ∀ i t, l.entered i = some t → t ≤ l.now
  held : ∀ i t, l.entered i = some t → l.now < t + ttl → l.lock = some (i, t + ttl)
  inside : ∀ i d, l.lock = some (i, d) → l.now < d → l.entered i = some (d - ttl)
  apart : ∀ i j t u, i ≠ j → l.entered i = some t → l.entered j = some u →
    t + ttl ≤ u ∨ u + ttl ≤ t

variable {ttl} {l}

theorem holder_eq_some {i : ι} : l.holder = some i ↔ ∃ d, l.lock = some (i, d) ∧ l.now < d := by
  unfold holder
  cases hlock : l.lock with
  | none => simp
  | some e =>
    obtain ⟨j, d⟩ := e
    by_cases hlive : l.now < d
    · simp [hlive, eq_comm]
    · simp only [Option.bind_some, hlive, if_false, reduceCtorEq, Option.some.injEq, Prod.mk.injEq,
        false_iff, not_exists]
      rintro d' ⟨⟨-, rfl⟩, hlt⟩
      exact hlive hlt

theorem Safe.holder_iff (h : l.Safe ttl) {i : ι} :
    l.holder = some i ↔ ∃ t, l.entered i = some t ∧ l.now < t + ttl := by
  rw [holder_eq_some]
  constructor
  · rintro ⟨d, hlock, hlive⟩
    exact ⟨d - ttl, h.inside i d hlock hlive, by omega⟩
  · rintro ⟨t, ht, hlive⟩
    exact ⟨t + ttl, h.held i t ht hlive, hlive⟩

theorem Safe.free_iff (h : l.Safe ttl) :
    l.holder = none ↔ ∀ i t, l.entered i = some t → t + ttl ≤ l.now := by
  rw [Option.eq_none_iff_forall_ne_some]
  constructor
  · intro hfree i t ht
    by_contra hlive
    exact hfree i (h.holder_iff.2 ⟨t, ht, not_le.1 hlive⟩)
  · intro hover i hholder
    obtain ⟨t, ht, hlive⟩ := h.holder_iff.1 hholder
    exact absurd (hover i t ht) (not_le.2 hlive)

theorem safe_new : ({} : Lease ι).Safe ttl where
  past := nofun
  held := nofun
  inside := nofun
  apart := nofun

theorem Safe.wait (h : l.Safe ttl) (ms : ℕ) : (l.wait ms).Safe ttl where
  past := fun i t ht => (h.past i t ht).trans (by simp [Lease.wait])
  held := fun i t ht hlive => h.held i t ht (by simp only [Lease.wait] at hlive; omega)
  inside := fun i d hlock hlive => h.inside i d hlock (by simp only [Lease.wait] at hlive; omega)
  apart := h.apart

variable [DecidableEq ι]

theorem Safe.enter (h : l.Safe ttl) (i : ι) : (l.enter ttl i).Safe ttl := by
  unfold Lease.enter
  split
  · rename_i hfree
    have hover := h.free_iff.1 hfree
    constructor
    · intro j t ht
      simp only [Function.update_apply] at ht
      split at ht
      · exact (Option.some.inj ht).ge
      · exact h.past j t ht
    · intro j t ht hlive
      simp only [Function.update_apply] at ht
      split at ht
      · rename_i hj
        rw [hj, Option.some.inj ht]
      · exact absurd (hover j t ht) (not_le.2 hlive)
    · intro j d hlock hlive
      obtain ⟨rfl, rfl⟩ := Prod.mk.inj (Option.some.inj hlock)
      simp only [Function.update_self, add_sub_cancel_right]
    · intro j k t u hne ht hu
      simp only [Function.update_apply] at ht hu
      split at ht
      · rename_i hj
        rw [if_neg fun hk => hne (hj.trans hk.symm)] at hu
        have := hover k u hu
        have := Option.some.inj ht
        omega
      · split at hu
        · have := hover j t ht
          have := Option.some.inj hu
          omega
        · exact h.apart j k t u hne ht hu
  · exact h

theorem Safe.leave (h : l.Safe ttl) (i : ι) : (l.leave i).Safe ttl := by
  have hentered {j : ι} {t : ℤ} (ht : (l.leave i).entered j = some t) :
      j ≠ i ∧ l.entered j = some t := by
    simp only [Lease.leave, Function.update_apply] at ht
    split at ht
    · cases ht
    · exact ⟨‹_›, ht⟩
  constructor
  · intro j t ht
    exact h.past j t (hentered ht).2
  · intro j t ht hlive
    obtain ⟨hne, ht⟩ := hentered ht
    have hlock := h.held j t ht hlive
    have hholder : l.holder ≠ some i := by
      intro hi
      obtain ⟨d, hi, -⟩ := holder_eq_some.1 hi
      rw [hlock] at hi
      exact hne (Prod.mk.inj (Option.some.inj hi)).1
    simp only [Lease.leave, if_neg hholder, hlock]
  · intro j d hlock hlive
    simp only [Lease.leave] at hlock hlive ⊢
    split at hlock
    · cases hlock
    · rename_i hholder
      have hne : j ≠ i := by
        rintro rfl
        exact hholder (holder_eq_some.2 ⟨d, hlock, hlive⟩)
      rw [Function.update_of_ne hne]
      exact h.inside j d hlock hlive
  · intro j k t u hne ht hu
    exact h.apart j k t u hne (hentered ht).2 (hentered hu).2

end Lease

end Lib
