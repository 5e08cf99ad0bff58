import IctAlgo.Lib.Dict
import Mathlib.Algebra.Order.Ring.Int
import Mathlib.Data.List.TakeDrop

/-!
# Keys that expire

A key-value server: `Keyspace ν` holds values under text keys, each with a deadline or without one.
Reads and writes are made at a time of the server's clock, in milliseconds; a key past its deadline
is not there.

* `fetch_put`, `fetch_setNx`: what a write changes.
* `upTo`: the elements `0` to `stop` of a list, as `LRANGE` and `LTRIM` count them.
* `dedupBy`: the first element of each key; nothing to drop when the keys differ.
* `mem_keys_dedupFrom`, `nodup_dedupFrom`: every key is kept, once.
-/

set_option autoImplicit false

namespace Lib

/-- A value with the time it is deleted at. -/
structure Expiring (ν : Type) where
  value : ν
  deadline : Option ℤ
  deriving DecidableEq

def Expiring.live {ν : Type} (e : Expiring ν) (now : ℤ) : Bool :=
  match e.deadline with
  | none => true
  | some deadline => now < deadline

/-- Values under text keys. -/
abbrev Keyspace (ν : Type) := Dict String (Expiring ν)

namespace Keyspace

variable {ν : Type} (ks : Keyspace ν)

/-- `GET key`. -/
def fetch (now : ℤ) (key : String) : Option ν :=
  match ks.get? key with
  | none => none
  | some e => if e.live now then some e.value else none

/-- `SET key value PXAT deadline`. -/
def put (key : String) (value : ν) (deadline : Option ℤ) : Keyspace ν :=
  ks.set key ⟨value, deadline⟩

/-- `SET key value NX PXAT deadline`, which answers whether it set the key. -/
def setNx (now : ℤ) (key : String) (value : ν) (deadline : Option ℤ) : Bool × Keyspace ν :=
  match ks.fetch now key with
  | some _ => (false, ks)
  | none => (true, ks.put key value deadline)

/-- `DEL key`. -/
def delete (key : String) : Keyspace ν := ks.eraseAll [key]

section
variable {ks : Keyspace ν} {now : ℤ} {key key' : String} {value : ν} {deadline : Option ℤ}

theorem fetch_eq_some_iff : ks.fetch now key = some value ↔
    ∃ deadline, ks.get? key = some ⟨value, deadline⟩ ∧
      (⟨value, deadline⟩ : Expiring ν).live now = true := by
  unfold fetch
  cases h : ks.get? key with
  | none => simp
  | some e =>
    obtain ⟨v, d⟩ := e
    simp only [Option.ite_none_right_eq_some, Option.some.injEq, Expiring.mk.injEq]
    refine ⟨fun h' => ?_, fun h' => ?_⟩
    · obtain ⟨hlive, rfl⟩ := h'
      exact ⟨d, ⟨rfl, rfl⟩, hlive⟩
    · obtain ⟨d', ⟨rfl, rfl⟩, hlive⟩ := h'
      exact ⟨hlive, rfl⟩

theorem fetch_put (ks : Keyspace ν) (now : ℤ) (key key' : String) (value : ν)
    (deadline : Option ℤ) :
    (ks.put key value deadline).fetch now key' =
      if key' = key then
        if (⟨value, deadline⟩ : Expiring ν).live now then some value else none
      else ks.fetch now key' := by
  unfold fetch put
  rw [Dict.get?_set]
  by_cases h : key' = key
  · rw [if_pos h, if_pos h]
  · rw [if_neg h, if_neg h]

theorem fetch_put_ne (h : key' ≠ key) :
    (ks.put key value deadline).fetch now key' = ks.fetch now key' := by
  rw [fetch_put, if_neg h]

theorem setNx_fst : (ks.setNx now key value deadline).1 = (ks.fetch now key).isNone := by
  unfold setNx
  cases ks.fetch now key with
  | none => rfl
  | some _ => rfl

/-- A key that is there is not overwritten. -/
theorem setNx_of_some {old : ν} (h : ks.fetch now key = some old) :
    ks.setNx now key value deadline = (false, ks) := by
  unfold setNx
  rw [h]

theorem setNx_of_none (h : ks.fetch now key = none) :
    ks.setNx now key value deadline = (true, ks.put key value deadline) := by
  unfold setNx
  rw [h]

/-- Every key stays in while `SET NX` writes, and the keys with a property keep it if what is written
has it. -/
theorem get?_setNx {P : Expiring ν → Prop} (h : ∀ k e, ks.get? k = some e → P e)
    (hnew : P ⟨value, deadline⟩) :
    (∀ k e, (ks.setNx now key value deadline).2.get? k = some e → P e) ∧
      ∀ k, k = key ∨ (ks.get? k).isSome = true →
        ((ks.setNx now key value deadline).2.get? k).isSome = true := by
  cases hold : ks.fetch now key with
  | some old =>
    rw [setNx_of_some hold]
    refine ⟨h, fun k hk => ?_⟩
    obtain rfl | hk := hk
    · obtain ⟨d, hget, -⟩ := fetch_eq_some_iff.1 hold
      rw [hget]
      rfl
    · exact hk
  | none =>
    rw [setNx_of_none hold]
    unfold put
    refine ⟨fun k e he => ?_, fun k hk => ?_⟩
    · rw [Dict.get?_set] at he
      split at he
      · obtain rfl := Option.some.inj he
        exact hnew
      · exact h k e he
    · rw [Dict.get?_set]
      split
      · rfl
      · rename_i hne
        exact hk.resolve_left hne

end

end Keyspace

/-! ## Ranges of a list -/

section
variable {α : Type}

/-- The elements `0` to `stop`, where a negative `stop` counts from the end. -/
def upTo (xs : List α) (stop : ℤ) : List α :=
  xs.take ((if stop < 0 then stop + xs.length else stop) + 1).toNat

theorem upTo_pred {n : ℕ} (hn : 0 < n) (xs : List α) : upTo xs (n - 1) = xs.take n := by
  unfold upTo
  rw [if_neg (by omega), show ((n : ℤ) - 1 + 1).toNat = n by omega]

/-- Trimming again after a push is trimming once. -/
theorem take_cons_take (x : α) (xs : List α) (n : ℕ) :
    (x :: xs.take n).take n = (x :: xs).take n := by
  cases n with
  | zero => rfl
  | succ n =>
    rw [List.take_succ_cons, List.take_succ_cons, List.take_take]
    rw [Nat.min_eq_left (Nat.le_succ n)]

variable {κ : Type} [DecidableEq κ] (key : α → κ)

/-- The elements whose key is not in `seen` and not that of an earlier one. -/
def dedupFrom : List κ → List α → List α
  | _, [] => []
  | seen, x :: xs =>
    if key x ∈ seen then dedupFrom seen xs else x :: dedupFrom (key x :: seen) xs

/-- The first element of each key. -/
def dedupBy (xs : List α) : List α := dedupFrom key [] xs

theorem mem_keys_dedupFrom {k : κ} {seen : List κ} {xs : List α} :
    k ∈ (dedupFrom key seen xs).map key ↔ k ∈ xs.map key ∧ k ∉ seen := by
  induction xs generalizing seen with
  | nil => simp [dedupFrom]
  | cons x xs ih =>
    unfold dedupFrom
    split <;> rename_i hseen
    · rw [ih, List.map_cons, List.mem_cons]
      refine ⟨fun h => ⟨.inr h.1, h.2⟩, fun h => ⟨h.1.resolve_left fun heq => ?_, h.2⟩⟩
      exact h.2 (heq ▸ hseen)
    · rw [List.map_cons, List.mem_cons, ih, List.map_cons, List.mem_cons, List.mem_cons]
      by_cases heq : k = key x
      · simp [heq, hseen]
      · simp [heq]

theorem nodup_dedupFrom (seen : List κ) (xs : List α) :
    ((dedupFrom key seen xs).map key).Nodup := by
  induction xs generalizing seen with
  | nil => exact List.nodup_nil
  | cons x xs ih =>
    unfold dedupFrom
    split
    · exact ih seen
    · rw [List.map_cons, List.nodup_cons]
      refine ⟨fun hmem => ?_, ih _⟩
      exact ((mem_keys_dedupFrom key).1 hmem).2 List.mem_cons_self

theorem dedupFrom_of_nodup {seen : List κ} {xs : List α} (hnodup : (xs.map key).Nodup)
    (hnew : ∀ x ∈ xs, key x ∉ seen) : dedupFrom key seen xs = xs := by
  induction xs generalizing seen with
  | nil => rfl
  | cons x xs ih =>
    rw [List.map_cons, List.nodup_cons] at hnodup
    unfold dedupFrom
    rw [if_neg (hnew x List.mem_cons_self), ih hnodup.2]
    intro y hy hmem
    obtain heq | hmem := List.mem_cons.1 hmem
    · exact hnodup.1 (heq ▸ List.mem_map_of_mem hy)
    · exact hnew y (List.mem_cons_of_mem _ hy) hmem

theorem dedupBy_of_nodup {xs : List α} (h : (xs.map key).Nodup) : dedupBy key xs = xs :=
  dedupFrom_of_nodup key h fun _ _ => List.not_mem_nil

end

end Lib
