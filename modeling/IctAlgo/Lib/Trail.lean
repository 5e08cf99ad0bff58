import Mathlib.Data.List.Perm.Subperm
import Mathlib.Algebra.Order.BigOperators.Group.List
import Mathlib.Algebra.Order.Ring.Nat
import Mathlib.Logic.Relation

/-!
# Walks without a cycle

A walk along a relation without cycles visits no node twice (`Trail.cons`), so that what is spent at
its nodes is at most what all nodes together allow (`sum_map_le_of_subset`).
-/

set_option autoImplicit false

namespace Lib

variable {α : Type} {r : α → α → Prop} {seen keys : List α} {a b : α}

/-- No node leads back to itself. -/
def Acyclic (r : α → α → Prop) : Prop := ∀ a, ¬ Relation.TransGen r a a

/-- A relation that only leads upwards has no cycle. -/
theorem acyclic_of_rank (rank : α → ℕ) (h : ∀ a b, r a b → rank a < rank b) : Acyclic r := by
  intro a hcycle
  have hup : ∀ b, Relation.TransGen r a b → rank a < rank b := by
    intro b hb
    induction hb with
    | single hab => exact h _ _ hab
    | tail _ hbc ih => exact ih.trans (h _ _ hbc)
  exact lt_irrefl _ (hup a hcycle)

/-- `seen` are the nodes a walk has left before it came to `a`. -/
structure Trail (r : α → α → Prop) (seen : List α) (a : α) : Prop where
  nodup : seen.Nodup
  leads : ∀ x ∈ seen, Relation.TransGen r x a

namespace Trail

theorem nil (a : α) : Trail r [] a := ⟨List.nodup_nil, fun _ h => absurd h List.not_mem_nil⟩

/-- A walk comes to a new node. -/
theorem fresh (hr : Acyclic r) (h : Trail r seen a) : a ∉ seen := fun hmem => hr a (h.leads a hmem)

theorem cons (hr : Acyclic r) (h : Trail r seen a) (hab : r a b) : Trail r (a :: seen) b := by
  refine ⟨List.nodup_cons.2 ⟨h.fresh hr, h.nodup⟩, fun x hx => ?_⟩
  rcases List.mem_cons.1 hx with rfl | hx
  · exact .single hab
  · exact (h.leads x hx).tail hab

end Trail

/-- Distinct members of a list do not sum up to more than the list. -/
theorem sum_map_le_of_subset (f : α → ℕ) (hnodup : seen.Nodup) (hsub : seen ⊆ keys) :
    (seen.map f).sum ≤ (keys.map f).sum := by
  obtain ⟨l, hperm, hl⟩ := hnodup.subperm hsub
  rw [← (hperm.map f).sum_eq]
  exact (hl.map f).sum_le_sum fun _ _ => Nat.zero_le _

end Lib
