import Mathlib.Data.Multiset.UnionInter
import Mathlib.Data.Multiset.ZeroCons
import Mathlib.Data.Set.Insert
import Mathlib.Logic.Relation

/-!
# Custody

A `Ledger` has the items that were accepted, those that are held, each as often as it is held, and
the record of what was done with them. Some outcomes are `final`: an item with one of these must not
come up again. Others are `excused`: an item with one of these may be held or not.

* `Step`: an item is accepted, comes up and stays, or comes up and goes with an outcome that is final
  or excused.
* `Sound`: held once, recorded no more after a final outcome, and gone with an outcome only.
* `Sound.steps`: all steps keep it. A system that refines `Step` loses and repeats nothing.
-/

set_option autoImplicit false

namespace Lib.Custody

variable {ι ω : Type}

structure Ledger (ι ω : Type) where
  accepted : Set ι
  held : Multiset ι
  log : List (ι × ω)

namespace Ledger

variable (l : Ledger ι ω) (x : ι) (o : ω)

def note : Ledger ι ω := { l with log := l.log ++ [(x, o)] }

def hold : Ledger ι ω := { l with held := x ::ₘ l.held }

def accept : Ledger ι ω := { l.hold x with accepted := insert x l.accepted }

def release [DecidableEq ι] : Ledger ι ω := { l with held := l.held.erase x }

@[simp] theorem release_hold [DecidableEq ι] : (l.hold x).release x = l := by
  simp only [release, hold, Multiset.erase_cons_head]

@[simp] theorem note_hold (y : ι) : (l.hold x).note y o = (l.note y o).hold x := rfl

end Ledger

section
variable (final excused : ω → Prop)

structure Sound (l : Ledger ι ω) : Prop where
  once : l.held.Nodup
  held : ∀ x ∈ l.held, x ∈ l.accepted
  logged : ∀ e ∈ l.log, e.1 ∈ l.accepted
  /-- Without an outcome that lets it go, an item is held. -/
  kept : ∀ x ∈ l.accepted, (∀ o, (x, o) ∈ l.log → ¬ final o ∧ ¬ excused o) → x ∈ l.held
  gone : ∀ x o, (x, o) ∈ l.log → final o → x ∉ l.held
  settled : l.log.Pairwise fun e e' => final e.2 → e.1 ≠ e'.1

variable [DecidableEq ι]

inductive Step : Ledger ι ω → Ledger ι ω → Prop
  | accept {l : Ledger ι ω} {x : ι} (fresh : x ∉ l.accepted) :
      Step l (l.accept x)
  | stay {l : Ledger ι ω} {x : ι} {o : ω} (held : x ∈ l.held) (notFinal : ¬ final o) :
      Step l (l.note x o)
  | go {l : Ledger ι ω} {x : ι} {o : ω} (held : x ∈ l.held) (out : final o ∨ excused o) :
      Step l ((l.note x o).release x)

/-- Some steps. -/
abbrev Steps : Ledger ι ω → Ledger ι ω → Prop := Relation.ReflTransGen (Step final excused)

end

/-! ## Steps -/

section
variable {final excused : ω → Prop} {l l' : Ledger ι ω}

/-- An item that is held has no final outcome on record. -/
theorem Sound.not_final (h : Sound final excused l) {x : ι} (hx : x ∈ l.held) {e : ι × ω}
    (he : e ∈ l.log) (hf : final e.2) : e.1 ≠ x := by
  rintro rfl
  exact h.gone e.1 e.2 he hf hx

theorem Sound.settled_concat (h : Sound final excused l) {x : ι} (hx : x ∈ l.held) (o : ω) :
    (l.log ++ [(x, o)]).Pairwise fun e e' => final e.2 → e.1 ≠ e'.1 := by
  refine List.pairwise_append.2 ⟨h.settled, List.pairwise_singleton _ _, fun e he e' he' hf => ?_⟩
  rw [List.mem_singleton.1 he']
  exact h.not_final hx he hf

variable [DecidableEq ι]

theorem Sound.step (h : Sound final excused l) (hs : Step final excused l l') :
    Sound final excused l' := by
  cases hs with
  | @accept x fresh =>
    have hnew : x ∉ l.held := fun hx => fresh (h.held x hx)
    constructor
    · exact Multiset.nodup_cons.2 ⟨hnew, h.once⟩
    · intro y hy
      rcases Multiset.mem_cons.1 hy with rfl | hy
      · exact Set.mem_insert _ _
      · exact Set.mem_insert_of_mem _ (h.held y hy)
    · exact fun e he => Set.mem_insert_of_mem _ (h.logged e he)
    · intro y hy ho
      rcases Set.mem_insert_iff.1 hy with rfl | hy
      · exact Multiset.mem_cons_self _ _
      · exact Multiset.mem_cons_of_mem (h.kept y hy ho)
    · intro y o ho hf hy
      rcases Multiset.mem_cons.1 hy with rfl | hy
      · exact fresh (h.logged _ ho)
      · exact h.gone y o ho hf hy
    · exact h.settled
  | @stay x o held notFinal =>
    constructor
    · exact h.once
    · exact h.held
    · intro e he
      rcases List.mem_append.1 he with he | he
      · exact h.logged e he
      · rw [List.mem_singleton.1 he]
        exact h.held x held
    · exact fun y hy ho => h.kept y hy fun o' ho' => ho o' (List.mem_append_left _ ho')
    · intro y o' ho' hf
      rcases List.mem_append.1 ho' with ho' | ho'
      · exact h.gone y o' ho' hf
      · cases List.mem_singleton.1 ho'
        exact absurd hf notFinal
    · exact h.settled_concat held o
  | @go x o held out =>
    constructor
    · exact h.once.erase x
    · exact fun y hy => h.held y (Multiset.mem_of_mem_erase hy)
    · intro e he
      rcases List.mem_append.1 he with he | he
      · exact h.logged e he
      · rw [List.mem_singleton.1 he]
        exact h.held x held
    · intro y hy ho
      have hyx : y ≠ x := by
        rintro rfl
        have hout := ho o (List.mem_append_right _ (List.mem_singleton_self _))
        exact out.elim hout.1 hout.2
      refine (Multiset.mem_erase_of_ne hyx).2 (h.kept y hy fun o' ho' => ?_)
      exact ho o' (List.mem_append_left _ ho')
    · intro y o' ho' hf hy
      rcases List.mem_append.1 ho' with ho' | ho'
      · exact h.gone y o' ho' hf (Multiset.mem_of_mem_erase hy)
      · cases List.mem_singleton.1 ho'
        exact h.once.notMem_erase hy
    · exact h.settled_concat held o

/-- **Custody.** Nothing is lost or repeated along any steps. -/
theorem Sound.steps (h : Sound final excused l) (hs : Steps final excused l l') :
    Sound final excused l' := by
  induction hs with
  | refl => exact h
  | tail _ hs ih => exact ih.step hs

end

end Lib.Custody
