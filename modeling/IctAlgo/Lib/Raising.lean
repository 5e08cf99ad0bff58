import Mathlib.Data.List.Forall2

/-!
# Code that may raise

When a computation in `Except` returns: its parts in sequence, a loop that maps, and one that only
checks; and what it raises if it does not. `Raised`: an exception, as far as handlers tell them apart
and write them. `catching x h` is `try: x  except Exception as e: h(e)`.

* `catching_ok_iff`: a handled computation returns what it returns or what its handler does.
-/

set_option autoImplicit false

namespace Lib.Raising

section
variable {ε α β : Type}

theorem bind_ok_iff {x : Except ε α} {f : α → Except ε β} {b : β} :
    (x >>= f) = .ok b ↔ ∃ a, x = .ok a ∧ f a = .ok b := by
  cases x with
  | ok a => simp [bind, Except.bind]
  | error e => simp [bind, Except.bind]

theorem mapM_cons_ok_iff {f : α → Except ε β} {x : α} {xs : List α} {zs : List β} :
    (x :: xs).mapM f = .ok zs ↔ ∃ y ys, f x = .ok y ∧ xs.mapM f = .ok ys ∧ zs = y :: ys := by
  rw [List.mapM_cons, bind_ok_iff]
  simp only [bind_ok_iff, pure, Except.pure, Except.ok.injEq]
  refine ⟨fun ⟨y, hy, ys, hys, hzs⟩ => ⟨y, ys, hy, hys, hzs.symm⟩,
    fun ⟨y, ys, hy, hys, hzs⟩ => ⟨y, hy, ys, hys, hzs.symm⟩⟩

theorem mapM_ok_iff {f : α → Except ε β} {xs : List α} {ys : List β} :
    xs.mapM f = .ok ys ↔ List.Forall₂ (fun x y => f x = .ok y) xs ys := by
  induction xs generalizing ys with
  | nil => simp [pure, Except.pure, eq_comm]
  | cons x xs ih =>
    simp only [mapM_cons_ok_iff, List.forall₂_cons_left_iff, ih]

/-- A loop that maps returns when every step does. -/
theorem mapM_isOk_iff {f : α → Except ε β} {xs : List α} :
    (∃ ys, xs.mapM f = .ok ys) ↔ ∀ x ∈ xs, ∃ y, f x = .ok y := by
  induction xs with
  | nil => simp [pure, Except.pure]
  | cons x xs ih =>
    simp only [mapM_cons_ok_iff, List.forall_mem_cons]
    rw [← ih]
    refine ⟨fun ⟨_, y, ys, hy, hys, _⟩ => ⟨⟨y, hy⟩, ys, hys⟩,
      fun ⟨⟨y, hy⟩, ys, hys⟩ => ⟨_, y, ys, hy, hys, rfl⟩⟩

theorem forM_cons_ok_iff {f : α → Except ε Unit} {x : α} {xs : List α} :
    (x :: xs).forM f = .ok () ↔ f x = .ok () ∧ xs.forM f = .ok () := by
  change (f x >>= fun _ => xs.forM f) = .ok () ↔ _
  rw [bind_ok_iff]
  exact ⟨fun ⟨_, h⟩ => h, fun h => ⟨(), h⟩⟩

/-- A loop that checks returns when every check does. -/
theorem forM_ok_iff {f : α → Except ε Unit} {xs : List α} :
    xs.forM f = .ok () ↔ ∀ x ∈ xs, f x = .ok () := by
  induction xs with
  | nil => simp [List.forM, pure, Except.pure]
  | cons x xs ih => rw [forM_cons_ok_iff, ih, List.forall_mem_cons]

end

/-! ## What is raised -/

section
variable {ε α β : Type} {p : ε → Prop}

/-- All that the code raises is of a kind. -/
def RaisesOnly (p : ε → Prop) (x : Except ε α) : Prop := ∀ e, x = .error e → p e

@[simp] theorem raisesOnly_ok {a : α} : RaisesOnly p (.ok a : Except ε α) := fun _ h => by cases h

@[simp] theorem raisesOnly_error {e : ε} : RaisesOnly p (.error e : Except ε α) ↔ p e :=
  ⟨fun h => h e rfl, fun h _ he => by cases he; exact h⟩

/-- A sequence raises what its parts raise when they are reached. -/
theorem raisesOnly_bind {x : Except ε α} {f : α → Except ε β} :
    RaisesOnly p (x >>= f) ↔ RaisesOnly p x ∧ ∀ a, x = .ok a → RaisesOnly p (f a) := by
  cases x with
  | ok a =>
    refine ⟨fun h => ⟨raisesOnly_ok, fun _ ha => ?_⟩, fun h => h.2 a rfl⟩
    cases ha
    exact h
  | error e =>
    refine ⟨fun h => ⟨raisesOnly_error.2 (h e rfl), fun _ ha => ?_⟩, fun h e' he => ?_⟩
    · cases ha
    · cases he
      exact raisesOnly_error.1 h.1

theorem raisesOnly_forM {f : α → Except ε Unit} {xs : List α} (h : ∀ x ∈ xs, RaisesOnly p (f x)) :
    RaisesOnly p (xs.forM f) := by
  induction xs with
  | nil => exact raisesOnly_ok
  | cons x xs ih =>
    rw [List.forall_mem_cons] at h
    exact raisesOnly_bind.2 ⟨h.1, fun _ _ => ih h.2⟩

end

/-! ## Lists that correspond -/

section
variable {α β : Type} {r : α → β → Prop} {xs : List α} {ys : List β}

theorem exists_of_mem_right (h : List.Forall₂ r xs ys) {y : β} (hy : y ∈ ys) : ∃ x ∈ xs, r x y := by
  induction h with
  | nil => cases hy
  | cons hxy _ ih =>
    obtain rfl | hmem := List.mem_cons.1 hy
    · exact ⟨_, List.mem_cons_self, hxy⟩
    · obtain ⟨x, hx, hr⟩ := ih hmem
      exact ⟨x, List.mem_cons_of_mem _ hx, hr⟩

/-- Each element of a list has one that it is related to. -/
theorem exists_forall₂ (h : ∀ x ∈ xs, ∃ y, r x y) : ∃ ys, List.Forall₂ r xs ys := by
  induction xs with
  | nil => exact ⟨[], .nil⟩
  | cons x xs ih =>
    rw [List.forall_mem_cons] at h
    obtain ⟨y, hy⟩ := h.1
    obtain ⟨ys, hys⟩ := ih h.2
    exact ⟨y :: ys, .cons hy hys⟩

/-- A relation between the elements of one list becomes one between those of the other. -/
theorem pairwise_of_forall₂ {s : α → α → Prop} {t : β → β → Prop} (h : List.Forall₂ r xs ys)
    (hst : ∀ x x' y y', r x y → r x' y' → s x x' → t y y') (hs : xs.Pairwise s) : ys.Pairwise t := by
  induction h with
  | nil => exact List.Pairwise.nil
  | cons hxy hrest ih =>
    obtain ⟨hhead, htail⟩ := List.pairwise_cons.1 hs
    refine List.pairwise_cons.2 ⟨fun y' hy' => ?_, ih htail⟩
    obtain ⟨x', hx', hr'⟩ := exists_of_mem_right hrest hy'
    exact hst _ _ _ _ hxy hr' (hhead x' hx')

end

end Lib.Raising

namespace Lib

/-- The class of an exception; the last is that of all that are no `Exception`. -/
inductive ExceptionClass
  | valueError
  | typeError
  | other (name : String)
  | baseException
  deriving DecidableEq

inductive Raised
  | shown (cls : ExceptionClass) (text : String)
  /-- `str(e)` raises, too. -/
  | unshown (cls : ExceptionClass) (inner : Raised)

namespace Raised

def cls : Raised → ExceptionClass
  | .shown cls _ => cls
  | .unshown cls _ => cls

/-- `str(e)`. -/
def str : Raised → Except Raised String
  | .shown _ text => .ok text
  | .unshown _ inner => .error inner

/-- `isinstance(e, Exception)`. -/
def isException (e : Raised) : Bool := e.cls ≠ .baseException

end Raised

/-- `try: x  except Exception as e: h(e)`. -/
def catching {α : Type} (x : Except Raised α) (h : Raised → Except Raised α) : Except Raised α :=
  match x with
  | .ok a => .ok a
  | .error e => if e.isException then h e else .error e

/-- What is raised is an `Exception`. -/
def OnlyExceptions {α : Type} (x : Except Raised α) : Prop :=
  Raising.RaisesOnly (·.isException = true) x

section
variable {α : Type} {x : Except Raised α} {h : Raised → Except Raised α}

theorem catching_ok_iff {a : α} : catching x h = .ok a ↔
    x = .ok a ∨ ∃ e, x = .error e ∧ e.isException = true ∧ h e = .ok a := by
  cases x with
  | ok b => simp [catching]
  | error e =>
    by_cases he : e.isException = true
    · simp [catching, he]
    · simp [catching, he]

/-- A handler that drops what it catches. -/
theorem catching_pass_iff {x : Except Raised Unit} :
    catching x (fun _ => .ok ()) = .ok () ↔ OnlyExceptions x := by
  rw [catching_ok_iff]
  cases x with
  | ok a => simp [OnlyExceptions]
  | error e => simp [OnlyExceptions]

end

end Lib
