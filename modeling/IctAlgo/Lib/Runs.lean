import Mathlib.Data.List.Infix
import Mathlib.Data.List.Induction

/-!
# Runs of a step function

`run step s as`: the state after the inputs `as`, from `s`. `Always step P s as`: `P` holds in
every state this run reaches. `Within step ok s as`: every step of the run meets `ok`, a condition
on the input and on the state it is taken in. `History.lastOf p history`: the last record with `p` of
a history, to which a step appends at most one record.

* `Within.inv`: an invariant kept by the steps that meet `ok` holds after every run within `ok`.
* `always_iff_within`: if a step that misses `ok` breaks `P` at once, the runs that always satisfy
  `P` are exactly the runs within `ok`; `always_iff_within_of` says it of the runs within another
  condition.
* `History.exists_last_of_prefix`: every record of a run's history was the last one at some moment
  of the run.
-/

set_option autoImplicit false

namespace Lib.Runs

variable {σ ι : Type} {step : σ → ι → σ} {P I : σ → Prop} {ok ok' : σ → ι → Prop}

/-- The state after the inputs `as`. -/
def run (step : σ → ι → σ) (s : σ) (as : List ι) : σ := as.foldl step s

@[simp] theorem run_nil (s : σ) : run step s [] = s := rfl

@[simp] theorem run_cons (s : σ) (a : ι) (as : List ι) :
    run step s (a :: as) = run step (step s a) as := rfl

@[simp] theorem run_append (s : σ) (as bs : List ι) :
    run step s (as ++ bs) = run step (run step s as) bs := List.foldl_append

/-- `P` holds in every state the run from `s` reaches. -/
def Always (step : σ → ι → σ) (P : σ → Prop) (s : σ) (as : List ι) : Prop :=
  ∀ bs, bs <+: as → P (run step s bs)

theorem always_nil {s : σ} : Always step P s [] ↔ P s := by
  refine ⟨fun h => h [] (List.nil_prefix), fun h bs hb => ?_⟩
  rw [List.prefix_nil.1 hb]
  exact h

theorem always_cons {s : σ} {a : ι} {as : List ι} :
    Always step P s (a :: as) ↔ P s ∧ Always step P (step s a) as := by
  constructor
  · intro h
    refine ⟨h [] (List.nil_prefix), fun bs hb => ?_⟩
    exact h (a :: bs) (List.cons_prefix_cons.2 ⟨rfl, hb⟩)
  · rintro ⟨h0, h⟩ bs hb
    cases bs with
    | nil => exact h0
    | cons b bs =>
      obtain ⟨rfl, hbs⟩ := List.cons_prefix_cons.1 hb
      exact h bs hbs

theorem Always.last {s : σ} {as : List ι} (h : Always step P s as) : P (run step s as) :=
  h as (List.prefix_refl as)

/-- Every step of the run from `s` meets `ok` in the state it is taken in. -/
def Within (step : σ → ι → σ) (ok : σ → ι → Prop) : σ → List ι → Prop
  | _, [] => True
  | s, a :: as => ok s a ∧ Within step ok (step s a) as

instance Within.decidable [∀ s a, Decidable (ok s a)] :
    ∀ (s : σ) (as : List ι), Decidable (Within step ok s as)
  | _, [] => .isTrue trivial
  | s, a :: as => @instDecidableAnd _ _ _ (decidable (step s a) as)

theorem within_append {s : σ} {as bs : List ι} :
    Within step ok s (as ++ bs) ↔ Within step ok s as ∧ Within step ok (run step s as) bs := by
  induction as generalizing s with
  | nil => simp [Within]
  | cons a as ih => simp [Within, ih, and_assoc]

/-- **The invariant rule.** -/
theorem Within.inv {s : σ} {as : List ι} (hw : Within step ok s as) (h0 : I s)
    (hstep : ∀ s a, I s → ok s a → I (step s a)) : I (run step s as) := by
  induction as generalizing s with
  | nil => exact h0
  | cons a as ih => exact ih hw.2 (hstep s a h0 hw.1)

/-- The invariant rule when every step keeps `I`. -/
theorem run_inv {s : σ} (as : List ι) (h0 : I s) (hstep : ∀ s a, I s → I (step s a)) :
    I (run step s as) := by
  induction as generalizing s with
  | nil => exact h0
  | cons a as ih => exact ih (hstep s a h0)

theorem Within.always {s : σ} {as : List ι} (hw : Within step ok s as) (h0 : I s)
    (hstep : ∀ s a, I s → ok s a → I (step s a)) (hP : ∀ s, I s → P s) :
    Always step P s as := by
  intro bs h
  obtain ⟨cs, rfl⟩ := h
  exact hP _ ((within_append.1 hw).1.inv h0 hstep)

theorem within_congr (h : ∀ s a, ok s a ↔ ok' s a) {s : σ} {as : List ι} :
    Within step ok s as ↔ Within step ok' s as := by
  induction as generalizing s with
  | nil => exact Iff.rfl
  | cons a as ih => exact and_congr (h s a) ih

/-- What follows from `ok` in the states of an invariant, along the run. -/
theorem Within.imp {s : σ} {as : List ι} (hw : Within step ok s as) (h0 : I s)
    (hstep : ∀ s a, I s → ok s a → I (step s a)) (h : ∀ s a, I s → ok s a → ok' s a) :
    Within step ok' s as := by
  induction as generalizing s with
  | nil => trivial
  | cons a as ih => exact ⟨h s a h0 hw.1, ih hw.2 (hstep s a h0 hw.1)⟩

/-- Along a run every later state is related to every earlier one when each step is, for a relation
that is reflexive and transitive. -/
theorem related_iff_within {R : σ → σ → Prop} (hrefl : ∀ s, R s s)
    (htrans : ∀ s t u, R s t → R t u → R s u) {s : σ} {as : List ι} :
    (∀ bs cs, bs ++ cs <+: as → R (run step s bs) (run step s (bs ++ cs))) ↔
      Within step (fun s a => R s (step s a)) s as := by
  refine ⟨fun h => ?_, fun hw bs cs h' => ?_⟩
  · induction as generalizing s with
    | nil => trivial
    | cons a as ih =>
      refine ⟨h [] [a] (List.prefix_append [a] as), ih fun bs cs hb => ?_⟩
      exact h (a :: bs) cs (List.cons_prefix_cons.2 ⟨rfl, hb⟩)
  · obtain ⟨rest, rfl⟩ := h'
    obtain ⟨hbs, hcs⟩ := within_append.1 (within_append.1 hw).1
    rw [run_append]
    exact hcs.inv (I := R (run step s bs)) (hrefl _) fun t a ht hstep => htrans _ _ _ ht hstep

theorem within_and {s : σ} {as : List ι} :
    Within step (fun s a => ok s a ∧ ok' s a) s as ↔ Within step ok s as ∧ Within step ok' s as := by
  induction as generalizing s with
  | nil => simp [Within]
  | cons a as ih => simp only [Within, ih, and_and_and_comm]

/-- **Exactness**, of the runs within `ok'`. When `I` carries `P` along the steps that meet `ok`, and
a step that misses `ok` ends in a state without `P`, the condition `ok` says exactly which of them
always satisfy `P`. -/
theorem always_iff_within_of {s : σ} {as : List ι} (hw : Within step ok' s as) (h0 : I s)
    (hstep : ∀ s a, I s → ok' s a → ok s a → I (step s a)) (hP : ∀ s, I s → P s)
    (hbreak : ∀ s a, I s → ok' s a → ¬ ok s a → ¬ P (step s a)) :
    Always step P s as ↔ Within step ok s as := by
  refine ⟨fun h => ?_, fun h => ?_⟩
  · induction as generalizing s with
    | nil => trivial
    | cons a as ih =>
      obtain ⟨-, h⟩ := always_cons.1 h
      have hok : ok s a := by
        by_contra hn
        exact hbreak s a h0 hw.1 hn (h [] List.nil_prefix)
      exact ⟨hok, ih hw.2 (hstep s a h0 hw.1 hok) h⟩
  · exact (within_and.2 ⟨hw, h⟩).always h0 (fun s a hi h => hstep s a hi h.1 h.2) hP

/-- Conditions that agree in the states of an invariant, on inputs with `good`. -/
theorem within_congr_of {good : ι → Prop} {s : σ} {as : List ι} (hgood : ∀ a ∈ as, good a) (h0 : I s)
    (hstep : ∀ s a, I s → good a → I (step s a))
    (h : ∀ s a, I s → good a → (ok s a ↔ ok' s a)) :
    Within step ok s as ↔ Within step ok' s as := by
  induction as generalizing s with
  | nil => exact Iff.rfl
  | cons a as ih =>
    obtain ⟨ha, has⟩ := List.forall_mem_cons.1 hgood
    exact and_congr (h s a h0 ha) (ih has (hstep s a h0 ha))

theorem within_true (s : σ) (as : List ι) : Within step (fun _ _ => True) s as := by
  induction as generalizing s with
  | nil => trivial
  | cons a as ih => exact ⟨trivial, ih _⟩

/-- **Exactness**, of all runs. -/
theorem always_iff_within {s : σ} {as : List ι} (h0 : I s)
    (hstep : ∀ s a, I s → ok s a → I (step s a)) (hP : ∀ s, I s → P s)
    (hbreak : ∀ s a, I s → ¬ ok s a → ¬ P (step s a)) :
    Always step P s as ↔ Within step ok s as :=
  always_iff_within_of (within_true s as) h0 (fun s a h _ => hstep s a h) hP
    fun s a h _ => hbreak s a h

end Lib.Runs

/-! ## Histories -/

namespace Lib.History

variable {ρ : Type}

/-- The last record with `p`. -/
def lastOf (p : ρ → Bool) (history : List ρ) : Option ρ := history.reverse.find? p

@[simp] theorem lastOf_nil (p : ρ → Bool) : lastOf p [] = none := rfl

theorem lastOf_append (p : ρ → Bool) (history : List ρ) (r : ρ) :
    lastOf p (history ++ [r]) = if p r then some r else lastOf p history := by
  unfold lastOf
  rw [List.reverse_append, List.reverse_singleton, List.singleton_append, List.find?_cons]
  cases h : p r with
  | true => simp
  | false => simp

variable {σ ι : Type} {step : σ → ι → σ} {history : σ → List ρ} {P : ρ → σ → Prop}

theorem prefix_run (hstep : ∀ s a, history s <+: history (step s a)) (s : σ) (as : List ι) :
    history s <+: history (Runs.run step s as) :=
  Runs.run_inv (I := fun t => history s <+: history t) as (List.prefix_refl _)
    fun t a h => h.trans (hstep t a)

/-- Every record was the last one at some moment of the run, with what a step makes true of it
then. -/
theorem exists_last_of_prefix {s : σ}
    (h0 : ∀ before r, before ++ [r] <+: history s → before ++ [r] = history s ∧ P r s)
    (hstep : ∀ s a, step s a = s ∨
      ∃ r, history (step s a) = history s ++ [r] ∧ P r (step s a))
    (as : List ι) {before : List ρ} {r : ρ} (h : before ++ [r] <+: history (Runs.run step s as)) :
    ∃ bs, bs <+: as ∧ history (Runs.run step s bs) = before ++ [r] ∧ P r (Runs.run step s bs) := by
  induction as using List.reverseRecOn with
  | nil =>
    obtain ⟨heq, hP⟩ := h0 before r h
    exact ⟨[], List.prefix_refl _, heq.symm, hP⟩
  | append_singleton as a ih =>
    rw [Runs.run_append, Runs.run_cons, Runs.run_nil] at h
    obtain heq | ⟨r', hhist, hP⟩ := hstep (Runs.run step s as) a
    · rw [heq] at h
      obtain ⟨bs, hpre, hbs⟩ := ih h
      exact ⟨bs, hpre.trans (List.prefix_append _ _), hbs⟩
    · rw [hhist, List.prefix_concat_iff] at h
      obtain hlast | hearlier := h
      · obtain ⟨rfl, hr⟩ := List.append_inj' hlast rfl
        obtain rfl := List.head_eq_of_cons_eq hr
        refine ⟨as ++ [a], List.prefix_refl _, ?_⟩
        rw [Runs.run_append, Runs.run_cons, Runs.run_nil]
        exact ⟨hhist, hP⟩
      · obtain ⟨bs, hpre, hbs⟩ := ih hearlier
        exact ⟨bs, hpre.trans (List.prefix_append _ _), hbs⟩

end Lib.History
