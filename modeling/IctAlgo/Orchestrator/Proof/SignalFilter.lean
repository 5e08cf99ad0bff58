import IctAlgo.Lib.Filters
import IctAlgo.Orchestrator.SignalFilter

/-!
# What the signal filter enforces

`Enforces`: the filter removes the signals that violate the policy, keeps the others in their order
and records how many it removed. One element whose check raises makes it return all signals, and so
does every `AdvisorySignal`; a NaN is never less than the bound.

* `foldlM_step`: the loop, where no turn raises.
* `keeps?_of_checkable`, `of_not_checkable`: which turns raise nothing and keep what they should.
* `enforces_iff`: the signals for which the policy is enforced.
-/

set_option autoImplicit false

namespace Orchestrator

open Lib

/-! ## Violations -/

namespace Signal

def signalType : Signal → Value
  | .object s => s.signalType
  | .dict d => val d "signal_type"

def confidence : Signal → Value
  | .object s => s.confidence
  | .dict d => val d "confidence"

end Signal

namespace SignalPolicy

variable (p : SignalPolicy)

/-- The confidence of the signal is `None` or a number that is at least the bound. -/
def confident (s : Signal) : Bool :=
  s.confidence.isNull || (s.confidence.num?).any (p.minConfidence.le ·)

/-- The policy admits the signal: its type is not blocked, and it is confident enough. -/
def admits (s : Signal) : Bool := !p.blocks s.signalType && p.confident s

/-- The number that the decisions record as filtered. -/
def recorded (decisions : List Fields) : ℤ :=
  (decisions.map fun d => match val d "signals_filtered" with | .int n => n | _ => 0).sum

/-- The signals the policy admits, in their order, and the number of the others. -/
structure Enforces (signals : List Signal) (result : List Signal × List Fields) : Prop where
  kept : result.1 = signals.filter p.admits
  counted : recorded result.2 + result.1.length = signals.length

/-- The signal is a dictionary whose type can be looked up, and whose confidence, if that is looked
at, is `None` or a number that can be compared with the bound. -/
def checkable : Signal → Bool
  | .object _ => false
  | .dict d => (val d "signal_type").hashable && (p.blocks (val d "signal_type") ||
      (val d "confidence").isNull ||
      (val d "confidence").num?.any fun x => x ≠ .nan && p.minConfidence ≠ .nan)

/-! ## One turn -/

theorem not_lt_eq_le {x y : PyFloat} (hx : x ≠ .nan) (hy : y ≠ .nan) : (!x.lt y) = y.le x := by
  cases x with
  | nan => exact absurd rfl hx
  | fin q => cases y with
    | nan => exact absurd rfl hy
    | fin r =>
      rw [PyFloat.lt, PyFloat.le, ← decide_not, decide_eq_decide]
      exact not_lt
    | _ => rfl
  | _ => cases y with
    | nan => exact absurd rfl hy
    | _ => rfl

/-- NaN is not less than anything, and not at least anything. -/
theorem nan_incomparable {x y : PyFloat} (h : x = .nan ∨ y = .nan) :
    x.lt y = false ∧ y.le x = false := by
  rcases h with rfl | rfl
  · cases y <;> exact ⟨rfl, rfl⟩
  · cases x <;> exact ⟨rfl, rfl⟩

variable {p}

/-- A turn keeps a checkable signal exactly when the policy admits it. -/
theorem keeps?_of_checkable {s : Signal} (h : p.checkable s) : p.keeps? s = some (p.admits s) := by
  cases s with
  | object s => cases h
  | dict d =>
    simp only [checkable, Bool.and_eq_true, Bool.or_eq_true] at h
    obtain ⟨hhash, hlooked⟩ := h
    simp only [keeps?, admits, confident, Signal.signalType, Signal.confidence, hhash, Bool.not_true,
      Bool.false_eq_true, ↓reduceIte]
    cases hblocks : p.blocks (val d "signal_type") with
    | true => simp
    | false =>
      cases hnull : (val d "confidence").isNull with
      | true => simp
      | false =>
        simp only [hblocks, hnull, Bool.false_eq_true, false_or, Option.any_eq_true,
          Bool.and_eq_true, decide_eq_true_eq] at hlooked
        obtain ⟨x, hx, hfinite, hbound⟩ := hlooked
        simp [hx, ← not_lt_eq_le hfinite hbound]

/-- A turn that does not raise keeps every other signal, which the policy does not admit. -/
theorem of_not_checkable {s : Signal} {keep : Bool} (h : p.checkable s = false)
    (hkeep : p.keeps? s = some keep) : keep = true ∧ p.admits s = false := by
  cases s with
  | object s => cases hkeep
  | dict d =>
    simp only [keeps?] at hkeep
    split at hkeep
    · cases hkeep
    · rename_i hhash
      have hhash' : (val d "signal_type").hashable = true := by simpa using hhash
      simp only [checkable, hhash', Bool.true_and, Bool.or_eq_false_iff] at h
      obtain ⟨⟨hblocks, hnull⟩, hnum⟩ := h
      simp only [hblocks, hnull, Bool.false_eq_true, ↓reduceIte, Option.map_eq_some_iff] at hkeep
      obtain ⟨x, hx, rfl⟩ := hkeep
      have hnan : x = .nan ∨ p.minConfidence = .nan := by
        by_contra hnot
        simp [hx, not_or.1 hnot] at hnum
      obtain ⟨hlt, hle⟩ := nan_incomparable hnan
      simp [hlt, hle, admits, confident, Signal.signalType, Signal.confidence, hblocks, hnull, hx]

/-! ## The loop -/

/-- The loop, where no turn raises. -/
theorem foldlM_step {keeps : Signal → Bool} {signals : List Signal}
    (h : ∀ s ∈ signals, p.keeps? s = some (keeps s)) (acc : List Signal × ℕ) :
    signals.foldlM p.step acc =
      some (acc.1 ++ signals.filter keeps, acc.2 + signals.countP (!keeps ·)) := by
  induction signals generalizing acc with
  | nil => simp
  | cons s signals ih =>
    rw [List.foldlM_cons, step, h s List.mem_cons_self, Option.map_some, Option.bind_eq_bind,
      Option.bind_some, ih fun s hs => h s (List.mem_cons_of_mem _ hs)]
    cases hkeep : keeps s with
    | true => simp [hkeep]
    | false => simp [hkeep, Nat.add_assoc, Nat.add_comm 1]

/-- A turn that raises ends the loop. -/
theorem foldlM_step_eq_none {s : Signal} {signals : List Signal} (hs : s ∈ signals)
    (h : p.keeps? s = none) (acc : List Signal × ℕ) : signals.foldlM p.step acc = none := by
  induction signals generalizing acc with
  | nil => cases hs
  | cons s' signals ih =>
    rw [List.foldlM_cons, Option.bind_eq_bind]
    rcases List.mem_cons.1 hs with rfl | hs
    · rw [step, h]
      rfl
    · cases p.step acc s' with
      | none => rfl
      | some acc' => exact ih hs acc'

/-! ## The filter -/

section
variable {signals : List Signal} {eventType : String} {now : ℤ}

/-- One turn that raises keeps all signals. -/
theorem apply_of_raises {s : Signal} (hs : s ∈ signals) (h : p.keeps? s = none) :
    applySignalFilters (some fun _ => .ok (some p)) signals eventType now = (signals, []) := by
  simp only [applySignalFilters, applyPolicies, foldlM_step_eq_none hs h, List.map_nil]

/-- Where no turn raises, the decisions record the signals that are not kept. -/
theorem apply_of_keeps {keeps : Signal → Bool} (h : ∀ s ∈ signals, p.keeps? s = some (keeps s)) :
    ∃ decisions, applySignalFilters (some fun _ => .ok (some p)) signals eventType now =
      (signals.filter keeps, decisions) ∧ recorded decisions = signals.countP (!keeps ·) := by
  simp only [applySignalFilters, applyPolicies, foldlM_step h, List.nil_append, Nat.zero_add]
  refine ⟨_, rfl, ?_⟩
  split
  · simp [recorded, PolicyDecision.toFields, val, Dict.getD, Dict.ofItems, Dict.get?_set]
  · rename_i hzero
    simp [recorded, Nat.eq_zero_of_not_pos hzero]

theorem enforces_of_keeps {keeps : Signal → Bool} (h : ∀ s ∈ signals, p.keeps? s = some (keeps s)) :
    p.Enforces signals (applySignalFilters (some fun _ => .ok (some p)) signals eventType now) ↔
      ∀ s ∈ signals, keeps s = p.admits s := by
  obtain ⟨decisions, hresult, hrecorded⟩ := @apply_of_keeps p signals eventType now keeps h
  rw [hresult, ← filter_eq_filter_iff]
  refine ⟨fun henf => henf.kept, fun hkept => ⟨hkept, ?_⟩⟩
  rw [hrecorded, List.countP_eq_length_filter, add_comm]
  exact_mod_cast (List.length_eq_length_filter_add keeps).symm

/-- **The policy is enforced** exactly when it admits every signal, or every signal can be checked. -/
theorem enforces_iff (p : SignalPolicy) (signals : List Signal) (eventType : String) (now : ℤ) :
    p.Enforces signals (applySignalFilters (some fun _ => .ok (some p)) signals eventType now) ↔
      (∀ s ∈ signals, p.admits s) ∨ ∀ s ∈ signals, p.checkable s := by
  by_cases hraises : ∃ s ∈ signals, p.keeps? s = none
  · obtain ⟨s, hs, hnone⟩ := hraises
    rw [apply_of_raises hs hnone]
    refine ⟨fun h => .inl ?_, fun h => ?_⟩
    · exact List.filter_eq_self.1 h.kept.symm
    · rcases h with hall | hcheck
      · exact ⟨(List.filter_eq_self.2 hall).symm, by simp [recorded]⟩
      · rw [keeps?_of_checkable (hcheck s hs)] at hnone
        cases hnone
  · have hkeeps : ∀ s ∈ signals, p.keeps? s = some ((p.keeps? s).getD false) := by
      intro s hs
      cases h : p.keeps? s with
      | none => exact absurd ⟨s, hs, h⟩ hraises
      | some keep => rfl
    rw [enforces_of_keeps hkeeps]
    refine ⟨fun h => .inr fun s hs => ?_, fun h s hs => ?_⟩
    · by_contra hnot
      obtain ⟨hkept, hadmits⟩ := of_not_checkable (Bool.eq_false_iff.2 hnot) (hkeeps s hs)
      rw [h s hs, hadmits] at hkept
      cases hkept
    · cases hcheck : p.checkable s with
      | true => rw [keeps?_of_checkable hcheck, Option.getD_some]
      | false =>
        obtain ⟨hkept, hadmits⟩ := of_not_checkable hcheck (hkeeps s hs)
        rcases h with hall | hall
        · rw [hall s hs] at hadmits
          cases hadmits
        · rw [hall s hs] at hcheck
          cases hcheck

/-- A signal of the reasoning manager is not removed, though its type is blocked. -/
theorem blockedObject_kept :
    ¬ SignalPolicy.Enforces { blockedTypes := ["error"] } [.object { signalType := .str "error" }]
      (applySignalFilters (some fun _ => .ok (some { blockedTypes := ["error"] }))
        [.object { signalType := .str "error" }] "decision" 0) := by
  intro h
  have hkept := h.kept
  rw [apply_of_raises (List.mem_singleton.2 rfl) rfl] at hkept
  exact absurd (List.filter_eq_self.1 hkept.symm _ (List.mem_singleton.2 rfl)) (by decide)

end

end SignalPolicy

end Orchestrator
