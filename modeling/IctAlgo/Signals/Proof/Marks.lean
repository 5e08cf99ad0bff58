import IctAlgo.Signals.Worker
import IctAlgo.Signals.Proof.Notations

/-!
# Marks of the worker

`Survives`: every item is taken, marked once, and the worker goes on.

* `work_eq_iff`: what one item needs for that (`Sound`): the session opens and closes, and what is
  raised in between is an `Exception` that can be written, after which a rollback succeeds if there is
  one.
* `survives_iff`: the run over the items.
-/

set_option autoImplicit false

namespace Signals

open Lib Lib.Raising Orchestrator

/-! ## Definitions -/

section
variable (py : Py)

/-- No exception leaves the body of the loop. -/
structure Sound (env : Env) (signalData : Value) : Prop where
  opens : env.openSession = .ok ()
  closes : env.closeSession = .ok ()
  handled : ∀ e, attempt py env signalData = .error e → e.isException = true ∧
    (∃ text, e.str = .ok text) ∧ (e.cls = sqlAlchemyError → env.rollback = .ok ())

/-- Each item is marked exactly once, and the worker goes on. -/
def Survives (items : List (Value × Env)) : Prop :=
  signalWorker py items = items.map fun _ => ⟨1, true⟩

end

/-! ## An item -/

section
variable (py : Py) (env : Env) (signalData : Value)

theorem handle_isOk_iff {e : Raised} : (∃ exit, handle env e = .ok exit) ↔
    e.isException = true ∧ (∃ text, e.str = .ok text) ∧
      (e.cls = sqlAlchemyError → env.rollback = .ok ()) := by
  by_cases hdb : e.cls = sqlAlchemyError
  · have hexception : e.isException = true := by
      unfold Raised.isException
      rw [hdb]
      decide
    simp only [handle, hdb, ↓reduceIte, bind_ok_iff, hexception, true_and, forall_const]
    refine ⟨fun h => ?_, fun h => ?_⟩
    · obtain ⟨exit, text, htext, ⟨⟩, hrollback, -⟩ := h
      exact ⟨⟨text, htext⟩, hrollback⟩
    · obtain ⟨⟨text, htext⟩, hrollback⟩ := h
      exact ⟨.finished, text, htext, (), hrollback, rfl⟩
  · by_cases hexception : e.isException = true
    · simp only [handle, hdb, ↓reduceIte, hexception, bind_ok_iff, true_and, false_imp_iff, and_true]
      refine ⟨fun h => ?_, fun h => ?_⟩
      · obtain ⟨exit, text, htext, -⟩ := h
        exact ⟨text, htext⟩
      · obtain ⟨text, htext⟩ := h
        exact ⟨.finished, text, htext, rfl⟩
    · simp [handle, hdb, hexception]

theorem guarded_isOk_iff : (∃ exit, guarded py env signalData = .ok exit) ↔
    ∀ e, attempt py env signalData = .error e → e.isException = true ∧
      (∃ text, e.str = .ok text) ∧ (e.cls = sqlAlchemyError → env.rollback = .ok ()) := by
  unfold guarded
  cases attempt py env signalData with
  | ok exit => exact iff_of_true ⟨exit, rfl⟩ fun e he => by cases he
  | error e =>
    refine (handle_isOk_iff env).trans ⟨fun h e' he => ?_, fun h => h e rfl⟩
    obtain rfl := Except.error.inj he
    exact h

theorem work_eq_iff : work py env signalData = ⟨1, true⟩ ↔ Sound py env signalData := by
  have hguarded := guarded_isOk_iff py env signalData
  unfold work
  cases hopen : env.openSession with
  | error e =>
    refine iff_of_false (by simp) fun h => ?_
    rw [h.opens] at hopen
    cases hopen
  | ok =>
    cases hguard : guarded py env signalData with
    | error e =>
      refine iff_of_false (by simp) fun h => ?_
      obtain ⟨exit, hexit⟩ := hguarded.2 h.handled
      rw [hguard] at hexit
      cases hexit
    | ok exit =>
      cases hclose : env.closeSession with
      | error e =>
        refine iff_of_false (by cases exit <;> simp) fun h => ?_
        rw [h.closes] at hclose
        cases hclose
      | ok =>
        have hsound : Sound py env signalData := ⟨hopen, hclose, hguarded.1 ⟨exit, hguard⟩⟩
        exact iff_of_true (by cases exit <;> rfl) hsound

/-- No item is marked twice, whatever is raised. -/
theorem work_marks_le : (work py env signalData).marks ≤ 1 := by
  unfold work
  split
  · exact Nat.zero_le 1
  · split <;> decide

end

/-! ## The run -/

theorem signalWorker_marks_le (py : Py) (items : List (Value × Env)) :
    ∀ outcome ∈ signalWorker py items, outcome.marks ≤ 1 := by
  induction items with
  | nil => exact fun outcome hmem => absurd hmem List.not_mem_nil
  | cons item items ih =>
    intro outcome hmem
    simp only [signalWorker] at hmem
    split at hmem
    · obtain rfl | hmem := List.mem_cons.1 hmem
      · exact work_marks_le py _ _
      · exact ih outcome hmem
    · rw [List.mem_singleton.1 hmem]
      exact work_marks_le py _ _

theorem survives_cons (py : Py) (signalData : Value) (env : Env) (items : List (Value × Env)) :
    Survives py ((signalData, env) :: items) ↔ Sound py env signalData ∧ Survives py items := by
  unfold Survives
  rw [← work_eq_iff]
  simp only [signalWorker, List.map_cons]
  split
  · rw [List.cons.injEq]
  · rename_i hstops
    refine iff_of_false (fun h => ?_) fun h => ?_
    · exact hstops (by rw [(List.cons.inj h).1])
    · exact hstops (by rw [h.1])

/-- **The worker survives every item.** Whatever is raised, no item is marked twice; all items are taken
and marked exactly once if and only if for each of them the session opens and closes, and what is
raised in between is an `Exception` that can be written, with a rollback that succeeds after an error
of the database. -/
theorem survives_iff (py : Py) (items : List (Value × Env)) :
    (∀ outcome ∈ signalWorker py items, outcome.marks ≤ 1) ∧
      (Survives py items ↔ ∀ item ∈ items, Sound py item.2 item.1) := by
  refine ⟨signalWorker_marks_le py items, ?_⟩
  induction items with
  | nil => simp [Survives, signalWorker]
  | cons item items ih =>
    obtain ⟨signalData, env⟩ := item
    rw [survives_cons, ih, List.forall_mem_cons]

/-- A database that cannot be reached: sessions connect when they commit or roll back. -/
def unreachable : Env :=
  let down : ∀ {α : Type}, Except Raised α := .error (.shown sqlAlchemyError "connection refused")
  { openSession := .ok ()
    closeSession := .ok ()
    rollback := down
    logDropped := fun _ _ => .ok ()
    newSignal := fun _ => .ok ()
    addSignal := .ok ()
    commitSignal := down
    refreshSignal := down
    analyzeSignal := fun _ => .ok (.dict [])
    importOrchestrator := .ok ()
    newOrchestrator := .ok ()
    signalId := .ok 1
    signalConfidence := .ok (.int 90)
    executePlan := fun _ => .ok (.dict [])
    str := fun _ => .ok ""
    newAnalysis := fun _ _ _ _ => .ok ()
    addAnalysis := .ok ()
    commitAnalysis := down
    addToMemory := fun _ _ => .ok ()
    formatAlert := fun _ _ => .ok ""
    sendTelegramAlert := fun _ => .ok () }

/-- A signal of a London morning. -/
def londonSignal : Value := .dict [
  ("symbol", .str "EURUSD"), ("timeframe", .str "5M"), ("signal_type", .str "BoS"),
  ("confidence", .int 90), ("timestamp", .int 1767772800000),
  ("price_data", .dict [("open", .int 1), ("high", .int 2), ("low", .int 1), ("close", .int 2)]),
  ("sl", .int 1), ("tp", .int 3), ("multi_tf", .dict []),
  ("confluences", .list [.str "sweep", .str "fvg"])]

theorem attempt_londonSignal : attempt plainPy unreachable londonSignal =
    .error (.shown sqlAlchemyError "connection refused") := by
  rfl

/-- The item is not marked, and no later item is taken. -/
theorem worker_stops : ¬ ∀ (py : Py) (items : List (Value × Env)), Survives py items := by
  intro h
  have hsurvives := h plainPy [(londonSignal, unreachable), (londonSignal, unreachable)]
  have hsound : Sound plainPy unreachable londonSignal :=
    ((survives_cons plainPy londonSignal unreachable [(londonSignal, unreachable)]).1 hsurvives).1
  have hrollback := (hsound.handled _ attempt_londonSignal).2.2 rfl
  cases hrollback

end Signals
