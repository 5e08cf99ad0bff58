import IctAlgo.Signals.Proof.Marks

/-!
# Ordinary exceptions

The worker survives items of every shape when a session opens, closes and rolls back, and the calls
raise nothing but exceptions that can be written.

* `attempt_ordinary`: then so does the body of the `try`.
* `survives_of_ordinary`: the run over the items.
-/

set_option autoImplicit false

namespace Signals

open Lib Lib.Raising Orchestrator

/-! ## Definitions -/

/-- An `Exception` that can be written. -/
def Writable (e : Raised) : Prop := e.isException = true ∧ ∃ text, e.str = .ok text

/-- Nothing is raised but exceptions that can be written. -/
def Ordinary {α : Type} (x : Except Raised α) : Prop := RaisesOnly Writable x

/-- What objects raise is ordinary. -/
structure OrdinaryObjects (py : Py) : Prop where
  timestamp : ∀ v, Ordinary (py.otherTimestamp v)
  contains : ∀ v key, Ordinary (py.objectContains v key)
  item : ∀ v key, Ordinary (py.objectItem v key)
  setItem : ∀ v key w, Ordinary (py.objectSetItem v key w)
  get : ∀ v key default, Ordinary (py.objectGet v key default)
  len : ∀ v, Ordinary (py.objectLen v)
  int : ∀ v, Ordinary (py.objectInt v)
  less : ∀ v n, Ordinary (py.objectLess v n)

/-- What the calls for an item raise is ordinary. -/
structure OrdinaryCalls (env : Env) : Prop where
  logDropped : ∀ log v, Ordinary (env.logDropped log v)
  newSignal : ∀ v, Ordinary (env.newSignal v)
  addSignal : Ordinary env.addSignal
  commitSignal : Ordinary env.commitSignal
  refreshSignal : Ordinary env.refreshSignal
  analyzeSignal : ∀ v, Ordinary (env.analyzeSignal v)
  importOrchestrator : Ordinary env.importOrchestrator
  newOrchestrator : Ordinary env.newOrchestrator
  signalId : Ordinary env.signalId
  signalConfidence : Ordinary env.signalConfidence
  executePlan : ∀ v, Ordinary (env.executePlan v)
  str : ∀ v, Ordinary (env.str v)
  newAnalysis : ∀ n v w u, Ordinary (env.newAnalysis n v w u)
  addAnalysis : Ordinary env.addAnalysis
  commitAnalysis : Ordinary env.commitAnalysis
  addToMemory : ∀ v w, Ordinary (env.addToMemory v w)
  formatAlert : ∀ v w, Ordinary (env.formatAlert v w)
  sendTelegramAlert : ∀ text, Ordinary (env.sendTelegramAlert text)

/-! ## Composition -/

namespace Ordinary

section
variable {α β : Type}

theorem ok (a : α) : Ordinary (.ok a) := raisesOnly_ok

theorem shown {cls : ExceptionClass} (hcls : cls ≠ .baseException) (text : String) :
    Ordinary (.error (.shown cls text) : Except Raised α) :=
  raisesOnly_error.2 ⟨decide_eq_true hcls, text, rfl⟩

theorem typeError (text : String) : Ordinary (Py.typeError text : Except Raised α) :=
  shown (by decide) text

theorem other (name text : String) :
    Ordinary (.error (.shown (.other name) text) : Except Raised α) :=
  shown (fun h => by cases h) text

theorem bind {x : Except Raised α} {f : α → Except Raised β} (hx : Ordinary x)
    (hf : ∀ a, Ordinary (f a)) : Ordinary (x >>= f) :=
  raisesOnly_bind.2 ⟨hx, fun a _ => hf a⟩

theorem map {x : Except Raised α} (hx : Ordinary x) (f : α → β) : Ordinary (x.map f) := by
  cases x with
  | ok a => exact ok (f a)
  | error e => exact raisesOnly_error.2 (raisesOnly_error.1 hx)

theorem ite {c : Prop} [Decidable c] {x y : Except Raised α} (hx : Ordinary x) (hy : Ordinary y) :
    Ordinary (if c then x else y) := by
  split
  · exact hx
  · exact hy

theorem catching {x : Except Raised α} {h : Raised → Except Raised α} (hx : Ordinary x)
    (hh : ∀ e, Writable e → Ordinary (h e)) : Ordinary (catching x h) := by
  cases x with
  | ok a => exact ok a
  | error e =>
    have he : Writable e := raisesOnly_error.1 hx
    simp only [Lib.catching, he.1, ↓reduceIte]
    exact hh e he

theorem str {e : Raised} (he : Writable e) : Ordinary e.str := by
  obtain ⟨text, htext⟩ := he.2
  rw [htext]
  exact ok text

end

/-! ## Screening -/

section
variable {py : Py} (hpy : OrdinaryObjects py)
include hpy

theorem contains (v : Value) (key : String) : Ordinary (py.contains v key) := by
  unfold Py.contains
  split
  · exact ok _
  · exact ok _
  · exact ok _
  · exact hpy.contains _ key
  · exact typeError _

theorem item (v : Value) (key : String) : Ordinary (py.item v key) := by
  unfold Py.item
  split
  · split
    · exact ok _
    · exact other _ _
  · exact hpy.item _ key
  · exact typeError _

theorem setItem (v : Value) (key : String) (w : Value) : Ordinary (py.setItem v key w) := by
  unfold Py.setItem
  split
  · exact ok _
  · exact hpy.setItem _ key w
  · exact typeError _

theorem get (v : Value) (key : String) (default : Value) : Ordinary (py.get v key default) := by
  unfold Py.get
  split
  · exact ok _
  · exact hpy.get _ key default
  · exact other _ _

theorem len (v : Value) : Ordinary (py.len v) := by
  unfold Py.len
  split
  · exact ok _
  · exact ok _
  · exact ok _
  · exact hpy.len _
  · exact typeError _

theorem int (v : Value) : Ordinary (py.int v) := by
  unfold Py.int
  split
  · exact ok _
  · exact ok _
  · split
    · exact ok _
    · exact other _ _
  · split
    · exact ok _
    · exact shown (by decide) _
  · exact hpy.int _
  · exact typeError _

theorem less (v : Value) (n : ℤ) : Ordinary (py.less v n) := by
  unfold Py.less
  split
  · exact ok _
  · exact ok _
  · exact ok _
  · exact hpy.less _ n
  · exact typeError _

theorem firstMissing {container : Except Raised Value} (hcontainer : Ordinary container)
    (keys : List String) : Ordinary (firstMissing py container keys) := by
  induction keys with
  | nil => exact ok none
  | cons key keys ih =>
    exact bind hcontainer fun v => bind (contains hpy v key) fun found => ite ih (ok _)

theorem validateSignal (signalData : Value) : Ordinary (validateSignal py signalData) := by
  refine bind (firstMissing hpy (ok signalData) _) fun missing => ?_
  split
  · exact ok _
  · refine bind (firstMissing hpy (item hpy signalData _) _) fun missing => ?_
    split
    · exact ok _
    · refine catching ?_ fun e _ => ok _
      exact bind (item hpy signalData _) fun v => bind (int hpy v) fun conf => ok _

theorem isInKillzone (ts : Value) (session : String) : Ordinary (isInKillzone py ts session) := by
  have hutc (seconds : ℤ) : Ordinary (utcfromtimestamp seconds) := by
    unfold utcfromtimestamp
    split
    · exact ok _
    · exact shown (by decide) _
  have htime : Ordinary (parseTimestamp py ts) := by
    unfold parseTimestamp
    split
    · exact ok _
    · exact (hutc _).map some
    · exact (hutc _).map some
    · exact (hpy.timestamp _).map some
  refine bind htime fun time => ?_
  split
  · exact ok _
  · exact ok _

theorem scoreSignal (signalData : Value) : Ordinary (scoreSignal py signalData) :=
  bind (get hpy signalData _ _) fun conf => bind (len hpy conf) fun _ =>
    bind (item hpy signalData _) fun ts => bind (isInKillzone hpy ts _) fun _ =>
      bind (item hpy signalData _) fun _ => ok _

theorem screen (signalData : Value) : Ordinary (screen py signalData) := by
  refine bind (validateSignal hpy signalData) fun err => ?_
  split
  · exact ok _
  · have hconfluence : Ordinary (passesConfluence py signalData 2) :=
      bind (get hpy signalData _ _) fun conf => bind (len hpy conf) fun n => ok _
    refine bind hconfluence fun confluent => ite ?_ (ok _)
    refine bind (item hpy signalData _) fun ts => bind (isInKillzone hpy ts _) fun inZone =>
      ite ?_ (ok _)
    refine bind (scoreSignal hpy signalData) fun score =>
      bind (setItem hpy signalData _ _) fun scored => bind (item hpy scored _) fun confidence =>
        bind (less hpy confidence 75) fun low => ite (ok _) (ok _)

end

/-! ## Processing -/

section
variable {py : Py} {env : Env} (henv : OrdinaryCalls env)
include henv

theorem executePlanOf (aiResult : Value) : Ordinary (executePlanOf env aiResult) := by
  refine catching (bind henv.importOrchestrator fun _ => ?_) fun e _ => ok _
  split
  · split
    · refine bind henv.newOrchestrator fun _ => bind henv.signalId fun _ => catching ?_ fun e _ => ok _
      exact bind (henv.executePlan _) fun results => ite (ok _) (ok _)
    · exact ok _
  · exact ok _

omit henv in
theorem lookupGet (v : Value) : Ordinary (lookupGet v) := by
  unfold Signals.lookupGet
  split
  · exact ok _
  · exact ok _
  · exact other _ _

theorem analysisOf (hpy : OrdinaryObjects py) (aiResult : Value) :
    Ordinary (analysisOf py env aiResult) := by
  refine bind (contains hpy aiResult _) fun hasContent => ?_
  have hrow (gptAnalysis : Value) : Ordinary (do
      let signalId ← env.signalId
      Signals.lookupGet aiResult
      let confidence ← env.signalConfidence
      let score ← py.get aiResult "score" confidence
      let recommendation ← py.get aiResult "explanation" (.str "")
      env.newAnalysis signalId gptAnalysis score recommendation
      return gptAnalysis) :=
    bind henv.signalId fun n => bind (lookupGet aiResult) fun _ =>
      bind henv.signalConfidence fun confidence => bind (get hpy aiResult _ _) fun score =>
        bind (get hpy aiResult _ _) fun recommendation =>
          bind (henv.newAnalysis n gptAnalysis score recommendation) fun _ => ok _
  split
  · exact bind (item hpy aiResult _) hrow
  · exact bind ((henv.str aiResult).map _) hrow

theorem process (hpy : OrdinaryObjects py) (signalData : Value) :
    Ordinary (process py env signalData) := by
  refine bind (henv.newSignal _) fun _ => bind henv.addSignal fun _ => bind henv.commitSignal fun _ =>
    bind henv.refreshSignal fun _ => bind (henv.analyzeSignal _) fun aiResult =>
    bind (executePlanOf henv aiResult) fun aiResult => bind (analysisOf henv hpy aiResult) fun text =>
    bind henv.addAnalysis fun _ => bind henv.commitAnalysis fun _ => bind ?_ fun _ =>
    bind (henv.formatAlert _ _) fun alertMsg => henv.sendTelegramAlert alertMsg
  exact catching (henv.addToMemory _ _) fun e he => bind (str he) fun _ => ok _

end

end Ordinary

/-- The body of the `try` raises what can be written. -/
theorem attempt_ordinary {py : Py} {env : Env} (hpy : OrdinaryObjects py) (henv : OrdinaryCalls env)
    (signalData : Value) : Ordinary (attempt py env signalData) := by
  refine Ordinary.bind (Ordinary.screen hpy signalData) fun screened => ?_
  split
  · exact Ordinary.bind (henv.logDropped _ _) fun _ => Ordinary.ok _
  · exact Ordinary.bind (Ordinary.process henv hpy _) fun _ => Ordinary.ok _

/-- Items of every shape are marked once when only ordinary exceptions are raised and the session
opens, closes and rolls back. -/
theorem survives_of_ordinary {py : Py} (hpy : OrdinaryObjects py) {items : List (Value × Env)}
    (hcalls : ∀ item ∈ items, OrdinaryCalls item.2)
    (hsession : ∀ item ∈ items, item.2.openSession = .ok () ∧ item.2.closeSession = .ok () ∧
      item.2.rollback = .ok ()) : Survives py items := by
  induction items with
  | nil => rfl
  | cons item items ih =>
    obtain ⟨signalData, env⟩ := item
    rw [List.forall_mem_cons] at hcalls hsession
    obtain ⟨⟨hopens, hcloses, hrollback⟩, hrest⟩ := hsession
    have hsound : Sound py env signalData := {
      opens := hopens
      closes := hcloses
      handled := fun e he => by
        obtain ⟨hexception, htext⟩ := attempt_ordinary hpy hcalls.1 signalData e he
        exact ⟨hexception, htext, fun _ => hrollback⟩ }
    exact (survives_cons py signalData env items).2 ⟨hsound, ih hcalls.2 hrest⟩

end Signals
