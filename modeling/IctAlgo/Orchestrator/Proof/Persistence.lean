import IctAlgo.Lib.Runs
import IctAlgo.Orchestrator.Storage

/-!
# Persistence of decisions

Both calls of `insert_decision` give the keyword `ts_ms`, which is no column of `Decision`, so that
its constructor raises.

* `Stores`: one row is added, and its id finds the columns of the decision.
* `insertDecision_stores`: the other keywords alone would store the decision.
* `insertFor_fails`: with `ts_ms` nothing is stored.
* `persistence_fails`: no call of `process_decision` and no retry stores its decision.
* `rows_run`: no run of the orchestrator changes the table.
-/

set_option autoImplicit false

namespace Orchestrator

open Lib Lib.Runs

/-- The constructor of the ORM takes the mapped columns, and no other keyword. -/
structure MapsColumns (db : Database) : Prop where
  accepts_iff : ∀ kwargs, (∃ dec, db.construct kwargs = .ok dec) ↔ ∀ kv ∈ kwargs, kv.1 ∈ decisionColumns
  column : ∀ kwargs dec, db.construct kwargs = .ok dec →
    ∀ name, val dec name = (kwargs.lookup name).getD .null

/-- The columns hold the decision. -/
structure Holds (d got : Fields) : Prop where
  symbol : val got "symbol" = val d "symbol"
  raw : val got "raw" = .dict d.items
  bias : val got "bias" = d.getD "bias" (.str "neutral")
  confidence : val got "confidence" = val d "confidence"
  recommendation : val got "recommendation" = val d "recommendation"
  repairUsed : val got "repair_used" = .bool (val d "repair_used").truthy
  fallbackUsed : val got "fallback_used" = .bool (val d "fallback_used").truthy

/-- One row is added, under `id`, and `get_decision_by_id` returns the decision. -/
def Stores (d : Fields) (id : ℕ) (rows rows' : List DecisionRow) : Prop :=
  (∃ row, rows' = rows ++ [row] ∧ row.id = id) ∧ ∃ got, getDecisionById rows' id = some got ∧ Holds d got

section
variable (cv : Conv) (db : Database)

/-- The call of `process_decision` stores its decision and returns the id. -/
def ProcessStores (cfg : ProcessConfig) (call : PersistCall) (s : Orch) (rows : List DecisionRow) :
    Prop :=
  ∃ d report id, processed? cv cfg call.env call.decision s = some d ∧
    (processStored cv db cfg call s rows).1.2.1 = some report ∧ report.id = some id ∧
      Stores d id rows (processStored cv db cfg call s rows).2

/-- The attempt stores the decision of its entry, which is due. -/
def RetryStores (cfg : DlqSettings) (a : Dlq.Attempt) (ins : InsertEnv) (q : Dlq Fields)
    (rows : List DecisionRow) : Prop :=
  ∃ c id, q.due? = some c ∧ Stores c.entry.decision id rows (attemptStored cv db cfg a ins q rows).2

end

section
variable {cv : Conv} {db : Database} {rows : List DecisionRow} {d : Fields} {ins : InsertEnv}

/-! ## The insert -/

theorem getDecisionById_append {newId : ℕ} (hfresh : ∀ row ∈ rows, row.id ≠ newId) (dec : Fields) :
    getDecisionById (rows ++ [⟨newId, dec⟩]) newId = some dec := by
  unfold getDecisionById
  rw [List.find?_append, List.find?_eq_none.2 (by simpa using hfresh)]
  simp

/-- The keywords other than `ts_ms` store the decision. -/
theorem insertDecision_stores (h : MapsColumns db) (hcommit : ∀ dec, db.commit dec = .ok ()) {newId : ℕ}
    (hfresh : ∀ row ∈ rows, row.id ≠ newId) {text : String} {conf : PyFloat} {durationMs : ℤ}
    (hconf : val d "confidence" = .float conf) :
    (insertDecision db newId (columnKwargs text conf durationMs d) rows).1.toOption = some newId ∧
      Stores d newId rows (insertDecision db newId (columnKwargs text conf durationMs d) rows).2 := by
  obtain ⟨dec, hdec⟩ := (h.accepts_iff (columnKwargs text conf durationMs d)).2
    (by simp [columnKwargs, decisionColumns])
  have hcolumn := h.column _ dec hdec
  unfold insertDecision
  rw [hdec]
  dsimp only
  rw [hcommit]
  refine ⟨rfl, ⟨_, rfl, rfl⟩, dec, getDecisionById_append hfresh dec, ?_⟩
  constructor
  all_goals
    rw [hcolumn]
    simp [columnKwargs, List.lookup_cons, hconf]

theorem insertKwargs_tsMs {nowMs : ℤ} {kwargs : Kwargs} (h : insertKwargs cv db nowMs d = .ok kwargs) :
    ∃ v, ("ts_ms", v) ∈ kwargs := by
  unfold insertKwargs at h
  simp only [bind, Except.bind] at h
  split at h
  · cases h
  split at h
  · cases h
  split at h
  · cases h
  split at h
  · cases h
  obtain rfl := Except.ok.inj h
  exact ⟨_, List.mem_append_right _ List.mem_cons_self⟩

/-- **The insert of a decision fails**, before anything is stored. -/
theorem insertFor_fails (h : MapsColumns db) (ins : InsertEnv) (d : Fields) (rows : List DecisionRow) :
    ∃ err, insertFor cv db ins d rows = (.error err, rows) := by
  unfold insertFor
  cases hkwargs : insertKwargs cv db ins.nowMs d with
  | error err => exact ⟨err, rfl⟩
  | ok kwargs =>
    obtain ⟨v, hv⟩ := insertKwargs_tsMs hkwargs
    dsimp only
    unfold insertDecision
    cases hdec : db.construct kwargs with
    | error err => exact ⟨err, rfl⟩
    | ok dec =>
      have hcolumn := (h.accepts_iff kwargs).1 ⟨dec, hdec⟩ _ hv
      simp [decisionColumns] at hcolumn

theorem not_stores_self {id : ℕ} : ¬ Stores d id rows rows := by
  intro h
  obtain ⟨⟨row, hrows, -⟩, -⟩ := h
  simpa using congrArg List.length hrows

/-! ## The two calls -/

theorem processStored_rows (h : MapsColumns db) (cfg : ProcessConfig) (call : PersistCall) (s : Orch) :
    (processStored cv db cfg call s rows).2 = rows := by
  unfold processStored
  split
  · rfl
  · rename_i d _
    obtain ⟨err, hinsert⟩ := @insertFor_fails cv db h call.ins d rows
    rw [hinsert]

theorem attemptStored_rows (h : MapsColumns db) (cfg : DlqSettings) (a : Dlq.Attempt) (ins : InsertEnv)
    (q : Dlq Fields) : (attemptStored cv db cfg a ins q rows).2 = rows := by
  unfold attemptStored
  split
  · rfl
  · rename_i c _
    obtain ⟨err, hinsert⟩ := @insertFor_fails cv db h ins c.entry.decision rows
    rw [hinsert]

end

/-! ## Runs -/

/-- The orchestrator and its table. -/
structure StoredOrch where
  orch : Orch := {}
  rows : List DecisionRow := []

inductive StoreInput
  | process (call : PersistCall)
  | startPass (now : ℚ) (connected : Bool) (pop : RedisReply)
  | attempt (a : Dlq.Attempt) (ins : InsertEnv)

def StoredOrch.step (cv : Conv) (db : Database) (cfg : ProcessConfig) (s : StoredOrch) :
    StoreInput → StoredOrch
  | .process call =>
    let out := processStored cv db cfg call s.orch s.rows
    ⟨out.1.2.2, out.2⟩
  | .startPass now connected pop =>
    { s with orch := { s.orch with dlq := s.orch.dlq.startPass cfg.dlq now connected pop } }
  | .attempt a ins =>
    let out := attemptStored cv db cfg.dlq a ins s.orch.dlq s.rows
    ⟨{ s.orch with dlq := out.1 }, out.2⟩

/-- **No run stores anything.** -/
theorem rows_run {cv : Conv} {db : Database} (h : MapsColumns db) (cfg : ProcessConfig) (s : StoredOrch)
    (inputs : List StoreInput) : (run (StoredOrch.step cv db cfg) s inputs).rows = s.rows := by
  refine run_inv (I := fun s' : StoredOrch => s'.rows = s.rows) inputs rfl ?_
  intro s' input hs
  rw [← hs]
  cases input with
  | process call => exact processStored_rows h cfg call s'.orch
  | startPass now connected pop => rfl
  | attempt a ins => exact attemptStored_rows h cfg.dlq a ins s'.orch.dlq

/-- **No decision is stored**, by `process_decision` or by a retry. -/
theorem persistence_fails (cv : Conv) (db : Database) (h : MapsColumns db) :
    (∀ cfg call s rows, ¬ ProcessStores cv db cfg call s rows) ∧
      ∀ cfg a ins q rows, ¬ RetryStores cv db cfg a ins q rows := by
  refine ⟨fun cfg call s rows h' => ?_, fun cfg a ins q rows h' => ?_⟩
  · obtain ⟨d, report, id, -, -, -, hstores⟩ := h'
    rw [processStored_rows h] at hstores
    exact not_stores_self hstores
  · obtain ⟨c, id, -, hstores⟩ := h'
    rw [attemptStored_rows h] at hstores
    exact not_stores_self hstores

/-- The attributes of the keywords. -/
def attributes : Kwargs → Fields
  | [] => Dict.empty
  | (name, v) :: kwargs => (attributes kwargs).set name v

theorem val_attributes (kwargs : Kwargs) (name : String) :
    val (attributes kwargs) name = (kwargs.lookup name).getD .null := by
  induction kwargs with
  | nil => rfl
  | cons kv kwargs ih =>
    obtain ⟨name', v⟩ := kv
    by_cases h : name = name'
    · subst h
      simp [attributes, val]
    · rw [attributes, val, Dict.getD_set_ne _ _ _ h, Dict.lookup_cons_ne h]
      exact ih

/-- A database that takes every object with mapped columns. -/
def columnsOnly : Database where
  construct kwargs :=
    if ∀ kv ∈ kwargs, kv.1 ∈ decisionColumns then .ok (attributes kwargs)
    else .error "'ts_ms' is an invalid keyword argument for Decision"
  commit _ := .ok ()
  dumps _ := .ok "\x7b\x7d"

theorem columnsOnly_mapsColumns : MapsColumns columnsOnly where
  accepts_iff kwargs := by
    unfold columnsOnly
    dsimp only
    split
    · rename_i h
      exact ⟨fun _ => h, fun _ => ⟨_, rfl⟩⟩
    · rename_i h
      exact ⟨fun ⟨_, hdec⟩ => (by cases hdec), fun h' => absurd h' h⟩
  column kwargs dec hdec name := by
    unfold columnsOnly at hdec
    dsimp only at hdec
    split at hdec
    · obtain rfl := Except.ok.inj hdec
      exact val_attributes kwargs name
    · cases hdec

theorem persistence_fails_columnsOnly :
    (∀ cfg call s rows, ¬ ProcessStores .plain columnsOnly cfg call s rows) ∧
      ∀ cfg a ins q rows, ¬ RetryStores .plain columnsOnly cfg a ins q rows :=
  persistence_fails .plain columnsOnly columnsOnly_mapsColumns

/-- A decision to enter `TST`. -/
def enterCall : PersistCall where
  env :=
    { gate := defaultPolicies .plain 1704067200000
      now := ⟨"2024-01-01T00:00:00+00:00", 1704067200000⟩
      post := defaultPolicies .plain 1704067200000
      insert := .ok 0 }
  decision := .dict ((Dict.empty.set "symbol" (.str "TST")).set "recommendation" (.str "enter"))
  ins := ⟨1, 1704067200000⟩

/-- The decision is not stored, but put into the dead letters. -/
theorem enter_diverted :
    ¬ ProcessStores .plain columnsOnly { gate := { permissive := true } } enterCall {} [] ∧
      (processStored .plain columnsOnly { gate := { permissive := true } } enterCall {}
        []).1.2.2.dlq.persistDlq = [0] := by
  constructor
  · intro h
    obtain ⟨d, report, id, -, -, -, hstores⟩ := h
    have hrows : (processStored .plain columnsOnly { gate := { permissive := true } } enterCall {}
        []).2 = [] := by
      decide +kernel
    rw [hrows] at hstores
    exact not_stores_self hstores
  · decide +kernel

end Orchestrator
