import IctAlgo.Orchestrator.Process

/-!
# The decision store

`Decision`, `insert_decision` and `get_decision_by_id` of `reasoner_service/storage.py`, with the two
calls of `insert_decision` in `reasoner_service/orchestrator.py`. SQLAlchemy, the database and
`json.dumps` are a parameter. The ids, texts of UUIDs in the table, are numbers.
-/

set_option autoImplicit false

namespace Orchestrator

open Lib

/-- The columns that `Decision` maps. -/
def decisionColumns : List String :=
  ["id", "symbol", "decision_text", "raw", "bias", "confidence", "recommendation", "repair_used",
    "fallback_used", "duration_ms", "created_at"]

/-- Keyword arguments. -/
abbrev Kwargs := List (String × Value)

/-- What is not in the repository, with the texts of the exceptions. -/
structure Database where
  /-- `Decision(**kwargs)`: the attributes of the object. -/
  construct : Kwargs → Except String Fields
  /-- The commit of an object. -/
  commit : Fields → Except String Unit
  /-- `json.dumps`. -/
  dumps : Fields → Except String String
  /-- A conversion to a number raises. -/
  conversionError : String := ""

/-- A row with the attributes of its object; the others are `None`. -/
structure DecisionRow where
  id : ℕ
  columns : Fields
  deriving DecidableEq

/-- `insert_decision`. The default of the column `id` is `newId`. -/
def insertDecision (db : Database) (newId : ℕ) (kwargs : Kwargs) (rows : List DecisionRow) :
    Except String ℕ × List DecisionRow :=
  match db.construct kwargs with
  | .error err => (.error err, rows)
  | .ok dec =>
    match db.commit dec with
    | .error err => (.error err, rows)
    | .ok () => (.ok newId, rows ++ [⟨newId, dec⟩])

/-- `get_decision_by_id`. -/
def getDecisionById (rows : List DecisionRow) (id : ℕ) : Option Fields :=
  (rows.find? (·.id = id)).map DecisionRow.columns

section
variable (cv : Conv) (db : Database)

/-- The value of a conversion. -/
def Database.convert {α : Type} : Option α → Except String α
  | some x => .ok x
  | none => .error db.conversionError

/-- The columns that both calls give for a decision. -/
def columnKwargs (text : String) (conf : PyFloat) (durationMs : ℤ) (d : Fields) : Kwargs :=
  [("symbol", val d "symbol"), ("decision_text", .str text), ("raw", .dict d.items),
    ("bias", d.getD "bias" (.str "neutral")), ("confidence", .float conf),
    ("recommendation", val d "recommendation"), ("repair_used", .bool (val d "repair_used").truthy),
    ("fallback_used", .bool (val d "fallback_used").truthy), ("duration_ms", .int durationMs)]

/-- The keyword arguments of `process_decision` and of `_dlq_retry_once`, at the time `nowMs`. -/
def insertKwargs (nowMs : ℤ) (d : Fields) : Except String Kwargs := do
  let text ← db.dumps d
  let conf ← db.convert (cv.float? (d.getD "confidence" (.float (.fin 0))))
  let durationMs ← db.convert (cv.int? (d.getD "duration_ms" (.int 0)))
  let tsMs ← db.convert (cv.int? (d.getD "timestamp_ms" (.int nowMs)))
  return columnKwargs text conf durationMs d ++ [("ts_ms", .int tsMs)]

/-- What an insert meets besides the decision. -/
structure InsertEnv where
  newId : ℕ
  nowMs : ℤ

/-- The insert of a decision, in both calls. -/
def insertFor (ins : InsertEnv) (d : Fields) (rows : List DecisionRow) :
    Except String ℕ × List DecisionRow :=
  match insertKwargs cv db ins.nowMs d with
  | .error err => (.error err, rows)
  | .ok kwargs => insertDecision db ins.newId kwargs rows

/-! ## The two calls -/

/-- A call of `process_decision` with `persist=True`; its `env.insert` is what the insert answers. -/
structure PersistCall where
  env : ProcessEnv
  channels : Option (List String) := none
  decision : Payload
  ins : InsertEnv

def processStored (cfg : ProcessConfig) (call : PersistCall) (s : Orch) (rows : List DecisionRow) :
    (List Effect × Option ProcessResult × Orch) × List DecisionRow :=
  match processed? cv cfg call.env call.decision s with
  | none => (processDecision cv cfg call.env true call.channels call.decision s, rows)
  | some d =>
    let (reply, rows) := insertFor cv db call.ins d rows
    (processDecision cv cfg { call.env with insert := reply } true call.channels call.decision s, rows)

/-- The entry that the pass of `_dlq_retry_once` comes to next, if it is due. -/
def Dlq.due? {δ : Type} (q : Dlq δ) : Option (Cell δ) :=
  (q.pass.pending.head?.bind (q.heap[·]?)).filter fun c => !(c.entry.nextAttemptTs > q.pass.now)

/-- An attempt of `_dlq_retry_once`; its `a.insert` is what the insert answers. -/
def attemptStored (cfg : DlqSettings) (a : Dlq.Attempt) (ins : InsertEnv) (q : Dlq Fields)
    (rows : List DecisionRow) : Dlq Fields × List DecisionRow :=
  match q.due? with
  | none => (q.attempt cfg a, rows)
  | some c =>
    let (reply, rows) := insertFor cv db ins c.entry.decision rows
    (q.attempt cfg { a with insert := reply.map fun _ => () }, rows)

end

end Orchestrator
