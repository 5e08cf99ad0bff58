import IctAlgo.Lib.Json
import IctAlgo.Boundary.Guards

/-!
# The audit log and its file

`ExecutionAuditLogger` of `execution_boundary/execution_audit_logger.py`. A record is kept in memory
and appended to the log file as a line of JSON; what fails there is dropped. A line is written as a
whole or not at all. `export_logs_json` is left out.
-/

set_option autoImplicit false

namespace Boundary

open Lib Orchestrator

/-! ## Records as JSON -/

def floatJson : PyFloat → Json
  | .fin q => .num (.float q)
  | .inf => .special .inf
  | .negInf => .special .negInf
  | .nan => .special .nan

mutual

/-- What `json.dumps` writes; none for an object that is no JSON, which raises a `TypeError`. -/
def toJson? : Value → Option Json
  | .null => some .null
  | .bool b => some (.bool b)
  | .int n => some (.num (.int n))
  | .float x => some (floatJson x)
  | .str s => some (.str s)
  | .list xs => (allJson? xs).map .arr
  | .dict items => (fieldsJson? items).map .obj
  | .object .. => none

def allJson? : List Value → Option (List Json)
  | [] => some []
  | x :: xs => do
    let v ← toJson? x
    let vs ← allJson? xs
    return v :: vs

def fieldsJson? : List (String × Value) → Option (List (String × Json))
  | [] => some []
  | (k, x) :: items => do
    let v ← toJson? x
    let fields ← fieldsJson? items
    return (k, v) :: fields

end

/-! ## Calls -/

/-- A call of the logger, but for its actor. -/
inductive AuditCall
  | intentCreated (intent : ExecutionIntent) (note : String)
  | approvalGranted (intentId : String) (approval : HumanExecutionApproval) (note : String)
  | approvalRejected (intentId : String) (approval : HumanExecutionApproval) (note : String)
  | executionStarted (intentId note : String) (eventData : Option Fields)
  | executionCompleted (intentId note : String) (eventData : Option Fields)
  | executionFailed (intentId error : String) (eventData : Option Fields)
  | killSwitchActivated (killSwitchType reason : String) (eventData : Option Fields)
  | killSwitchDeactivated (killSwitchType reason : String) (eventData : Option Fields)
  | customEvent (eventType intentId note severity : String) (eventData : Option Fields)

/-- `event_data or dflt`. -/
def dataOr (eventData : Option Fields) (dflt : Fields) : Fields :=
  match eventData with
  | none => dflt
  | some d => if d.items = [] then dflt else d

/-- A call by an actor, with the id and the time its record gets. -/
structure AuditEntry where
  call : AuditCall
  actor : String
  stamp : Stamp

section
variable (iso : Timestamp → String)

/-- The record of a call, before its check. -/
def AuditEntry.record (e : AuditEntry) : ExecutionAuditRecord :=
  let of (eventType intentId : String) (approvalId : Option String) (status : String)
      (eventData : Fields) (humanNote severity : String) : ExecutionAuditRecord :=
    { recordId := e.stamp.recordId, timestamp := e.stamp.timestamp, eventType, intentId, approvalId
      status, eventData, humanNote, actor := e.actor, severity }
  match e.call with
  | .intentCreated intent note =>
    of "intent_created" intent.intentId none intent.status.value (intent.toDict iso) note "INFO"
  | .approvalGranted intentId a note =>
    of "approval_granted" intentId (some a.approvalId) "approved" (a.toDict iso) note "INFO"
  | .approvalRejected intentId a note =>
    of "approval_rejected" intentId (some a.approvalId) "rejected" (a.toDict iso) note "WARNING"
  | .executionStarted intentId note data =>
    of "execution_started" intentId none "executing" (dataOr data .empty) note "INFO"
  | .executionCompleted intentId note data =>
    of "execution_completed" intentId none "executed" (dataOr data .empty) note "INFO"
  | .executionFailed intentId error data =>
    of "execution_failed" intentId none "failed" (dataOr data (fieldsOf [("error", .str error)]))
      ("Execution failed: " ++ error) "CRITICAL"
  | .killSwitchActivated kind reason data =>
    of "kill_switch_activated" "system" none ("halted_" ++ kind)
      (dataOr data (fieldsOf [("kill_switch_type", .str kind)]))
      ("Kill switch activated: " ++ reason) "CRITICAL"
  | .killSwitchDeactivated kind reason data =>
    of "kill_switch_deactivated" "system" none ("resumed_" ++ kind)
      (dataOr data (fieldsOf [("kill_switch_type", .str kind)]))
      ("Kill switch deactivated: " ++ reason) "WARNING"
  | .customEvent eventType intentId note severity data =>
    of eventType intentId none eventType (dataOr data .empty) note severity

/-- What is logged for a call. -/
def AuditEntry.dict (e : AuditEntry) : Fields := (e.record iso).toDict iso

/-! ## The logger -/

structure AuditLogger where
  memoryLog : List Fields := []
  /-- `log_file` is set. -/
  logFile : Bool := true
  /-- The text of the file. -/
  file : List Char := []

variable (repr : ℚ → List Char)

/-- The line that is written for a record, if it can be written. -/
def jsonLine (record : Fields) : List Char :=
  match toJson? (.dict record.items) with
  | none => []
  | some v => Json.write repr v ++ ['\n']

namespace AuditLogger

/-- A new logger on the same file; without the file if it cannot be touched. -/
def start (s : AuditLogger) (touches : Bool) : AuditLogger :=
  { s with memoryLog := [], logFile := touches }

/-- A call, whose record goes to the file if `writes`; it may raise a `ValueError`. -/
def log (s : AuditLogger) (e : AuditEntry) (writes : Bool) : Except String AuditLogger := do
  let memoryLog ← appendRecord iso s.memoryLog (e.record iso)
  return { s with
    memoryLog
    file := if s.logFile && writes then s.file ++ jsonLine repr (e.dict iso) else s.file }

/-- `get_logs`; an empty id or type selects nothing. -/
def getLogs (s : AuditLogger) (intentId eventType : Option String) : List Fields :=
  let selects (key : String) (wanted : Option String) (record : Fields) : Bool :=
    match wanted with
    | none => true
    | some text => text = "" || val record key = .str text
  (s.memoryLog.filter (selects "intent_id" intentId)).filter (selects "event_type" eventType)

end AuditLogger

inductive AuditEvent
  | start (touches : Bool)
  | call (e : AuditEntry) (writes : Bool)

/-- A call that raises leaves the logger as it is. -/
def AuditLogger.step (s : AuditLogger) : AuditEvent → AuditLogger
  | .start touches => s.start touches
  | .call e writes => (s.log iso repr e writes).toOption.getD s

end

/-! ## Reading the file -/

def jsonFloat : Json.Special → PyFloat
  | .nan => .nan
  | .inf => .inf
  | .negInf => .negInf

mutual

/-- The value `json.loads` returns. -/
def ofJson : Json → Value
  | .null => .null
  | .bool b => .bool b
  | .num (.int n) => .int n
  | .num (.float q) => .float (.fin q)
  | .special c => .float (jsonFloat c)
  | .str s => .str s
  | .arr vs => .list (ofJsonAll vs)
  | .obj fields => .dict (ofJsonFields fields)

def ofJsonAll : List Json → List Value
  | [] => []
  | v :: vs => ofJson v :: ofJsonAll vs

def ofJsonFields : List (String × Json) → List (String × Value)
  | [] => []
  | (k, v) :: fields => (k, ofJson v) :: ofJsonFields fields

end

/-- The record of a line. -/
def readLine (line : List Char) : Option Fields :=
  match Json.read (Strptime.strip line) with
  | some (.obj fields) => some (.ofItems (ofJsonFields fields))
  | _ => none

/-- The records of a log file; none if a line has no record. -/
def readLog (file : List Char) : Option (List Fields) := (Json.fileLines file).mapM readLine

end Boundary
