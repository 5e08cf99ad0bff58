import IctAlgo.Lib.Raising
import IctAlgo.Lib.Runs
import IctAlgo.Boundary.AuditLog
import IctAlgo.Boundary.Proof.Authorised

/-!
# What the log file says

The file has the records whose lines were written, over all loggers that had it; the memory has those
of all calls since the last start.

* `ofJson_toJson?`: a plain value is read back from its JSON.
* `auditLog_reads_back`: the file is read as the records written to it, in their order, so that the
  check of the audit trail says of it what it says of those calls.
-/

set_option autoImplicit false

namespace Boundary

open Lib Lib.Runs Orchestrator

/-! ## Values -/

section
variable {repr : ℚ → List Char}

/-- The text of every float denotes it, and no dictionary has a key twice. -/
inductive Plain (repr : ℚ → List Char) : Value → Prop
  | null : Plain repr .null
  | bool (b : Bool) : Plain repr (.bool b)
  | int (n : ℤ) : Plain repr (.int n)
  | float {x : PyFloat} (h : ∀ q, x = .fin q → Json.Literal (repr q) q) : Plain repr (.float x)
  | str (s : String) : Plain repr (.str s)
  | list {xs : List Value} (h : ∀ x ∈ xs, Plain repr x) : Plain repr (.list xs)
  | dict {items : List (String × Value)} (hkeys : (items.map Prod.fst).Nodup)
      (h : ∀ e ∈ items, Plain repr e.2) : Plain repr (.dict items)
  | object (cls : String) (truth : Bool) (ref : ℕ) : Plain repr (.object cls truth ref)

/-- What is written for `x` can be read, as `x`. -/
def Faithful (repr : ℚ → List Char) (x : Value) : Prop :=
  ∀ v, toJson? x = some v → Json.Writable repr v ∧ ofJson v = x

theorem faithful_float {x : PyFloat} (h : ∀ q, x = .fin q → Json.Literal (repr q) q) :
    Faithful repr (.float x) := by
  rintro v hv
  cases x with
  | fin q => cases hv; exact ⟨.float (h q rfl), rfl⟩
  | inf => cases hv; exact ⟨.special .inf, rfl⟩
  | negInf => cases hv; exact ⟨.special .negInf, rfl⟩
  | nan => cases hv; exact ⟨.special .nan, rfl⟩

theorem faithful_all {xs : List Value} (h : ∀ x ∈ xs, Faithful repr x) {vs : List Json}
    (hvs : allJson? xs = some vs) : (∀ v ∈ vs, Json.Writable repr v) ∧ ofJsonAll vs = xs := by
  induction xs generalizing vs with
  | nil =>
    cases hvs
    exact ⟨nofun, rfl⟩
  | cons x xs ih =>
    simp only [allJson?, Option.bind_eq_bind, Option.bind_eq_some_iff, Option.pure_def,
      Option.some.injEq] at hvs
    obtain ⟨v, hv, vs, hvs, rfl⟩ := hvs
    obtain ⟨hwrite, hx⟩ := h x (List.mem_cons_self ..) v hv
    obtain ⟨hwrites, hxs⟩ := ih (fun y hy => h y (List.mem_cons_of_mem _ hy)) hvs
    exact ⟨List.forall_mem_cons.2 ⟨hwrite, hwrites⟩, by rw [ofJsonAll, hx, hxs]⟩

theorem faithful_fields {items : List (String × Value)} (h : ∀ e ∈ items, Faithful repr e.2)
    {fields : List (String × Json)} (hfields : fieldsJson? items = some fields) :
    (∀ f ∈ fields, Json.Writable repr f.2) ∧ fields.map Prod.fst = items.map Prod.fst ∧
      ofJsonFields fields = items := by
  induction items generalizing fields with
  | nil =>
    cases hfields
    exact ⟨nofun, rfl, rfl⟩
  | cons e items ih =>
    obtain ⟨k, x⟩ := e
    simp only [fieldsJson?, Option.bind_eq_bind, Option.bind_eq_some_iff, Option.pure_def,
      Option.some.injEq] at hfields
    obtain ⟨v, hv, fields, hfields, rfl⟩ := hfields
    obtain ⟨hwrite, hx⟩ := h (k, x) (List.mem_cons_self ..) v hv
    obtain ⟨hwrites, hkeys, hitems⟩ := ih (fun y hy => h y (List.mem_cons_of_mem _ hy)) hfields
    refine ⟨List.forall_mem_cons.2 ⟨hwrite, hwrites⟩, ?_, ?_⟩
    · rw [List.map_cons, List.map_cons, hkeys]
    · rw [ofJsonFields, hitems, hx]

/-- **A plain value is read back** from its JSON. -/
theorem ofJson_toJson? {x : Value} (h : Plain repr x) : Faithful repr x := by
  induction h with
  | null => rintro v ⟨⟩; exact ⟨.null, rfl⟩
  | bool b => rintro v ⟨⟩; exact ⟨.bool b, rfl⟩
  | int n => rintro v ⟨⟩; exact ⟨.int n, rfl⟩
  | float hx => exact faithful_float hx
  | str s => rintro v ⟨⟩; exact ⟨.str s, rfl⟩
  | @list xs _ ih =>
    intro v hv
    obtain ⟨vs, hvs, rfl⟩ := Option.map_eq_some_iff.1 hv
    obtain ⟨hwrites, hxs⟩ := faithful_all ih hvs
    exact ⟨.arr hwrites, by rw [ofJson, hxs]⟩
  | @dict items hkeys _ ih =>
    intro v hv
    obtain ⟨fields, hfields, rfl⟩ := Option.map_eq_some_iff.1 hv
    obtain ⟨hwrites, hsame, hitems⟩ := faithful_fields ih hfields
    exact ⟨.obj (hsame ▸ hkeys) hwrites, by rw [ofJson, hitems]⟩
  | object cls truth ref => rintro v ⟨⟩

/-- The record a document was written for. -/
theorem exists_fields {record : Fields} (h : Plain repr (.dict record.items)) {v : Json}
    (hv : toJson? (.dict record.items) = some v) :
    ∃ fields, v = .obj fields ∧ Json.Writable repr v ∧ Dict.ofItems (ofJsonFields fields) = record := by
  obtain ⟨hwrite, hread⟩ := ofJson_toJson? h v hv
  obtain ⟨fields, -, rfl⟩ := Option.map_eq_some_iff.1 hv
  refine ⟨fields, rfl, hwrite, ?_⟩
  have hitems : ofJsonFields fields = record.items := by
    rw [ofJson] at hread
    exact Value.dict.inj hread
  rw [hitems, Dict.ofItems_items]

theorem readLine_write {record : Fields} (h : Plain repr (.dict record.items)) {v : Json}
    (hv : toJson? (.dict record.items) = some v) :
    readLine (Json.write repr v ++ ['\n']) = some record := by
  obtain ⟨fields, rfl, hwrite, hrecord⟩ := exists_fields h hv
  rw [readLine, Json.strip_write, Json.read_write hwrite]
  simp only [hrecord]

end

/-! ## Calls -/

section
variable (iso : Timestamp → String)

/-- The record of the call can be made; it raises otherwise. -/
def AuditEntry.accepted (e : AuditEntry) : Bool :=
  (e.record iso).eventType ≠ "" && (e.record iso).intentId ≠ "" && e.actor ≠ ""

/-- The call is accepted, and its record is JSON. -/
def AuditEntry.writable (e : AuditEntry) : Bool :=
  e.accepted iso && (toJson? (.dict (e.dict iso).items)).isSome

/-- The call says that this intent was created. -/
def AuditEntry.Creates (intentId : String) (e : AuditEntry) : Prop :=
  match e.call with
  | .intentCreated intent _ => intent.intentId = intentId
  | .customEvent eventType id _ _ _ => eventType = "intent_created" ∧ id = intentId
  | _ => False

/-- The call says how this approval was decided. -/
def AuditEntry.Decides (approvalId : String) (e : AuditEntry) : Prop :=
  match e.call with
  | .approvalGranted _ a _ | .approvalRejected _ a _ => a.approvalId = approvalId
  | _ => False

variable {iso} {e : AuditEntry}

theorem actor_record : (e.record iso).actor = e.actor := by
  unfold AuditEntry.record
  cases e.call <;> rfl

theorem appendRecord_accepted (h : e.accepted iso = true) (log : List Fields) :
    appendRecord iso log (e.record iso) = .ok (log ++ [e.dict iso]) := by
  simp only [AuditEntry.accepted, Bool.and_eq_true, decide_eq_true_eq] at h
  obtain ⟨⟨htype, hid⟩, hactor⟩ := h
  unfold appendRecord ExecutionAuditRecord.postInit
  rw [if_neg htype, if_neg hid, actor_record, if_neg hactor]
  rfl

theorem appendRecord_refused (h : e.accepted iso = false) (log : List Fields) :
    ∃ error, appendRecord iso log (e.record iso) = .error error := by
  unfold appendRecord ExecutionAuditRecord.postInit
  split_ifs with htype hid hactor
  · exact ⟨_, rfl⟩
  · exact ⟨_, rfl⟩
  · exact ⟨_, rfl⟩
  · rw [actor_record] at hactor
    simp [AuditEntry.accepted, htype, hid, hactor] at h

theorem val_eventType : val (e.dict iso) "event_type" = .str (e.record iso).eventType := rfl

theorem val_intentId : val (e.dict iso) "intent_id" = .str (e.record iso).intentId := rfl

theorem val_approvalId :
    val (e.dict iso) "approval_id" = orNull .str (e.record iso).approvalId := rfl

theorem creates_iff {intentId : String} : (val (e.dict iso) "event_type" = .str "intent_created" ∧
    val (e.dict iso) "intent_id" = .str intentId) ↔ e.Creates intentId := by
  rw [val_eventType, val_intentId]
  unfold AuditEntry.Creates AuditEntry.record
  cases e.call <;> simp

theorem decides_iff {approvalId : String} :
    val (e.dict iso) "approval_id" = .str approvalId ↔ e.Decides approvalId := by
  rw [val_approvalId]
  unfold AuditEntry.Decides AuditEntry.record
  cases e.call <;> simp [orNull]

theorem plain_fieldsOf {repr : ℚ → List Char} {items : List (String × Value)}
    (h : ∀ x ∈ items, Plain repr x.2) : Plain repr (.dict (fieldsOf items).items) := by
  refine .dict (fieldsOf items).nodup fun x hx => ?_
  exact h x (Dict.mem_of_get?_ofItems (Dict.get?_eq_some_iff.2 hx))

/-- The values of a record are plain if those of its data are. -/
theorem plain_dict {repr : ℚ → List Char}
    (h : ∀ x ∈ (e.record iso).eventData.items, Plain repr x.2) :
    Plain repr (.dict (e.dict iso).items) := by
  refine plain_fieldsOf ?_
  simp only [List.forall_mem_cons]
  have happroval : Plain repr (orNull .str (e.record iso).approvalId) := by
    cases (e.record iso).approvalId with
    | none => exact .null
    | some id => exact .str id
  exact ⟨.str _, .str _, .str _, .str _, happroval, .str _,
    .dict (e.record iso).eventData.nodup h, .str _, .str _, .str _, nofun⟩

end

/-! ## Steps -/

section
variable (iso : Timestamp → String) (repr : ℚ → List Char)

theorem step_accepted {e : AuditEntry} (h : e.accepted iso = true) (s : AuditLogger) (writes : Bool) :
    s.step iso repr (.call e writes) = { s with
      memoryLog := s.memoryLog ++ [e.dict iso]
      file := if s.logFile && writes then s.file ++ jsonLine repr (e.dict iso) else s.file } := by
  simp only [AuditLogger.step, AuditLogger.log, appendRecord_accepted h]
  rfl

theorem step_refused {e : AuditEntry} (h : e.accepted iso = false) (s : AuditLogger) (writes : Bool) :
    s.step iso repr (.call e writes) = s := by
  obtain ⟨error, herror⟩ := appendRecord_refused h s.memoryLog
  simp only [AuditLogger.step, AuditLogger.log, herror]
  rfl

/-- The calls whose lines are written, when the file is set or not at first. -/
def writtenEntries : Bool → List AuditEvent → List AuditEntry
  | _, [] => []
  | _, .start touches :: events => writtenEntries touches events
  | logFile, .call e writes :: events =>
    if logFile && writes && e.writable iso then e :: writtenEntries logFile events
    else writtenEntries logFile events

/-- The calls since the last start, after those of `logged`. -/
def session : List AuditEntry → List AuditEvent → List AuditEntry
  | logged, [] => logged
  | _, .start _ :: events => session [] events
  | logged, .call e _ :: events =>
    session (if e.accepted iso then logged ++ [e] else logged) events

/-- The document of a call's line. -/
def Documents (e : AuditEntry) (v : Json) : Prop := toJson? (.dict (e.dict iso).items) = some v

/-- The memory has the calls of `logged`, the file those of `written`. -/
structure Keeps (written logged : List AuditEntry) (s : AuditLogger) : Prop where
  memory : s.memoryLog = logged.map (·.dict iso)
  file : ∃ docs, s.file = Json.writeLines repr docs ∧ List.Forall₂ (Documents iso) written docs

variable {iso repr} {s : AuditLogger} {written logged : List AuditEntry}

theorem Keeps.start (h : Keeps iso repr written logged s) (touches : Bool) :
    Keeps iso repr written [] (s.start touches) := ⟨rfl, h.file⟩

theorem writeLines_concat (docs : List Json) (v : Json) : Json.writeLines repr (docs ++ [v]) =
    Json.writeLines repr docs ++ (Json.write repr v ++ ['\n']) := by
  simp [Json.writeLines]

theorem Keeps.call (h : Keeps iso repr written logged s) {e : AuditEntry}
    (he : e.accepted iso = true) (writes : Bool) :
    Keeps iso repr (written ++ if s.logFile && writes && e.writable iso then [e] else [])
      (logged ++ [e]) (s.step iso repr (.call e writes)) := by
  rw [step_accepted iso repr he]
  obtain ⟨docs, hfile, hdocs⟩ := h.file
  refine ⟨by rw [h.memory, List.map_append]; rfl, ?_⟩
  cases hset : s.logFile && writes with
  | false =>
    refine ⟨docs, hfile, ?_⟩
    simpa [hset] using hdocs
  | true =>
    cases hv : toJson? (.dict (e.dict iso).items) with
    | none =>
      -- `json.dumps` raises before anything is written.
      have hwritable : e.writable iso = false := by simp [AuditEntry.writable, hv]
      refine ⟨docs, ?_, ?_⟩
      · simp [jsonLine, hv, hfile]
      · simpa [hwritable] using hdocs
    | some v =>
      have hwritable : e.writable iso = true := by simp [AuditEntry.writable, he, hv]
      refine ⟨docs ++ [v], ?_, ?_⟩
      · simp [jsonLine, hv, hfile, writeLines_concat]
      · simp only [hwritable, Bool.and_true, if_true]
        exact List.rel_append hdocs (.cons hv .nil)

theorem Keeps.run (events : List AuditEvent) : ∀ {s : AuditLogger} {written logged : List AuditEntry},
    Keeps iso repr written logged s →
      Keeps iso repr (written ++ writtenEntries iso s.logFile events) (session iso logged events)
        (run (AuditLogger.step iso repr) s events) := by
  induction events with
  | nil =>
    intro s written logged h
    rw [writtenEntries, List.append_nil]
    exact h
  | cons event events ih =>
    intro s written logged h
    cases event with
    | start touches => exact ih (h.start touches)
    | call e writes =>
      cases he : e.accepted iso with
      | false =>
        have hwritable : e.writable iso = false := by simp [AuditEntry.writable, he]
        have hstep := step_refused iso repr he s writes
        have hrest := ih h
        rw [run_cons, hstep]
        simpa [writtenEntries, session, he, hwritable] using hrest
      | true =>
        have hrest := ih (h.call he writes)
        have hset : (s.step iso repr (.call e writes)).logFile = s.logFile := by
          rw [step_accepted iso repr he]
        rw [hset, List.append_assoc] at hrest
        rw [run_cons]
        simp only [writtenEntries, session, he, if_true]
        split_ifs at hrest ⊢ with hwrites
        · exact hrest
        · exact hrest

theorem mem_writtenEntries {events : List AuditEvent} {e : AuditEntry} :
    ∀ {logFile : Bool}, e ∈ writtenEntries iso logFile events →
      ∃ writes, AuditEvent.call e writes ∈ events := by
  induction events with
  | nil => exact fun h => absurd h List.not_mem_nil
  | cons event events ih =>
    intro logFile h
    cases event with
    | start touches =>
      obtain ⟨writes, hmem⟩ := ih h
      exact ⟨writes, List.mem_cons_of_mem _ hmem⟩
    | call e' writes =>
      rw [writtenEntries] at h
      split_ifs at h with hwrites
      · rcases List.mem_cons.1 h with rfl | h
        · exact ⟨writes, List.mem_cons_self ..⟩
        · obtain ⟨writes, hmem⟩ := ih h
          exact ⟨writes, List.mem_cons_of_mem _ hmem⟩
      · obtain ⟨writes, hmem⟩ := ih h
        exact ⟨writes, List.mem_cons_of_mem _ hmem⟩

/-! ## Reading -/

theorem readLines_documents {docs : List Json} (h : List.Forall₂ (Documents iso) written docs)
    (hplain : ∀ e ∈ written, Plain repr (.dict (e.dict iso).items)) :
    (docs.map fun v => Json.write repr v ++ ['\n']).mapM readLine =
      some (written.map (·.dict iso)) := by
  induction h with
  | nil => rfl
  | @cons e v written docs hv _ ih =>
    have hline := readLine_write (hplain e (List.mem_cons_self ..)) hv
    have hlines := ih fun e he => hplain e (List.mem_cons_of_mem _ he)
    rw [List.map_cons, List.mapM_cons, hline, hlines]
    rfl

theorem writable_documents {docs : List Json} (h : List.Forall₂ (Documents iso) written docs)
    (hplain : ∀ e ∈ written, Plain repr (.dict (e.dict iso).items)) :
    ∀ v ∈ docs, Json.Writable repr v := by
  intro v hv
  obtain ⟨e, he, hdoc⟩ := Raising.exists_of_mem_right h hv
  exact (ofJson_toJson? (hplain e he) v hdoc).1

/-- The file is read as the records written to it. -/
theorem Keeps.readLog (h : Keeps iso repr written logged s)
    (hplain : ∀ e ∈ written, Plain repr (.dict (e.dict iso).items)) :
    readLog s.file = some (written.map (·.dict iso)) := by
  obtain ⟨docs, hfile, hdocs⟩ := h.file
  rw [Boundary.readLog, hfile, Json.fileLines_writeLines (writable_documents hdocs hplain),
    readLines_documents hdocs hplain]

variable (iso written) in
theorem checkAuditTrail_written (intent : ExecutionIntent) (a : HumanExecutionApproval) :
    (checkAuditTrail intent.intentId a.approvalId (written.map (·.dict iso))).ok = true ↔
      (∃ e ∈ written, e.Creates intent.intentId) ∧ ∃ e ∈ written, e.Decides a.approvalId := by
  rw [checkAuditTrail_ok_iff, Created, Mentioned]
  simp only [List.mem_map, exists_exists_and_eq_and, creates_iff, decides_iff]

/-- The call is one for the intent and of the type, where these are given. -/
def Concerns (iso : Timestamp → String) (intentId eventType : Option String) (e : AuditEntry) : Bool :=
  (intentId.all fun id => id = "" || (e.record iso).intentId = id) &&
    eventType.all fun type => type = "" || (e.record iso).eventType = type

theorem Keeps.getLogs (h : Keeps iso repr written logged s) (intentId eventType : Option String) :
    s.getLogs intentId eventType =
      (logged.filter (Concerns iso intentId eventType)).map (·.dict iso) := by
  unfold AuditLogger.getLogs
  rw [h.memory, List.filter_filter, List.filter_map]
  refine congrArg _ (List.filter_congr fun e _ => ?_)
  cases intentId <;> cases eventType <;>
    simp [Concerns, val_eventType, val_intentId, Bool.and_comm]

end

/-- What the log of the calls of `events` says. -/
structure AuditKept (iso : Timestamp → String) (repr : ℚ → List Char) (events : List AuditEvent) :
    Prop where
  /-- The file has the records whose lines were written, over all loggers. -/
  file : readLog (run (AuditLogger.step iso repr) {} events).file =
    some ((writtenEntries iso true events).map (·.dict iso))
  /-- The trail of an intent and an approval in it is whole exactly when a line for the intent's
  creation was written, be it of a custom event, and one for a decision, be it a rejection. -/
  trail : ∀ (intent : ExecutionIntent) (a : HumanExecutionApproval) (log : List Fields),
    readLog (run (AuditLogger.step iso repr) {} events).file = some log →
      ((checkAuditTrail intent.intentId a.approvalId log).ok = true ↔
        (∃ e ∈ writtenEntries iso true events, e.Creates intent.intentId) ∧
          ∃ e ∈ writtenEntries iso true events, e.Decides a.approvalId)
  /-- The memory has the records of the calls since the last start, written or not. -/
  memory : ∀ intentId eventType,
    (run (AuditLogger.step iso repr) {} events).getLogs intentId eventType =
      ((session iso [] events).filter (Concerns iso intentId eventType)).map (·.dict iso)

/-- **The log file is read as what was written to it**, whatever calls are made by any loggers that
follow each other on the file, and whatever writes fail. -/
theorem auditLog_reads_back (iso : Timestamp → String) (repr : ℚ → List Char)
    (events : List AuditEvent)
    (hplain : ∀ e writes, AuditEvent.call e writes ∈ events →
      ∀ x ∈ (e.record iso).eventData.items, Plain repr x.2) :
    AuditKept iso repr events := by
  have hnew : Keeps iso repr [] [] {} := ⟨rfl, [], rfl, .nil⟩
  have hkeeps := hnew.run events
  rw [List.nil_append] at hkeeps
  have hread := hkeeps.readLog fun e he => by
    obtain ⟨writes, hmem⟩ := mem_writtenEntries he
    exact plain_dict (hplain e writes hmem)
  refine ⟨hread, ?_, hkeeps.getLogs⟩
  intro intent a log hlog
  obtain rfl := Option.some.inj (hread.symm.trans hlog)
  exact checkAuditTrail_written iso _ intent a

/-- A call, one with data that is no JSON, one whose write fails, and one after a restart. -/
def fourCalls : List AuditEvent :=
  let stamp : Stamp := ⟨"r", ⟨0, true⟩⟩
  let size := fieldsOf [("size", .int 2)]
  let error := fieldsOf [("error", .object "E" true 0)]
  [.call ⟨.executionStarted "i" "go" (some size), "engine", stamp⟩ true,
    .call ⟨.executionFailed "i" "lost" (some error), "engine", stamp⟩ true,
    .call ⟨.killSwitchActivated "manual" "stop" none, "admin", stamp⟩ false,
    .start true,
    .call ⟨.customEvent "intent_created" "i" "by hand" "INFO" none, "admin", stamp⟩ true]

theorem auditLog_reads_back_four :
    AuditKept (fun _ => "1970-01-01T00:00:00+00:00") (fun _ => []) fourCalls := by
  refine auditLog_reads_back _ _ _ fun e writes hmem => ?_
  simp only [fourCalls, List.mem_cons, AuditEvent.call.injEq, List.not_mem_nil, or_false,
    reduceCtorEq, false_or] at hmem
  rcases hmem with ⟨rfl, -⟩ | ⟨rfl, -⟩ | ⟨rfl, -⟩ | ⟨rfl, -⟩
  · intro x hx
    obtain rfl : x = ("size", .int 2) := List.mem_singleton.1 hx
    exact .int 2
  · intro x hx
    obtain rfl : x = ("error", .object "E" true 0) := List.mem_singleton.1 hx
    exact .object "E" true 0
  · intro x hx
    obtain rfl : x = ("kill_switch_type", .str "manual") := List.mem_singleton.1 hx
    exact .str "manual"
  · exact nofun

end Boundary
