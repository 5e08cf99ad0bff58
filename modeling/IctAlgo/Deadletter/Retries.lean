import IctAlgo.Lib.Exn
import IctAlgo.Deadletter.Poll

/-!
# Whole entries and the on-demand retries

`_reconstruct_payload_from_entry`, `_dispatch_via_notifier`, `_process_deadletter_entry` and the two
`retry_deadletter_by_…` helpers of `reasoner_service/deadletter.py`. `Poll` reads of an entry what
the cursor of the loop depends on; here an entry has its payload and its timestamp too, and a call
may raise, which its callers see. An exception keeps what was written to the stream before it.
-/

set_option autoImplicit false

namespace Deadletter

open Lib

/-! ## Fields -/

/-- What `json.loads` returns. -/
inductive Json
  | null
  | bool (b : Bool)
  | number (text : String)
  | string (s : String)
  | array (items : List Json)
  | object (fields : List (String × Json))

/-- A `payload` text: JSON with its value, or no JSON. -/
inductive Payload
  | json (value : Json)
  | notJson (text : String)

/-- The payload as it is read. An empty text, or none, stands for `{}`. -/
def Payload.loads : Payload → Json
  | .json value => value
  | .notJson text => if text = "" then .object [] else .object [("raw", .string text)]

/-- The fields of a stream entry. -/
structure Fields extends Entry where
  payload : Payload
  /-- `none` when it is missing or does not parse. -/
  timestampUtc : Option ℚ

/-- A message for Slack, due ten seconds after its first attempt. -/
def Fields.slack : Fields where
  decisionId := "d1"
  channel := "slack"
  error := "timeout"
  retryMeta := .object (.value 1) (.value defaultBaseBackoff) (.value 10)
  payload := .json (.object [])
  timestampUtc := some 0

/-- What `_reconstruct_payload_from_entry` returns. -/
structure Reconstructed where
  decisionId : String
  channel : String
  payload : Json
  error : String
  ts : ℚ
  retryMeta : RetryMeta

def reconstructPayloadFromEntry (now : ℚ) (fields : Fields) : Reconstructed where
  decisionId := fields.decisionId
  channel := fields.channel
  payload := fields.payload.loads
  error := fields.error
  ts := fields.timestampUtc.getD now
  retryMeta := fields.retryMeta

/-- What an entry is about. -/
structure Letter where
  decisionId : String
  channel : String
  payload : Json

def Fields.letter (fields : Fields) : Letter :=
  ⟨fields.decisionId, fields.channel, fields.payload.loads⟩

/-! ## The notifier -/

/-- How `notifier.notify` ends: a dict with its `ok` and `error`, another value, an exception. -/
inductive Notified
  | dict (ok : Bool) (error : Option String)
  | invalid
  | raised (text : String)

/-- The dict `_dispatch_via_notifier` returns. -/
structure DispatchResult where
  ok : Bool
  error : Option String

def dispatchViaNotifier : Notified → DispatchResult
  | .dict ok error => ⟨ok, error⟩
  | .invalid => ⟨false, some "invalid_notifier_response"⟩
  | .raised text => ⟨false, some text⟩

/-- `res.get("error") or orig_error`. -/
def DispatchResult.errorOr (res : DispatchResult) (orig : String) : String :=
  if res.error.getD "" = "" then orig else res.error.getD ""

/-- The environment of one entry: the clock when a helper reads its fields, when it is processed
and when it is written again, how the notifier ends, which of XADD and XDEL go through (one that
raises has no effect), whether there is an engine whose notification log raises, and what is
published while the notifier is awaited. -/
structure Answer where
  readAt : ℚ
  now : ℚ
  writtenAt : ℚ
  notified : Notified
  xaddOk : Bool := true
  xdelOk : Bool := true
  logRaises : Bool := false
  published : List Fields := []

/-- What the dispatch of the entry returns. -/
def Answer.res (r : Answer) : DispatchResult := dispatchViaNotifier r.notified

/-! ## The stream -/

/-- The defaults of the module. -/
def Settings.default (linked : Linked) : Settings where
  linked := linked
  maxBatch := 50
  maxRetries := 5
  streamTrimLen := 10000
  startId := 0

/-- A call of a notifier: the entry, what it is about, its attempts with this one, the answer. -/
structure Dispatch where
  id : ℕ
  letter : Letter
  attempts : ℤ
  ok : Bool

/-- The stream, the calls of notifiers, and the entries the length limit of XADD has cut off. -/
structure Queue where
  stream : Log Fields
  dispatches : List Dispatch := []
  trimmed : List (Item Fields) := []

/-- A stream of one message, and its entry. -/
def Queue.slack : Queue := { stream := (Log.empty 1).append .slack }

def slackItem : Item Fields := ⟨1, .slack⟩

/-- What leaves `_process_deadletter_entry`: the retry metadata cannot be read, the notifier cannot be
constructed, the backoff is no date, the metric does not exist, the storage raises, or Redis does. -/
inductive Raised
  | retryMeta | notifier | overflow | metric | storage | redis

namespace Queue

variable (cfg : Settings)

/-- `XADD key fields max_len`. -/
def xadd (q : Queue) (fields : Fields) : Queue :=
  let stream := q.stream.append fields
  { q with
    stream := stream.trim cfg.streamTrimLen
    trimmed := q.trimmed ++ stream.trimmed cfg.streamTrimLen }

/-- `XDEL key id`. -/
def xdel (id : ℕ) (q : Queue) : Queue := { q with stream := q.stream.delete id }

end Queue

abbrev QueueM := EStateM Raised Queue

section
variable (cfg : Settings) (r : Answer)

/-- `redis_op` around XADD, which raises as well where the client does not take `max_len`. -/
def redisXadd (fields : Fields) : QueueM Unit :=
  if cfg.linked.maxLen && r.xaddOk then modify (·.xadd cfg fields) else throw .redis

/-- `redis_op` around XDEL. -/
def redisXdel (id : ℕ) : QueueM Unit :=
  if r.xdelOk then modify (·.xdel id) else throw .redis

/-- `log_notification`, if there is an engine. -/
def logNotification : QueueM Unit := if r.logRaises then throw .storage else pure ()

/-- `metrics.notifier_requests_total.labels(..).inc()`. -/
def countRequest : QueueM Unit := if cfg.linked.metric then pure () else throw .metric

/-- An exception ends in the log of the process. -/
def logged (m : QueueM Unit) : QueueM Unit := tryCatch m fun _ => pure ()

/-! ## One entry -/

/-- The reads of the retry metadata. -/
def readRetry (retryMeta : RetryMeta) : QueueM Retry :=
  match retryMeta.read with
  | some m => pure m
  | none => throw .retryMeta

/-- `SlackNotifier(engine=engine)` and the others. -/
def constructNotifier : QueueM Unit := if cfg.linked.constructs then pure () else throw .notifier

/-- The call of the notifier. -/
def dispatch (e : Item Fields) (m : Retry) : QueueM DispatchResult := do
  modify fun q => { q with
    dispatches := q.dispatches ++ [⟨e.id, e.val.letter, m.attempts + 1, r.res.ok⟩] }
  modify fun q => r.published.foldl (Queue.xadd cfg) q
  pure r.res

/-- After a success. -/
def deliver (e : Item Fields) : QueueM Unit := do
  logged (redisXdel r e.id)
  logged (logNotification r)
  countRequest cfg

/-- After a failure with more than `max_retries` attempts. -/
def giveUp (e : Item Fields) : QueueM Unit := do
  logged (redisXdel r e.id)
  logNotification r
  countRequest cfg

/-- `now + timedelta(seconds=delay)`. -/
def nextRetry (m : Retry) : QueueM ℚ :=
  match timeAfter r.now (m.baseBackoff * 2 ^ (m.attempts + 1 - 1)) with
  | some next => pure next
  | none => throw .overflow

/-- `new_entry`. -/
def newEntry (entry : Reconstructed) (m : Retry) (next : ℚ) : Fields where
  decisionId := entry.decisionId
  channel := entry.channel
  payload := .json entry.payload
  error := r.res.errorOr entry.error
  timestampUtc := some r.writtenAt
  retryMeta := .object (.value (m.attempts + 1)) (.value m.baseBackoff) (.value next)

/-- After any other failure. -/
def reschedule (e : Item Fields) (entry : Reconstructed) (m : Retry) : QueueM Unit := do
  let next ← nextRetry r m
  logged (do
    redisXadd cfg r (newEntry r entry m next)
    redisXdel r e.id)
  countRequest cfg
  logged (logNotification r)

/-- `_process_deadletter_entry`. -/
def processDeadletterEntry (e : Item Fields) : QueueM Unit := do
  let entry := reconstructPayloadFromEntry r.now e.val
  let m ← readRetry entry.retryMeta
  if m.early r.now then pure ()
  else if ¬knownChannel entry.channel then logNotification r
  else do
    constructNotifier cfg
    let res ← dispatch cfg r e m
    if res.ok then deliver cfg r e
    else if m.attempts + 1 > cfg.maxRetries then giveUp cfg r e
    else reschedule cfg r e entry m

end

/-! ## On-demand retries -/

section
variable (cfg : Settings) (answers : ℕ → Answer)

/-- XRANGE from the first to the last entry. -/
def scan (q : Queue) : List (Item Fields) := q.stream.range 0 cfg.streamTrimLen

/-- The loop of the two helpers over the entries they have read: the selected ones are processed,
and counted when that does not raise. An entry meets its answer by its id. -/
def retryLoop (selected : Item Fields → Bool) : ℕ → List (Item Fields) → QueueM ℕ
  | count, [] => pure count
  | count, e :: es => do
    let count ←
      if selected e then
        tryCatch (do processDeadletterEntry cfg (answers e.id) e; pure (count + 1))
          fun _ => pure count
      else pure count
    retryLoop selected count es

/-- `retry_deadletter_by_decision_id`. -/
def retryDeadletterByDecisionId (decisionId : String) : QueueM ℕ := do
  let q ← get
  retryLoop cfg answers (fun e => e.val.decisionId = decisionId) 0 (scan cfg q)

/-- `since <= ts < until`, where `stop` is `until`. -/
def inTimerange (since stop : ℚ) (e : Item Fields) : Bool :=
  let ts := (reconstructPayloadFromEntry (answers e.id).readAt e.val).ts
  since ≤ ts && ts < stop

/-- `retry_deadletter_by_timerange`. -/
def retryDeadletterByTimerange (since stop : ℚ) : QueueM ℕ := do
  let q ← get
  retryLoop cfg answers (inTimerange answers since stop) 0 (scan cfg q)

end

end Deadletter
