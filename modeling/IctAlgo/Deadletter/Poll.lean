import Mathlib.Algebra.Order.Ring.Rat
import IctAlgo.Lib.Log
import IctAlgo.Lib.Runs

/-!
# The dead-letter stream and its poll loop

`publish_deadletter`, `_process_deadletter_entry` and `poll_deadletter_loop` of
`reasoner_service/deadletter.py`. The stream is a `Log` of entries; stream ids are numbers, in the
order of the stream. Times are seconds since the epoch. One `tick` is one round of the loop: an
XRANGE from `lastId` (inclusive) and the entries it returns, one after another.

The environment of an entry is its `Reply`: the clock, the notifier's answer, which of the two
stream operations raise, and what is published while the notifier is awaited. What the names the
module imports stand for is a parameter, `Linked`; `Linked.shipped` says what they stand for here.
-/

set_option autoImplicit false

namespace Deadletter

open Lib

/-! ## Entries -/

/-- A key of the retry metadata: not there, of a value that does not convert, or with its value. -/
inductive Key (α : Type)
  | missing
  | invalid
  | value (a : α)

/-- The `retry_meta` text: not JSON, JSON but no object, or an object. -/
inductive RetryMeta
  | notJson
  | notObject
  | object (attempts : Key ℤ) (baseBackoffSeconds : Key ℚ) (nextRetryUtc : Key ℚ)

/-- What processing reads of it. -/
structure Retry where
  attempts : ℤ
  baseBackoff : ℚ
  nextRetry : Option ℚ

/-- `DEFAULT_BASE_BACKOFF`. -/
def defaultBaseBackoff : ℚ := 10

/-- `int(retry_meta.get("attempts", 1))` and the two reads after it; `none` when one raises. A text
that is no JSON is read as `{}`, a time that does not parse as none. -/
def RetryMeta.read : RetryMeta → Option Retry
  | .notJson => some ⟨1, defaultBaseBackoff, none⟩
  | .notObject => none
  | .object attempts base next => do
    let attempts ← match attempts with
      | .missing => some 1
      | .invalid => none
      | .value n => some n
    let base ← match base with
      | .missing => some defaultBaseBackoff
      | .invalid => none
      | .value q => some q
    let next := match next with
      | .missing | .invalid => none
      | .value t => some t
    return ⟨attempts, base, next⟩

/-- The fields of a stream entry. -/
structure Entry where
  decisionId : String
  channel : String
  error : String
  retryMeta : RetryMeta

/-- The channels that have a notifier. -/
def knownChannel (channel : String) : Bool :=
  channel = "slack" || channel = "discord" || channel = "telegram"

/-- `next_retry_dt > now`. -/
def Retry.early (m : Retry) (now : ℚ) : Bool := m.nextRetry.any (now < ·)

/-- `now + timedelta(seconds=delay)`, which raises outside of the years 1 to 9999. -/
def timeAfter (now delay : ℚ) : Option ℚ :=
  if -62135596800 ≤ now + delay ∧ now + delay < 253402300800 then some (now + delay) else none

/-! ## The stream -/

/-- What the names stand for that the module imports. -/
structure Linked where
  /-- The notifier classes can be constructed from `engine` alone. -/
  constructs : Bool
  /-- `metrics` has a `notifier_requests_total`. -/
  metric : Bool
  /-- `xadd` of the client takes the keyword `max_len`. -/
  maxLen : Bool

/-- The package `alerts/`, whose notifiers ask for a URL or a token as well; `metrics.py`, which has
no such counter; a client that spells the keyword `maxlen`. -/
def Linked.shipped : Linked := ⟨false, false, false⟩

/-- The notifiers of the module `alerts.py`, which the package hides, and what else is relied on. -/
def Linked.working : Linked := ⟨true, true, true⟩

structure Settings where
  linked : Linked
  maxBatch : ℕ
  maxRetries : ℤ
  /-- `DEFAULT_STREAM_TRIM_LEN`. -/
  streamTrimLen : ℕ
  /-- `start_id` of the loop. -/
  startId : ℕ

/-- The stream, the loop's `last_id`, and what has happened to entries: `dispatched` to a notifier
and cut off by the length limit of XADD. -/
structure Poll where
  stream : Log Entry
  lastId : ℕ
  dispatched : List ℕ
  trimmed : List ℕ

namespace Poll

/-- The loop before its first round. -/
def initial (cfg : Settings) (stream : Log Entry) : Poll := ⟨stream, cfg.startId, [], []⟩

variable (cfg : Settings) (p : Poll)

/-- `XADD key fields max_len`. -/
def xadd (entry : Entry) : Poll :=
  let stream := p.stream.append entry
  { p with
    stream := stream.trim cfg.streamTrimLen
    trimmed := p.trimmed ++ (stream.trimmed cfg.streamTrimLen).map (·.id) }

/-- `XDEL key id`. -/
def xdel (id : ℕ) : Poll := { p with stream := p.stream.delete id }

/-- `publish_deadletter` with `next_retry_utc`, or the backoff of `attempts`; an exception, of the
backoff or of a client without the keyword, leaves the stream as it is. -/
def publishDeadletter (now : ℚ) (decisionId channel error : String) (attempts : ℤ) (base : ℚ)
    (nextRetryUtc : Option ℚ) : Poll :=
  match nextRetryUtc.or (timeAfter now (base * 2 ^ (attempts - 1))) with
  | none => p
  | some next =>
    if cfg.linked.maxLen then
      p.xadd cfg ⟨decisionId, channel, error, .object (.value attempts) (.value base) (.value next)⟩
    else p

/-! ## One entry -/

end Poll

/-- The environment of one entry: `ok` and `error` of the notifier's answer, whether XADD and XDEL
go through, and the entries other tasks publish meanwhile. -/
structure Reply where
  now : ℚ
  ok : Bool
  error : Option String := none
  xaddOk : Bool := true
  xdelOk : Bool := true
  published : List Entry := []

namespace Poll

variable (cfg : Settings)

/-- XDEL as `redis_op` runs it: without effect when it raises. -/
def tryXdel (r : Reply) (id : ℕ) (p : Poll) : Poll := if r.xdelOk then p.xdel id else p

/-- The part after the dispatch of an entry with `attempts` attempts before it. An exception on the
way out of here, of the stream, of the backoff or of the metric, reaches the loop, which logs it. -/
def afterDispatch (e : Item Entry) (m : Retry) (r : Reply) (p : Poll) : Poll :=
  if r.ok then p.tryXdel r e.id
  else
    let attempts := m.attempts + 1
    if attempts > cfg.maxRetries then p.tryXdel r e.id
    else match timeAfter r.now (m.baseBackoff * 2 ^ (attempts - 1)) with
      | none => p
      | some next =>
        if cfg.linked.maxLen && r.xaddOk then
          (p.xadd cfg { e.val with
            error := if r.error.getD "" = "" then e.val.error else r.error.getD ""
            retryMeta := .object (.value attempts) (.value m.baseBackoff) (.value next) }).tryXdel
              r e.id
        else p

/-- `_process_deadletter_entry`. -/
def processDeadletterEntry (e : Item Entry) (r : Reply) (p : Poll) : Poll :=
  match e.val.retryMeta.read with
  | none => p
  | some m =>
    if m.early r.now then p
    else if !knownChannel e.val.channel then p
    -- the `TypeError` of the constructor reaches the loop
    else if !cfg.linked.constructs then p
    else
      let p := { p with dispatched := p.dispatched ++ [e.id] }
      let p := r.published.foldl (xadd cfg) p
      p.afterDispatch cfg e m r

/-! ## The loop -/

/-- The loop over the entries of a round, from the `j`-th on. -/
def walk (replies : ℕ → Reply) : ℕ → List (Item Entry) → Poll → Poll
  | _, [], p => p
  | j, e :: es, p =>
    let p := p.processDeadletterEntry cfg e (replies j)
    walk replies (j + 1) es { p with lastId := e.id }

/-- The entries XRANGE returns. -/
def batch (p : Poll) : List (Item Entry) := p.stream.range p.lastId cfg.maxBatch

/-- A round of `poll_deadletter_loop`. -/
def tick (replies : ℕ → Reply) (p : Poll) : Poll := walk cfg replies 0 (p.batch cfg) p

end Poll

/-- What may happen next. -/
inductive Input
  | publish (now : ℚ) (decisionId channel error : String) (attempts : ℤ) (base : ℚ)
      (nextRetryUtc : Option ℚ)
  | tick (replies : ℕ → Reply)
  /-- XRANGE raises, and the round ends. -/
  | tickFails

def step (cfg : Settings) (p : Poll) : Input → Poll
  | .publish now decisionId channel error attempts base nextRetryUtc =>
    p.publishDeadletter cfg now decisionId channel error attempts base nextRetryUtc
  | .tick replies => p.tick cfg replies
  | .tickFails => p

end Deadletter
