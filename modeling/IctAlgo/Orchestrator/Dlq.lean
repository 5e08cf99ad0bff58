import Mathlib.Algebra.Order.Ring.Rat
import IctAlgo.Lib.FirstMatch
import IctAlgo.Lib.Runs

/-!
# The decision dead-letter queue

The queue of `reasoner_service/orchestrator.py`: `process_decision`, `publish_to_dlq` and the policy
gate enqueue, `_dlq_retry_once` retries. An entry is a mutable dictionary, so the queue holds
references into a heap, its indices; the Redis list holds serialised copies. A pass is cut at its awaits:
`startPass` takes the snapshot, and each `attempt` processes the next entry of it, so that enqueues
may come in between.

`Cell.born`, `Cell.origin` and `events` record where the entries come from and what became of them;
nothing reads them.
-/

set_option autoImplicit false

namespace Orchestrator

open Lib

/-! ## Data -/

structure DlqEntry (δ : Type) where
  decision : δ
  error : String
  ts : ℤ
  attempts : ℕ
  nextAttemptTs : ℚ
  deriving DecidableEq

/-- An entry in memory, as it is and as it was created; `origin` is the cell of the enqueue it is a
copy of. -/
structure Cell (δ : Type) where
  entry : DlqEntry δ
  born : DlqEntry δ
  origin : ℕ
  deriving DecidableEq

/-- The settings the retry reads. -/
structure DlqSettings where
  dlqBaseDelaySeconds : ℚ := 1
  dlqMaxDelaySeconds : ℚ := 60
  dlqMaxRetries : ℤ := 5
  redisDlqEnabled : Bool := false

namespace DlqSettings

variable (cfg : DlqSettings)

/-- `float(DLQ_BASE_DELAY_SECONDS or 1.0)`. -/
def baseDelay : ℚ := if cfg.dlqBaseDelaySeconds = 0 then 1 else cfg.dlqBaseDelaySeconds

/-- `float(DLQ_MAX_DELAY_SECONDS or 60.0)`. -/
def maxDelay : ℚ := if cfg.dlqMaxDelaySeconds = 0 then 60 else cfg.dlqMaxDelaySeconds

/-- `int(DLQ_MAX_RETRIES or 5)`. -/
def maxRetries : ℤ := if cfg.dlqMaxRetries = 0 then 5 else cfg.dlqMaxRetries

/-- The delay after the `attempts`-th failure. From the power `2 ** 1024` on, its conversion to
float raises `OverflowError`. -/
def retryDelay (attempts : ℕ) : Option ℚ :=
  if 1024 ≤ attempts - 1 then none else some (min cfg.maxDelay (cfg.baseDelay * 2 ^ (attempts - 1)))

/-- The branches on Redis: enabled, with a client at the moment of the test. -/
def redisInUse (connected : Bool) : Bool := cfg.redisDlqEnabled && connected

/-- The same settings with the Redis queue disabled. -/
def inMemory : DlqSettings := { cfg with redisDlqEnabled := false }

@[simp] theorem redisInUse_inMemory (connected : Bool) :
    cfg.inMemory.redisInUse connected = false := rfl

end DlqSettings

/-- A Redis operation answers, raises `RedisUnavailable` or `RedisOpFailed`, or raises something
else. -/
inductive RedisReply
  | ok | failed | raised
  deriving DecidableEq, Repr

inductive Outcome
  | inserted | failed | dropped
  deriving DecidableEq, Repr

/-- What an attempt did with an entry, in the pass that began at `now`. -/
structure DlqEvent where
  ref : ℕ
  now : ℚ
  outcome : Outcome
  deriving DecidableEq

/-- The running pass: its clock reading and the entries it has not come to yet. -/
structure Pass where
  now : ℚ := 0
  pending : List ℕ := []
  deriving DecidableEq

structure Dlq (δ : Type) where
  heap : List (Cell δ) := []
  persistDlq : List ℕ := []
  /-- The Redis list: copies with their origin. `none` is an item that is not valid JSON. -/
  redis : List (Option (ℕ × DlqEntry δ)) := []
  pass : Pass := {}
  events : List DlqEvent := []

namespace Dlq

variable {δ : Type}

/-! ## Enqueueing -/

/-- A new cell; its reference is the length of the heap so far. -/
def alloc (s : Dlq δ) (entry : DlqEntry δ) (origin : ℕ) : Dlq δ :=
  { s with heap := s.heap ++ [⟨entry, entry, origin⟩] }

/-- `self._persist_dlq.append(entry)` of a new entry; all the policy gate does. -/
def append (s : Dlq δ) (entry : DlqEntry δ) : Dlq δ :=
  { s.alloc entry s.heap.length with persistDlq := s.persistDlq ++ [s.heap.length] }

/-- The enqueue of `process_decision`: Redis first, the list if Redis fails. Any other exception
loses the entry. -/
def enqueue (cfg : DlqSettings) (connected : Bool) (reply : RedisReply) (entry : DlqEntry δ)
    (s : Dlq δ) : Dlq δ :=
  if cfg.redisInUse connected then
    match reply with
    | .ok => { s.alloc entry s.heap.length with redis := s.redis ++ [some (s.heap.length, entry)] }
    | .failed => s.append entry
    | .raised => s.alloc entry s.heap.length
  else s.append entry

/-- A queue that holds `entries`. -/
def initial (entries : List (DlqEntry δ)) : Dlq δ :=
  entries.foldl append {}

/-! ## `_dlq_retry_once` -/

/-- Begin a pass at `now`. With Redis in use it takes the head of the Redis list, unless `LPOP`
fails. -/
def startPass (cfg : DlqSettings) (now : ℚ) (connected : Bool) (pop : RedisReply) (s : Dlq δ) :
    Dlq δ :=
  if s.pass.pending ≠ [] then s
  else if cfg.redisInUse connected then
    match pop, s.redis with
    | .raised, _ => s
    | .failed, _ => { s with pass := ⟨now, s.persistDlq⟩ }
    | .ok, [] => s
    | .ok, none :: rest => { s with redis := rest }
    | .ok, some (origin, entry) :: rest =>
      { s.alloc entry origin with redis := rest, pass := ⟨now, [s.heap.length]⟩ }
  else { s with pass := ⟨now, s.persistDlq⟩ }

section
variable [DecidableEq δ]

/-- `q` is the entry `r` or an equal dictionary: what `list.remove` looks for. -/
def sameEntry (heap : List (Cell δ)) (r q : ℕ) : Bool :=
  q = r ∨ heap[q]?.map (·.entry) = heap[r]?.map (·.entry)

/-- `list.remove(entry)`; without a match nothing happens, as its `ValueError` is caught. -/
def remove (s : Dlq δ) (r : ℕ) : Dlq δ :=
  { s with persistDlq := s.persistDlq.eraseP (sameEntry s.heap r) }

end

/-- `q` is the entry `r` or has its `ts`: the slot a failed entry is written to. -/
def sameSlot (heap : List (Cell δ)) (r q : ℕ) : Bool :=
  q = r ∨ heap[q]?.map (·.entry.ts) = heap[r]?.map (·.entry.ts)

/-- Write a failed entry to its slot. -/
def update (s : Dlq δ) (r : ℕ) : Dlq δ :=
  { s with persistDlq := FirstMatch.replaceFirst (sameSlot s.heap r) r s.persistDlq }

def record (s : Dlq δ) (r : ℕ) (outcome : Outcome) : Dlq δ :=
  { s with events := s.events ++ [⟨r, s.pass.now, outcome⟩] }

/-- What the environment does in an attempt: the insert, the state of the Redis client after it and
before the drop, and whether `RPUSH` succeeds. -/
structure Attempt where
  insert : Except String Unit
  connected : Bool := false
  connectedAtDrop : Bool := false
  rpushed : Bool := true

variable [DecidableEq δ] (cfg : DlqSettings) (a : Attempt)

/-- The insert succeeded. -/
def succeed (r : ℕ) (s : Dlq δ) : Dlq δ :=
  let s := s.record r .inserted
  if cfg.redisInUse a.connected then s else s.remove r

/-- The insert of the entry in `c` failed with `err`. -/
def fail (r : ℕ) (c : Cell δ) (err : String) (s : Dlq δ) : Dlq δ :=
  let s := s.record r .failed
  let attempts := c.entry.attempts + 1
  match cfg.retryDelay attempts with
  | none => s
  | some delay =>
    let entry := { c.entry with
      attempts := attempts, error := err, nextAttemptTs := s.pass.now + delay }
    let s := { s with heap := s.heap.set r { c with entry := entry } }
    let s :=
      if cfg.redisInUse a.connected then
        if a.rpushed then { s with redis := s.redis ++ [some (c.origin, entry)] } else s
      else s.update r
    if (attempts : ℤ) ≥ cfg.maxRetries then
      let s := s.record r .dropped
      if cfg.redisInUse a.connectedAtDrop then s else s.remove r
    else s

/-- The loop body of the pass, for the next entry of the snapshot. -/
def attempt (s : Dlq δ) : Dlq δ :=
  match s.pass.pending with
  | [] => s
  | r :: rest =>
    let s := { s with pass := { s.pass with pending := rest } }
    match s.heap[r]? with
    | none => s
    | some c =>
      if c.entry.nextAttemptTs > s.pass.now then s
      else match a.insert with
        | .ok () => s.succeed cfg a r
        | .error err => s.fail cfg a r c err

/-- A step of the queue. -/
inductive Input (δ : Type)
  | append (entry : DlqEntry δ)
  | enqueue (connected : Bool) (reply : RedisReply) (entry : DlqEntry δ)
  | startPass (now : ℚ) (connected : Bool) (pop : RedisReply)
  | attempt (a : Attempt)

def step (s : Dlq δ) : Input δ → Dlq δ
  | .append entry => s.append entry
  | .enqueue connected reply entry => s.enqueue cfg connected reply entry
  | .startPass now connected pop => s.startPass cfg now connected pop
  | .attempt a => s.attempt cfg a

/-- The steps of one `_dlq_retry_once` without Redis that nothing interrupts: an attempt for each
entry of the snapshot. -/
def dlqRetryOnce (now : ℚ) (attempts : List Attempt) : List (Input δ) :=
  .startPass now false .ok :: attempts.map .attempt

end Dlq

end Orchestrator
