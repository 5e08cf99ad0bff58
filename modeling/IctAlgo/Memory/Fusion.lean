import IctAlgo.Memory.AlertStore
import Mathlib.Data.List.Sort

/-!
# Fusion

`on_new_alert` and `fuse` of `memory_service.py`, with `_acquire_lock` and `_release_lock`, for one
symbol. Any number of calls run at once, each by itself a sequence of Redis commands: a step is the
next command of one of them, the arrival of a call, or time that passes at the server. A call starts
with its payload normalized; commands on keys that `fuse` does not read are left out. What it
computes in floats are functions of the windows (`Floats`).
-/

set_option autoImplicit false

namespace Memory.Fusion

open Lib

/-- `TF_ORDER`. -/
def tfOrder : List String := ["D", "H4", "H1", "M15", "M5", "M3"]

/-- `FUSE_TTL`, in milliseconds. -/
def fuseTtl : ℤ := 6 * 3600 * 1000

def lockTtlMs : ℤ := 1000

def lockKey (symbol : String) : String := "lock:fuse:" ++ symbol

def fuseKey (symbol : String) : String := "fuse:" ++ symbol

/-! ## Summaries -/

/-- What a normalized alert holds besides its symbol, timeframe and timestamp. A price is of any
type. -/
structure Body (γ : Type) where
  close : γ
  biasLocal : String := "neutral"
  regime : String := "unknown"
  bos : String := "none"
  sweep : String := "none"
  obCount : ℕ := 0
  imbalanceCount : ℕ := 0
  deriving DecidableEq

/-- `alerts_by_tf`. -/
abbrev Windows (γ : Type) := List (String × List (Alert (Body γ)))

/-- What `summarize_tf` returns. -/
structure Summary (γ ω : Type) where
  tf : String
  lastTs : ℤ
  lastClose : γ
  biasLocal : String
  bos : String
  sweep : String
  obCount : ℕ
  imbalanceCount : ℕ
  regime : String
  windowStats : ω
  deriving DecidableEq

/-- The computations in floats: `window_stats` of the closes of a window and its number of sweeps, and
the scores of a snapshot. -/
structure Floats (γ ω μ : Type) where
  windowStats : List γ → ℕ → ω
  scores : List (Summary γ ω) → Windows γ → μ

/-- The part of a snapshot that depends on the alerts. -/
structure Snapshot (γ ω μ : Type) where
  snapshotTs : ℤ
  tfs : List (Summary γ ω)
  /-- The alignment score, conflicts, cohesion and analytics. -/
  scores : μ
  deriving DecidableEq

/-- `majority`. -/
def majority (items : List String) : String :=
  let top := ((dedupBy id items).map fun item => (item, items.count item)).insertionSort
    fun a b => b.2 ≤ a.2
  match items, top with
  | first :: _, (item, n) :: (_, m) :: _ => if n = m then first else item
  | _, (item, _) :: _ => item
  | _, [] => "neutral"

/-- The latest structure break, unless one of the two before it is another. -/
def bosOf (seq : List String) : String :=
  match seq with
  | [] => "none"
  | bos :: older => if older.any fun b => b ≠ bos ∧ b ≠ "none" then "none" else bos

section
variable {γ ω μ : Type} (floats : Floats γ ω μ)

/-- `summarize_tf`. -/
def summarizeTf (tf : String) (alerts : List (Alert (Body γ))) : Option (Summary γ ω) :=
  match alerts with
  | [] => none
  | latest :: _ => some {
      tf := tf
      lastTs := latest.ts
      lastClose := latest.body.close
      biasLocal := majority ((alerts.take 5).map (·.body.biasLocal))
      bos := bosOf ((alerts.take 3).map (·.body.bos))
      sweep := latest.body.sweep
      obCount := latest.body.obCount
      imbalanceCount := latest.body.imbalanceCount
      regime := latest.body.regime
      windowStats := floats.windowStats (alerts.map (·.body.close))
        (alerts.countP fun a => a.body.sweep ≠ "none") }

def summaries (windows : Windows γ) : List (Summary γ ω) :=
  windows.filterMap fun w => summarizeTf floats w.1 w.2

/-- `last_ts`. -/
def lastTs (tfs : List (Summary γ ω)) : ℤ :=
  tfs.foldl (fun last s => if s.lastTs = 0 then last else max last s.lastTs) 0

/-- The snapshot `fuse` builds when the client's clock reads `nowMs`. -/
def snapshot? (nowMs : ℤ) (windows : Windows γ) : Option (Snapshot γ ω μ) :=
  let tfs := summaries floats windows
  if tfs = [] then none
  else some {
    snapshotTs := if lastTs tfs = 0 then nowMs else lastTs tfs
    tfs := tfs
    scores := floats.scores tfs windows }

end

/-! ## Calls -/

/-- Where a call stands between two of its commands. -/
inductive Phase (γ ω μ : Type)
  /-- Before `store_alert`. -/
  | arrived (alert : Alert (Body γ))
  /-- The alert is stored, the lock not yet tried. -/
  | stored
  /-- The lock was given to the call; it has read `windows` and will read those of `todo`. -/
  | reading (windows : Windows γ) (todo : List String)
  /-- The snapshot is in the cache. -/
  | releasing (snapshot : Snapshot γ ω μ)
  /-- The lock was taken. -/
  | refused
  | returned (snapshot : Option (Snapshot γ ω μ))
  deriving DecidableEq

/-- The server and the calls; the token of a call is its position. -/
structure World (γ ω μ : Type) where
  server : Server (Body γ) := {}
  locks : Keyspace ℕ := .empty
  cache : Keyspace (Snapshot γ ω μ) := .empty
  calls : List (Phase γ ω μ) := []
  clock : ℤ := 0

inductive Event (γ : Type)
  | call (tf : String) (ts : ℤ) (body : Body γ)
  | tick (ms : ℕ)
  /-- The next command of a call, whose client's clock reads `nowMs`. -/
  | command (call : ℕ) (nowMs : ℤ)

namespace World

variable {γ ω μ : Type} (floats : Floats γ ω μ) (symbol : String) (w : World γ ω μ)

/-- What `fetch_window` reads now. -/
def window (tf : String) : List (Alert (Body γ)) := w.server.fetchWindow w.clock symbol tf none

/-- The contents of the ring buffers, as `fuse` reads them. -/
def windows : Windows γ := tfOrder.map fun tf => (tf, w.window symbol tf)

/-- The cached snapshot. -/
def cached : Option (Snapshot γ ω μ) := w.cache.fetch w.clock (fuseKey symbol)

/-- The call goes on. -/
def move (i : ℕ) (phase : Phase γ ω μ) : World γ ω μ := { w with calls := w.calls.set i phase }

/-- `_release_lock`: the lock is deleted by the call whose token it holds. -/
def releaseLock (i : ℕ) : World γ ω μ := { w with
  locks := if w.locks.fetch w.clock (lockKey symbol) = some i then w.locks.delete (lockKey symbol)
    else w.locks }

/-- The next command of the call `i`. -/
def command (i : ℕ) (nowMs : ℤ) : World γ ω μ :=
  match w.calls[i]? with
  | some (.arrived alert) =>
    let r := w.server.storeAlert w.clock alert none
    { w with server := r.2 }.move i (if r.1 then .stored else .returned none)
  | some .stored =>
    let r := w.locks.setNx w.clock (lockKey symbol) i (some (w.clock + lockTtlMs))
    { w with locks := r.2 }.move i (if r.1 then .reading [] tfOrder else .refused)
  | some (.reading windows (tf :: todo)) =>
    w.move i (.reading (windows ++ [(tf, w.window symbol tf)]) todo)
  | some (.reading windows []) =>
    match snapshot? floats nowMs windows with
    -- nothing to cache: the call returns through its `finally`
    | none => (w.releaseLock symbol i).move i (.returned none)
    | some snapshot =>
      { w with
        cache := w.cache.put (fuseKey symbol) snapshot (some (w.clock + fuseTtl)) }.move i
          (.releasing snapshot)
  | some (.releasing snapshot) => (w.releaseLock symbol i).move i (.returned (some snapshot))
  | some .refused => w.move i (.returned (w.cached symbol))
  | some (.returned _) => w
  | none => w

def step : Event γ → World γ ω μ
  | .call tf ts body => { w with calls := w.calls ++ [.arrived ⟨symbol, tf, ts, body⟩] }
  | .tick ms => { w with clock := w.clock + ms }
  | .command i nowMs => w.command floats symbol i nowMs

end World

end Memory.Fusion
