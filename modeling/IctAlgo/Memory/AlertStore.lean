import IctAlgo.Lib.Binary64
import IctAlgo.Lib.Keyspace

/-!
# The alert store

`store_alert`, its Lua script and `fetch_window` of `ict_trading_system/backend/memory_service.py`,
over a Redis server. The script and the read of a window are one step each at the server, at a time
of the server's clock. The JSON text of an alert is kept as the alert; what an alert holds besides
its symbol, timeframe and timestamp is of any type `β`.
-/

set_option autoImplicit false

namespace Memory

open Lib

/-- A normalized alert. -/
structure Alert (β : Type) where
  symbol : String
  tf : String
  ts : ℤ
  body : β
  deriving DecidableEq

/-- `WINDOW_CAPS`. -/
def windowCaps : List (String × ℕ) :=
  [("D", 8), ("H4", 12), ("H1", 24), ("M15", 48), ("M5", 80), ("M3", 120)]

/-- `WINDOW_CAPS.get(tf, 50)`. -/
def windowCap (tf : String) : ℕ := (windowCaps.lookup tf).getD 50

/-- `cap or WINDOW_CAPS.get(tf, 50)`. -/
def capOr (cap : Option ℤ) (tf : String) : ℤ :=
  match cap with
  | none => windowCap tf
  | some cap => if cap = 0 then windowCap tf else cap

/-- `RB_TTL`, in milliseconds. -/
def rbTtl : ℤ := 3 * 24 * 3600 * 1000

/-- The part of a key that names the buffer. -/
def bufferName (symbol tf : String) : String := symbol ++ ":" ++ tf

def Alert.buffer {β : Type} (alert : Alert β) : String := bufferName alert.symbol alert.tf

def headKey (buffer : String) : String := "head:" ++ buffer

def rbKey (buffer : String) : String := "rb:" ++ buffer

/-- The keys of the server the store uses. -/
structure Server (β : Type) where
  heads : Keyspace ℤ := .empty
  buffers : Keyspace (List (Alert β)) := .empty
  deriving DecidableEq

namespace Server

variable {β : Type} (s : Server β)

/-- The buffer, newest first. -/
def entries (now : ℤ) (buffer : String) : List (Alert β) :=
  (s.buffers.fetch now (rbKey buffer)).getD []

def head (now : ℤ) (buffer : String) : Option ℤ := s.heads.fetch now (headKey buffer)

/-- `_STORE_ALERT_LUA`, at the time `now`. -/
def storeAlertLua (now : ℤ) (alert : Alert β) (cap : ℤ) : Bool × Server β :=
  let store : Server β := {
    heads := s.heads.put (headKey alert.buffer) alert.ts (some (now + rbTtl))
    buffers := s.buffers.put (rbKey alert.buffer)
      (upTo (alert :: s.entries now alert.buffer) (cap - 1)) (some (now + rbTtl)) }
  match s.head now alert.buffer with
  | none => (true, store)
  | some head =>
    if Binary64.ofInt alert.ts ≤ Binary64.ofInt head then (false, s) else (true, store)

/-- `store_alert`, whose script is run at the time `now`. -/
def storeAlert (now : ℤ) (alert : Alert β) (cap : Option ℤ) : Bool × Server β :=
  if alert.symbol = "" ∨ alert.tf = "" then (false, s)
  else s.storeAlertLua now alert (capOr cap alert.tf)

/-- `fetch_window`, whose range is read at the time `now`. -/
def fetchWindow (now : ℤ) (symbol tf : String) (n : Option ℤ) : List (Alert β) :=
  dedupBy (·.ts) (upTo (s.entries now (bufferName symbol tf)) (capOr n tf - 1))

/-- A call of `store_alert` by any client. -/
structure Call (β : Type) where
  now : ℤ
  alert : Alert β
  cap : Option ℤ := none

/-- The server after a call. -/
def step (call : Call β) : Server β := (s.storeAlert call.now call.alert call.cap).2

end Server

end Memory
