import IctAlgo.Lib.Exn
import IctAlgo.Memory.AlertStore

/-!
# The script behind `store_alert`

`store_alert`, `_get_store_alert_sha` and `_call_redis` of `memory_service.py` with `redis_op` of
`utils/redis_wrapper.py`. Each client process caches the hash of the script. The server may forget
its scripts, and other clients may load this one again, before any command; apart from that Redis
answers every command.
-/

set_option autoImplicit false

namespace Memory

open Lib

inductive RedisError
  /-- `NoScriptError`. -/
  | noScript
  /-- `RedisOpFailed`, with the text of the last error. -/
  | opFailed (last : RedisError)
  deriving DecidableEq

/-- What other clients and restarts do to the scripts of the server. -/
inductive ScriptEvent
  | forget | load
  deriving DecidableEq

/-- The script is there after the event. -/
def ScriptEvent.loaded : ScriptEvent → Bool
  | forget => false
  | load => true

/-- The server and its clients. -/
structure World (β : Type) where
  server : Server β := {}
  /-- The server has the script. -/
  scriptLoaded : Bool := false
  /-- `_STORE_ALERT_SHA` is set in this process. -/
  sha : ℕ → Bool := fun _ => false
  /-- The commands of the running call so far. -/
  commands : ℕ := 0

/-- A call of `store_alert`: the process, the time of its script, and the events before each of its
commands. -/
structure ScriptCall (β : Type) extends Server.Call β where
  process : ℕ
  events : ℕ → List ScriptEvent := fun _ => []

/-- The script is there after these events. -/
def loadedAfter (events : List ScriptEvent) (loaded : Bool) : Bool :=
  events.foldl (fun _ event => event.loaded) loaded

namespace World

variable {β : Type}

abbrev ClientM (β : Type) := EStateM RedisError (World β)

section
variable (call : ScriptCall β)

/-- A command arrives at the server. -/
def arrive : ClientM β Unit := modify fun w => { w with
  scriptLoaded := loadedAfter (call.events w.commands) w.scriptLoaded, commands := w.commands + 1 }

/-- `SCRIPT LOAD`. -/
def scriptLoad : ClientM β Unit := do
  arrive call
  modify fun w => { w with scriptLoaded := true }

/-- `EVALSHA`. -/
def evalsha : ClientM β Bool := do
  arrive call
  let w ← get
  if w.scriptLoaded then
    let r := w.server.storeAlertLua call.now call.alert (capOr call.cap call.alert.tf)
    set { w with server := r.2 }
    pure r.1
  else throw .noScript

/-- `_call_redis`: one more attempt after any exception, and whatever that one raises becomes a
`RedisOpFailed`. -/
def callRedis {α : Type} (op : ClientM β α) : ClientM β α :=
  tryCatch op fun _ => tryCatch op fun err => throw (.opFailed err)

/-- `SCRIPT LOAD`, and the hash is cached. -/
def loadSha : ClientM β Unit := do
  callRedis (scriptLoad call)
  modify fun w => { w with sha := fun p => p = call.process || w.sha p }

/-- `_get_store_alert_sha`: a hash that is cached is not loaded again. -/
def getStoreAlertSha : ClientM β Unit := do
  let w ← get
  if w.sha call.process then pure ()
  else tryCatch (loadSha call) fun _ => loadSha call

/-- The outer `try` of `store_alert`. -/
def runScript : ClientM β Bool := do
  getStoreAlertSha call
  tryCatch (callRedis (evalsha call)) fun
    | .noScript => do
      getStoreAlertSha call
      callRedis (evalsha call)
    | err => throw err

/-- `store_alert`. -/
def storeAlert : ClientM β Bool :=
  if call.alert.symbol = "" ∨ call.alert.tf = "" then pure false
  else tryCatch (runScript call) fun _ => pure false

end

/-- What a call of `store_alert` answers, and the world after it. -/
def call (w : World β) (c : ScriptCall β) : Bool × World β :=
  match (storeAlert c).run { w with commands := 0 } with
  | .ok stored w => (stored, w)
  | .error _ w => (false, w)

/-- The world after a call. -/
def step (w : World β) (c : ScriptCall β) : World β := (w.call c).2

end World

end Memory
