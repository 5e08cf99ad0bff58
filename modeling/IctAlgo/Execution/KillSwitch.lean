import Mathlib.Data.List.Induction
import Mathlib.Data.Rat.Init
import IctAlgo.Lib.Dict

/-!
# Kill switches

`KillSwitchManager` of `reasoner_service/execution_engine.py`: one dictionary of switch states,
keyed by `target or "global"`, shared by the switches of every type. `calls` replays a sequence of
`set_kill_switch` calls on a new manager.

* `getState_calls`: after any calls the state under a key is that of the last call with this key.
* `SwitchedOn`: what the calls ask for, the purpose of the component. Some switch type's last call
  that covers the symbol (it names the symbol, or it is global) turned trading off.
-/

set_option autoImplicit false

namespace Execution

open Lib

/-- `KillSwitchType`. -/
inductive KillSwitchType
  | global | symbolLevel | riskLimit | manual
  deriving DecidableEq, Repr

/-- `KillSwitchState`. -/
inductive KillSwitchState
  | off | warning | active
  deriving DecidableEq, Repr

/-- A `switch_history` item. -/
structure SwitchRecord where
  timestamp : ℚ
  switchType : KillSwitchType
  target : String
  state : KillSwitchState
  reason : Option String
  deriving DecidableEq

structure KillSwitchManager where
  killSwitches : Dict String KillSwitchState
  switchHistory : List SwitchRecord

def KillSwitchManager.new : KillSwitchManager := ⟨.empty, []⟩

/-- `target or "global"`: `None` and the empty string are falsy. -/
def switchKey : Option String → String
  | none => "global"
  | some t => if t = "" then "global" else t

/-- The arguments of a `set_kill_switch` call, with the clock reading its record gets. -/
structure SetKillSwitch where
  switchType : KillSwitchType
  state : KillSwitchState
  target : Option String := none
  reason : Option String := none
  timestamp : ℚ := 0
  deriving DecidableEq

namespace KillSwitchManager

def setKillSwitch (m : KillSwitchManager) (c : SetKillSwitch) : KillSwitchManager where
  killSwitches := m.killSwitches.set (switchKey c.target) c.state
  switchHistory := m.switchHistory ++
    [⟨c.timestamp, c.switchType, switchKey c.target, c.state, c.reason⟩]

def getState (m : KillSwitchManager) (target : Option String := none) : KillSwitchState :=
  m.killSwitches.getD (switchKey target) .off

/-- `ACTIVE` and `WARNING` both stop trading. -/
def isActive (m : KillSwitchManager) (target : Option String := none) : Bool :=
  m.getState target == .active || m.getState target == .warning

/-- The manager after a sequence of calls. -/
def calls (cs : List SetKillSwitch) : KillSwitchManager := cs.foldl setKillSwitch new

theorem calls_concat (cs : List SetKillSwitch) (c : SetKillSwitch) :
    calls (cs ++ [c]) = (calls cs).setKillSwitch c := by
  simp [calls]

theorem isActive_iff (m : KillSwitchManager) (target : Option String) :
    m.isActive target = true ↔ m.getState target ≠ .off := by
  unfold isActive
  cases m.getState target <;> decide

end KillSwitchManager

/-! ## The last call -/

/-- The last call among `cs` that satisfies `p`. -/
def latest (p : SetKillSwitch → Prop) [DecidablePred p] (cs : List SetKillSwitch) :
    Option SetKillSwitch := (cs.filter p).getLast?

section
variable {p : SetKillSwitch → Prop} [DecidablePred p] {cs : List SetKillSwitch} {c : SetKillSwitch}

theorem latest_concat : latest p (cs ++ [c]) = if p c then some c else latest p cs := by
  unfold latest
  rw [List.filter_append]
  by_cases h : p c <;> simp [h]

end

/-- The call sets the key under which `target` is looked up. -/
def SameKey (target : Option String) (c : SetKillSwitch) : Prop :=
  switchKey c.target = switchKey target

instance (target : Option String) : DecidablePred (SameKey target) :=
  fun c => inferInstanceAs (Decidable (switchKey c.target = switchKey target))

/-- **The dictionary holds the last call of each key**, whatever the switch types. -/
theorem getState_calls (cs : List SetKillSwitch) (target : Option String) :
    (KillSwitchManager.calls cs).getState target =
      ((latest (SameKey target) cs).map (·.state)).getD .off := by
  induction cs using List.reverseRecOn with
  | nil => rfl
  | append_singleton cs c ih =>
    rw [KillSwitchManager.calls_concat, latest_concat]
    unfold KillSwitchManager.getState KillSwitchManager.setKillSwitch at *
    by_cases h : SameKey target c
    · have hk : switchKey c.target = switchKey target := h
      simp [h, hk]
    · have hk : switchKey target ≠ switchKey c.target := fun e => h e.symm
      simp only [h, ↓reduceIte]
      rw [Dict.getD_set_ne _ _ _ hk, ih]

/-! ## What the calls ask for -/

/-- The call is about `symbol`: it names it, or it has no target or the target `"global"`. -/
def Covers (symbol : String) (c : SetKillSwitch) : Prop :=
  c.target = some symbol ∨ c.target = none ∨ c.target = some "global"

instance (symbol : String) : DecidablePred (Covers symbol) :=
  fun _ => inferInstanceAs (Decidable (_ ∨ _ ∨ _))

/-- The last call of type `τ` about `symbol` set `ACTIVE` or `WARNING`. -/
def OnFor (τ : KillSwitchType) (symbol : String) (cs : List SetKillSwitch) : Prop :=
  ∃ c, latest (fun c => c.switchType = τ ∧ Covers symbol c) cs = some c ∧ c.state ≠ .off

/-- Some switch type is on for `symbol`. -/
def SwitchedOn (symbol : String) (cs : List SetKillSwitch) : Prop := ∃ τ, OnFor τ symbol cs

/-- The last call with the key of `symbol` itself, of any type, set `ACTIVE` or `WARNING`. -/
def SymbolKeyOn (symbol : String) (cs : List SetKillSwitch) : Prop :=
  ∃ c, latest (SameKey (some symbol)) cs = some c ∧ c.state ≠ .off

/-- `is_active(symbol)` reads the symbol's key only. -/
theorem isActive_calls (cs : List SetKillSwitch) (symbol : String) :
    (KillSwitchManager.calls cs).isActive (some symbol) = true ↔ SymbolKeyOn symbol cs := by
  rw [KillSwitchManager.isActive_iff, getState_calls]
  unfold SymbolKeyOn
  cases latest (SameKey (some symbol)) cs <;> simp

end Execution
