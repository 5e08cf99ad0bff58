import IctAlgo.Lib.Binary64
import IctAlgo.Lib.Dict
import Mathlib.Data.List.Sort

/-!
# Event trackers and cooldowns

`EventTracker`, `EventCorrelationManager` and `CooldownManager` of
`reasoner_service/orchestration_advanced.py`, and `_check_event_constraints` of
`reasoner_service/orchestrator.py`. Each operation holds its manager's lock from start to end, so it is
one step. Its clock readings are arguments, in milliseconds.
-/

set_option autoImplicit false

namespace Orchestrator

open Lib

inductive EventState
  | pending | deferred | escalated | processed | discarded
  deriving DecidableEq, Repr

structure EventTracker where
  correlationId : String
  eventType : String
  state : EventState := .pending
  createdAtMs : ℤ
  statusHistory : List (EventState × ℤ) := []
  reason : Option String := none
  deriving DecidableEq, Repr

/-- `update_state`, at the time `now`. -/
def EventTracker.updateState (tracker : EventTracker) (newState : EventState)
    (reason : Option String) (now : ℤ) : EventTracker := { tracker with
  state := newState, reason := reason, statusHistory := tracker.statusHistory ++ [(newState, now)] }

structure EventCorrelationManager where
  maxTrackedEvents : ℕ := 10000
  events : Dict String EventTracker := .empty
  deriving DecidableEq

namespace EventCorrelationManager

variable (m : EventCorrelationManager)

/-- `int(max_tracked_events * 0.1)`, where the float `0.1` is `3602879701896397 / 2 ^ 55`. `none`:
`OverflowError`. -/
def toRemove : Option ℕ :=
  (Binary64.ofNat? m.maxTrackedEvents).map fun x => Binary64.truncMul x 3602879701896397 55

/-- `sorted_events`. -/
def sortedEvents : List (String × EventTracker) :=
  m.events.items.insertionSort fun x y => x.2.createdAtMs ≤ y.2.createdAtMs

/-- The items the cleanup deletes: none below the limit. -/
def evictees : Option (List (String × EventTracker)) :=
  if m.maxTrackedEvents ≤ m.events.items.length then m.toRemove.map m.sortedEvents.take
  else some []

/-- `create_event_tracker`, at the time `now`. `none`: the cleanup raises. -/
def createEventTracker (correlationId eventType : String) (now : ℤ) :
    Option (EventTracker × EventCorrelationManager) :=
  m.evictees.map fun old =>
    let tracker := { correlationId := correlationId, eventType := eventType, createdAtMs := now }
    (tracker, { m with
      events := (m.events.eraseAll (old.map Prod.fst)).set correlationId tracker })

/-- `update_event_state`, at the time `now`. -/
def updateEventState (correlationId : String) (newState : EventState) (reason : Option String)
    (now : ℤ) : Bool × EventCorrelationManager :=
  match m.events.get? correlationId with
  | some tracker => (true, { m with
      events := m.events.set correlationId (tracker.updateState newState reason now) })
  | none => (false, m)

/-- The calls of a run. -/
inductive Call
  | create (correlationId eventType : String) (now : ℤ)
  | update (correlationId : String) (newState : EventState) (reason : Option String) (now : ℤ)

def Call.now : Call → ℤ
  | create _ _ now => now
  | update _ _ _ now => now

/-- The manager after a call: a call that raises leaves it as it is. -/
def step : Call → EventCorrelationManager
  | .create correlationId eventType now =>
    match m.createEventTracker correlationId eventType now with
    | some (_, m') => m'
    | none => m
  | .update correlationId newState reason now =>
    (m.updateEventState correlationId newState reason now).2

/-- The trackers a call evicts. -/
def evicted : Call → List (String × EventTracker)
  | .create .. => m.evictees.getD []
  | .update .. => []

end EventCorrelationManager

/-! ## Cooldowns and event limits -/

structure CooldownConfig where
  eventType : String
  cooldownMs : ℤ

structure SessionWindow where
  eventType : String
  startHour : ℤ := 0
  endHour : ℤ := 23
  maxEvents : ℤ := 100

/-- `is_active`, at this hour of the day. -/
def SessionWindow.isActive (window : SessionWindow) (hour : ℤ) : Bool :=
  if window.startHour ≤ window.endHour then window.startHour ≤ hour && hour ≤ window.endHour
  else window.startHour ≤ hour || hour ≤ window.endHour

structure CooldownTracker where
  eventType : String
  cooldownUntilMs : ℤ := 0
  eventsInWindow : ℕ := 0
  lastEventTimeMs : ℤ := 0

namespace CooldownTracker

variable (tracker : CooldownTracker)

/-- `is_cooling_down`, at the time `now`. -/
def isCoolingDown (now : ℤ) : Bool := now < tracker.cooldownUntilMs

/-- `reset_window`, at the time `now`. -/
def resetWindow (cfg : CooldownConfig) (now : ℤ) : CooldownTracker := { tracker with
  cooldownUntilMs := now + cfg.cooldownMs, eventsInWindow := 0, lastEventTimeMs := now }

end CooldownTracker

structure CooldownManager where
  cooldowns : Dict String CooldownTracker := .empty
  cooldownConfigs : Dict String CooldownConfig := .empty
  sessionWindows : Dict String SessionWindow := .empty

/-- An incoming event with the readings of the clock: at `check_cooldown`, the hour at
`check_session_window`, and in `record_event` for the last event time, for the test of the cooldown
and for the reset. -/
structure IncomingEvent where
  eventType : String
  checkMs : ℤ
  hour : ℤ
  recordMs : ℤ
  coolingMs : ℤ
  resetMs : ℤ

/-- The answer of `_check_event_constraints`. -/
inductive Verdict
  | allowed
  | cooldownActive (nextAvailableMs : ℤ)
  | outsideSessionWindow
  | eventLimitExceeded
  deriving DecidableEq, Repr

namespace CooldownManager

variable (m : CooldownManager) (eventType : String)

/-- `configure_cooldown`: a tracker that exists goes on. -/
def configureCooldown (cfg : CooldownConfig) : CooldownManager := { m with
  cooldownConfigs := m.cooldownConfigs.set cfg.eventType cfg
  cooldowns := match m.cooldowns.get? cfg.eventType with
    | some _ => m.cooldowns
    | none => m.cooldowns.set cfg.eventType { eventType := cfg.eventType } }

def configureSessionWindow (window : SessionWindow) : CooldownManager :=
  { m with sessionWindows := m.sessionWindows.set window.eventType window }

/-- `check_cooldown`: the end of the cooldown the event type is in. -/
def checkCooldown (now : ℤ) : Option ℤ :=
  match m.cooldowns.get? eventType with
  | none => none
  | some tracker => if tracker.isCoolingDown now then some tracker.cooldownUntilMs else none

def checkSessionWindow (hour : ℤ) : Bool :=
  match m.sessionWindows.get? eventType with
  | none => true
  | some window => window.isActive hour

def checkEventLimit : Bool :=
  match m.sessionWindows.get? eventType, m.cooldowns.get? eventType with
  | some window, some tracker => (tracker.eventsInWindow : ℤ) < window.maxEvents
  | _, _ => true

/-- `_check_event_constraints`. -/
def checkEventConstraints (checkMs hour : ℤ) : Verdict :=
  match m.checkCooldown eventType checkMs with
  | some nextAvailable => .cooldownActive nextAvailable
  | none =>
    if !m.checkSessionWindow eventType hour then .outsideSessionWindow
    else if !m.checkEventLimit eventType then .eventLimitExceeded
    else .allowed

/-- `record_event`: the event is counted, and the window is reset once the cooldown is over. -/
def recordEvent (recordMs coolingMs resetMs : ℤ) : CooldownManager :=
  match m.cooldownConfigs.get? eventType, m.cooldowns.get? eventType with
  | some cfg, some tracker =>
    let tracker := { tracker with
      eventsInWindow := tracker.eventsInWindow + 1, lastEventTimeMs := recordMs }
    let tracker := if !tracker.isCoolingDown coolingMs then tracker.resetWindow cfg resetMs else tracker
    { m with cooldowns := m.cooldowns.set eventType tracker }
  | _, _ => m

/-- The answer for an incoming event. -/
def verdict (ev : IncomingEvent) : Verdict := m.checkEventConstraints ev.eventType ev.checkMs ev.hour

/-- The manager after an incoming event, which is recorded whatever the answer was. -/
def afterEvent (ev : IncomingEvent) : CooldownManager :=
  m.recordEvent ev.eventType ev.recordMs ev.coolingMs ev.resetMs

/-- A new manager with these event types configured. -/
def configured (types : List (CooldownConfig × SessionWindow)) : CooldownManager :=
  types.foldl (fun m t => (m.configureCooldown t.1).configureSessionWindow t.2) {}

end CooldownManager

end Orchestrator
