import Mathlib.Logic.Function.Basic
import IctAlgo.Lib.Runs
import IctAlgo.Orchestrator.EventTracker

/-!
# The event limit

A window of an event type goes from one reset of its tracker to the next, and the event whose record
resets it is its last. `watch` keeps the events admitted in the current window beside the manager;
the tracker counts the recorded ones, the refused included.

* `Counted`: no more events are admitted in a window than recorded.
* `Counted.binds`: so the limit holds, and it refuses rightly an event that finds room for it.
* `eventLimit_binds_iff`: the same for runs, and exactly in these when the clock is not set back
  between the check and the record of an event.
-/

set_option autoImplicit false

namespace Orchestrator

open Lib

namespace CooldownManager

variable {m : CooldownManager} {ev : IncomingEvent} {eventType : String}

/-- The record of this event resets the window. -/
def resets (m : CooldownManager) (ev : IncomingEvent) : Bool :=
  match m.cooldownConfigs.get? ev.eventType, m.cooldowns.get? ev.eventType with
  | some _, some tracker => !tracker.isCoolingDown ev.coolingMs
  | _, _ => false

/-- The types with a cooldown are those with a tracker. -/
def Tracked (m : CooldownManager) : Prop :=
  ∀ eventType, (m.cooldownConfigs.get? eventType).isSome = (m.cooldowns.get? eventType).isSome

theorem tracked_configured (types : List (CooldownConfig × SessionWindow)) :
    (configured types).Tracked := by
  have hfold (m : CooldownManager) (hm : m.Tracked) :
      (types.foldl (fun m t => (m.configureCooldown t.1).configureSessionWindow t.2) m).Tracked := by
    induction types generalizing m with
    | nil => exact hm
    | cons t types ih =>
      refine ih _ fun eventType => ?_
      simp only [configureSessionWindow, configureCooldown]
      by_cases heq : eventType = t.1.eventType
      · subst heq
        rw [Dict.get?_set_self]
        split
        · rename_i h
          rw [h]
          rfl
        · rw [Dict.get?_set_self]
          rfl
      · rw [Dict.get?_set_ne _ _ heq]
        split
        · exact hm eventType
        · rw [Dict.get?_set_ne _ _ heq]
          exact hm eventType
  exact hfold {} fun _ => rfl

/-- The answer for a type with a tracker and a window. -/
theorem verdict_eq {tracker : CooldownTracker} {window : SessionWindow}
    (ht : m.cooldowns.get? ev.eventType = some tracker)
    (hw : m.sessionWindows.get? ev.eventType = some window) :
    m.verdict ev =
      if tracker.isCoolingDown ev.checkMs then .cooldownActive tracker.cooldownUntilMs
      else if !window.isActive ev.hour then .outsideSessionWindow
      else if (tracker.eventsInWindow : ℤ) < window.maxEvents then .allowed
      else .eventLimitExceeded := by
  simp only [verdict, checkEventConstraints, checkCooldown, checkSessionWindow, checkEventLimit, ht, hw]
  cases tracker.isCoolingDown ev.checkMs with
  | true => rfl
  | false =>
    cases window.isActive ev.hour with
    | false => rfl
    | true =>
      by_cases hroom : (tracker.eventsInWindow : ℤ) < window.maxEvents
      · simp [hroom]
      · simp [hroom]

theorem afterEvent_configs (m : CooldownManager) (ev : IncomingEvent) :
    (m.afterEvent ev).cooldownConfigs = m.cooldownConfigs := by
  unfold afterEvent recordEvent
  split
  · rfl
  · rfl

theorem afterEvent_get?_ne (h : eventType ≠ ev.eventType) :
    (m.afterEvent ev).cooldowns.get? eventType = m.cooldowns.get? eventType := by
  unfold afterEvent recordEvent
  split
  · exact Dict.get?_set_ne _ _ h
  · rfl

/-- The tracker of a recorded event. -/
theorem afterEvent_get?_self {cfg : CooldownConfig} {tracker : CooldownTracker}
    (hc : m.cooldownConfigs.get? ev.eventType = some cfg)
    (ht : m.cooldowns.get? ev.eventType = some tracker) :
    ∃ tracker', (m.afterEvent ev).cooldowns.get? ev.eventType = some tracker' ∧
      tracker'.eventsInWindow = if m.resets ev then 0 else tracker.eventsInWindow + 1 := by
  simp only [afterEvent, recordEvent, resets, hc, ht, Dict.get?_set_self, Option.some.injEq,
    exists_eq_left']
  split
  · rename_i h
    rw [if_pos (by exact h)]
    rfl
  · rename_i h
    rw [if_neg (by exact h)]

theorem Tracked.afterEvent (h : m.Tracked) (ev : IncomingEvent) : (m.afterEvent ev).Tracked := by
  intro eventType
  rw [afterEvent_configs]
  by_cases heq : eventType = ev.eventType
  · subst heq
    cases hc : m.cooldownConfigs.get? ev.eventType with
    | none =>
      have hnone : m.cooldowns.get? ev.eventType = none := by
        have hsome := h ev.eventType
        rw [hc] at hsome
        exact Option.isNone_iff_eq_none.1 (by simpa using hsome)
      have hself : m.afterEvent ev = m := by simp only [CooldownManager.afterEvent, recordEvent, hc]
      rw [hself, hnone]
      rfl
    | some cfg =>
      obtain ⟨tracker, ht⟩ := Option.isSome_iff_exists.1 ((h ev.eventType).symm.trans (by rw [hc]; rfl))
      obtain ⟨tracker', ht', -⟩ := afterEvent_get?_self hc ht
      rw [ht']
      rfl
  · rw [afterEvent_get?_ne heq]
    exact h eventType

end CooldownManager

/-! ## Windows -/

/-- A manager with the events admitted in the current window of each type. -/
structure Watched where
  manager : CooldownManager
  admitted : String → ℕ := fun _ => 0

namespace Watched

/-- An incoming event. -/
def watch (s : Watched) (ev : IncomingEvent) : Watched where
  manager := s.manager.afterEvent ev
  admitted := Function.update s.admitted ev.eventType <|
    if s.manager.resets ev then 0
    else s.admitted ev.eventType + if s.manager.verdict ev = .allowed then 1 else 0

/-- The limit of the event's type, if it has a cooldown and a session window, binds: an admitted
event is within the limit, and the limit refuses no event before it is reached. -/
def Binds (s : Watched) (ev : IncomingEvent) : Prop :=
  ∀ cfg window, s.manager.cooldownConfigs.get? ev.eventType = some cfg →
    s.manager.sessionWindows.get? ev.eventType = some window →
      (s.manager.verdict ev = .allowed → (s.admitted ev.eventType : ℤ) + 1 ≤ window.maxEvents) ∧
      (s.manager.verdict ev = .eventLimitExceeded →
        window.maxEvents ≤ s.admitted ev.eventType)

/-- An event that is past the cooldown and in the session finds the recorded events of its window
below the limit, or no event is allowed at all. -/
def FindsRoom (s : Watched) (ev : IncomingEvent) : Prop :=
  ∀ tracker window, s.manager.cooldowns.get? ev.eventType = some tracker →
    s.manager.sessionWindows.get? ev.eventType = some window →
      tracker.isCoolingDown ev.checkMs = false → window.isActive ev.hour = true →
        (tracker.eventsInWindow : ℤ) < window.maxEvents ∨ window.maxEvents ≤ 0

/-- No more events are admitted in a window than recorded. -/
structure Counted (s : Watched) : Prop where
  tracked : s.manager.Tracked
  le : ∀ eventType tracker, s.manager.cooldowns.get? eventType = some tracker →
    s.admitted eventType ≤ tracker.eventsInWindow

variable {s : Watched} {ev : IncomingEvent}

theorem Counted.watch (h : Counted s) (ev : IncomingEvent) : Counted (s.watch ev) where
  tracked := h.tracked.afterEvent ev
  le eventType tracker' ht' := by
    simp only [Watched.watch] at ht' ⊢
    by_cases heq : eventType = ev.eventType
    · subst heq
      rw [Function.update_self]
      have hsome := h.tracked.afterEvent ev ev.eventType
      rw [ht', CooldownManager.afterEvent_configs] at hsome
      obtain ⟨cfg, hc⟩ := Option.isSome_iff_exists.1 hsome
      obtain ⟨tracker, ht⟩ := Option.isSome_iff_exists.1
        ((h.tracked ev.eventType).symm.trans (by rw [hc]; rfl))
      obtain ⟨tracker'', ht'', hcount⟩ := CooldownManager.afterEvent_get?_self hc ht
      obtain rfl : tracker' = tracker'' := Option.some.inj (ht'.symm.trans ht'')
      have hle := h.le ev.eventType tracker ht
      rw [hcount]
      split
      · exact le_rfl
      · split
        · omega
        · omega
    · rw [Function.update_of_ne heq]
      rw [CooldownManager.afterEvent_get?_ne heq] at ht'
      exact h.le eventType tracker' ht'

/-- The limit holds in any case. It refuses rightly an event that finds room. -/
theorem Counted.binds (h : Counted s) (hfinds : FindsRoom s ev) : Binds s ev := by
  intro cfg window hc hw
  obtain ⟨tracker, ht⟩ := Option.isSome_iff_exists.1
    ((h.tracked ev.eventType).symm.trans (by rw [hc]; rfl))
  have hle := h.le ev.eventType tracker ht
  rw [CooldownManager.verdict_eq ht hw]
  refine ⟨fun hallowed => ?_, fun hrefused => ?_⟩
  · split_ifs at hallowed with hcool hactive hroom
    omega
  · split_ifs at hrefused with hcool hactive hroom
    have hactive' : window.isActive ev.hour = true := by simpa using hactive
    rcases hfinds tracker window ht hw (Bool.eq_false_iff.2 hcool) hactive' with hlt | hzero
    · exact absurd hlt hroom
    · omega

/-! ### Ordered readings -/

/-- The clock is not set back between the check and the record of the event. -/
def Ordered (_ : Watched) (ev : IncomingEvent) : Prop := ev.checkMs ≤ ev.coolingMs

/-- No event is admitted in the current window of a type with a cooldown. -/
structure Fresh (s : Watched) : Prop extends Counted s where
  admitted : ∀ eventType, (s.manager.cooldownConfigs.get? eventType).isSome = true →
    s.admitted eventType = 0

/-- An admitted event resets its window. -/
theorem Fresh.watch (h : Fresh s) (hordered : Ordered s ev) : Fresh (s.watch ev) where
  toCounted := h.toCounted.watch ev
  admitted eventType hc := by
    simp only [Watched.watch] at hc ⊢
    rw [CooldownManager.afterEvent_configs] at hc
    by_cases heq : eventType = ev.eventType
    · subst heq
      rw [Function.update_self, h.admitted _ hc]
      obtain ⟨cfg, hcfg⟩ := Option.isSome_iff_exists.1 hc
      obtain ⟨tracker, ht⟩ := Option.isSome_iff_exists.1 ((h.tracked ev.eventType).symm.trans hc)
      split
      · rfl
      · rename_i hreset
        have hcooling : tracker.isCoolingDown ev.coolingMs = true := by
          simpa [CooldownManager.resets, hcfg, ht] using hreset
        have hcheck : tracker.isCoolingDown ev.checkMs = true := by
          unfold CooldownTracker.isCoolingDown at *
          have hle : ev.checkMs ≤ ev.coolingMs := hordered
          have hlt := of_decide_eq_true hcooling
          exact decide_eq_true (by omega)
        have hverdict : s.manager.verdict ev = .cooldownActive tracker.cooldownUntilMs := by
          simp [CooldownManager.verdict, CooldownManager.checkEventConstraints,
            CooldownManager.checkCooldown, ht, hcheck]
        rw [hverdict]
        rfl
    · rw [Function.update_of_ne heq]
      exact h.admitted eventType hc

/-- With ordered readings the limit refuses wrongly every event that finds no room. -/
theorem Fresh.binds_iff (h : Fresh s) : Binds s ev ↔ FindsRoom s ev := by
  refine ⟨fun hb tracker window ht hw hcool hactive => ?_, h.toCounted.binds⟩
  have hc := (h.tracked ev.eventType).trans (by rw [ht, Option.isSome_some])
  obtain ⟨cfg, hcfg⟩ := Option.isSome_iff_exists.1 hc
  by_contra hfull
  obtain ⟨hfull, hpos⟩ := not_or.1 hfull
  have hverdict : s.manager.verdict ev = .eventLimitExceeded := by
    rw [CooldownManager.verdict_eq ht hw]
    simp [hcool, hactive, hfull]
  have hmax := (hb cfg window hcfg hw).2 hverdict
  rw [h.admitted _ hc] at hmax
  exact hpos hmax

/-! ## Runs -/

/-- A manager with these types configured, before the first event. -/
def start (types : List (CooldownConfig × SessionWindow)) : Watched :=
  { manager := .configured types }

theorem fresh_start (types : List (CooldownConfig × SessionWindow)) : Fresh (start types) where
  tracked := CooldownManager.tracked_configured types
  le _ _ _ := Nat.zero_le _
  admitted _ _ := rfl

/-- **The event limit binds** in the runs whose events find room when they are past the cooldown and
in the session; and in no others, when the readings of each event are ordered. -/
theorem eventLimit_binds_iff (types : List (CooldownConfig × SessionWindow))
    (events : List IncomingEvent) :
    (Runs.Within watch FindsRoom (start types) events →
      Runs.Within watch Binds (start types) events) ∧
    (Runs.Within watch Ordered (start types) events →
      (Runs.Within watch Binds (start types) events ↔
        Runs.Within watch FindsRoom (start types) events)) := by
  have henough (h : Runs.Within watch FindsRoom (start types) events) :
      Runs.Within watch Binds (start types) events :=
    h.imp (fresh_start types).toCounted (fun _ ev hs _ => hs.watch ev) fun _ _ hs => hs.binds
  refine ⟨henough, fun hordered => ⟨fun h => ?_, henough⟩⟩
  exact (Runs.within_and.2 ⟨hordered, h⟩).imp (I := Fresh) (fresh_start types)
    (fun _ _ hs ho => hs.watch ho.1) fun _ _ hs ho => hs.binds_iff.1 ho.2

/-- A cooldown of five seconds and at most two events. -/
def twoPerWindow : List (CooldownConfig × SessionWindow) :=
  [({ eventType := "decision", cooldownMs := 5000 }, { eventType := "decision", maxEvents := 2 })]

/-- An event at this time, at noon. -/
def eventAt (ms : ℤ) : IncomingEvent := ⟨"decision", ms, 12, ms, ms, ms⟩

/-- Of events at 0, 1, 2 and 6 seconds the first is admitted, the next two are refused in the
cooldown, and the last is refused by the limit of two. -/
theorem refusedEvents_counted :
    (let s := Runs.run watch (start twoPerWindow) [eventAt 0, eventAt 1000, eventAt 2000]
     s.manager.verdict (eventAt 6000) = .eventLimitExceeded ∧ s.admitted "decision" = 0) ∧
    ¬ Runs.Within watch Binds (start twoPerWindow)
      [eventAt 0, eventAt 1000, eventAt 2000, eventAt 6000] := by
  have hlast : (let s := Runs.run watch (start twoPerWindow) [eventAt 0, eventAt 1000, eventAt 2000]
      s.manager.verdict (eventAt 6000) = .eventLimitExceeded ∧ s.admitted "decision" = 0) := by
    decide +kernel
  refine ⟨hlast, fun h => ?_⟩
  obtain ⟨-, -, -, h, -⟩ := h
  have hmax := (h { eventType := "decision", cooldownMs := 5000 }
    { eventType := "decision", maxEvents := 2 } rfl rfl).2 hlast.1
  revert hmax
  decide +kernel

end Watched

end Orchestrator
