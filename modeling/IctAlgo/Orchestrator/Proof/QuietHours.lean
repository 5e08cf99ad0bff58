import Mathlib.Order.Circular.ZMod
import IctAlgo.Orchestrator.EventTracker
import IctAlgo.Orchestrator.Process
import IctAlgo.Orchestrator.Proof.Gate

/-!
# Windows of the day

A window that may cross midnight is an interval of the circular order of the times of the day
(`Set.cIcc`).

* `inClockWindow_iff`, `isActive_iff`: the windows of the clock are these intervals; a session window
  with one hour for its bounds is that hour only.
* `quietTimes`: the times that are quiet for a setting.
* `notified_iff`: who is notified of a decision at a time of the day.
-/

set_option autoImplicit false

namespace Orchestrator

open Lib

/-! ## Intervals -/

theorem inClockWindow_iff (a b t : ℤ) : inClockWindow a b t = true ↔ t ∈ Set.cIcc a b := by
  rw [Set.mem_cIcc, Int.btw_iff]
  unfold inClockWindow
  split
  · simp only [Bool.and_eq_true, decide_eq_true_eq]
    omega
  · simp only [Bool.or_eq_true, decide_eq_true_eq]
    omega

/-- The session windows differ from the others where the bounds are the same. -/
theorem isActive_iff (w : SessionWindow) (hour : ℤ) :
    w.isActive hour = true ↔
      if w.startHour = w.endHour then hour = w.startHour else hour ∈ Set.cIcc w.startHour w.endHour := by
  rw [Set.mem_cIcc, Int.btw_iff]
  unfold SessionWindow.isActive
  split_ifs
  · simp only [Bool.and_eq_true, decide_eq_true_eq]
    omega
  · simp only [Bool.and_eq_true, decide_eq_true_eq]
    omega
  · omega
  · simp only [Bool.or_eq_true, decide_eq_true_eq]
    omega

/-! ## Quiet times -/

section
variable (cv : Conv)

/-- The times in the window of two texts. -/
def windowTimes (start stop : String) : Set ℤ :=
  {t | ∃ a b, clock? cv start = some a ∧ clock? cv stop = some b ∧ t ∈ Set.cIcc a b}

/-- The times that are quiet for a setting. -/
def quietTimes (q : String) : Set ℤ :=
  {t | q ≠ "" ∧ ∃ start stop rest, q.splitOn "-" = start :: stop :: rest ∧
    t ∈ windowTimes cv (strip start) (strip stop)}

/-- The times at which an override counts. -/
def overrideTimes (override : RoutingOverride) : Set ℤ :=
  {t | override.start ≠ "" ∧ override.stop ≠ "" ∧ t ∈ windowTimes cv override.start override.stop}

theorem windowActive_iff (start stop : String) (t : ℤ) :
    windowActive cv start stop t = true ↔ t ∈ windowTimes cv start stop := by
  unfold windowActive windowTimes
  rw [Set.mem_ofPred_eq]
  cases hstart : clock? cv start with
  | none => simp
  | some a =>
    cases hstop : clock? cv stop with
    | none => simp
    | some b => simp [inClockWindow_iff]

theorem isQuietHours_iff (q : String) (t : ℤ) :
    isQuietHours cv q t = true ↔ t ∈ quietTimes cv q := by
  unfold isQuietHours quietTimes
  rw [Set.mem_ofPred_eq]
  by_cases hq : q = ""
  · simp [hq]
  · rw [if_neg hq]
    split
    · rename_i start stop rest hsplit
      rw [windowActive_iff]
      constructor
      · exact fun h => ⟨hq, start, stop, rest, hsplit, h⟩
      · rintro ⟨-, start', stop', rest', hsplit', h⟩
        rw [hsplit] at hsplit'
        cases hsplit'
        exact h
    · rename_i hsplit
      refine iff_of_false Bool.false_ne_true ?_
      rintro ⟨-, start, stop, rest, hparts, -⟩
      exact hsplit start stop rest hparts

theorem inOverrideWindow_iff (override : RoutingOverride) (t : ℤ) :
    inOverrideWindow cv override t = true ↔ t ∈ overrideTimes cv override := by
  unfold inOverrideWindow overrideTimes
  rw [Set.mem_ofPred_eq, ← windowActive_iff]
  by_cases hstart : override.start = ""
  · simp [hstart]
  · by_cases hstop : override.stop = ""
    · simp [hstop]
    · simp [hstart, hstop]

end

/-! ## Who is notified -/

section
variable {cv : Conv} {cfg : ProcessConfig} {env : ProcessEnv} {persist : Bool}
  {channels : Option (List String)} {d : Fields} {s : Orch} {ch : String}

/-- The effects of a normalized decision. -/
theorem notified_processNormalized_iff :
    Effect.notified ch ∈ (processNormalized cv cfg env persist channels d s).1 ↔
      ∃ routed, channelsOf cfg env channels d = some routed ∧ ch ∈ recipients cfg env d routed := by
  have hpaper : Effect.notified ch ∉ (if entersPaper cv cfg d then [Effect.paperEntry] else []) := by
    split <;> simp
  have hstored (d : Fields) (s : Orch) :
      Effect.notified ch ∉ (if persist then (persistDecision cfg env d s).1 else []) := by
    split
    · unfold persistDecision
      cases env.insert with
      | ok id => simp
      | error err => simp
    · exact List.not_mem_nil
  rw [processNormalized_effects, List.mem_append, List.mem_append]
  cases channelsOf cfg env channels d with
  | none => simp [hpaper, hstored]
  | some routed => simp [hpaper, hstored]

theorem mem_recipients_iff {routed : List String} :
    ch ∈ recipients cfg env d routed ↔
      ch ∈ routed ∧ ch ∈ cfg.notifiers ∧ skips cfg env = false ∧ quietFor env d = false := by
  unfold recipients
  cases hquiet : quietFor env d with
  | true => simp
  | false =>
    cases hskip : skips cfg env with
    | true => simp
    | false => simp

end

/-- **Who is notified.** A decision is sent to a channel exactly if it is routed there, the channel has a
notifier, the decision is no duplicate, and it is urgent or the time is not quiet. An override is looked
at within its window. An event that comes at a quiet time is not looked at, be it urgent or not. -/
theorem notified_iff (cv : Conv) (cfg : ProcessConfig) (q : String) (t : ℤ) :
    (∀ (env : ProcessEnv) (persist : Bool) (channels : Option (List String)) (decision : Payload)
        (s : Orch) (ch : String),
      Effect.notified ch ∈
          (processDecision cv cfg (env.atTime cv q t) persist channels decision s).1 ↔
        ∃ d routed, processed? cv cfg (env.atTime cv q t) decision s = some d ∧
          channelsOf cfg (env.atTime cv q t) channels d = some routed ∧ ch ∈ routed ∧
          ch ∈ cfg.notifiers ∧ skips cfg env = false ∧
          ((val d "urgent").truthy = true ∨ t ∉ quietTimes cv q)) ∧
      (∀ (env : ProcessEnv) (override : RoutingOverride),
        (env.atTime cv q t).inWindow override = true ↔ t ∈ overrideTimes cv override) ∧
      ∀ (env : EventEnv) (event : Event) (s : Orch), t ∈ quietTimes cv q →
        (handleEvent cv cfg (env.atTime cv q t) event s).1 = [] ∧
          (handleEvent cv cfg (env.atTime cv q t) event s).2.2 = s := by
  refine ⟨fun env persist channels decision s ch => ?_,
    fun _ override => inOverrideWindow_iff cv override t, fun env event s ht => ?_⟩
  · unfold processDecision processed?
    dsimp only
    cases cv.normalizeDecision (env.atTime cv q t).now
        (preReasoningPolicyCheck cv cfg.gate (env.atTime cv q t).gate decision s).2.1 with
    | none => simp
    | some d =>
      have hgate (r : GateResult) : Effect.notified ch ≠ .gate r := fun h => (by cases h)
      have hquiet : quietFor (env.atTime cv q t) d = false ↔
          (val d "urgent").truthy = true ∨ t ∉ quietTimes cv q := by
        rw [← isQuietHours_iff]
        unfold quietFor ProcessEnv.atTime
        cases isQuietHours cv q t with
        | false => simp
        | true => simp
      dsimp only
      rw [List.mem_cons, or_iff_right (hgate _), notified_processNormalized_iff]
      simp only [mem_recipients_iff, hquiet, Option.map_some]
      constructor
      · rintro ⟨routed, hrouted, hmem, hnotifier, hskip, htime⟩
        refine ⟨_, routed, rfl, ?_, hmem, hnotifier, hskip, ?_⟩
        · rwa [channelsOf_withShadow]
        · rwa [val_withShadow (by decide)]
      · rintro ⟨d', routed, hd, hrouted, hmem, hnotifier, hskip, htime⟩
        obtain rfl := Option.some.inj hd
        refine ⟨routed, ?_, hmem, hnotifier, hskip, ?_⟩
        · rwa [channelsOf_withShadow] at hrouted
        · rwa [val_withShadow (by decide)] at htime
  · have hrefuses : (refuses (env.atTime cv q t) event).isSome = true := by
      have hquiet : (env.atTime cv q t).quietHours = true := (isQuietHours_iff cv q t).2 ht
      unfold refuses
      split
      · rfl
      · rw [hquiet, if_pos rfl]
        split_ifs <;> rfl
    obtain ⟨refusal, hrefusal⟩ := Option.isSome_iff_exists.1 hrefuses
    unfold handleEvent
    rw [hrefusal]
    exact ⟨rfl, rfl⟩

end Orchestrator
