import IctAlgo.Reports.Proof.LastTimes

/-!
# The answer for a trade with a time

The rules of the day over outcomes that are dictionaries, and what `evaluate_trade` answers.

* `calculateDailyLoss_eq`: the loss is the sum of the day's results; a result that is no number makes
  it zero.
* `evaluateTrade_eq`: where no cooldown leaves the calendar, the answer names the rules that the trade
  violates.
* `evaluateRules_congr`: it depends on six figures.
-/

set_option autoImplicit false

namespace Reports

open Lib Orchestrator

/-- A trade context with a timestamp that can be parsed. -/
structure TimedContext (tx : Texts) where
  fields : Fields
  time : Datetime
  given : (val fields "timestamp").truthy = true
  parsed : tx.datetime? (val fields "timestamp") = some time

/-- The trade as the rules see it. -/
def TimedContext.trade {tx : Texts} (c : TimedContext tx) : Governance.Trade where
  symbol := c.fields.getD "symbol" (.str "UNKNOWN")
  timeframe := c.fields.getD "timeframe" (.str "UNKNOWN")
  time := some c.time

namespace Governance

section
variable (tx : Texts) (cv : Conv) (config : GovernanceConfig) (time : Datetime) (os : List Fields)

/-! ## The rules of the day -/

theorem countDaily_eq (p : Fields → Bool) :
    (registered config os).countDaily tx p (some time) =
      os.countP fun o => sameDay tx time o && p o := by
  unfold countDaily registered addOutcomes
  simp [dicts?_registered]

/-- The results of the day that are numbers. -/
def dayResults : List PyFloat := (os.filter (sameDay tx time)).filterMap (outcomePnl? cv)

/-- All of them are. -/
def AllNumbers : Prop := ∀ o ∈ os, sameDay tx time o = true → (outcomePnl? cv o).isSome = true

variable {tx cv time os}

theorem dailyPnl?_eq (h : AllNumbers tx cv time os) (pnl : PyFloat) :
    dailyPnl? tx cv time pnl os = some ((dayResults tx cv time os).foldl Binary64.add pnl) := by
  unfold AllNumbers at h
  induction os generalizing pnl with
  | nil => rfl
  | cons o os ih =>
    obtain ⟨hnumber, hrest⟩ := List.forall_mem_cons.1 h
    by_cases hday : sameDay tx time o = true
    · obtain ⟨x, hx⟩ := Option.isSome_iff_exists.1 (hnumber hday)
      simp [dailyPnl?, dayResults, hday, hx, ih hrest]
    · simp [dailyPnl?, dayResults, hday, ih hrest]

theorem dailyPnl?_none (h : ¬AllNumbers tx cv time os) (pnl : PyFloat) :
    dailyPnl? tx cv time pnl os = none := by
  unfold AllNumbers at h
  induction os generalizing pnl with
  | nil => exact absurd (fun o ho => absurd ho List.not_mem_nil) h
  | cons o os ih =>
    rw [List.forall_mem_cons, not_and_or] at h
    by_cases hday : sameDay tx time o = true
    · cases hx : outcomePnl? cv o with
      | none => simp [dailyPnl?, hday, hx]
      | some x =>
        obtain h | h := h
        · exact absurd (fun _ => by rw [hx]; rfl) h
        · simp [dailyPnl?, hday, hx, ih h]
    · obtain h | h := h
      · exact absurd (fun h' => absurd h' hday) h
      · simp [dailyPnl?, hday, ih h]

/-- **The loss of the day.** -/
theorem calculateDailyLoss_eq (h : AllNumbers tx cv time os) :
    (registered config os).calculateDailyLoss tx cv (some time) =
      Binary64.total (dayResults tx cv time os) := by
  unfold calculateDailyLoss registered addOutcomes
  simp [dicts?_registered, dailyPnl?_eq h]
  rfl

theorem calculateDailyLoss_zero (h : ¬AllNumbers tx cv time os) :
    (registered config os).calculateDailyLoss tx cv (some time) = .fin 0 := by
  unfold calculateDailyLoss registered addOutcomes
  simp [dicts?_registered, dailyPnl?_none h]

end

/-! ## The answer -/

section
variable (tx : Texts) (cv : Conv)

/-- The rules that the trade violates, in the order in which they are checked. -/
def violated (g : Governance) (t : Trade) : List Rule := Rule.all.filter (g.breaks tx cv t)

theorem mem_violated {g : Governance} {t : Trade} {rule : Rule} :
    rule ∈ violated tx cv g t ↔ g.breaks tx cv t rule = true := by
  have hall : rule ∈ Rule.all := by cases rule <;> decide
  simp [violated, hall]

theorem evaluateTrade_timed (g : Governance) (c : TimedContext tx) :
    g.evaluateTrade tx cv c.fields = g.evaluateRules tx cv c.trade := by
  have hitems : c.fields.items.isEmpty = false := by
    rw [Bool.eq_false_iff]
    intro hempty
    have hgiven := c.given
    simp [val, Dict.getD, Dict.get?, List.isEmpty_iff.1 hempty, Value.truthy] at hgiven
  unfold evaluateTrade
  simp only [hitems, c.given, Bool.not_true, Bool.false_eq_true, ↓reduceIte]
  split
  · rename_i hnone
    rw [c.parsed] at hnone
    cases hnone
  · rw [c.parsed]
    rfl

/-- **The answer** names the rules that the trade violates. -/
theorem evaluateTrade_eq (config : GovernanceConfig) (c : TimedContext tx) {os : List Fields}
    (h : InCalendar tx config c.time os) :
    (registered config os).evaluateTrade tx cv c.fields =
      ⟨(violated tx cv (registered config os) c.trade).isEmpty,
        (violated tx cv (registered config os) c.trade).map
          ((registered config os).message tx cv c.trade)⟩ := by
  have hleft : ((registered config os).cooldownLeft? tx c.trade).isNone = false := by
    unfold TimedContext.trade
    rw [cooldownLeft?_eq config _ _ h]
    rfl
  rw [evaluateTrade_timed]
  unfold evaluateRules
  simp [hleft, violated]

/-- The figures on which the answer depends. -/
theorem evaluateRules_congr {g g' : Governance} {t : Trade} (hconfig : g.config = g'.config)
    (hcount : ∀ p, g.countDaily tx p t.time = g'.countDaily tx p t.time)
    (hloss : g.calculateDailyLoss tx cv t.time = g'.calculateDailyLoss tx cv t.time)
    (hleft : g.cooldownLeft? tx t = g'.cooldownLeft? tx t)
    (hsince : g.sinceLastTrade tx t = g'.sinceLastTrade tx t) :
    g.evaluateRules tx cv t = g'.evaluateRules tx cv t := by
  have htrades : g.countDailyTrades tx t.time = g'.countDailyTrades tx t.time := hcount _
  have hsymbol (symbol : Value) :
      g.countDailySymbolTrades tx symbol t.time = g'.countDailySymbolTrades tx symbol t.time := hcount _
  have htimeframe (timeframe : Value) : g.countDailyTimeframeTrades tx timeframe t.time =
      g'.countDailyTimeframeTrades tx timeframe t.time := hcount _
  have hbreaks : g.breaks tx cv t = g'.breaks tx cv t := by
    funext rule
    cases rule with
    | dailyTrades => rw [breaks, breaks, hconfig, htrades]
    | dailyLoss => rw [breaks, breaks, hconfig, hloss]
    | killzone => rw [breaks, breaks, isInKillzone, isInKillzone, hconfig]
    | cooldown => rw [breaks, breaks, hleft]
    | symbolTrades => rw [breaks, breaks, hconfig, hsymbol]
    | timeframeTrades => rw [breaks, breaks, hconfig, htimeframe]
    | spacing => rw [breaks, breaks, hconfig, hsince]
  have hmessage : g.message tx cv t = g'.message tx cv t := by
    funext rule
    delta message
    cases rule with
    | dailyTrades => dsimp only; rw [htrades]
    | dailyLoss => dsimp only; rw [hloss]
    | killzone => rfl
    | cooldown => dsimp only; rw [hleft]
    | symbolTrades => dsimp only; rw [hsymbol]
    | timeframeTrades => dsimp only; rw [htimeframe]
    | spacing => dsimp only; rw [hconfig, hsince]
  unfold evaluateRules
  rw [hbreaks, hmessage, hleft]

end

end Governance

end Reports
