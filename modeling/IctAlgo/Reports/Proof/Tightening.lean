import IctAlgo.Reports.Proof.Answers

/-!
# Limits that do not relax

What one more losing outcome, or another order of the outcomes, does to the violated rules.

* `breaks_insert`: a violated rule stays so. For the cooldown and the spacing the added time must
  compare to the trade's, for the daily loss the added result must fit into a float.
* `evaluateTrade_perm`: the answer does not depend on the order as long as the day's results add up
  without rounding; `breaks_perm`: for the other rules they need not.
* `limits_never_relax`: both, about `evaluate_trade`.
-/

set_option autoImplicit false

namespace Reports

open Lib Orchestrator

namespace Governance

section
variable {tx : Texts} {cv : Conv} {config : GovernanceConfig} {time : Datetime}
variable {os os' before after : List Fields} {o : Fields}

/-! ## The order of the outcomes -/

theorem forall_perm (hp : os.Perm os') (p : Fields → Prop) : (∀ o ∈ os, p o) ↔ ∀ o ∈ os', p o :=
  forall_congr' fun _ => imp_congr_left hp.mem_iff

theorem mem_countedInstants_perm (hp : os.Perm os') (counts? : Fields → Option Bool) (i : ℤ) :
    i ∈ countedInstants tx counts? time os ↔ i ∈ countedInstants tx counts? time os' :=
  ((hp.filterMap _).map _).mem_iff

theorem InCalendar.perm (hp : os.Perm os') (h : InCalendar tx config time os) :
    InCalendar tx config time os' :=
  (forall_perm hp _).1 h

theorem lastTime_perm (hp : os.Perm os') (counts? : Fields → Option Bool) :
    ((registered config os).lastTime tx counts? (some time)).map (·.instant) =
      ((registered config os').lastTime tx counts? (some time)).map (·.instant) :=
  lastTime_congr (forall_perm hp _) (mem_countedInstants_perm hp counts?)

theorem cooldownLeft?_perm (hp : os.Perm os') (h : InCalendar tx config time os)
    (symbol timeframe : Value) :
    (registered config os).cooldownLeft? tx ⟨symbol, timeframe, some time⟩ =
      (registered config os').cooldownLeft? tx ⟨symbol, timeframe, some time⟩ := by
  rw [cooldownLeft?_eq config symbol timeframe h, cooldownLeft?_eq config symbol timeframe (h.perm hp),
    findLastLossTime, findLastLossTime, lastTime_perm hp]

theorem sinceLastTrade_perm (hp : os.Perm os') (symbol timeframe : Value) :
    (registered config os).sinceLastTrade tx ⟨symbol, timeframe, some time⟩ =
      (registered config os').sinceLastTrade tx ⟨symbol, timeframe, some time⟩ := by
  rw [sinceLastTrade_eq, sinceLastTrade_eq, findLastTradeTime, findLastTradeTime, lastTime_perm hp]

theorem countDaily_perm (hp : os.Perm os') (p : Fields → Bool) :
    (registered config os).countDaily tx p (some time) =
      (registered config os').countDaily tx p (some time) := by
  rw [countDaily_eq, countDaily_eq, hp.countP_eq]

theorem dayResults_perm (hp : os.Perm os') :
    (dayResults tx cv time os).Perm (dayResults tx cv time os') :=
  (hp.filter _).filterMap _

theorem calculateDailyLoss_perm (hp : os.Perm os')
    (h : Binary64.Unrounded (dayResults tx cv time os)) :
    (registered config os).calculateDailyLoss tx cv (some time) =
      (registered config os').calculateDailyLoss tx cv (some time) := by
  have hall : AllNumbers tx cv time os ↔ AllNumbers tx cv time os' := forall_perm hp _
  by_cases hnumbers : AllNumbers tx cv time os
  · rw [calculateDailyLoss_eq config hnumbers, calculateDailyLoss_eq config (hall.1 hnumbers)]
    exact Binary64.total_perm (dayResults_perm hp) h
  · rw [calculateDailyLoss_zero config hnumbers, calculateDailyLoss_zero config (mt hall.2 hnumbers)]

/-- The rules that add up no results do not depend on the order. -/
theorem breaks_perm (hp : os.Perm os') (h : InCalendar tx config time os) (symbol timeframe : Value)
    {rule : Rule} (hrule : rule ≠ .dailyLoss) :
    (registered config os).breaks tx cv ⟨symbol, timeframe, some time⟩ rule =
      (registered config os').breaks tx cv ⟨symbol, timeframe, some time⟩ rule := by
  cases rule with
  | dailyTrades => rw [breaks, breaks, countDailyTrades, countDailyTrades, countDaily_perm hp]; rfl
  | dailyLoss => exact absurd rfl hrule
  | killzone => rfl
  | cooldown => rw [breaks, breaks, cooldownLeft?_perm hp h]
  | symbolTrades =>
    rw [breaks, breaks, countDailySymbolTrades, countDailySymbolTrades, countDaily_perm hp]; rfl
  | timeframeTrades =>
    rw [breaks, breaks, countDailyTimeframeTrades, countDailyTimeframeTrades, countDaily_perm hp]; rfl
  | spacing => rw [breaks, breaks, sinceLastTrade_perm hp]; rfl

/-- **The answer** does not depend on the order, as long as nothing is rounded. -/
theorem evaluateTrade_perm (c : TimedContext tx) (hp : os.Perm os')
    (h : InCalendar tx config c.time os) (hun : Binary64.Unrounded (dayResults tx cv c.time os)) :
    (registered config os).evaluateTrade tx cv c.fields =
      (registered config os').evaluateTrade tx cv c.fields := by
  rw [evaluateTrade_timed, evaluateTrade_timed]
  exact evaluateRules_congr tx cv rfl (countDaily_perm hp) (calculateDailyLoss_perm hp hun)
    (cooldownLeft?_perm hp h _ _) (sinceLastTrade_perm hp _ _)

/-! ## One more losing outcome -/

/-- A losing outcome whose time and result the rules can use: the time compares to the trade's, and the
result fits into a float. -/
def Usable (tx : Texts) (cv : Conv) (time : Datetime) (o : Fields) : Rule → Prop
  | .cooldown | .spacing => ∃ u, outcomeTime tx o = some u ∧ u.aware = time.aware
  | .dailyLoss => (outcomePnl? cv o).isSome = true
  | _ => True

theorem sublist_insert (before after : List Fields) (o : Fields) :
    (before ++ after).Sublist (before ++ o :: after) :=
  (List.sublist_cons_self o after).append_left before

theorem InCalendar.of_insert (h : InCalendar tx config time (before ++ o :: after)) :
    InCalendar tx config time (before ++ after) :=
  fun o' ho' => h o' ((sublist_insert before after o).subset ho')

theorem forall_insert {p : Fields → Prop} (h : ∀ o' ∈ before ++ after, p o') (ho : p o) :
    ∀ o' ∈ before ++ o :: after, p o' := by
  simp only [List.mem_append, List.mem_cons] at h ⊢
  rintro o' (ho' | rfl | ho')
  · exact h o' (.inl ho')
  · exact ho
  · exact h o' (.inr ho')

theorem countedInstants_insert {counts? : Fields → Option Bool} {i : ℤ}
    (h : i ∈ countedInstants tx counts? time (before ++ after)) :
    i ∈ countedInstants tx counts? time (before ++ o :: after) := by
  obtain ⟨o', ho', hu⟩ := mem_countedInstants.1 h
  exact mem_countedInstants.2 ⟨o', (sublist_insert before after o).subset ho', hu⟩

theorem clear_of_time {counts? : Fields → Option Bool} {u : Datetime} (hu : outcomeTime tx o = some u)
    (haware : u.aware = time.aware) (hcounts : (counts? o).isSome = true) :
    Clear tx counts? time o := by
  intro u' hu'
  rw [hu] at hu'
  obtain rfl := Option.some.inj hu'
  exact ⟨haware, fun _ => hcounts⟩

theorem countDaily_insert (p : Fields → Bool) :
    (registered config (before ++ after)).countDaily tx p (some time) ≤
      (registered config (before ++ o :: after)).countDaily tx p (some time) := by
  rw [countDaily_eq, countDaily_eq]
  exact (sublist_insert before after o).countP_le

/-- The result of a loss is not positive. -/
theorem outcomePnl?_nonpos {x : PyFloat} (hloss : isLoss? o = some true)
    (hx : outcomePnl? cv o = some x) : x.le (.fin 0) = true := by
  unfold isLoss? at hloss
  unfold outcomePnl? at hx
  cases hv : o.getD "pnl" (.float (.fin 0)) with
  | int n =>
    rw [hv] at hloss hx
    have hn : n < 0 := of_decide_eq_true (Option.some.inj hloss)
    exact Binary64.floatOfInt?_nonpos hx hn.le
  | float y =>
    rw [hv] at hloss hx
    obtain rfl := Option.some.inj hx
    unfold PyFloat.le
    have hlt : y.lt (.fin 0) = true := Option.some.inj hloss
    cases y with
    | fin q => exact decide_eq_true (of_decide_eq_true hlt).le
    | _ => exact hlt
  | _ =>
    rw [hv] at hloss
    cases hloss

/-- The daily loss limit stays exceeded. -/
theorem calculateDailyLoss_insert {q : ℚ} (hloss : isLoss? o = some true)
    (hfits : (outcomePnl? cv o).isSome = true)
    (h : ((registered config (before ++ after)).calculateDailyLoss tx cv (some time)).le (.fin q)) :
    ((registered config (before ++ o :: after)).calculateDailyLoss tx cv (some time)).le (.fin q) := by
  obtain ⟨x, hx⟩ := Option.isSome_iff_exists.1 hfits
  by_cases hnumbers : AllNumbers tx cv time (before ++ after)
  · have hnumbers' : AllNumbers tx cv time (before ++ o :: after) :=
      forall_insert hnumbers fun _ => hfits
    rw [calculateDailyLoss_eq config hnumbers] at h
    rw [calculateDailyLoss_eq config hnumbers']
    unfold dayResults at h ⊢
    rw [List.filter_append, List.filterMap_append] at h ⊢
    by_cases hday : sameDay tx time o = true
    · rw [List.filter_cons_of_pos hday, List.filterMap_cons_some hx]
      exact Binary64.total_insert_le (outcomePnl?_nonpos hloss hx) h
    · rw [List.filter_cons_of_neg hday]
      exact h
  · have hnumbers' : ¬AllNumbers tx cv time (before ++ o :: after) := fun h' =>
      hnumbers fun o' ho' => h' o' ((sublist_insert before after o).subset ho')
    rw [calculateDailyLoss_zero config hnumbers] at h
    rw [calculateDailyLoss_zero config hnumbers']
    exact h

/-- **A violated rule stays violated.** -/
theorem breaks_insert (h : InCalendar tx config time (before ++ o :: after))
    (hloss : isLoss? o = some true) {symbol timeframe : Value} {rule : Rule}
    (husable : Usable tx cv time o rule)
    (hbreaks : (registered config (before ++ after)).breaks tx cv ⟨symbol, timeframe, some time⟩ rule) :
    (registered config (before ++ o :: after)).breaks tx cv ⟨symbol, timeframe, some time⟩ rule := by
  have hcount (p : Fields → Bool) {n : ℤ}
      (hn : n ≤ (registered config (before ++ after)).countDaily tx p (some time)) :
      n ≤ (registered config (before ++ o :: after)).countDaily tx p (some time) :=
    hn.trans (Int.ofNat_le.2 (countDaily_insert p))
  cases rule with
  | dailyTrades => exact decide_eq_true (hcount _ (of_decide_eq_true hbreaks))
  | dailyLoss => exact calculateDailyLoss_insert hloss husable hbreaks
  | killzone => exact hbreaks
  | cooldown =>
    obtain ⟨u, hu, haware⟩ := husable
    obtain ⟨hclear, i, hi, hlt⟩ := (cooldown_iff cv config symbol timeframe h.of_insert).1 hbreaks
    have ho : Clear tx isLoss? time o := clear_of_time hu haware (by rw [hloss]; rfl)
    exact (cooldown_iff cv config symbol timeframe h).2
      ⟨forall_insert hclear ho, i, countedInstants_insert hi, hlt⟩
  | symbolTrades => exact decide_eq_true (hcount _ (of_decide_eq_true hbreaks))
  | timeframeTrades => exact decide_eq_true (hcount _ (of_decide_eq_true hbreaks))
  | spacing =>
    obtain ⟨u, hu, haware⟩ := husable
    obtain ⟨hclear, i, hi, hlt⟩ := (spacing_iff tx cv config symbol timeframe time _).1 hbreaks
    exact (spacing_iff tx cv config symbol timeframe time _).2
      ⟨forall_insert hclear (clear_of_time hu haware rfl), i, countedInstants_insert hi, hlt⟩

end

section
variable (tx : Texts) (cv : Conv) (config : GovernanceConfig) (c : TimedContext tx)

/-- **Limits never relax**: as long as no cooldown leaves the calendar, the answer names the violated
rules; one more losing outcome that a violated rule can use leaves it violated; and the order of the
outcomes matters only for a daily loss that is rounded. -/
theorem limits_never_relax :
    (∀ os, InCalendar tx config c.time os →
      (registered config os).evaluateTrade tx cv c.fields =
        ⟨(violated tx cv (registered config os) c.trade).isEmpty,
          (violated tx cv (registered config os) c.trade).map
            ((registered config os).message tx cv c.trade)⟩) ∧
    (∀ before after o, InCalendar tx config c.time (before ++ o :: after) → isLoss? o = some true →
      ∀ rule ∈ violated tx cv (registered config (before ++ after)) c.trade,
        Usable tx cv c.time o rule →
          rule ∈ violated tx cv (registered config (before ++ o :: after)) c.trade) ∧
    (∀ os os' : List Fields, os.Perm os' → InCalendar tx config c.time os →
      (∀ rule ≠ .dailyLoss, rule ∈ violated tx cv (registered config os) c.trade ↔
        rule ∈ violated tx cv (registered config os') c.trade) ∧
      (Binary64.Unrounded (dayResults tx cv c.time os) →
        (registered config os).evaluateTrade tx cv c.fields =
          (registered config os').evaluateTrade tx cv c.fields)) := by
  refine ⟨fun os h => evaluateTrade_eq tx cv config c h, fun before after o h hloss rule hrule hu => ?_,
    fun os os' hp h => ⟨fun rule hrule => ?_, fun hun => evaluateTrade_perm c hp h hun⟩⟩
  · rw [mem_violated] at hrule ⊢
    exact breaks_insert h hloss hu hrule
  · rw [mem_violated, mem_violated]
    exact iff_of_eq (congrArg (· = true) (breaks_perm hp h _ _ hrule))

end

/-! ## Three losses on a Monday -/

def mondayMinute (minute offset : ℤ) : Datetime where
  wall := Calendar.ordinal 2026 1 5 * Datetime.microsPerDay + minute * Datetime.microsPerMinute
  offset := some offset

/-- Reads the timestamps below. -/
def mondayTexts : Texts where
  datetime?
    | .str s => List.lookup s [
        ("2026-01-05T09:50:00+00:00", mondayMinute 590 0),
        ("2026-01-05T09:55:00+00:00", mondayMinute 595 0),
        ("2026-01-05T09:55:00", { mondayMinute 595 0 with offset := none }),
        ("2026-01-05T10:00:00+00:00", mondayMinute 600 0)]
    | _ => none
  fixed _ _ := ""
  clock _ := ""
  display _ := ""

def outcomeAt (timestamp : String) (pnl : ℤ) : Fields :=
  Dict.ofItems [("timestamp", .str timestamp), ("pnl", .int pnl)]

def mondayContext : TimedContext mondayTexts where
  fields := Dict.ofItems [("timestamp", .str "2026-01-05T10:00:00+00:00")]
  time := mondayMinute 600 0
  given := by decide +kernel
  parsed := by decide +kernel

/-- With an offset the second loss keeps the cooldown, and the losses may come in the other order. -/
theorem monday_cooldown_stays :
    Rule.cooldown ∈ violated mondayTexts Conv.plain
      (registered {} [outcomeAt "2026-01-05T09:50:00+00:00" (-10),
        outcomeAt "2026-01-05T09:55:00+00:00" (-20)]) mondayContext.trade ∧
    (registered {} [outcomeAt "2026-01-05T09:50:00+00:00" (-10),
        outcomeAt "2026-01-05T09:55:00+00:00" (-20)]).evaluateTrade mondayTexts Conv.plain
          mondayContext.fields =
      (registered {} [outcomeAt "2026-01-05T09:55:00+00:00" (-20),
        outcomeAt "2026-01-05T09:50:00+00:00" (-10)]).evaluateTrade mondayTexts Conv.plain
          mondayContext.fields := by
  obtain ⟨-, hinsert, horder⟩ := limits_never_relax mondayTexts Conv.plain {} mondayContext
  refine ⟨?_, ?_⟩
  · exact hinsert [outcomeAt "2026-01-05T09:50:00+00:00" (-10)] []
      (outcomeAt "2026-01-05T09:55:00+00:00" (-20)) (by decide +kernel) (by decide +kernel) .cooldown
      (by decide +kernel) ⟨mondayMinute 595 0, by decide +kernel, rfl⟩
  · refine (horder _ _ (List.Perm.swap _ _ _) (by decide +kernel)).2 ?_
    have hresults : dayResults mondayTexts Conv.plain mondayContext.time
        [outcomeAt "2026-01-05T09:50:00+00:00" (-10), outcomeAt "2026-01-05T09:55:00+00:00" (-20)] =
          [.fin (-10 : ℤ), .fin (-20 : ℤ)] := by decide +kernel
    rw [hresults]
    exact Binary64.unrounded_of_ints {-10, -20} (by decide)

/-- A loss without an offset lifts the cooldown after another one; and of three losses that reach the
limit the large one absorbs the small ones when it comes first. -/
theorem limits_relax :
    (Rule.cooldown ∈ violated mondayTexts Conv.plain
        (registered {} [outcomeAt "2026-01-05T09:50:00+00:00" (-10)]) mondayContext.trade ∧
      isLoss? (outcomeAt "2026-01-05T09:55:00" (-10)) = some true ∧
      ((registered {} [outcomeAt "2026-01-05T09:50:00+00:00" (-10),
        outcomeAt "2026-01-05T09:55:00" (-10)]).evaluateTrade mondayTexts Conv.plain
          mondayContext.fields).allowed = true) ∧
    let config : GovernanceConfig :=
      { maxDailyLoss := 2 ^ 53 + 2, cooldownMinutesAfterLoss := 0, minTradeSpacingMinutes := 0 }
    let large := outcomeAt "2026-01-05T09:50:00+00:00" (-2 ^ 53)
    let small := outcomeAt "2026-01-05T09:55:00+00:00" (-1)
    ((registered config [small, small, large]).evaluateTrade mondayTexts Conv.plain
        mondayContext.fields).allowed = false ∧
      ((registered config [large, small, small]).evaluateTrade mondayTexts Conv.plain
        mondayContext.fields).allowed = true := by
  decide +kernel

end Governance

end Reports
