import IctAlgo.Reports.Proof.Answers

/-!
# The same instants with other offsets

`Restamped`: a dictionary with its timestamp written for another offset. The cooldown and the spacing
compare instants. The rules of the day compare the days of the two wall clocks and the killzone looks
at the hour of one (`SameReading`), and the offset can move both.

* `breaks_restamped`: a rule that reads the same is violated as before.
* `verdict_of_instants`: so are the answers.
-/

set_option autoImplicit false

namespace Reports

open Lib Orchestrator

/-- The timestamp is one of the same instant, with an offset as before. -/
structure Restamped (tx : Texts) (d d' : Fields) : Prop where
  fields : ∃ v, d' = d.set "timestamp" v
  times : ∃ u u', tx.datetime? (val d "timestamp") = some u ∧
    tx.datetime? (val d' "timestamp") = some u' ∧
    u.aware = true ∧ u'.aware = true ∧ u.instant = u'.instant

theorem Restamped.getD_eq {tx : Texts} {d d' : Fields} (h : Restamped tx d d') {key : String}
    (hkey : key ≠ "timestamp") (default : Value) : d'.getD key default = d.getD key default := by
  obtain ⟨v, rfl⟩ := h.fields
  exact Dict.getD_set_ne d v default hkey

namespace Governance

/-- The rule reads the same off the wall clocks. -/
def SameReading (tx : Texts) (config : GovernanceConfig) (time time' : Datetime)
    (os os' : List Fields) : Rule → Prop
  | .cooldown | .spacing => True
  | .killzone => ∀ range ∈ config.killzoneHours, inKillzone time.hour range = inKillzone time'.hour range
  | _ => List.Forall₂ (fun o o' => sameDay tx time o = sameDay tx time' o') os os'

section
variable {tx : Texts} {cv : Conv} {config : GovernanceConfig} {o o' : Fields} {os os' : List Fields}
variable {r r' : Datetime} {counts? : Fields → Option Bool}

/-! ## The rules that compare instants -/

/-- The two references are of one instant, too. -/
structure SameInstant (r r' : Datetime) : Prop where
  left : r.aware = true
  right : r'.aware = true
  instant : r.instant = r'.instant

theorem isLoss?_restamped (h : Restamped tx o o') : isLoss? o = isLoss? o' := by
  unfold isLoss?
  rw [h.getD_eq (by decide)]

theorem clear_restamped (h : Restamped tx o o') (hr : SameInstant r r')
    (hcounts : counts? o = counts? o') : Clear tx counts? r o ↔ Clear tx counts? r' o' := by
  obtain ⟨u, u', hu, hu', haware, haware', hinstant⟩ := h.times
  have htime : outcomeTime tx o = some u := hu
  have htime' : outcomeTime tx o' = some u' := hu'
  unfold Clear
  simp [htime, htime', haware, haware', hr.left, hr.right, hinstant, hr.instant, hcounts]

theorem countedTime_restamped (h : Restamped tx o o') (hr : SameInstant r r')
    (hcounts : counts? o = counts? o') :
    (countedTime tx counts? r o).map (·.instant) = (countedTime tx counts? r' o').map (·.instant) := by
  obtain ⟨u, u', hu, hu', -, -, hinstant⟩ := h.times
  have htime : outcomeTime tx o = some u := hu
  have htime' : outcomeTime tx o' = some u' := hu'
  unfold countedTime
  rw [htime, htime', Option.filter_some, Option.filter_some, hinstant, hr.instant, hcounts]
  split
  · simp [hinstant]
  · rfl

theorem forall_clear_restamped (h : List.Forall₂ (Restamped tx) os os') (hr : SameInstant r r')
    (hcounts : ∀ o o', Restamped tx o o' → counts? o = counts? o') :
    (∀ o ∈ os, Clear tx counts? r o) ↔ ∀ o ∈ os', Clear tx counts? r' o := by
  induction h with
  | nil => simp
  | cons ho _ ih =>
    rw [List.forall_mem_cons, List.forall_mem_cons, ih, clear_restamped ho hr (hcounts _ _ ho)]

theorem countedInstants_restamped (h : List.Forall₂ (Restamped tx) os os') (hr : SameInstant r r')
    (hcounts : ∀ o o', Restamped tx o o' → counts? o = counts? o') :
    countedInstants tx counts? r os = countedInstants tx counts? r' os' := by
  unfold countedInstants
  rw [List.map_filterMap, List.map_filterMap]
  induction h with
  | nil => rfl
  | cons ho _ ih =>
    simp only [List.filterMap_cons, countedTime_restamped ho hr (hcounts _ _ ho), ih]

/-! ## The rules of the day -/

theorem countDaily_restamped {p p' : Fields → Bool} (h : List.Forall₂ (Restamped tx) os os')
    (hday : List.Forall₂ (fun o o' => sameDay tx r o = sameDay tx r' o') os os')
    (hp : ∀ o o', Restamped tx o o' → p o = p' o') :
    (registered config os).countDaily tx p (some r) =
      (registered config os').countDaily tx p' (some r') := by
  rw [countDaily_eq, countDaily_eq]
  induction h with
  | nil => rfl
  | cons ho _ ih =>
    obtain ⟨hday, hdays⟩ := List.forall₂_cons.1 hday
    rw [List.countP_cons, List.countP_cons, ih hdays, hday, hp _ _ ho]

theorem outcomePnl?_restamped (h : Restamped tx o o') : outcomePnl? cv o = outcomePnl? cv o' := by
  unfold outcomePnl?
  rw [h.getD_eq (by decide)]

theorem dailyPnl?_restamped (h : List.Forall₂ (Restamped tx) os os')
    (hday : List.Forall₂ (fun o o' => sameDay tx r o = sameDay tx r' o') os os') (pnl : PyFloat) :
    dailyPnl? tx cv r pnl os = dailyPnl? tx cv r' pnl os' := by
  induction h generalizing pnl with
  | nil => rfl
  | cons ho _ ih =>
    obtain ⟨hday, hdays⟩ := List.forall₂_cons.1 hday
    simp only [dailyPnl?, hday, outcomePnl?_restamped ho, ih hdays]

theorem calculateDailyLoss_restamped (h : List.Forall₂ (Restamped tx) os os')
    (hday : List.Forall₂ (fun o o' => sameDay tx r o = sameDay tx r' o') os os') :
    (registered config os).calculateDailyLoss tx cv (some r) =
      (registered config os').calculateDailyLoss tx cv (some r') := by
  unfold calculateDailyLoss registered addOutcomes
  simp [dicts?_registered, dailyPnl?_restamped h hday]

/-! ## Verdicts -/

theorem sameInstant_of_restamped {c c' : TimedContext tx} (h : Restamped tx c.fields c'.fields) :
    SameInstant c.time c'.time := by
  obtain ⟨u, u', hu, hu', haware, haware', hinstant⟩ := h.times
  rw [c.parsed] at hu
  rw [c'.parsed] at hu'
  obtain rfl := Option.some.inj hu
  obtain rfl := Option.some.inj hu'
  exact ⟨haware, haware', hinstant⟩

/-- **A rule that reads the same** is violated as before. -/
theorem breaks_restamped {c c' : TimedContext tx} (hc : Restamped tx c.fields c'.fields)
    (hos : List.Forall₂ (Restamped tx) os os') (h : InCalendar tx config c.time os)
    (h' : InCalendar tx config c'.time os') {rule : Rule}
    (hrule : SameReading tx config c.time c'.time os os' rule) :
    (registered config os).breaks tx cv c.trade rule =
      (registered config os').breaks tx cv c'.trade rule := by
  have hr := sameInstant_of_restamped hc
  have hsymbol : c'.trade.symbol = c.trade.symbol := hc.getD_eq (by decide) _
  have htimeframe : c'.trade.timeframe = c.trade.timeframe := hc.getD_eq (by decide) _
  cases rule with
  | dailyTrades =>
    have hcount : (registered config os).countDailyTrades tx c.trade.time =
        (registered config os').countDailyTrades tx c'.trade.time :=
      countDaily_restamped hos hrule fun _ _ _ => rfl
    rw [breaks, breaks, hcount]
    rfl
  | dailyLoss =>
    have hloss : (registered config os).calculateDailyLoss tx cv c.trade.time =
        (registered config os').calculateDailyLoss tx cv c'.trade.time :=
      calculateDailyLoss_restamped hos hrule
    rw [breaks, breaks, hloss]
    rfl
  | killzone =>
    change config.killzoneHours.any _ = config.killzoneHours.any _
    rw [Bool.eq_iff_iff, List.any_eq_true, List.any_eq_true]
    exact exists_congr fun range => and_congr_right fun hrange => by rw [hrule range hrange]
  | cooldown =>
    have hclear := forall_clear_restamped hos hr fun _ _ => isLoss?_restamped
    have hcounted := countedInstants_restamped hos hr fun _ _ => isLoss?_restamped
    rw [Bool.eq_iff_iff, TimedContext.trade, TimedContext.trade, cooldown_iff cv config _ _ h,
      cooldown_iff cv config _ _ h', hclear, hcounted, hr.instant]
  | symbolTrades =>
    have hcount : (registered config os).countDailySymbolTrades tx c.trade.symbol c.trade.time =
        (registered config os').countDailySymbolTrades tx c'.trade.symbol c'.trade.time :=
      countDaily_restamped hos hrule fun o o' ho => by rw [ho.getD_eq (by decide), hsymbol]
    rw [breaks, breaks, hcount]
    rfl
  | timeframeTrades =>
    have hcount : (registered config os).countDailyTimeframeTrades tx c.trade.timeframe c.trade.time =
        (registered config os').countDailyTimeframeTrades tx c'.trade.timeframe c'.trade.time :=
      countDaily_restamped hos hrule fun o o' ho => by rw [ho.getD_eq (by decide), htimeframe]
    rw [breaks, breaks, hcount]
    rfl
  | spacing =>
    have hclear : (∀ o ∈ os, Clear tx (fun _ => some true) c.time o) ↔
        ∀ o ∈ os', Clear tx (fun _ => some true) c'.time o :=
      forall_clear_restamped hos hr fun _ _ _ => rfl
    have hcounted : countedInstants tx (fun _ => some true) c.time os =
        countedInstants tx (fun _ => some true) c'.time os' :=
      countedInstants_restamped hos hr fun _ _ _ => rfl
    rw [Bool.eq_iff_iff, TimedContext.trade, TimedContext.trade, spacing_iff, spacing_iff, hclear,
      hcounted, hr.instant]

variable (tx cv config) in
/-- **Verdicts depend on instants and on what the rules read off the wall clocks**: timestamps written
for other offsets leave the cooldown and the spacing as they were, the other rules that read the same,
and if all do, the answer. -/
theorem verdict_of_instants {c c' : TimedContext tx} {os os' : List Fields}
    (hc : Restamped tx c.fields c'.fields) (hos : List.Forall₂ (Restamped tx) os os')
    (h : InCalendar tx config c.time os) (h' : InCalendar tx config c'.time os') :
    (∀ rule, SameReading tx config c.time c'.time os os' rule →
      (rule ∈ violated tx cv (registered config os) c.trade ↔
        rule ∈ violated tx cv (registered config os') c'.trade)) ∧
    ((∀ rule, SameReading tx config c.time c'.time os os' rule) →
      ((registered config os).evaluateTrade tx cv c.fields).allowed =
        ((registered config os').evaluateTrade tx cv c'.fields).allowed) := by
  refine ⟨fun rule hrule => ?_, fun hsame => ?_⟩
  · rw [mem_violated, mem_violated, breaks_restamped hc hos h h' hrule]
  · have hviolated : violated tx cv (registered config os) c.trade =
        violated tx cv (registered config os') c'.trade :=
      List.filter_congr fun rule _ => breaks_restamped hc hos h h' (hsame rule)
    rw [evaluateTrade_eq tx cv config c h, evaluateTrade_eq tx cv config c' h', hviolated]

end

/-! ## A trade at noon and one before midnight -/

def januaryMinute (day : ℕ) (minute offset : ℤ) : Datetime where
  wall := Calendar.ordinal 2026 1 day * Datetime.microsPerDay + minute * Datetime.microsPerMinute
  offset := some (offset * Datetime.microsPerMinute)

/-- Reads the timestamps below. -/
def januaryTexts : Texts where
  datetime?
    | .str s => List.lookup s [
        ("2026-01-05T11:50:00+00:00", januaryMinute 5 710 0),
        ("2026-01-05T12:50:00+01:00", januaryMinute 5 770 60),
        ("2026-01-05T12:00:00+00:00", januaryMinute 5 720 0),
        ("2026-01-05T13:00:00+01:00", januaryMinute 5 780 60),
        ("2026-01-05T23:30:00+00:00", januaryMinute 5 1410 0),
        ("2026-01-06T00:30:00+01:00", januaryMinute 6 30 60)]
    | _ => none
  fixed _ _ := ""
  clock _ := ""
  display _ := ""

def stamped (timestamp : String) : Fields :=
  Dict.ofItems [("timestamp", .str timestamp), ("pnl", .int (-10))]

def contextAt (timestamp : String) (time : Datetime)
    (h : januaryTexts.datetime? (.str timestamp) = some time) (hne : timestamp ≠ "") :
    TimedContext januaryTexts where
  fields := stamped timestamp
  time
  given := by simpa [stamped, Dict.ofItems, val, Dict.getD, Dict.get?_set, Value.truthy] using hne
  parsed := by simpa [stamped, Dict.ofItems, val, Dict.getD, Dict.get?_set] using h

def noonContext : TimedContext januaryTexts :=
  contextAt "2026-01-05T12:00:00+00:00" (januaryMinute 5 720 0) (by decide +kernel) (by decide)

def noonContext' : TimedContext januaryTexts :=
  contextAt "2026-01-05T13:00:00+01:00" (januaryMinute 5 780 60) (by decide +kernel) (by decide)

def nightContext : TimedContext januaryTexts :=
  contextAt "2026-01-05T23:30:00+00:00" (januaryMinute 5 1410 0) (by decide +kernel) (by decide)

def nightContext' : TimedContext januaryTexts :=
  contextAt "2026-01-06T00:30:00+01:00" (januaryMinute 6 30 60) (by decide +kernel) (by decide)

/-- At noon the offset makes no difference. -/
theorem noon_same :
    ((registered {} [stamped "2026-01-05T11:50:00+00:00"]).evaluateTrade januaryTexts Conv.plain
        noonContext.fields).allowed =
      ((registered {} [stamped "2026-01-05T12:50:00+01:00"]).evaluateTrade januaryTexts Conv.plain
        noonContext'.fields).allowed := by
  have hc : Restamped januaryTexts noonContext.fields noonContext'.fields :=
    ⟨⟨.str "2026-01-05T13:00:00+01:00", by decide +kernel⟩,
      januaryMinute 5 720 0, januaryMinute 5 780 60, by decide +kernel⟩
  have ho : Restamped januaryTexts (stamped "2026-01-05T11:50:00+00:00")
      (stamped "2026-01-05T12:50:00+01:00") :=
    ⟨⟨.str "2026-01-05T12:50:00+01:00", by decide +kernel⟩,
      januaryMinute 5 710 0, januaryMinute 5 770 60, by decide +kernel⟩
  refine (verdict_of_instants januaryTexts Conv.plain {} hc (.cons ho .nil) (by decide +kernel)
    (by decide +kernel)).2 fun rule => ?_
  cases rule with
  | cooldown => trivial
  | spacing => trivial
  | killzone => exact fun _ hrange => absurd hrange List.not_mem_nil
  | _ => exact .cons (by decide +kernel) .nil

/-- Before midnight it changes the day and the hour. -/
theorem night_differs :
    (let config : GovernanceConfig := { maxTradesPerDay := 1 }
    let os := [stamped "2026-01-05T12:00:00+00:00"]
    ((registered config os).evaluateTrade januaryTexts Conv.plain nightContext.fields).allowed = false ∧
      ((registered config os).evaluateTrade januaryTexts Conv.plain nightContext'.fields).allowed =
        true) ∧
    (let config : GovernanceConfig := { killzoneHours := [(0, 8)] }
    ((registered config []).evaluateTrade januaryTexts Conv.plain nightContext.fields).allowed = true ∧
      ((registered config []).evaluateTrade januaryTexts Conv.plain nightContext'.fields).allowed =
        false) := by
  decide +kernel

end Governance

end Reports
