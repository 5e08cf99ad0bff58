import IctAlgo.Reports.Governance

/-!
# The last time before a trade

The loops that look for the last loss and for the last trade, over outcomes that are dictionaries.

* `lastTime_isLatest`: where the loop does not raise (`Clear`), it finds a latest one of the times that
  count (`countedTime`).
* `lastTime_congr`: only the instants of these times matter, not their order.
* `cooldown_iff`, `spacing_iff`: what the two rules say about the outcomes.
-/

set_option autoImplicit false

namespace Reports

open Lib Orchestrator

namespace Governance

/-- The service with these dictionaries as its outcomes. -/
def registered (config : GovernanceConfig) (os : List Fields) : Governance :=
  ({ config } : Governance).addOutcomes (os.map .dict)

@[simp] theorem registered_config (config : GovernanceConfig) (os : List Fields) :
    (registered config os).config = config := rfl

theorem dicts?_registered (os : List Fields) : dicts? (os.map .dict) = some os := by
  induction os with
  | nil => rfl
  | cons o os ih => simp [dicts?, ih]

section
variable (tx : Texts) (counts? : Fields → Option Bool) (r : Datetime)

/-- The loop does not raise at the outcome. -/
def Clear (o : Fields) : Prop :=
  ∀ u, outcomeTime tx o = some u →
    u.aware = r.aware ∧ (u.instant < r.instant → (counts? o).isSome = true)

/-- The time of an outcome before the reference, if it counts. -/
def countedTime (o : Fields) : Option Datetime :=
  (outcomeTime tx o).filter fun u => u.instant < r.instant && counts? o = some true

/-- The instants of the times that count. -/
def countedInstants (os : List Fields) : List ℤ :=
  (os.filterMap (countedTime tx counts? r)).map (·.instant)

/-- A latest one of the times, if there is one. -/
def IsLatest (times : List Datetime) : Option Datetime → Prop
  | none => times = []
  | some b => b ∈ times ∧ ∀ u ∈ times, u.instant ≤ b.instant

variable {tx counts? r}

/-! ## The loop -/

theorem countedTime_eq_some {o : Fields} {u : Datetime} : countedTime tx counts? r o = some u ↔
    outcomeTime tx o = some u ∧ u.instant < r.instant ∧ counts? o = some true := by
  unfold countedTime
  simp [Option.filter_eq_some_iff]

theorem countedTime_aware {o : Fields} {u : Datetime} (h : Clear tx counts? r o)
    (hu : countedTime tx counts? r o = some u) : u.aware = r.aware :=
  (h u (countedTime_eq_some.1 hu).1).1

theorem mem_countedInstants {os : List Fields} {i : ℤ} : i ∈ countedInstants tx counts? r os ↔
    ∃ o ∈ os, ∃ u, countedTime tx counts? r o = some u ∧ u.instant = i := by
  unfold countedInstants
  simp only [List.mem_map, List.mem_filterMap]
  refine ⟨fun ⟨u, ⟨o, ho, hu⟩, hi⟩ => ⟨o, ho, u, hu, hi⟩, fun ⟨o, ho, u, hu, hi⟩ => ?_⟩
  exact ⟨u, ⟨o, ho, hu⟩, hi⟩

/-- The body of the loop. -/
theorem lastTime?_cons {o : Fields} (h : Clear tx counts? r o) (best : Option Datetime)
    (os : List Fields) : lastTime? tx counts? r best (o :: os) =
      match countedTime tx counts? r o with
      | none => lastTime? tx counts? r best os
      | some t => (latest? best t).bind fun b => lastTime? tx counts? r b os := by
  cases hcounted : countedTime tx counts? r o with
  | some t =>
    obtain ⟨htime, hbefore, hc⟩ := countedTime_eq_some.1 hcounted
    simp [lastTime?, htime, Datetime.lt?_eq, (h t htime).1, hbefore, hc]
  | none =>
    cases htime : outcomeTime tx o with
    | none => simp [lastTime?, htime]
    | some u =>
      obtain ⟨haware, hcounts⟩ := h u htime
      by_cases hbefore : u.instant < r.instant
      · obtain ⟨c, hc⟩ := Option.isSome_iff_exists.1 (hcounts hbefore)
        cases c with
        | true => rw [countedTime_eq_some.2 ⟨htime, hbefore, hc⟩] at hcounted; cases hcounted
        | false => simp [lastTime?, htime, Datetime.lt?_eq, haware, hbefore, hc]
      · simp [lastTime?, htime, Datetime.lt?_eq, haware, hbefore]

/-- It raises at an outcome that is not clear. -/
theorem lastTime?_of_not_clear {o : Fields} (h : ¬Clear tx counts? r o) (best : Option Datetime)
    (os : List Fields) : lastTime? tx counts? r best (o :: os) = none := by
  unfold Clear at h
  push Not at h
  obtain ⟨u, htime, hu⟩ := h
  by_cases haware : u.aware = r.aware
  · obtain ⟨hbefore, hnone⟩ := hu haware
    have hc : counts? o = none := by simpa using hnone
    simp [lastTime?, htime, Datetime.lt?_eq, haware, hbefore, hc]
  · simp [lastTime?, htime, Datetime.lt?_eq, haware]

theorem latest?_isLatest (best : Option Datetime) {t : Datetime}
    (h : ∀ b, best = some b → b.aware = t.aware) :
    ∃ b, latest? best t = some (some b) ∧ b.aware = t.aware ∧
      IsLatest (best.toList ++ [t]) (some b) := by
  cases best with
  | none => exact ⟨t, rfl, rfl, by simp [IsLatest]⟩
  | some b =>
    have haware := h b rfl
    by_cases hlater : b.instant < t.instant
    · refine ⟨t, by simp [latest?, Datetime.lt?_eq, haware, hlater], rfl, ?_⟩
      simpa [IsLatest] using hlater.le
    · refine ⟨b, by simp [latest?, Datetime.lt?_eq, haware, hlater], haware, ?_⟩
      simpa [IsLatest] using not_lt.1 hlater

/-- A latest time of the first ones stands for them. -/
theorem IsLatest.append {times rest : List Datetime} {b : Datetime} {c : Option Datetime}
    (hb : IsLatest times (some b)) (hc : IsLatest (b :: rest) c) : IsLatest (times ++ rest) c := by
  cases c with
  | none => cases hc
  | some c =>
    obtain ⟨hmem, hle⟩ := hc
    refine ⟨?_, fun u hu => ?_⟩
    · rcases List.mem_cons.1 hmem with rfl | hrest
      · exact List.mem_append_left _ hb.1
      · exact List.mem_append_right _ hrest
    · rcases List.mem_append.1 hu with hu | hu
      · exact (hb.2 u hu).trans (hle b List.mem_cons_self)
      · exact hle u (List.mem_cons_of_mem _ hu)

theorem lastTime?_isLatest {os : List Fields} (h : ∀ o ∈ os, Clear tx counts? r o)
    (best : Option Datetime) (hbest : ∀ b, best = some b → b.aware = r.aware) :
    ∃ b, lastTime? tx counts? r best os = some b ∧
      IsLatest (best.toList ++ os.filterMap (countedTime tx counts? r)) b := by
  induction os generalizing best with
  | nil =>
    refine ⟨best, rfl, ?_⟩
    cases best with
    | none => rfl
    | some b => simp [IsLatest]
  | cons o os ih =>
    obtain ⟨hclear, hrest⟩ := List.forall_mem_cons.1 h
    rw [lastTime?_cons hclear]
    cases hcounted : countedTime tx counts? r o with
    | none =>
      rw [List.filterMap_cons_none hcounted]
      exact ih hrest best hbest
    | some t =>
      have haware := countedTime_aware hclear hcounted
      obtain ⟨b, hlatest, hb, hisLatest⟩ := latest?_isLatest best
        fun b hb => (hbest b hb).trans haware.symm
      obtain ⟨c, hrun, hc⟩ := ih hrest (some b) fun b' hb' => by
        rw [← Option.some.inj hb', hb, haware]
      refine ⟨c, ?_, ?_⟩
      · simp only [hlatest, Option.bind_some]
        exact hrun
      · rw [List.filterMap_cons_some hcounted, List.append_cons]
        exact hisLatest.append hc

theorem lastTime?_none {os : List Fields} (h : ¬∀ o ∈ os, Clear tx counts? r o)
    (best : Option Datetime) : lastTime? tx counts? r best os = none := by
  induction os generalizing best with
  | nil => exact absurd (fun o ho => absurd ho List.not_mem_nil) h
  | cons o os ih =>
    by_cases hclear : Clear tx counts? r o
    · have hrest : ¬∀ o ∈ os, Clear tx counts? r o := fun hrest =>
        h (List.forall_mem_cons.2 ⟨hclear, hrest⟩)
      rw [lastTime?_cons hclear]
      cases countedTime tx counts? r o with
      | none => exact ih hrest best
      | some t =>
        dsimp only
        cases latest? best t with
        | none => rfl
        | some b => exact ih hrest b
    · exact lastTime?_of_not_clear hclear best os

/-! ## Its answer -/

section
variable (config : GovernanceConfig) {os : List Fields}

/-- **The last time** is a latest one that counts. -/
theorem lastTime_isLatest (h : ∀ o ∈ os, Clear tx counts? r o) :
    IsLatest (os.filterMap (countedTime tx counts? r))
      ((registered config os).lastTime tx counts? (some r)) := by
  obtain ⟨b, hrun, hb⟩ := lastTime?_isLatest h none (by simp)
  have hlast : (registered config os).lastTime tx counts? (some r) = b := by
    unfold lastTime registered addOutcomes
    simp [dicts?_registered, hrun]
  rw [hlast]
  exact hb

theorem lastTime_of_not_clear (h : ¬∀ o ∈ os, Clear tx counts? r o) :
    (registered config os).lastTime tx counts? (some r) = none := by
  unfold lastTime registered addOutcomes
  simp [dicts?_registered, lastTime?_none h none]

/-- The outcome of the last time. -/
theorem lastTime_counted {b : Datetime}
    (h : (registered config os).lastTime tx counts? (some r) = some b) :
    (∀ o ∈ os, Clear tx counts? r o) ∧ b.aware = r.aware ∧
      (∃ o ∈ os, countedTime tx counts? r o = some b) ∧
      ∀ i ∈ countedInstants tx counts? r os, i ≤ b.instant := by
  by_cases hclear : ∀ o ∈ os, Clear tx counts? r o
  · have hlatest := lastTime_isLatest config hclear
    rw [h] at hlatest
    obtain ⟨o, ho, hcounted⟩ := List.mem_filterMap.1 hlatest.1
    refine ⟨hclear, countedTime_aware (hclear o ho) hcounted, ⟨o, ho, hcounted⟩, fun i hi => ?_⟩
    obtain ⟨o', ho', u, hu, rfl⟩ := mem_countedInstants.1 hi
    exact hlatest.2 u (List.mem_filterMap.2 ⟨o', ho', hu⟩)
  · rw [lastTime_of_not_clear config hclear] at h
    cases h

/-- There is one as soon as a time counts. -/
theorem exists_lastTime (hclear : ∀ o ∈ os, Clear tx counts? r o) {i : ℤ}
    (hi : i ∈ countedInstants tx counts? r os) :
    ∃ b, (registered config os).lastTime tx counts? (some r) = some b ∧ i ≤ b.instant := by
  cases hlast : (registered config os).lastTime tx counts? (some r) with
  | none =>
    have hlatest := lastTime_isLatest config hclear
    rw [hlast] at hlatest
    unfold countedInstants at hi
    rw [show os.filterMap (countedTime tx counts? r) = [] from hlatest] at hi
    cases hi
  | some b => exact ⟨b, rfl, (lastTime_counted config hlast).2.2.2 i hi⟩

end

/-- **Only the instants matter.** -/
theorem lastTime_congr {config config' : GovernanceConfig} {os os' : List Fields} {r r' : Datetime}
    (hclear : (∀ o ∈ os, Clear tx counts? r o) ↔ ∀ o ∈ os', Clear tx counts? r' o)
    (hmem : ∀ i, i ∈ countedInstants tx counts? r os ↔ i ∈ countedInstants tx counts? r' os') :
    ((registered config os).lastTime tx counts? (some r)).map (·.instant) =
      ((registered config' os').lastTime tx counts? (some r')).map (·.instant) := by
  have hinstant {config : GovernanceConfig} {os : List Fields} {r b : Datetime}
      (h : (registered config os).lastTime tx counts? (some r) = some b) :
      b.instant ∈ countedInstants tx counts? r os := by
    obtain ⟨-, -, ⟨o, ho, hb⟩, -⟩ := lastTime_counted config h
    exact mem_countedInstants.2 ⟨o, ho, b, hb, rfl⟩
  by_cases h : ∀ o ∈ os, Clear tx counts? r o
  · have h' := hclear.1 h
    cases hlast : (registered config os).lastTime tx counts? (some r) with
    | none =>
      cases hlast' : (registered config' os').lastTime tx counts? (some r') with
      | none => rfl
      | some c =>
        obtain ⟨b, hb, -⟩ := exists_lastTime config h ((hmem _).2 (hinstant hlast'))
        rw [hlast] at hb
        cases hb
    | some b =>
      obtain ⟨c, hc, hle⟩ := exists_lastTime config' h' ((hmem _).1 (hinstant hlast))
      rw [hc, Option.map_some, Option.map_some]
      have hge := (lastTime_counted config hlast).2.2.2 _ ((hmem _).2 (hinstant hc))
      rw [le_antisymm hle hge]
  · rw [lastTime_of_not_clear config h, lastTime_of_not_clear config' (mt hclear.2 h)]

end

/-! ## The two rules -/

section
variable (tx : Texts) (cv : Conv) (config : GovernanceConfig) (symbol timeframe : Value)
variable (time : Datetime) (os : List Fields)

/-- The cooldown of each loss that counts ends in the calendar. -/
def InCalendar : Prop :=
  ∀ o ∈ os, ∀ u, countedTime tx isLoss? time o = some u →
    (u.addMinutes? config.cooldownMinutesAfterLoss).isSome = true

instance : Decidable (InCalendar tx config time os) :=
  decidable_of_iff (∀ o ∈ os, (countedTime tx isLoss? time o).all fun u =>
    (u.addMinutes? config.cooldownMinutesAfterLoss).isSome) <| by
      refine forall₂_congr fun o _ => ?_
      cases countedTime tx isLoss? time o <;> simp

variable {tx time os} in
theorem cooldownLeft?_eq (h : InCalendar tx config time os) :
    (registered config os).cooldownLeft? tx ⟨symbol, timeframe, some time⟩ =
      some ((((registered config os).findLastLossTime tx (some time)).map (·.instant)).map fun i =>
        i + config.cooldownMinutesAfterLoss * Datetime.microsPerMinute - time.instant) := by
  unfold cooldownLeft?
  cases hlast : (registered config os).findLastLossTime tx (some time) with
  | none => rfl
  | some b =>
    obtain ⟨-, haware, ⟨o, ho, hb⟩, -⟩ := lastTime_counted config hlast
    obtain ⟨e, he⟩ := Option.isSome_iff_exists.1 (h o ho b hb)
    obtain ⟨haware', hinstant⟩ := Datetime.addMinutes?_eq_some he
    change (do
      let cooldownEnd ← b.addMinutes? config.cooldownMinutesAfterLoss
      return cooldownEnd.sub? time : Option (Option ℤ)) = _
    rw [he]
    simp [Datetime.sub?_eq, haware', haware, hinstant]

theorem sinceLastTrade_eq :
    (registered config os).sinceLastTrade tx ⟨symbol, timeframe, some time⟩ =
      (((registered config os).findLastTradeTime tx (some time)).map (·.instant)).map fun i =>
        time.instant - i := by
  unfold sinceLastTrade
  cases hlast : (registered config os).findLastTradeTime tx (some time) with
  | none => simp
  | some b =>
    obtain ⟨-, haware, -⟩ := lastTime_counted config hlast
    simp [Datetime.sub?_eq, haware]

variable {tx time os} in
/-- **The cooldown** is active for a loss that counts, whichever it is. -/
theorem cooldown_iff (h : InCalendar tx config time os) :
    (registered config os).breaks tx cv ⟨symbol, timeframe, some time⟩ .cooldown = true ↔
      (∀ o ∈ os, Clear tx isLoss? time o) ∧ ∃ i ∈ countedInstants tx isLoss? time os,
        time.instant < i + config.cooldownMinutesAfterLoss * Datetime.microsPerMinute := by
  simp only [breaks, cooldownLeft?_eq config symbol timeframe h, Option.any_some]
  refine ⟨fun hleft => ?_, fun ⟨hclear, i, hi, hlt⟩ => ?_⟩
  · cases hlast : (registered config os).findLastLossTime tx (some time) with
    | none => simp [hlast] at hleft
    | some b =>
      obtain ⟨hclear, -, ⟨o, ho, hb⟩, -⟩ := lastTime_counted config hlast
      refine ⟨hclear, b.instant, mem_countedInstants.2 ⟨o, ho, b, hb, rfl⟩, ?_⟩
      simp [hlast] at hleft
      omega
  · obtain ⟨b, hb, hle⟩ := exists_lastTime config hclear hi
    rw [findLastLossTime, hb]
    simp
    omega

theorem breaks_spacing (g : Governance) (t : Trade) : g.breaks tx cv t .spacing =
    (g.sinceLastTrade tx t).any fun since : ℤ =>
      decide ((since : ℚ) / Datetime.microsPerMinute < g.config.minTradeSpacingMinutes) := by
  simp only [breaks]
  cases g.sinceLastTrade tx t <;> rfl

/-- **The spacing** is too small for a trade before, whichever it is. -/
theorem spacing_iff :
    (registered config os).breaks tx cv ⟨symbol, timeframe, some time⟩ .spacing = true ↔
      (∀ o ∈ os, Clear tx (fun _ => some true) time o) ∧
        ∃ i ∈ countedInstants tx (fun _ => some true) time os,
          ((time.instant - i : ℤ) : ℚ) / Datetime.microsPerMinute < config.minTradeSpacingMinutes := by
  have hminute : (0 : ℚ) < Datetime.microsPerMinute := by decide
  rw [breaks_spacing, sinceLastTrade_eq]
  refine ⟨fun hsince => ?_, fun ⟨hclear, i, hi, hlt⟩ => ?_⟩
  · cases hlast : (registered config os).findLastTradeTime tx (some time) with
    | none => rw [hlast] at hsince; cases hsince
    | some b =>
      obtain ⟨hclear, -, ⟨o, ho, hb⟩, -⟩ := lastTime_counted config hlast
      refine ⟨hclear, b.instant, mem_countedInstants.2 ⟨o, ho, b, hb, rfl⟩, ?_⟩
      rw [hlast] at hsince
      exact of_decide_eq_true hsince
  · obtain ⟨b, hb, hle⟩ := exists_lastTime config hclear hi
    rw [findLastTradeTime, hb]
    have hsince : time.instant - b.instant ≤ time.instant - i := by omega
    have hdiv := (div_le_div_iff_of_pos_right hminute).2 (Int.cast_le.2 hsince)
    exact decide_eq_true (lt_of_le_of_lt hdiv hlt)

end

end Governance

end Reports
