import Mathlib.Tactic.Linarith
import Mathlib.Tactic.FieldSimp
import IctAlgo.Replay.Metrics

/-!
# The counts of a group

`compute_group_metrics` knows a win by its R multiple, `compute_win_rate` by its label, and no R
multiple makes a break-even.

* `tagged_tag`: the labels and R multiples the tagger produces.
* `Consistent`: the counts add up, and the rates are those of `metrics.py`.
* `consistent_iff`: they do exactly when every win has its target on the profit side of its entry.
-/

set_option autoImplicit false

namespace Replay

/-! ## What the tagger produces -/

namespace ReplaySignal

variable (s : ReplaySignal)

/-- The target is on the profit side of the entry. -/
def Profitable : Prop := if s.direction = "LONG" then s.entry < s.tp else s.tp < s.entry

instance : Decidable s.Profitable :=
  inferInstanceAs (Decidable (if s.direction = "LONG" then s.entry < s.tp else s.tp < s.entry))

/-- The R multiple of a trade that ends at the target. -/
def reward : ℚ :=
  if s.direction = "LONG" then (s.tp - s.entry) / s.risk else (s.entry - s.tp) / s.risk

/-- A label and an R multiple the tagger gives to the signal. -/
def Tagged (outcome : Outcome) (rMultiple : Option ℚ) : Prop :=
  (outcome = .unknown ∧ rMultiple = none) ∨ (outcome = .loss ∧ rMultiple = some (-1)) ∨
    (outcome = .win ∧ rMultiple = some s.reward)

theorem risk_pos : 0 < s.risk := by
  unfold risk
  dsimp only
  generalize (if s.direction = "LONG" then s.entry - s.sl else s.sl - s.entry) = risk
  split_ifs with h
  · exact one_pos
  · exact not_le.1 h

theorem reward_pos_iff : 0 < s.reward ↔ s.Profitable := by
  unfold reward Profitable
  split_ifs with h
  · rw [div_pos_iff_of_pos_right s.risk_pos, sub_pos]
  · rw [div_pos_iff_of_pos_right s.risk_pos, sub_pos]

theorem tagged_scan (cs : List Candle) : ∀ t : Scan, t.outcome = .unknown → t.rMultiple = none →
    s.Tagged (s.scan t cs).outcome (s.scan t cs).rMultiple := by
  induction cs with
  | nil =>
    intro t houtcome hr
    exact Or.inl ⟨houtcome, hr⟩
  | cons c cs ih =>
    intro t houtcome hr
    have hnext : (s.excursions c t).outcome = .unknown ∧ (s.excursions c t).rMultiple = none := by
      unfold excursions
      split <;> exact ⟨houtcome, hr⟩
    by_cases htime : c.timestamp ≤ s.timestamp
    · simp only [scan, htime, ↓reduceIte]
      exact ih t houtcome hr
    simp only [scan, htime, ↓reduceIte]
    cases hsl : s.slHit c with
    | true =>
      cases htp : s.tpHit c <;> exact Or.inr (Or.inl ⟨rfl, rfl⟩)
    | false =>
      cases htp : s.tpHit c with
      | true => exact Or.inr (Or.inr ⟨rfl, rfl⟩)
      | false => exact ih _ hnext.1 hnext.2

theorem tagged_tag (candles : List Candle) :
    s.Tagged (s.tag candles).outcome (s.tag candles).rMultiple :=
  s.tagged_scan candles {} rfl rfl

end ReplaySignal

/-! ## Counts and rates -/

section
variable (grouped : List (ReplaySignal × ReplayOutcome))

/-- `win_count`, `loss_count` and `be_count` of `compute_group_metrics`. -/
def winCount : ℕ := (truthyWhere (· > 0) ((grouped.map (·.2)).map (·.rMultiple))).length

def lossCount : ℕ := (truthyWhere (· < 0) ((grouped.map (·.2)).map (·.rMultiple))).length

def beCount : ℕ := (truthyWhere (· = 0) ((grouped.map (·.2)).map (·.rMultiple))).length

/-- The counts of a group add up, and its rates before rounding are those of `metrics.py`. -/
structure Consistent (signal : ReplaySignal) : Prop where
  counted : winCount grouped + lossCount grouped + beCount grouped =
    grouped.countP (·.2.rMultiple.isSome)
  sampled : (computeGroupMetrics id signal grouped).completedTrades +
      (computeGroupMetrics id signal grouped).cancelledTrades =
    (computeGroupMetrics id signal grouped).sampleSize
  rates : 0 < (computeGroupMetrics id signal grouped).completedTrades →
    (computeGroupMetrics id signal grouped).winRate +
      (computeGroupMetrics id signal grouped).lossRate +
      (computeGroupMetrics id signal grouped).beRate = 1
  winRate : (computeGroupMetrics id signal grouped).winRate = computeWinRate (grouped.map (·.2))
  beRate : (computeGroupMetrics id signal grouped).beRate =
    computeBreakEvenRate (grouped.map (·.2))

end

/-! ### Counting -/

section
variable {α : Type*} {p q : α → Bool} {l : List α}

theorem countP_add_countP (h : ∀ x ∈ l, p x = true → q x = false) :
    l.countP p + l.countP q = l.countP fun x => p x || q x := by
  induction l with
  | nil => rfl
  | cons x l ih =>
    have hx := h x List.mem_cons_self
    have hl := ih fun y hy => h y (List.mem_cons_of_mem _ hy)
    cases hp : p x with
    | false => cases hq : q x <;> simp [hp, hq] <;> omega
    | true => simp [hp, hx hp]; omega

/-- A weaker property counted as often holds of no more. -/
theorem forall_of_countP_eq (himp : ∀ x ∈ l, p x = true → q x = true)
    (h : l.countP p = l.countP q) : ∀ x ∈ l, q x = true → p x = true := by
  have hsplit : l.countP p + l.countP (fun x => q x && !p x) = l.countP q := by
    rw [countP_add_countP fun x _ hp => by simp [hp]]
    refine List.countP_congr fun x hx => ?_
    cases hp : p x with
    | false => simp
    | true => simp [himp x hx hp]
  have hnone : l.countP (fun x => q x && !p x) = 0 := by omega
  intro x hx hq
  by_contra hp
  exact List.countP_eq_zero.1 hnone x hx (by simp [hq, hp])

end

theorem length_truthyWhere (p : ℚ → Bool) (grouped : List (ReplaySignal × ReplayOutcome)) :
    (truthyWhere p ((grouped.map (·.2)).map (·.rMultiple))).length =
      grouped.countP fun t => t.2.rMultiple.any fun r => r ≠ 0 && p r := by
  induction grouped with
  | nil => rfl
  | cons t grouped ih =>
    unfold truthyWhere at ih ⊢
    rw [List.map_cons, List.map_cons, List.filterMap_cons, List.countP_cons, ← ih]
    cases t.2.rMultiple with
    | none => simp
    | some r =>
      by_cases h : (decide (r ≠ 0) && p r) = true
      · simp only [Option.filter_some, h, ↓reduceIte, List.length_cons, Option.any_some]
      · simp only [Option.filter_some, h, Bool.false_eq_true, ↓reduceIte, Option.any_some,
          Nat.add_zero]

/-- No R multiple is truthy and zero. -/
theorem beCount_eq_zero (grouped : List (ReplaySignal × ReplayOutcome)) : beCount grouped = 0 := by
  rw [beCount, length_truthyWhere, List.countP_eq_zero]
  intro t _
  cases t.2.rMultiple with
  | none => simp
  | some r => by_cases h : r = 0 <;> simp [h]

/-- The evaluable outcomes with a label. -/
def evaluable (o : ReplayOutcome) : Bool :=
  (o.outcome = .win || o.outcome = .loss || o.outcome = .be) && o.rMultiple.isSome

theorem labelRate_eq (label : Outcome) (outcomes : List ReplayOutcome) : labelRate label outcomes =
    rate (outcomes.countP fun o => evaluable o && o.outcome = label)
      (outcomes.countP evaluable) := by
  have hfold : ∀ acc : ℕ × ℕ, outcomes.foldl (addLabelled label) acc =
      (acc.1 + outcomes.countP fun o => evaluable o && o.outcome = label,
        acc.2 + outcomes.countP evaluable) := by
    induction outcomes with
    | nil => intro acc; rfl
    | cons o outcomes ih =>
      intro acc
      rw [List.foldl_cons, ih, List.countP_cons, List.countP_cons]
      have hevaluable : evaluable o = true ↔
          (o.outcome = .win ∨ o.outcome = .loss ∨ o.outcome = .be) ∧ o.rMultiple ≠ none := by
        unfold evaluable
        cases o.rMultiple <;> simp [or_assoc]
      unfold addLabelled
      by_cases h : evaluable o = true
      · rw [if_pos (hevaluable.1 h)]
        by_cases hlabel : o.outcome = label
        · simp [h, hlabel]
          omega
        · simp [h, hlabel]
          omega
      · rw [if_neg (mt hevaluable.2 h)]
        simp [h]
  unfold labelRate rate
  rw [hfold]
  simp

theorem rate_inj {m m' n : ℕ} (hm : m ≤ n) (hm' : m' ≤ n) (h : rate m n = rate m' n) : m = m' := by
  unfold rate at h
  rcases Nat.eq_zero_or_pos n with rfl | hn
  · omega
  · have hne : (n : ℚ) ≠ 0 := Nat.cast_ne_zero.2 hn.ne'
    rw [if_pos hn, if_pos hn] at h
    exact Nat.cast_injective ((div_left_inj' hne).1 h)

/-! ## Groups of tagged outcomes -/

section
variable {grouped : List (ReplaySignal × ReplayOutcome)}
  (htagged : ∀ t ∈ grouped, t.1.Tagged t.2.outcome t.2.rMultiple)

include htagged

theorem completed_eq :
    ((grouped.map (·.2)).countP fun o => o.outcome = .win || o.outcome = .loss) =
      grouped.countP (·.2.rMultiple.isSome) := by
  rw [List.countP_map]
  refine List.countP_congr fun t ht => ?_
  obtain ⟨ho, hr⟩ | ⟨ho, hr⟩ | ⟨ho, hr⟩ := htagged t ht <;> simp [ho, hr]

theorem evaluable_eq :
    (grouped.map (·.2)).countP evaluable = grouped.countP (·.2.rMultiple.isSome) := by
  rw [List.countP_map]
  refine List.countP_congr fun t ht => ?_
  obtain ⟨ho, hr⟩ | ⟨ho, hr⟩ | ⟨ho, hr⟩ := htagged t ht <;> simp [evaluable, ho, hr]

theorem labelled_eq (label : Outcome) (hlabel : label ≠ .unknown) :
    ((grouped.map (·.2)).countP fun o => evaluable o && o.outcome = label) =
      grouped.countP (·.2.outcome = label) := by
  rw [List.countP_map]
  refine List.countP_congr fun t ht => ?_
  obtain ⟨ho, hr⟩ | ⟨ho, hr⟩ | ⟨ho, hr⟩ := htagged t ht <;> simp [evaluable, ho, hr, hlabel.symm]

theorem breakEvens_eq_zero : grouped.countP (·.2.outcome = .be) = 0 := by
  rw [List.countP_eq_zero]
  intro t ht
  obtain ⟨ho, -⟩ | ⟨ho, -⟩ | ⟨ho, -⟩ := htagged t ht <;> simp [ho]

/-- The wins that count as such. -/
theorem winCount_eq :
    winCount grouped = grouped.countP fun t => t.2.outcome = .win && t.1.Profitable := by
  rw [winCount, length_truthyWhere]
  refine List.countP_congr fun t ht => ?_
  obtain ⟨ho, hr⟩ | ⟨ho, hr⟩ | ⟨ho, hr⟩ := htagged t ht
  · simp [ho, hr]
  · simp [ho, hr]
  · have hreward := t.1.reward_pos_iff
    by_cases hp : t.1.Profitable
    · have hpos := hreward.2 hp
      simp [ho, hr, hp, hpos, hpos.ne']
    · simp [ho, hr, hp, mt hreward.1 hp]

/-- Where every target is on the profit side, a loss is a trade with the label. -/
theorem lossCount_eq (hprofit : ∀ t ∈ grouped, t.2.outcome = .win → t.1.Profitable) :
    lossCount grouped = grouped.countP (·.2.outcome = .loss) := by
  rw [lossCount, length_truthyWhere]
  refine List.countP_congr fun t ht => ?_
  obtain ⟨ho, hr⟩ | ⟨ho, hr⟩ | ⟨ho, hr⟩ := htagged t ht
  · simp [ho, hr]
  · simp [ho, hr]
  · have hpos := t.1.reward_pos_iff.2 (hprofit t ht ho)
    simp [ho, hr, hpos.le]

/-- The trades labelled as wins and as losses are those with an R multiple. -/
theorem wins_add_losses : grouped.countP (·.2.outcome = .win) + grouped.countP (·.2.outcome = .loss) =
    grouped.countP (·.2.rMultiple.isSome) := by
  rw [countP_add_countP fun t _ h => by simp_all]
  refine List.countP_congr fun t ht => ?_
  obtain ⟨ho, hr⟩ | ⟨ho, hr⟩ | ⟨ho, hr⟩ := htagged t ht <;> simp [ho, hr]

theorem sampled_eq :
    ((grouped.map (·.2)).countP fun o => o.outcome = .win || o.outcome = .loss) +
      ((grouped.map (·.2)).countP fun o => o.outcome = .unknown) = grouped.length := by
  rw [List.countP_map, List.countP_map,
    countP_add_countP fun t _ h => by simp at h; rcases h with h | h <;> simp [h],
    List.countP_eq_length]
  intro t ht
  obtain ⟨ho, -⟩ | ⟨ho, -⟩ | ⟨ho, -⟩ := htagged t ht <;> simp [ho]

/-- The rates of a group before rounding. -/
theorem groupRates_eq (signal : ReplaySignal) :
    (computeGroupMetrics id signal grouped).winRate =
        rate (winCount grouped) (grouped.countP (·.2.rMultiple.isSome)) ∧
      (computeGroupMetrics id signal grouped).lossRate =
        rate (lossCount grouped) (grouped.countP (·.2.rMultiple.isSome)) ∧
      (computeGroupMetrics id signal grouped).beRate =
        rate (beCount grouped) (grouped.countP (·.2.rMultiple.isSome)) := by
  rw [← completed_eq htagged]
  exact ⟨rfl, rfl, rfl⟩

end

/-- **The counts of a group are consistent** exactly when every trade tagged as a win has its target
on the profit side of its entry. -/
theorem consistent_iff (signal : ReplaySignal) (grouped : List (ReplaySignal × ReplayOutcome))
    (h : ∀ t ∈ grouped, ∃ candles, t.2 = t.1.tag candles) :
    Consistent grouped signal ↔ ∀ t ∈ grouped, t.2.outcome = .win → t.1.Profitable := by
  have htagged : ∀ t ∈ grouped, t.1.Tagged t.2.outcome t.2.rMultiple := by
    intro t ht
    obtain ⟨candles, heq⟩ := h t ht
    rw [heq]
    exact t.1.tagged_tag candles
  have hcompleted : (computeGroupMetrics id signal grouped).completedTrades =
      grouped.countP (·.2.rMultiple.isSome) := completed_eq htagged
  have hsum := wins_add_losses htagged
  have hwinRate : computeWinRate (grouped.map (·.2)) =
      rate (grouped.countP (·.2.outcome = .win)) (grouped.countP (·.2.rMultiple.isSome)) := by
    rw [computeWinRate, labelRate_eq, labelled_eq htagged _ (by decide), evaluable_eq htagged]
  obtain ⟨hwins, hlosses, hbes⟩ := groupRates_eq htagged signal
  refine ⟨fun hc => ?_, fun hprofit => ?_⟩
  · have hle : winCount grouped ≤ grouped.countP (·.2.outcome = .win) := by
      rw [winCount_eq htagged]
      exact List.countP_mono_left fun t _ h => (Bool.and_eq_true_iff.1 h).1
    have hcount : winCount grouped = grouped.countP (·.2.outcome = .win) := by
      have hrate := hc.winRate
      rw [hwins, hwinRate] at hrate
      exact rate_inj (by omega) (by omega) hrate
    rw [winCount_eq htagged] at hcount
    intro t ht hwin
    have hp := forall_of_countP_eq (fun t _ h => (Bool.and_eq_true_iff.1 h).1) hcount t ht
      (decide_eq_true hwin)
    exact of_decide_eq_true (Bool.and_eq_true_iff.1 hp).2
  · have hcount : winCount grouped = grouped.countP (·.2.outcome = .win) := by
      rw [winCount_eq htagged]
      refine List.countP_congr fun t ht => ?_
      rw [Bool.and_eq_true_iff, and_iff_left_iff_imp]
      exact fun h => decide_eq_true (hprofit t ht (of_decide_eq_true h))
    have hloss := lossCount_eq htagged hprofit
    have hbe := beCount_eq_zero grouped
    refine ⟨by omega, sampled_eq htagged, fun hpos => ?_, ?_, ?_⟩
    · rw [hcompleted] at hpos
      rw [hwins, hlosses, hbes, hcount, hloss, hbe]
      unfold rate
      rw [if_pos hpos, if_pos hpos, if_pos hpos, ← add_div, ← add_div, Nat.cast_zero, add_zero,
        ← Nat.cast_add, hsum]
      exact div_self (Nat.cast_ne_zero.2 hpos.ne')
    · rw [hwins, hwinRate, hcount]
    · rw [hbes, hbe, computeBreakEvenRate, labelRate_eq, labelled_eq htagged _ (by decide),
        evaluable_eq htagged, breakEvens_eq_zero htagged]

/-! ## Groups of few trades -/

/-- A long from 100 with the stop at 99. -/
def longTo (tp : ℚ) : ReplaySignal where
  signalId := "s1"
  timestamp := 0
  symbol := "ES"
  timeframe := "5m"
  direction := "LONG"
  signalType := "sweep"
  entry := 100
  sl := 99
  tp := tp
  session := .string "NY"
  metaData := .null

/-- The trade, tagged by a candle that touches the target only. -/
def oneTrade (tp : ℚ) : List (ReplaySignal × ReplayOutcome) :=
  [(longTo tp, (longTo tp).tag [⟨1, tp, 199 / 2⟩])]

theorem oneTrade_tagged (tp : ℚ) : ∀ t ∈ oneTrade tp, ∃ candles, t.2 = t.1.tag candles := by
  intro t ht
  rw [List.mem_singleton.1 ht]
  exact ⟨_, rfl⟩

/-- With the target at the entry the trade has an R multiple of zero and is counted nowhere. -/
theorem flatTrade_inconsistent : (∀ t ∈ oneTrade 100, ∃ candles, t.2 = t.1.tag candles) ∧
    ¬ Consistent (oneTrade 100) (longTo 100) := by
  refine ⟨oneTrade_tagged 100, fun h => ?_⟩
  have hcounted := h.counted
  revert hcounted
  decide +kernel

/-- A trade that reaches its target, two that are stopped out, and one without candles. -/
def mixedGroup : List (ReplaySignal × ReplayOutcome) :=
  [(longTo 102, (longTo 102).tag [⟨1, 101, 100⟩, ⟨2, 103, 101⟩]),
    (longTo 104, (longTo 104).tag [⟨1, 101, 98⟩]), (longTo 103, (longTo 103).tag []),
    (longTo 102, (longTo 102).tag [⟨1, 100, 197 / 2⟩])]

theorem mixedGroup_consistent :
    mixedGroup.map (·.2.outcome) = [.win, .loss, .unknown, .loss] ∧
      Consistent mixedGroup (longTo 102) := by
  refine ⟨by decide +kernel, (consistent_iff (longTo 102) mixedGroup (fun t ht => ?_)).2 ?_⟩
  · unfold mixedGroup at ht
    simp only [List.mem_cons, List.not_mem_nil, or_false] at ht
    rcases ht with rfl | rfl | rfl | rfl
    · exact ⟨_, rfl⟩
    · exact ⟨_, rfl⟩
    · exact ⟨_, rfl⟩
    · exact ⟨_, rfl⟩
  · decide +kernel

end Replay
