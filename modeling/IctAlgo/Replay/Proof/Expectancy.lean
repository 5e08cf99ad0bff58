import Mathlib.Algebra.Order.BigOperators.Group.List
import Mathlib.Algebra.Order.Field.Basic
import Mathlib.Data.List.Induction
import Mathlib.Tactic.FieldSimp
import Mathlib.Tactic.Linarith
import Mathlib.Tactic.Ring
import IctAlgo.Replay.Metrics

/-!
# Expectancies

The expectancy of a set of trades is the mean of their R multiples (`meanR`), as `compute_expectancy`
has it. The reports know a trade by its side of zero: with `won` and `lost` the sums of the R
multiples above and below it, the mean is `(won - lost) / n`.

* `gapExpectancy_eq_iff`: the difference of the average win and the average loss, weighted by the win
  rate, is the mean exactly for balanced trades (`Balanced`); without break-evens these are as many
  wins as losses (`balanced_iff`).
* `weighted_eq_iff`: the average win and loss, each weighted by its own rate, and 0 when one of them
  is missing, is the mean exactly when both are there or none.
* `sessionTallies_get?`, `mem_replayBatch`: a report is about the trades of its own key.
* `reports_mean_iff`: the same for the reports of the two scripts, and for the allowlist.
-/

set_option autoImplicit false

namespace Replay

open Lib

/-! ## The mean -/

/-- The mean of the R multiples, 0 for none. -/
def meanR (rs : List ℚ) : ℚ := rs.sum / rs.length

def winsOf (rs : List ℚ) : List ℚ := rs.filter (· > 0)

def lossesOf (rs : List ℚ) : List ℚ := rs.filter (· < 0)

def won (rs : List ℚ) : ℚ := (winsOf rs).sum

def lost (rs : List ℚ) : ℚ := ((lossesOf rs).map abs).sum

section
variable (rs : List ℚ)

theorem sum_eq_won_sub_lost : rs.sum = won rs - lost rs := by
  induction rs with
  | nil => simp [won, lost, winsOf, lossesOf]
  | cons r rs ih =>
    unfold won lost winsOf lossesOf at ih ⊢
    rcases lt_trichotomy r 0 with h | h | h
    · simp only [List.sum_cons, ih, List.filter_cons, not_lt.2 h.le, h, decide_false, decide_true,
        Bool.false_eq_true, ↓reduceIte, List.map_cons, abs_of_neg h, gt_iff_lt]
      ring
    · simp [h, ih]
    · simp only [List.sum_cons, ih, List.filter_cons, not_lt.2 h.le, h, decide_false, decide_true,
        Bool.false_eq_true, ↓reduceIte, gt_iff_lt]
      ring

theorem won_pos {rs : List ℚ} (h : winsOf rs ≠ []) : 0 < won rs :=
  List.sum_pos _ (fun _ hr => of_decide_eq_true (List.mem_filter.1 hr).2) h

theorem lost_pos {rs : List ℚ} (h : lossesOf rs ≠ []) : 0 < lost rs := by
  refine List.sum_pos _ (fun x hx => ?_) (by simpa using h)
  obtain ⟨r, hr, rfl⟩ := List.mem_map.1 hx
  have hneg : r < 0 := of_decide_eq_true (List.mem_filter.1 hr).2
  exact abs_pos.2 hneg.ne

theorem won_eq_zero {rs : List ℚ} (h : winsOf rs = []) : won rs = 0 := by simp [won, h]

theorem lost_eq_zero {rs : List ℚ} (h : lossesOf rs = []) : lost rs = 0 := by simp [lost, h]

theorem length_pos_of_wins {rs : List ℚ} (h : winsOf rs ≠ []) : 0 < rs.length := by
  have hle : (winsOf rs).length ≤ rs.length := List.length_filter_le _ _
  have hpos := List.length_pos_of_ne_nil h
  omega

theorem length_pos_of_losses {rs : List ℚ} (h : lossesOf rs ≠ []) : 0 < rs.length := by
  have hle : (lossesOf rs).length ≤ rs.length := List.length_filter_le _ _
  have hpos := List.length_pos_of_ne_nil h
  omega

theorem meanR_eq : meanR rs = (won rs - lost rs) / rs.length := by
  rw [meanR, sum_eq_won_sub_lost]

/-- Trades on one side of zero do not cancel. -/
theorem meanR_ne_zero {rs : List ℚ} (h : ¬ (winsOf rs = [] ↔ lossesOf rs = [])) : meanR rs ≠ 0 := by
  rw [meanR_eq]
  by_cases hw : winsOf rs = []
  · have hl : lossesOf rs ≠ [] := fun hl => h (iff_of_true hw hl)
    have hlen : (0 : ℚ) < rs.length := by exact_mod_cast length_pos_of_losses hl
    have hlost := lost_pos hl
    rw [won_eq_zero hw]
    exact div_ne_zero (by linarith) hlen.ne'
  · have hl : lossesOf rs = [] := by
      by_contra hl
      exact h (iff_of_false hw hl)
    have hlen : (0 : ℚ) < rs.length := by exact_mod_cast length_pos_of_wins hw
    have hwon := won_pos hw
    rw [lost_eq_zero hl]
    exact div_ne_zero (by linarith) hlen.ne'

theorem meanR_eq_zero {rs : List ℚ} (hw : winsOf rs = []) (hl : lossesOf rs = []) : meanR rs = 0 := by
  rw [meanR_eq, won_eq_zero hw, lost_eq_zero hl, sub_zero, zero_div]

end

/-! ## The two formulas -/

/-- Nothing is won or lost; or something is won and something lost, and what the surplus of wins adds
is what the trades that are not completed take away. -/
def Balanced (rs : List ℚ) (completedTrades : ℕ) : Prop :=
  (winsOf rs = [] ∧ lossesOf rs = []) ∨
    (winsOf rs ≠ [] ∧ lossesOf rs ≠ [] ∧
      if completedTrades = 0 then won rs = lost rs
      else
        completedTrades * (((winsOf rs).length - (lossesOf rs).length) * lost rs) =
          (rs.length - completedTrades) *
            ((lossesOf rs).length * won rs - (winsOf rs).length * lost rs))

section
variable {rs : List ℚ}

theorem gapExpectancy_eq_zero {completedTrades : ℕ} (h : winsOf rs = [] ∨ lossesOf rs = []) :
    gapExpectancy (winsOf rs) (lossesOf rs) completedTrades = 0 := by
  unfold gapExpectancy
  rw [if_neg]
  rcases h with h | h
  · simp [h]
  · simp [h]

/-- The equation of the two weighted averages, with the denominators cleared. -/
theorem gap_eq_mean_iff {W L n c w l : ℚ} (hW : 0 < W) (hL : 0 < L) (hn : 0 < n) (hc : 0 < c) :
    (w / W - l / L) * (W / c) = (w - l) / n ↔ c * ((W - L) * l) = (n - c) * (L * w - W * l) := by
  have hleft : (w / W - l / L) * (W / c) = (L * w - W * l) / (L * c) := by
    field_simp
  rw [hleft, div_eq_div_iff (by positivity) hn.ne']
  refine ⟨fun h => ?_, fun h => ?_⟩
  · linarith
  · linarith

/-- **The gap of the averages, weighted by the win rate**, is the mean of balanced trades alone. -/
theorem gapExpectancy_eq_iff (rs : List ℚ) (completedTrades : ℕ) :
    gapExpectancy (winsOf rs) (lossesOf rs) completedTrades = meanR rs ↔
      Balanced rs completedTrades := by
  unfold Balanced
  by_cases hw : winsOf rs = []
  · rw [gapExpectancy_eq_zero (.inl hw)]
    by_cases hl : lossesOf rs = []
    · simp [hw, hl, meanR_eq_zero]
    · have hmean : meanR rs ≠ 0 := meanR_ne_zero fun h => hl (h.1 hw)
      simp [hw, hl, hmean.symm]
  · by_cases hl : lossesOf rs = []
    · rw [gapExpectancy_eq_zero (.inr hl)]
      have hmean : meanR rs ≠ 0 := meanR_ne_zero fun h => hw (h.2 hl)
      simp [hw, hl, hmean.symm]
    · have hW : (0 : ℚ) < (winsOf rs).length := by exact_mod_cast List.length_pos_of_ne_nil hw
      have hL : (0 : ℚ) < (lossesOf rs).length := by exact_mod_cast List.length_pos_of_ne_nil hl
      have hn : (0 : ℚ) < rs.length := by exact_mod_cast length_pos_of_wins hw
      have hgap : gapExpectancy (winsOf rs) (lossesOf rs) completedTrades =
          (won rs / (winsOf rs).length - lost rs / (lossesOf rs).length) *
            rate (winsOf rs).length completedTrades :=
        if_pos ⟨List.length_pos_of_ne_nil hw, List.length_pos_of_ne_nil hl⟩
      rw [hgap, meanR_eq]
      simp only [hw, hl, false_and, false_or, ne_eq, not_false_eq_true, true_and]
      unfold rate
      split
      · rename_i hc
        rw [if_neg hc.ne', gap_eq_mean_iff hW hL hn (by exact_mod_cast hc)]
      · rename_i hc
        rw [if_pos (by omega), mul_zero, eq_comm, div_eq_zero_iff, or_iff_left hn.ne', sub_eq_zero]

/-- When every trade is completed, it is won or lost, and the balance is one of numbers. -/
theorem balanced_iff (hn : 0 < rs.length) (h : rs.length = (winsOf rs).length + (lossesOf rs).length) :
    Balanced rs rs.length ↔ (winsOf rs).length = (lossesOf rs).length := by
  unfold Balanced
  have hne : rs.length ≠ 0 := by omega
  by_cases hl : lossesOf rs = []
  · have hw : winsOf rs ≠ [] := by
      intro hw
      rw [hw, hl] at h
      exact hne h
    simp [hw, hl]
  · by_cases hw : winsOf rs = []
    · have hlength : (0 : ℕ) ≠ (lossesOf rs).length := (List.length_pos_of_ne_nil hl).ne
      simp [hw, hl, hlength]
    · have hlost := lost_pos hl
      have hn' : (rs.length : ℚ) ≠ 0 := by exact_mod_cast hne
      simp only [hw, hl, false_and, false_or, ne_eq, not_false_eq_true, true_and, hne, ↓reduceIte,
        sub_self, zero_mul, mul_eq_zero, hn', hlost.ne', or_false, sub_eq_zero, Nat.cast_inj]

/-- The formula of a session. -/
def weightedExpectancy (rs : List ℚ) : ℚ :=
  if (winsOf rs).length > 0 ∧ (lossesOf rs).length > 0 then
    won rs / (winsOf rs).length * ((winsOf rs).length / rs.length) -
      lost rs / (lossesOf rs).length * ((lossesOf rs).length / rs.length)
  else 0

/-- **The averages, each weighted by its own rate**, miss the mean when only one of them is there. -/
theorem weighted_eq_iff (rs : List ℚ) :
    weightedExpectancy rs = meanR rs ↔ (winsOf rs = [] ↔ lossesOf rs = []) := by
  unfold weightedExpectancy
  by_cases hw : winsOf rs = []
  · by_cases hl : lossesOf rs = []
    · simp [hw, hl, meanR_eq_zero]
    · have hmean : meanR rs ≠ 0 := meanR_ne_zero fun h => hl (h.1 hw)
      simp [hw, hl, hmean.symm]
  · by_cases hl : lossesOf rs = []
    · have hmean : meanR rs ≠ 0 := meanR_ne_zero fun h => hw (h.2 hl)
      simp [hw, hl, hmean.symm]
    · have hW : (0 : ℚ) < (winsOf rs).length := by exact_mod_cast List.length_pos_of_ne_nil hw
      have hL : (0 : ℚ) < (lossesOf rs).length := by exact_mod_cast List.length_pos_of_ne_nil hl
      have hn : (0 : ℚ) < rs.length := by exact_mod_cast length_pos_of_wins hw
      rw [if_pos ⟨List.length_pos_of_ne_nil hw, List.length_pos_of_ne_nil hl⟩, meanR_eq]
      refine iff_of_true ?_ (iff_of_false hw hl)
      field_simp

end

/-! ## `compute_expectancy` -/

/-- The R multiples of the evaluable outcomes. -/
def evaluated (outcomes : List ReplayOutcome) : List ℚ :=
  (outcomes.filter (·.outcome ≠ .unknown)).filterMap (·.rMultiple)

theorem evaluated_cons (o : ReplayOutcome) (outcomes : List ReplayOutcome) :
    evaluated (o :: outcomes) =
      (if o.outcome = .unknown then [] else o.rMultiple.toList) ++ evaluated outcomes := by
  unfold evaluated
  by_cases h : o.outcome = .unknown
  · simp [h]
  · cases hr : o.rMultiple with
    | none => simp [h, hr]
    | some r => simp [h, hr]

theorem foldl_addEvaluable (outcomes : List ReplayOutcome) (acc : ℚ × ℕ) :
    outcomes.foldl addEvaluable acc =
      (acc.1 + (evaluated outcomes).sum, acc.2 + (evaluated outcomes).length) := by
  induction outcomes generalizing acc with
  | nil => simp [evaluated]
  | cons o outcomes ih =>
    rw [List.foldl_cons, ih, evaluated_cons]
    unfold addEvaluable
    by_cases h : o.outcome = .unknown
    · simp [h]
    · cases o.rMultiple with
      | none => simp [h]
      | some r => simp [h, add_assoc, add_comm, add_left_comm]

theorem computeExpectancy_eq (outcomes : List ReplayOutcome) :
    computeExpectancy outcomes = meanR (evaluated outcomes) := by
  unfold computeExpectancy meanR
  rw [foldl_addEvaluable]
  simp only [zero_add]
  split
  · rfl
  · rename_i hcount
    have hzero : (evaluated outcomes).length = 0 := by omega
    simp [hzero]

/-- Without an R multiple of an unknown outcome, the evaluated ones are all there are. -/
theorem evaluated_eq {outcomes : List ReplayOutcome}
    (h : ∀ o ∈ outcomes, o.outcome = .unknown → o.rMultiple = none) :
    evaluated outcomes = outcomes.filterMap (·.rMultiple) := by
  induction outcomes with
  | nil => rfl
  | cons o outcomes ih =>
    rw [evaluated_cons, ih fun o ho => h o (List.mem_cons_of_mem _ ho)]
    by_cases ho : o.outcome = .unknown
    · simp [ho, h o List.mem_cons_self ho]
    · cases hr : o.rMultiple with
      | none => simp [ho, hr]
      | some r => simp [ho, hr]

/-! ## The reports -/

theorem truthyWhere_eq (p : ℚ → Bool) (rMultiples : List (Option ℚ)) :
    truthyWhere p rMultiples = (rMultiples.filterMap id).filter fun r => r ≠ 0 && p r :=
  List.filter_filterMap.symm

theorem truthyWhere_pos (rMultiples : List (Option ℚ)) :
    truthyWhere (· > 0) rMultiples = winsOf (rMultiples.filterMap id) := by
  rw [truthyWhere_eq]
  refine List.filter_congr fun r _ => ?_
  by_cases h : r > 0
  · simp [h, h.ne']
  · simp [h]

theorem truthyWhere_neg (rMultiples : List (Option ℚ)) :
    truthyWhere (· < 0) rMultiples = lossesOf (rMultiples.filterMap id) := by
  rw [truthyWhere_eq]
  refine List.filter_congr fun r _ => ?_
  by_cases h : r < 0
  · simp [h, h.ne]
  · simp [h]

/-! ## Sessions -/

def rValuesOf (outcomes : List TaggedOutcome) : List ℚ := outcomes.filterMap (·.rMultiple)

/-- What the outcomes of one session are counted to. -/
def tallyOf (outcomes : List TaggedOutcome) : SessionMetrics where
  count := outcomes.length
  wins := (winsOf (rValuesOf outcomes)).length
  losses := (lossesOf (rValuesOf outcomes)).length
  be := ((rValuesOf outcomes).filter (· = 0)).length
  rValues := rValuesOf outcomes

theorem add_tallyOf (outcomes : List TaggedOutcome) (o : TaggedOutcome) :
    (tallyOf outcomes).add o = tallyOf (outcomes ++ [o]) := by
  unfold SessionMetrics.add tallyOf rValuesOf winsOf lossesOf
  rw [List.filterMap_append]
  cases hr : o.rMultiple with
  | none => simp [hr]
  | some r =>
    rcases lt_trichotomy r 0 with h | h | h
    · simp [hr, h, h.ne, not_lt.2 h.le]
    · simp [hr, h]
    · simp [hr, h, h.ne', not_lt.2 h.le]

theorem foldl_add (outcomes : List TaggedOutcome) :
    outcomes.foldl SessionMetrics.add {} = tallyOf outcomes := by
  induction outcomes using List.reverseRecOn with
  | nil => rfl
  | append_singleton outcomes o ih =>
    rw [List.foldl_append, ih]
    exact add_tallyOf outcomes o

def ofSession (session : String) (outcomes : List TaggedOutcome) : List TaggedOutcome :=
  outcomes.filter (·.sessionKey = session)

/-- A session has the tally of its outcomes. -/
theorem sessionTallies_get? (outcomes : List TaggedOutcome) (session : String) :
    (sessionTallies outcomes).get? session =
      if ofSession session outcomes = [] then none else some (tallyOf (ofSession session outcomes)) := by
  rw [sessionTallies, Dict.get?_groupBy, foldl_add]
  rfl

/-- The expectancy a session is given. -/
theorem groupBySession_expectancy {outcomes : List TaggedOutcome} {session : String}
    {data : SessionMetrics} (h : (groupBySession id outcomes).get? session = some data) :
    data.expectancy = weightedExpectancy (rValuesOf (ofSession session outcomes)) := by
  rw [groupBySession, Dict.get?_mapVals, sessionTallies_get?] at h
  split at h
  · cases h
  · cases h
    rfl

/-! ## The groups of a batch -/

/-- The trades of one group, in their order. -/
def ofGroup (key : String) (trades : List (ReplaySignal × ReplayOutcome)) :
    List (ReplaySignal × ReplayOutcome) :=
  trades.filter (groupKey · = key)

theorem groupOutcomes_get? (signals : List ReplaySignal) (outcomes : List ReplayOutcome)
    (key : String) :
    (groupOutcomes signals outcomes).get? key =
      if ofGroup key (signals.zip outcomes) = [] then none
      else some (ofGroup key (signals.zip outcomes)) := by
  have hconcat (trades acc : List (ReplaySignal × ReplayOutcome)) :
      trades.foldl (fun group trade => group ++ [trade]) acc = acc ++ trades := by
    induction trades generalizing acc with
    | nil => simp
    | cons trade trades ih => simp [ih]
  rw [groupOutcomes, Dict.get?_groupBy, hconcat]
  rfl

/-- **A batch reports each group by its own trades**, under the signal of the first. -/
theorem mem_replayBatch {signals : List ReplaySignal} {outcomes : List ReplayOutcome}
    {m : GroupMetrics} :
    m ∈ replayBatch signals outcomes ↔
      ∃ key trade, (ofGroup key (signals.zip outcomes)).head? = some trade ∧
        m = computeGroupMetrics round4 trade.1 (ofGroup key (signals.zip outcomes)) := by
  unfold replayBatch
  rw [List.mem_filterMap]
  refine ⟨fun h' => ?_, fun h' => ?_⟩
  · obtain ⟨grouped, hgrouped, h⟩ := h'
    obtain ⟨key, hkey⟩ := Dict.mem_values.1 hgrouped
    obtain ⟨trade, htrade, rfl⟩ := Option.map_eq_some_iff.1 h
    rw [groupOutcomes_get?] at hkey
    split at hkey
    · cases hkey
    · cases hkey
      exact ⟨key, trade, htrade, rfl⟩
  · obtain ⟨key, trade, htrade, rfl⟩ := h'
    refine ⟨ofGroup key (signals.zip outcomes), Dict.mem_values.2 ⟨key, ?_⟩, ?_⟩
    · rw [groupOutcomes_get?, if_neg]
      intro hempty
      rw [hempty] at htrade
      cases htrade
    · rw [htrade]
      rfl

/-! ## The allowlist -/

/-- Every group is decided by itself. -/
theorem mem_filterGroups {groups : List GroupSummary} {t : Thresholds} {e : AllowlistEntry} :
    e ∈ filterGroups groups t ↔
      ∃ g ∈ groups, t.admits g = true ∧ t.minExpectancy ≤ g.expectancy.getD 0 ∧ e = g.entry := by
  unfold filterGroups
  rw [List.mem_insertionSort, List.mem_map]
  refine ⟨fun h => ?_, fun h => ?_⟩
  · obtain ⟨g, hg, rfl⟩ := h
    obtain ⟨hmem, hp⟩ := List.mem_filter.1 hg
    rw [Bool.and_eq_true, decide_eq_true_iff] at hp
    exact ⟨g, hmem, hp.1, hp.2, rfl⟩
  · obtain ⟨g, hmem, hadmits, hexp, rfl⟩ := h
    refine ⟨g, List.mem_filter.2 ⟨hmem, ?_⟩, rfl⟩
    rw [Bool.and_eq_true, decide_eq_true_iff]
    exact ⟨hadmits, hexp⟩

/-- The report of a group, before rounding: its expectancy is that of `compute_expectancy`, and among
any groups it is listed by its own merit, where the other thresholds admit it, exactly when that
expectancy meets the threshold. -/
structure GroupMean (signal : ReplaySignal) (grouped : List (ReplaySignal × ReplayOutcome)) :
    Prop where
  expectancy : (computeGroupMetrics id signal grouped).expectancy =
    computeExpectancy (grouped.map (·.2))
  listed : ∀ t : Thresholds, t.admits (computeGroupMetrics id signal grouped).summary = true →
    ∀ groups, (computeGroupMetrics id signal grouped).summary.entry ∈
        filterGroups ((computeGroupMetrics id signal grouped).summary :: groups) t ↔
      t.minExpectancy ≤ computeExpectancy (grouped.map (·.2)) ∨
        (computeGroupMetrics id signal grouped).summary.entry ∈ filterGroups groups t

theorem groupMean_iff_expectancy {signal : ReplaySignal}
    {grouped : List (ReplaySignal × ReplayOutcome)} :
    GroupMean signal grouped ↔ (computeGroupMetrics id signal grouped).expectancy =
      computeExpectancy (grouped.map (·.2)) := by
  refine ⟨GroupMean.expectancy, fun h => ⟨h, fun t ht groups => ?_⟩⟩
  have hexp : (computeGroupMetrics id signal grouped).summary.expectancy.getD 0 =
      computeExpectancy (grouped.map (·.2)) := h
  rw [mem_filterGroups, mem_filterGroups]
  refine ⟨fun h' => ?_, fun h' => ?_⟩
  · obtain ⟨g, hg, hadmits, hmin, he⟩ := h'
    rcases List.mem_cons.1 hg with rfl | hg
    · left
      rw [← hexp]
      exact hmin
    · right
      exact ⟨g, hg, hadmits, hmin, he⟩
  · obtain hmin | ⟨g, hg, hadmits, hmin, he⟩ := h'
    · exact ⟨_, List.mem_cons_self, ht, hexp ▸ hmin, rfl⟩
    · exact ⟨g, List.mem_cons_of_mem _ hg, hadmits, hmin, he⟩

/-- The outcomes that a group counts as completed. -/
def wonOrLost (outcomes : List ReplayOutcome) : ℕ :=
  outcomes.countP fun o => o.outcome = .win || o.outcome = .loss

/-- The outcomes that a run counts as completed. -/
def exited (outcomes : List TaggedOutcome) : ℕ :=
  outcomes.countP fun o => o.exitType = "tp" || o.exitType = "sl"

theorem groupMetrics_expectancy (signal : ReplaySignal)
    (grouped : List (ReplaySignal × ReplayOutcome)) :
    (computeGroupMetrics id signal grouped).expectancy =
      gapExpectancy (winsOf ((grouped.map (·.2)).filterMap (·.rMultiple)))
        (lossesOf ((grouped.map (·.2)).filterMap (·.rMultiple))) (wonOrLost (grouped.map (·.2))) := by
  have hr : ((grouped.map (·.2)).map (·.rMultiple)).filterMap id =
      (grouped.map (·.2)).filterMap (·.rMultiple) := List.filterMap_map
  rw [← hr, ← truthyWhere_pos, ← truthyWhere_neg]
  rfl

theorem metrics_expectancy (outcomes : List TaggedOutcome) :
    (computeMetrics id outcomes).expectancy =
      gapExpectancy (winsOf (rValuesOf outcomes)) (lossesOf (rValuesOf outcomes))
        (exited outcomes) := by
  have hr : (outcomes.map (·.rMultiple)).filterMap id = rValuesOf outcomes := List.filterMap_map
  rw [← hr, ← truthyWhere_pos, ← truthyWhere_neg]
  rfl

/-- **Where the reports give the mean R**, before rounding. -/
theorem reports_mean_iff (signal : ReplaySignal) (grouped : List (ReplaySignal × ReplayOutcome))
    (hunknown : ∀ o ∈ grouped.map (·.2), o.outcome = .unknown → o.rMultiple = none)
    (outcomes : List TaggedOutcome) :
    (GroupMean signal grouped ↔
      Balanced ((grouped.map (·.2)).filterMap (·.rMultiple)) (wonOrLost (grouped.map (·.2)))) ∧
    ((computeMetrics id outcomes).expectancy = meanR (rValuesOf outcomes) ↔
      Balanced (rValuesOf outcomes) (exited outcomes)) ∧
    ∀ session data, (groupBySession id outcomes).get? session = some data →
      (data.expectancy = meanR (rValuesOf (ofSession session outcomes)) ↔
        (winsOf (rValuesOf (ofSession session outcomes)) = [] ↔
          lossesOf (rValuesOf (ofSession session outcomes)) = [])) := by
  refine ⟨?_, ?_, fun session data h => ?_⟩
  · rw [groupMean_iff_expectancy, computeExpectancy_eq, evaluated_eq hunknown, ← gapExpectancy_eq_iff,
      groupMetrics_expectancy]
  · rw [← gapExpectancy_eq_iff, metrics_expectancy]
  · rw [groupBySession_expectancy h, weighted_eq_iff]

/-! ## Groups of two trades -/

def longSignal : ReplaySignal where
  signalId := "s1"
  timestamp := 0
  symbol := "ES"
  timeframe := "5m"
  direction := "LONG"
  signalType := "sweep"
  entry := 100
  sl := 99
  tp := 102
  session := .string "NY"
  metaData := .null

/-- A trade of the signal with this outcome. -/
def tradeOf (outcome : Outcome) (r : ℚ) : ReplaySignal × ReplayOutcome :=
  (longSignal, {
    signalId := "s1", outcome, rMultiple := some r
    mae := none, mfe := none, exitPrice := none, exitTime := none })

theorem reports_mean_even : GroupMean longSignal [tradeOf .win 2, tradeOf .loss (-1)] := by
  refine (reports_mean_iff longSignal [tradeOf .win 2, tradeOf .loss (-1)] (by decide) []).1.2
    (.inr ⟨by decide, by decide, ?_⟩)
  decide +kernel

/-- A group that only wins is reported at zero and not listed. -/
theorem allWins_unlisted :
    computeExpectancy ([tradeOf .win 2, tradeOf .win 2].map (·.2)) = 2 ∧
    (computeGroupMetrics id longSignal [tradeOf .win 2, tradeOf .win 2]).expectancy = 0 ∧
    filterGroups [(computeGroupMetrics id longSignal [tradeOf .win 2, tradeOf .win 2]).summary]
      { minSamples := 2 } = [] ∧
    ¬ GroupMean longSignal [tradeOf .win 2, tradeOf .win 2] := by
  refine ⟨by decide +kernel, by decide +kernel, by decide +kernel, fun h => ?_⟩
  have hexp := h.expectancy
  revert hexp
  decide +kernel

end Replay
