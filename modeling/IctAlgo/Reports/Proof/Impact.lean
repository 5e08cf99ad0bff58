import Mathlib.Data.List.Induction
import IctAlgo.Reports.Counterfactual
import IctAlgo.Reports.Proof.Verdict

/-!
# The impact of a simulation

* `Extracts`: what the loop over the events has extracted.
* `Tracks`, `Rises`: the original drawdown is the greatest fall of the running sum; that of the winning
  results is 0.
* `simulate_impact`: what a simulation reports.
-/

set_option autoImplicit false

namespace Reports

open Lib Orchestrator
open Lib.Binary64 (Moves nearest total)

namespace Simulator

/-! ## Definitions -/

/-- The trades that were executed. -/
def executed (timeline : List Event) : List Event :=
  timeline.filter (·.eventType = "TRADE_EXECUTED")

/-- The outcomes that were recorded. -/
def recorded (timeline : List Event) : List Event :=
  timeline.filter (·.eventType = "OUTCOME_RECORDED")

/-- The event is an evaluation with violations. -/
def Violates (e : Event) : Prop := e.eventType = "GOVERNANCE_EVALUATED" ∧ e.violations.truthy = true

/-- The outcomes have these results, as floats; what is no number counts as 0. -/
def Results (outcomes : List Event) (rs : List PyFloat) : Prop :=
  outcomes.map (fun e => resultOf? e.pnl) = rs.map some

/-- The results are these numbers. -/
def Numbers (outcomes : List Event) (ns : List Number) : Prop :=
  outcomes.map (fun e => number? e.pnl) = ns.map some

/-- `x` is the greatest fall of the running sum, if that stays finite. -/
def IsDrawdown (rs : List PyFloat) (x : PyFloat) : Prop :=
  ∀ steps, Moves rs steps → ∃ d, x = nearest d ∧ IsGreatest (falls steps) d

/-- `sum(numbers)`, as a float. -/
def sumOf? (ns : List Number) : Option PyFloat := (ns.foldlM Number.add? (.int 0)).bind Number.float?

def Simulation.originalPnl (r : Simulation) : PyFloat :=
  (r.originalOutcome.map (·.pnl)).getD (.fin 0)

/-- No governance evaluation blocks what it does not find fault with, and the figures are those of the
outcomes that are not blocked. -/
structure BlocksViolationsOnly (timeline : List Event) (r : Simulation) : Prop where
  noEffect : (∀ e ∈ timeline, ¬Violates e) → r.counterfactualPnl = r.originalPnl ∧
    r.pnlDifference = .fin 0 ∧ r.executionImpact.tradesBlocked = 0 ∧
    r.executionImpact.maxDrawdownCounterfactual = r.executionImpact.maxDrawdownOriginal
  bounded : r.executionImpact.tradesBlocked ≤ (recorded timeline).length
  consistent : ∀ rs, Results (recorded timeline) rs → ∃ kept : List PyFloat, kept.Sublist rs ∧
    kept.length + r.executionImpact.tradesBlocked = rs.length ∧
    r.counterfactualPnl = total kept ∧
    IsDrawdown kept r.executionImpact.maxDrawdownCounterfactual

/-- What a simulation reports. -/
structure Impact (timeline : List Event) (r : Simulation) : Prop where
  bounded : r.executionImpact.tradesBlocked ≤ (recorded timeline).length
  unchanged : executed timeline = [] ∨ recorded timeline = [] →
    r.counterfactualPnl = r.originalPnl ∧ r.executionImpact.tradesBlocked = 0
  original : ∃ rs, Results (recorded timeline) rs ∧ r.originalPnl = total rs ∧
    IsDrawdown rs r.executionImpact.maxDrawdownOriginal
  winning : (∃ e ∈ timeline, Violates e) → r.executionImpact.maxDrawdownCounterfactual = .fin 0 ∧
    ∀ rs, Results (recorded timeline) rs → IsDrawdown (rs.filter (PyFloat.fin 0).lt) (.fin 0)
  noNumber : (∃ e ∈ timeline, Violates e) → (∃ e ∈ recorded timeline, number? e.pnl = none) →
    r.counterfactualPnl = r.originalPnl
  halved : (∃ e ∈ timeline, Violates e) → executed timeline ≠ [] → recorded timeline ≠ [] →
    ∀ ns, Numbers (recorded timeline) ns → r.counterfactualPnl =
      match sumOf? (ns.filter Number.neg) with
      | some losses => Binary64.sub r.originalPnl (Binary64.mul losses (.fin (1 / 2)))
      | none => r.originalPnl

/-- The violations of the evaluations are lists of texts. -/
def TextViolations (timeline : List Event) : Prop :=
  ∀ e ∈ timeline, Violates e → ∃ names : List String, e.violations = .list (names.map .str)

/-- No result is an integer that is too large for a float. -/
def FloatResults (timeline : List Event) : Prop :=
  ∀ e ∈ recorded timeline, (resultOf? e.pnl).isSome = true

/-! ## The events -/

/-- What the loop has extracted of the events. -/
structure Extracts (timeline : List Event) (x : Extracted) : Prop where
  tradeEvents : x.tradeEvents = executed timeline
  outcomeEvents : x.outcomeEvents = recorded timeline
  results : ∃ rs, Results (recorded timeline) rs ∧ x.originalPnl = total rs
  allowed : x.wouldHaveBeenAllowed = false ↔ ∃ e ∈ timeline, Violates e

section
variable {cv : Conv} {timeline : List Event} {x : Extracted}

theorem extracts_nil : Extracts [] {} where
  tradeEvents := rfl
  outcomeEvents := rfl
  results := ⟨[], rfl, rfl⟩
  allowed := by simp

theorem exists_violates_concat {e : Event} :
    (∃ e' ∈ timeline ++ [e], Violates e') ↔ (∃ e' ∈ timeline, Violates e') ∨ Violates e := by
  simp only [List.mem_append, List.mem_singleton, or_and_right, exists_or, exists_eq_left]

theorem executed_concat (timeline : List Event) (e : Event) : executed (timeline ++ [e]) =
    executed timeline ++ if e.eventType = "TRADE_EXECUTED" then [e] else [] := by
  simp only [executed, List.filter_append, List.filter_singleton, Bool.cond_decide]

theorem recorded_concat (timeline : List Event) (e : Event) : recorded (timeline ++ [e]) =
    recorded timeline ++ if e.eventType = "OUTCOME_RECORDED" then [e] else [] := by
  simp only [recorded, List.filter_append, List.filter_singleton, Bool.cond_decide]

/-- An event that is no evaluation with violations leaves what is allowed. -/
theorem Extracts.allowed_concat (h : Extracts timeline x) {e : Event} (he : ¬Violates e) :
    x.wouldHaveBeenAllowed = false ↔ ∃ e' ∈ timeline ++ [e], Violates e' := by
  rw [exists_violates_concat, h.allowed]
  exact ⟨.inl, fun hor => hor.resolve_right he⟩

theorem Extracts.add (h : Extracts timeline x) {e : Event} {x' : Extracted}
    (hadd : x.add cv e = some x') : Extracts (timeline ++ [e]) x' := by
  unfold Extracted.add at hadd
  by_cases htrade : e.eventType = "TRADE_EXECUTED"
  · have houtcome : e.eventType ≠ "OUTCOME_RECORDED" := by rw [htrade]; decide
    have hviolates : ¬Violates e := fun hv => absurd (htrade.symm.trans hv.1) (by decide)
    rw [if_pos htrade] at hadd
    cases hadd
    refine ⟨?_, ?_, ?_, h.allowed_concat hviolates⟩
    · rw [executed_concat, if_pos htrade, h.tradeEvents]
    · rw [recorded_concat, if_neg houtcome, List.append_nil, h.outcomeEvents]
    · rw [recorded_concat, if_neg houtcome, List.append_nil]
      exact h.results
  rw [if_neg htrade] at hadd
  have hexecuted : executed (timeline ++ [e]) = executed timeline := by
    rw [executed_concat, if_neg htrade, List.append_nil]
  by_cases houtcome : e.eventType = "OUTCOME_RECORDED"
  · have hviolates : ¬Violates e := fun hv => absurd (houtcome.symm.trans hv.1) (by decide)
    rw [if_pos houtcome] at hadd
    obtain ⟨result, hresult, hx'⟩ := Option.bind_eq_some_iff.1 hadd
    cases hx'
    obtain ⟨rs, hrs, hpnl⟩ := h.results
    refine ⟨by rw [hexecuted, h.tradeEvents], ?_, ⟨rs ++ [result], ?_, ?_⟩, h.allowed_concat hviolates⟩
    · rw [recorded_concat, if_pos houtcome, h.outcomeEvents]
    · rw [recorded_concat, if_pos houtcome]
      unfold Results at hrs ⊢
      rw [List.map_append, List.map_append, hrs, List.map_singleton, hresult, List.map_singleton]
    · rw [hpnl, Binary64.total_concat]
  rw [if_neg houtcome] at hadd
  have hrecorded : recorded (timeline ++ [e]) = recorded timeline := by
    rw [recorded_concat, if_neg houtcome, List.append_nil]
  by_cases hviolates : Violates e
  · rw [if_pos hviolates.1, if_pos hviolates.2] at hadd
    obtain ⟨rules, -, hx'⟩ := Option.bind_eq_some_iff.1 hadd
    cases hx'
    refine ⟨by rw [hexecuted, h.tradeEvents], by rw [hrecorded, h.outcomeEvents], ?_, ?_⟩
    · rw [hrecorded]
      exact h.results
    · exact iff_of_true rfl ⟨e, List.mem_append_right _ List.mem_cons_self, hviolates⟩
  · have hx' : x' = x := by
      split at hadd
      · rename_i hgovernance
        rw [if_neg fun htruthy => hviolates ⟨hgovernance, htruthy⟩] at hadd
        exact (Option.some.inj hadd).symm
      · exact (Option.some.inj hadd).symm
    rw [hx']
    refine ⟨by rw [hexecuted, h.tradeEvents], by rw [hrecorded, h.outcomeEvents], ?_,
      h.allowed_concat hviolates⟩
    rw [hrecorded]
    exact h.results

theorem extracts_foldlM (h : timeline.foldlM (Extracted.add cv) {} = some x) :
    Extracts timeline x := by
  induction timeline using List.reverseRecOn generalizing x with
  | nil =>
    cases h
    exact extracts_nil
  | append_singleton timeline e ih =>
    rw [List.foldlM_append] at h
    obtain ⟨y, hy, hadd⟩ := Option.bind_eq_some_iff.1 h
    rw [List.foldlM_cons] at hadd
    obtain ⟨z, hz, hlast⟩ := Option.bind_eq_some_iff.1 hadd
    cases hlast
    exact (ih hy).add hz

end

/-! ## Blocked outcomes -/

theorem thirtyPercent_le (n : ℕ) : thirtyPercent n ≤ n := by
  have hn := Binary64.roundSig_le_add n
  have hproduct := Binary64.roundSig_le_add (Binary64.roundSig n * 5404319552844595)
  unfold thirtyPercent Binary64.truncMul
  generalize Binary64.roundSig n = x at hn hproduct ⊢
  generalize Binary64.roundSig (x * 5404319552844595) = y at hproduct ⊢
  omega

section
variable {outcomes : List Event} {rs : List PyFloat} {ns : List Number}

theorem Results.cons {e : Event} (h : Results (e :: outcomes) rs) :
    ∃ x rs', rs = x :: rs' ∧ resultOf? e.pnl = some x ∧ Results outcomes rs' := by
  cases rs with
  | nil => cases h
  | cons x rs' =>
    obtain ⟨hx, hrest⟩ := List.cons_eq_cons.1 h
    exact ⟨x, rs', rfl, hx, hrest⟩

/-- The sum of the losses. -/
theorem foldlM_addLoss (h : Numbers outcomes ns) (t : Number) :
    outcomes.foldlM addLoss t = (ns.filter Number.neg).foldlM Number.add? t := by
  induction outcomes generalizing ns t with
  | nil =>
    obtain rfl := List.map_eq_nil_iff.1 h.symm
    rfl
  | cons e outcomes ih =>
    cases ns with
    | nil => cases h
    | cons n ns =>
      obtain ⟨hn, hrest⟩ := List.cons_eq_cons.1 h
      have hadd : addLoss t e = if n.neg then t.add? n else some t := by
        unfold addLoss
        rw [show number? e.pnl = some n from hn]
        rfl
      rw [List.foldlM_cons, hadd]
      by_cases hneg : n.neg = true
      · rw [if_pos hneg, List.filter_cons_of_pos hneg, List.foldlM_cons]
        exact congrArg _ (funext fun t' => ih hrest t')
      · rw [if_neg hneg, List.filter_cons_of_neg hneg]
        exact ih hrest t

theorem losingTradesPnl?_eq (h : Numbers outcomes ns) :
    losingTradesPnl? outcomes = sumOf? (ns.filter Number.neg) := by
  unfold losingTradesPnl? sumOf?
  rw [foldlM_addLoss h]
  rfl

/-- One result that is no number raises. -/
theorem foldlM_addLoss_none {e : Event} (he : e ∈ outcomes) (hnumber : number? e.pnl = none)
    (t : Number) : outcomes.foldlM addLoss t = none := by
  induction outcomes generalizing t with
  | nil => cases he
  | cons e' outcomes ih =>
    rw [List.foldlM_cons]
    rcases List.mem_cons.1 he with rfl | hrest
    · unfold addLoss
      rw [hnumber]
      rfl
    · cases addLoss t e' with
      | none => rfl
      | some t' => exact ih hrest t'

theorem losingTradesPnl?_none {e : Event} (he : e ∈ outcomes) (hnumber : number? e.pnl = none) :
    losingTradesPnl? outcomes = none := by
  unfold losingTradesPnl?
  rw [foldlM_addLoss_none he hnumber]
  rfl

/-- Half of the losses are taken back, if their sum does not raise. -/
theorem simulateBlockedTrades_fst {tradeEvents : List Event} (htrades : tradeEvents ≠ [])
    (houtcomes : outcomes ≠ []) (originalPnl : PyFloat) :
    (simulateBlockedTrades tradeEvents outcomes originalPnl).1 =
      match losingTradesPnl? outcomes with
      | some losses => Binary64.sub originalPnl (Binary64.mul losses (.fin (1 / 2)))
      | none => originalPnl := by
  unfold simulateBlockedTrades
  rw [if_neg (by simp [htrades, houtcomes])]
  cases losingTradesPnl? outcomes with
  | none => rfl
  | some losses => rfl

theorem simulateBlockedTrades_le (tradeEvents outcomes : List Event) (originalPnl : PyFloat) :
    (simulateBlockedTrades tradeEvents outcomes originalPnl).2 ≤ outcomes.length := by
  unfold simulateBlockedTrades
  split
  · exact Nat.zero_le _
  · split
    · exact Nat.zero_le _
    · exact thirtyPercent_le _

theorem simulateBlockedTrades_empty {tradeEvents outcomes : List Event} (originalPnl : PyFloat)
    (h : tradeEvents = [] ∨ outcomes = []) :
    simulateBlockedTrades tradeEvents outcomes originalPnl = (originalPnl, 0) := by
  unfold simulateBlockedTrades
  apply if_pos
  rcases h with rfl | rfl
  · rfl
  · simp

theorem simulateBlockedTrades_none {tradeEvents : List Event} {e : Event} (he : e ∈ outcomes)
    (hnumber : number? e.pnl = none) (originalPnl : PyFloat) :
    (simulateBlockedTrades tradeEvents outcomes originalPnl).1 = originalPnl := by
  by_cases htrades : tradeEvents = []
  · rw [simulateBlockedTrades_empty originalPnl (.inl htrades)]
  · rw [simulateBlockedTrades_fst htrades (List.ne_nil_of_mem he), losingTradesPnl?_none he hnumber]

/-! ## Drawdowns -/

/-- Rounding keeps the order, so the greatest of two rounded numbers is the rounded greatest. -/
theorem maxFloat_nearest (p q : ℚ) : maxFloat (nearest p) (nearest q) = nearest (max p q) := by
  unfold maxFloat
  rcases le_total p q with hle | hle
  · rw [max_eq_right hle]
    split
    · rfl
    · rename_i hnot
      have hback := (Binary64.lt_eq_false_iff (Binary64.nearest_ne_nan p)
        (Binary64.nearest_ne_nan q)).1 (Bool.eq_false_of_not_eq_true hnot)
      exact Binary64.eq_of_le_of_le (Binary64.nearest_mono hle) hback
  · rw [max_eq_left hle, if_neg]
    rw [Bool.not_eq_true, Binary64.lt_eq_false_iff (Binary64.nearest_ne_nan p)
      (Binary64.nearest_ne_nan q)]
    exact Binary64.nearest_mono hle

theorem maxFloat_fin (p q : ℚ) : maxFloat (.fin p) (.fin q) = .fin (max p q) := by
  unfold maxFloat PyFloat.lt
  by_cases h : p < q
  · simp [h, max_eq_right h.le]
  · simp [h, max_eq_left (not_lt.1 h)]

theorem sub_fin (p q : ℚ) : Binary64.sub (.fin p) (.fin q) = nearest (p - q) := by
  rw [sub_eq_add_neg]
  rfl

/-- The variables of the first loop after some results. -/
structure Tracks (d : Drawdown) (rs : List PyFloat) : Prop where
  cumulative : d.cumulativePnl = total rs
  peak : ∀ steps, Moves rs steps → ∃ m, d.peak = .fin m ∧ IsGreatest (partialSums steps) m
  maxDrawdown : IsDrawdown rs d.maxDrawdown

theorem isDrawdown_nil : IsDrawdown [] (.fin 0) := by
  intro steps hmoves
  rw [List.length_eq_zero_iff.1 hmoves.length]
  exact ⟨0, Binary64.nearest_zero.symm, isGreatest_falls_nil⟩

theorem tracks_nil : Tracks {} [] where
  cumulative := rfl
  peak steps hmoves := by
    rw [List.length_eq_zero_iff.1 hmoves.length]
    exact ⟨0, rfl, isGreatest_partialSums_nil⟩
  maxDrawdown := isDrawdown_nil

theorem Tracks.track {d : Drawdown} (h : Tracks d rs) (x : PyFloat) :
    Tracks (d.track (Binary64.add d.cumulativePnl x)) (rs ++ [x]) := by
  -- the peak and the greatest fall after one more step
  have hstep : ∀ steps, Moves (rs ++ [x]) steps → ∃ peak fall,
      (d.track (Binary64.add d.cumulativePnl x)).peak = .fin peak ∧
      IsGreatest (partialSums steps) peak ∧
      (d.track (Binary64.add d.cumulativePnl x)).maxDrawdown = nearest fall ∧
      IsGreatest (falls steps) fall := by
    intro steps hmoves
    obtain ⟨init, step, rfl, hinit, hadd⟩ := hmoves.of_concat
    obtain ⟨peak, hpeak, hgreatest⟩ := h.peak init hinit
    obtain ⟨fall, hfall, hfalls⟩ := h.maxDrawdown init hinit
    have hpeak' := isGreatest_partialSums_concat hgreatest step
    have hfall' := isGreatest_falls_concat hfalls hpeak'
    rw [h.cumulative, hadd]
    refine ⟨_, _, ?_, hpeak', ?_, hfall'⟩
    · show maxFloat d.peak _ = _
      rw [hpeak, maxFloat_fin]
    · show maxFloat d.maxDrawdown (Binary64.sub (maxFloat d.peak _) _) = _
      rw [hpeak, hfall, maxFloat_fin, sub_fin, maxFloat_nearest]
  refine ⟨?_, fun steps hmoves => ?_, fun steps hmoves => ?_⟩
  · rw [Binary64.total_concat, ← h.cumulative]
    rfl
  · obtain ⟨peak, _, hpeak, hgreatest, _⟩ := hstep steps hmoves
    exact ⟨peak, hpeak, hgreatest⟩
  · obtain ⟨_, fall, _, _, hfall, hgreatest⟩ := hstep steps hmoves
    exact ⟨fall, hfall, hgreatest⟩

theorem tracks_foldlM {d : Drawdown} {ps : List PyFloat} (hd : Tracks d ps)
    (h : Results outcomes rs) :
    ∃ d', outcomes.foldlM Drawdown.addOutcome d = some d' ∧ Tracks d' (ps ++ rs) := by
  induction outcomes generalizing rs d ps with
  | nil =>
    obtain rfl := List.map_eq_nil_iff.1 h.symm
    rw [List.append_nil]
    exact ⟨d, rfl, hd⟩
  | cons e outcomes ih =>
    obtain ⟨x, rs, rfl, hx, hrest⟩ := h.cons
    have hadd : d.addOutcome e = some (d.track (Binary64.add d.cumulativePnl x)) := by
      unfold Drawdown.addOutcome
      rw [hx]
      rfl
    rw [List.foldlM_cons, hadd, List.append_cons]
    exact ih (hd.track x) hrest

/-- The variables of the second loop, which has counted winning trades only: the sum is at its peak. -/
structure Rises (d : Drawdown) : Prop where
  level : (∃ q, d.cumulativePnl = .fin q ∧ Binary64.Representable q) ∨ d.cumulativePnl = .inf
  peak : d.peak = d.cumulativePnl
  maxDrawdown : d.maxDrawdown = .fin 0

theorem rises_init : Rises {} where
  level := .inl ⟨0, rfl, Binary64.nearest_zero⟩
  peak := rfl
  maxDrawdown := rfl

/-- At the peak there is no drawdown; that of an infinite sum is no number. -/
theorem track_rises {d : Drawdown} {level : PyFloat} (hmax : d.maxDrawdown = .fin 0)
    (hlevel : (∃ q, level = .fin q ∧ Binary64.Representable q) ∨ level = .inf)
    (hpeak : maxFloat d.peak level = level) : Rises (d.track level) := by
  refine ⟨hlevel, hpeak, ?_⟩
  show maxFloat d.maxDrawdown (Binary64.sub (maxFloat d.peak level) level) = _
  rw [hpeak, hmax]
  rcases hlevel with ⟨q, rfl, -⟩ | rfl
  · rw [sub_fin, sub_self, Binary64.nearest_zero.nearest_eq, maxFloat_fin, max_self]
  · rfl

/-- A winning trade raises the sum. -/
theorem Rises.win {d : Drawdown} (h : Rises d) {x : PyFloat} (hx : PyFloat.lt (.fin 0) x = true) :
    Rises (d.track (Binary64.add d.cumulativePnl x)) := by
  rcases h.level with ⟨p, hp, hfloat⟩ | hinf
  · have hisFloat := Binary64.isFloat_add (.fin p) x
    have hle := Binary64.le_add_of_pos hfloat hx
    rw [hp]
    generalize Binary64.add (.fin p) x = level at hisFloat hle
    cases level with
    | fin q =>
      apply track_rises h.maxDrawdown (.inl ⟨q, rfl, hisFloat q rfl⟩)
      rw [h.peak, hp, maxFloat_fin, max_eq_right (of_decide_eq_true hle)]
    | inf =>
      apply track_rises h.maxDrawdown (.inr rfl)
      rw [h.peak, hp]
      rfl
    | _ => cases hle
  · have hadd : Binary64.add .inf x = .inf := by
      cases x with
      | fin q => rfl
      | inf => rfl
      | _ => cases hx
    rw [hinf, hadd]
    apply track_rises h.maxDrawdown (.inr rfl)
    rw [h.peak, hinf]
    rfl

/-- What is no winning trade leaves the sum. -/
theorem Rises.stay {d : Drawdown} (h : Rises d) : Rises (d.track d.cumulativePnl) := by
  apply track_rises h.maxDrawdown h.level
  rw [h.peak]
  unfold maxFloat
  exact ite_self _

theorem float?_pos {n : Number} {x : PyFloat} (hpos : n.pos = true) (hx : n.float? = some x) :
    PyFloat.lt (.fin 0) x = true := by
  cases n with
  | int m => exact Binary64.floatOfInt?_pos hx (of_decide_eq_true hpos)
  | float y =>
    obtain rfl := Option.some.inj hx
    exact hpos

theorem Rises.addWin {d : Drawdown} (h : Rises d) {e : Event} {x : PyFloat}
    (hx : resultOf? e.pnl = some x) : ∃ d', d.addWin e = some d' ∧ Rises d' := by
  unfold Drawdown.addWin
  unfold resultOf? at hx
  cases hnumber : number? e.pnl with
  | none => exact ⟨_, rfl, h.stay⟩
  | some n =>
    rw [hnumber] at hx
    by_cases hpos : n.pos = true
    · rw [Option.filter_some, if_pos hpos]
      refine ⟨_, Option.bind_eq_some_iff.2 ⟨x, hx, rfl⟩, h.win (float?_pos hpos hx)⟩
    · rw [Option.filter_some, if_neg hpos]
      exact ⟨_, rfl, h.stay⟩

theorem rises_foldlM {d : Drawdown} (hd : Rises d) (h : Results outcomes rs) :
    ∃ d', outcomes.foldlM Drawdown.addWin d = some d' ∧ Rises d' := by
  induction outcomes generalizing d rs with
  | nil => exact ⟨d, rfl, hd⟩
  | cons e outcomes ih =>
    obtain ⟨x, rs, rfl, hx, hrest⟩ := h.cons
    obtain ⟨d', hd', hrises⟩ := hd.addWin hx
    rw [List.foldlM_cons, hd']
    exact ih hrises hrest

theorem simulateDrawdown_eq (h : Results outcomes rs) :
    IsDrawdown rs (simulateDrawdown outcomes).1 ∧ (simulateDrawdown outcomes).2 = .fin 0 := by
  obtain ⟨d, hd, htracks⟩ := tracks_foldlM tracks_nil h
  obtain ⟨d', hd', hrises⟩ := rises_foldlM rises_init h
  unfold simulateDrawdown
  rw [hd, hd']
  exact ⟨htracks.maxDrawdown, hrises.maxDrawdown⟩

end

/-! ## Simulations -/

/-- A simulation of a timeline with events is made of what the loop has extracted. -/
theorem simulate_ok {tx : Texts} {cv : Conv} {s : Timelines} {correlationId : String} {r : Simulation}
    (h : simulate tx cv s correlationId = some r) (hne : s.getTimeline correlationId ≠ []) :
    ∃ x explanation, Extracts (s.getTimeline correlationId) x ∧
      r = { simulationOf correlationId x with explanation } := by
  unfold simulate at h
  split at h
  · rename_i hnil
    exact absurd hnil hne
  · rename_i e es hcons
    obtain ⟨x, hx, h⟩ := Option.bind_eq_some_iff.1 h
    obtain ⟨explanation, -, h⟩ := Option.bind_eq_some_iff.1 h
    refine ⟨x, explanation, ?_, (Option.some.inj h).symm⟩
    rw [hcons]
    exact extracts_foldlM hx

theorem impact_simulationOf {timeline : List Event} {x : Extracted} (h : Extracts timeline x)
    (correlationId explanation : String) :
    Impact timeline { simulationOf correlationId x with explanation } := by
  obtain ⟨rs, hrs, hpnl⟩ := h.results
  have hdrawdown := simulateDrawdown_eq hrs
  rw [← h.outcomeEvents] at hdrawdown
  refine ⟨?_, fun hempty => ?_, ⟨rs, hrs, hpnl, hdrawdown.1⟩, fun _ => ⟨hdrawdown.2, ?_⟩, ?_, ?_⟩
  · rw [← h.outcomeEvents]
    exact simulateBlockedTrades_le _ _ _
  · rw [← h.tradeEvents, ← h.outcomeEvents] at hempty
    have hblocked := simulateBlockedTrades_empty x.originalPnl hempty
    exact ⟨congrArg Prod.fst hblocked, congrArg Prod.snd hblocked⟩
  · intro rs _ steps hmoves
    refine ⟨0, Binary64.nearest_zero.symm, hmoves.isGreatest_falls fun x hx => ?_⟩
    exact (List.mem_filter.1 hx).2
  · rintro - ⟨e, he, hnumber⟩
    rw [← h.outcomeEvents] at he
    exact simulateBlockedTrades_none he hnumber _
  · intro _ htrades houtcomes ns hns
    rw [← h.tradeEvents] at htrades
    rw [← h.outcomeEvents] at houtcomes hns
    rw [← losingTradesPnl?_eq hns]
    exact simulateBlockedTrades_fst htrades houtcomes x.originalPnl

/-! ## Error answers -/

theorem exists_add (cv : Conv) {x : Extracted} {e : Event}
    (hrules : ∀ rule ∈ x.violatedRules, (ruleName? rule).isSome = true)
    (he : Violates e → ∃ names : List String, e.violations = .list (names.map .str))
    (hresult : e.eventType = "OUTCOME_RECORDED" → (resultOf? e.pnl).isSome = true) :
    ∃ x', x.add cv e = some x' ∧ ∀ rule ∈ x'.violatedRules, (ruleName? rule).isSome = true := by
  unfold Extracted.add
  split
  · exact ⟨_, rfl, hrules⟩
  split
  · rename_i houtcome
    obtain ⟨result, hresult⟩ := Option.isSome_iff_exists.1 (hresult houtcome)
    rw [hresult]
    exact ⟨_, rfl, hrules⟩
  split
  · rename_i hgovernance
    split
    · rename_i htruthy
      obtain ⟨names, hnames⟩ := he ⟨hgovernance, htruthy⟩
      rw [hnames]
      refine ⟨_, rfl, fun rule hrule => ?_⟩
      obtain hrule | hrule := List.mem_append.1 hrule
      · exact hrules rule hrule
      · obtain ⟨name, -, rfl⟩ := List.mem_map.1 hrule
        rfl
    · exact ⟨_, rfl, hrules⟩
  · exact ⟨_, rfl, hrules⟩

theorem exists_extracted (cv : Conv) {timeline : List Event} (h : TextViolations timeline)
    (hresults : FloatResults timeline) {x : Extracted} (hrules : ∀ rule ∈ x.violatedRules, (ruleName? rule).isSome = true) :
    ∃ x', timeline.foldlM (Extracted.add cv) x = some x' ∧
      ∀ rule ∈ x'.violatedRules, (ruleName? rule).isSome = true := by
  induction timeline generalizing x with
  | nil => exact ⟨x, rfl, hrules⟩
  | cons e timeline ih =>
    have hresult : e.eventType = "OUTCOME_RECORDED" → (resultOf? e.pnl).isSome = true := by
      intro houtcome
      apply hresults e
      exact List.mem_filter.2 ⟨List.mem_cons_self, decide_eq_true houtcome⟩
    have hrest : FloatResults timeline := by
      intro e' he'
      obtain ⟨hmem, houtcome⟩ := List.mem_filter.1 he'
      exact hresults e' (List.mem_filter.2 ⟨List.mem_cons_of_mem _ hmem, houtcome⟩)
    obtain ⟨y, hy, hrules⟩ := exists_add cv hrules (h e List.mem_cons_self) hresult
    rw [List.foldlM_cons, hy]
    exact ih (fun e' he' => h e' (List.mem_cons_of_mem _ he')) hrest hrules

theorem exists_joinRules {rules : List Value} (h : ∀ rule ∈ rules, (ruleName? rule).isSome = true) :
    ∃ text, joinRules? rules = some text := by
  have hnames : ∃ names, rules.mapM ruleName? = some names := by
    induction rules with
    | nil => exact ⟨[], rfl⟩
    | cons rule rules ih =>
      obtain ⟨hrule, hrest⟩ := List.forall_mem_cons.1 h
      obtain ⟨name, hname⟩ := Option.isSome_iff_exists.1 hrule
      obtain ⟨names, hnames⟩ := ih hrest
      exact ⟨name :: names, by rw [List.mapM_cons, hname, hnames]; rfl⟩
  obtain ⟨names, hnames⟩ := hnames
  exact ⟨_, by rw [joinRules?, hnames, Option.map_some]⟩

theorem exists_explanation (tx : Texts) {r : Simulation} (originalPnl : PyFloat)
    (h : ∀ rule ∈ r.violatedRules, (ruleName? rule).isSome = true) :
    ∃ text, explain? tx r originalPnl = some text := by
  obtain ⟨rules, hrules⟩ := exists_joinRules h
  unfold explain?
  rw [hrules]
  dsimp only
  split_ifs
  all_goals exact ⟨_, rfl⟩

theorem exists_simulation (tx : Texts) (cv : Conv) {s : Timelines} {correlationId : String}
    (h : TextViolations (s.getTimeline correlationId))
    (hresults : FloatResults (s.getTimeline correlationId)) :
    ∃ r, simulate tx cv s correlationId = some r := by
  unfold simulate
  cases htimeline : s.getTimeline correlationId with
  | nil => exact ⟨_, rfl⟩
  | cons e es =>
    rw [htimeline] at h hresults
    obtain ⟨x, hx, hrules⟩ := exists_extracted cv h hresults (x := {}) (by simp)
    obtain ⟨text, htext⟩ := exists_explanation tx (r := simulationOf correlationId x) x.originalPnl
      hrules
    refine ⟨_, Option.bind_eq_some_iff.2 ⟨x, hx, Option.bind_eq_some_iff.2 ⟨text, htext, rfl⟩⟩⟩

/-- **The impact of a simulation.** A timeline whose violations are lists of texts and whose results are
in the range of the floats gets a report; and in a report no more outcomes are blocked than were
recorded, nothing changes without a trade or an outcome, and with a violation half of the losses are
taken back and the drawdown is that of the winning outcomes. -/
theorem simulate_impact (tx : Texts) (cv : Conv) (s : Timelines) (correlationId : String) :
    (TextViolations (s.getTimeline correlationId) → FloatResults (s.getTimeline correlationId) →
      ∃ r, simulate tx cv s correlationId = some r) ∧
    ∀ r, simulate tx cv s correlationId = some r → Impact (s.getTimeline correlationId) r := by
  refine ⟨exists_simulation tx cv, fun r hr => ?_⟩
  by_cases hne : s.getTimeline correlationId = []
  · unfold simulate at hr
    rw [hne] at hr ⊢
    cases hr
    refine ⟨le_rfl, fun _ => ⟨rfl, rfl⟩, ⟨[], rfl, rfl, isDrawdown_nil⟩, ?_, ?_, ?_⟩
    all_goals
      rintro ⟨_, he, _⟩
      cases he
  · obtain ⟨x, explanation, hx, rfl⟩ := simulate_ok hr hne
    exact impact_simulationOf hx correlationId explanation

/-! ## A loss -/

def lossEvent (sequenceNumber : ℕ) (eventType : String) (payload : Fields) : Event where
  eventType
  timestamp := "2026-01-05T10:00:00+00:00"
  payload
  correlationId := "trade-1"
  sequenceNumber

/-- A trade with a violation and a loss. -/
def violatedLoss : Timelines where
  timelines := Dict.ofItems [("trade-1",
    [lossEvent 0 "GOVERNANCE_EVALUATED" (Dict.ofItems [("violations", .list [.str "daily loss"])]),
      lossEvent 1 "TRADE_EXECUTED" Dict.empty,
      lossEvent 2 "OUTCOME_RECORDED" (Dict.ofItems [("pnl", .int (-10))])])]
  eventCount := 3

/-- The same without a violation. -/
def allowedLoss : Timelines where
  timelines := Dict.ofItems [("trade-1",
    [lossEvent 0 "TRADE_EXECUTED" Dict.empty,
      lossEvent 1 "OUTCOME_RECORDED" (Dict.ofItems [("pnl", .int (-10))])])]
  eventCount := 2

theorem violatedLoss_isSome : (simulate tenTexts .plain violatedLoss "trade-1").isSome = true := by
  decide +kernel

theorem allowedLoss_isSome : (simulate tenTexts .plain allowedLoss "trade-1").isSome = true := by
  decide +kernel

/-- Half of the loss is taken back, with a violation and without one: no outcomes have that result. -/
theorem loss_not_violationsOnly :
    (∃ r, simulate tenTexts .plain violatedLoss "trade-1" = some r ∧
      ¬BlocksViolationsOnly (violatedLoss.getTimeline "trade-1") r) ∧
    ∃ r, simulate tenTexts .plain allowedLoss "trade-1" = some r ∧
      ¬BlocksViolationsOnly (allowedLoss.getTimeline "trade-1") r := by
  refine ⟨⟨_, (Option.some_get violatedLoss_isSome).symm, fun h => ?_⟩,
    ⟨_, (Option.some_get allowedLoss_isSome).symm, fun h => ?_⟩⟩
  · have hresults : Results (recorded (violatedLoss.getTimeline "trade-1")) [.fin (-10)] := by
      unfold Results
      decide +kernel
    obtain ⟨kept, hkept, hlength, hpnl, -⟩ := h.consistent _ hresults
    have hblocked : ((simulate tenTexts .plain violatedLoss "trade-1").get
        violatedLoss_isSome).executionImpact.tradesBlocked = 0 := by decide +kernel
    rw [hblocked] at hlength
    rw [hkept.eq_of_length hlength] at hpnl
    revert hpnl
    decide +kernel
  · have hnone : ∀ e ∈ allowedLoss.getTimeline "trade-1", ¬Violates e := by
      unfold Violates
      decide +kernel
    have hsame := (h.noEffect hnone).1
    revert hsame
    decide +kernel

end Simulator

end Reports
