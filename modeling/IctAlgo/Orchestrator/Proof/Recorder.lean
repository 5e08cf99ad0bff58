import Mathlib.Tactic.Ring
import IctAlgo.Orchestrator.Recorder

/-!
# The book of outcomes

`Agrees`: the table has one row for each call that is taken, in the order of the calls, and a call is
told the place of its row. The outcome of a row is the sign of its profit, and its multiple does not
depend on the direction; so the statistics count profits and losses.

* `recordTradeOutcome_cases`: a call is rejected, fails at the database, or adds its row.
* `recorderRMultiple_eq`: the formulas of the two directions are one.
* `book_agrees`: every book of calls agrees with them.
-/

set_option autoImplicit false

namespace Recorder

open Lib Lib.Runs Lib.Decimal Orchestrator

variable {c : Call} {calls : List Call} {b : Book}

/-! ## The table -/

/-- The call has an exit reason that is known. -/
def Call.valid (c : Call) : Bool := c.trade.exitReason ∈ validExitReasons

/-- The call adds a row. -/
def Call.taken (c : Call) : Bool := c.valid && c.databaseOk

theorem outcome_valid (t : Trade) : t.outcome ∈ validOutcomes := by
  unfold Trade.outcome
  split_ifs
  · exact List.mem_cons_self
  · exact List.mem_cons_of_mem _ List.mem_cons_self
  · exact List.mem_cons_of_mem _ (List.mem_cons_of_mem _ List.mem_cons_self)

/-- A call is rejected, fails at the database, or adds its row. -/
theorem recordTradeOutcome_cases (c : Call) (table : List Row) :
    (c.valid = false ∧
        recordTradeOutcome c table = (.error (rejectedExitReason c.trade.exitReason), table)) ∨
      (c.valid = true ∧ c.databaseOk = false ∧ recordTradeOutcome c table = (.ok none, table)) ∨
      (c.taken = true ∧ recordTradeOutcome c table =
        (.ok (some table.length), table ++ [c.trade.row c.now table.length])) := by
  unfold recordTradeOutcome insertDecisionOutcome Call.taken Call.valid
  by_cases hreason : c.trade.exitReason ∈ validExitReasons
  · refine .inr ?_
    have hrow : (c.trade.row c.now table.length).exitReason ∈ validExitReasons := hreason
    have hout : (c.trade.row c.now table.length).outcome ∈ validOutcomes := outcome_valid c.trade
    rw [if_neg (not_not.2 hreason), if_neg (not_not.2 hout), if_neg (not_not.2 hrow)]
    cases hdb : c.databaseOk with
    | true => exact .inr ⟨by simp [hreason], rfl⟩
    | false => exact .inl ⟨by simp [hreason], rfl, rfl⟩
  · exact .inl ⟨by simp [hreason], by rw [if_pos hreason]⟩

/-! ## What is recorded -/

/-- The multiple of a trade, in either direction. -/
def Trade.riskMultiple (t : Trade) : Option ℚ :=
  t.rMultiple <|> (t.stopLossPrice.filter (· ≠ t.entryPrice)).map fun stop =>
    roundTo 4 ((t.exitPrice - t.entryPrice) / (t.entryPrice - stop))

/-- The row of a call. -/
structure Records (c : Call) (r : Row) : Prop where
  pnl : r.pnl = c.trade.pnl
  win : r.outcome = "win" ↔ 0 < r.pnl
  loss : r.outcome = "loss" ↔ r.pnl < 0
  breakeven : r.outcome = "breakeven" ↔ r.pnl = 0
  multiple : r.rMultiple = c.trade.riskMultiple
  reason : r.exitReason ∈ validExitReasons
  closed : r.closedAt = c.trade.closedAt.getD c.now

/-- The answer of a call that finds `id` rows. -/
def Call.answer (c : Call) (id : ℕ) : Except String (Option ℕ) :=
  if c.valid then .ok (if c.databaseOk then some id else none)
  else .error (rejectedExitReason c.trade.exitReason)

/-- The share of profits; there is none of nothing. -/
def winShare (rows : List OutcomeStats.DecisionOutcome) : Option ℚ :=
  if rows = [] then none else some (rows.countP (0 < ·.pnl) / rows.length)

/-- The losses before the first row that is none. -/
def lossesFirst (rows : List OutcomeStats.DecisionOutcome) : Option ℕ :=
  if rows = [] then none else some (rows.takeWhile (·.pnl < 0)).length

/-- The table and the statistics agree with the calls. -/
structure Agrees (calls : List Call) : Prop where
  rows : List.Forall₂ Records (calls.filter Call.taken) (book calls).table
  ids : (book calls).table.map (·.id) = List.range (calls.countP Call.taken)
  answers : ∀ n : ℕ, (book calls).returned[n]? =
    calls[n]?.map fun c : Call => c.answer ((calls.take n).countP Call.taken)
  winRate : ∀ now f, OutcomeStats.getWinRate ((book calls).table.map Row.stats) now f =
    winShare (OutcomeStats.getFilteredOutcomes ((book calls).table.map Row.stats) now f)
  streak : ∀ now symbol timeframe signalType,
    (OutcomeStats.getLossStreak ((book calls).table.map Row.stats) now symbol timeframe
        signalType).map (·.current) =
      lossesFirst (OutcomeStats.getFilteredOutcomes ((book calls).table.map Row.stats) now
        { symbol, timeframe, signalType })

theorem outcome_win_iff (t : Trade) : t.outcome = "win" ↔ 0 < t.pnl := by
  unfold Trade.outcome
  split_ifs with hwin hloss
  · simp [hwin]
  · simp [hwin]
  · simp [hwin]

theorem outcome_loss_iff (t : Trade) : t.outcome = "loss" ↔ t.pnl < 0 := by
  unfold Trade.outcome
  split_ifs with hwin hloss
  · simp [hwin.le]
  · simp [hloss]
  · simp [hloss]

theorem outcome_breakeven_iff (t : Trade) : t.outcome = "breakeven" ↔ t.pnl = 0 := by
  unfold Trade.outcome
  split_ifs with hwin hloss
  · simp [hwin.ne']
  · simp [hloss.ne]
  · simp [le_antisymm (not_lt.1 hwin) (not_lt.1 hloss)]

/-- The formulas of the two directions are one. -/
theorem recorderRMultiple_eq (round : ℚ → ℚ) (entry exit stop : ℚ) (direction : Option String) :
    Paper.recorderRMultiple round (some entry) (some exit) (some stop) direction =
      if stop = entry then none else some (round ((exit - entry) / (entry - stop))) := by
  unfold Paper.recorderRMultiple
  simp only [Option.bind_eq_bind, Option.bind_some]
  have hshort : (entry - exit) / (stop - entry) = (exit - entry) / (entry - stop) := by
    rw [← neg_sub exit entry, ← neg_sub entry stop, neg_div_neg_eq]
  by_cases hrisk : stop = entry
  · simp [hrisk]
  · have hne : stop - entry ≠ 0 := sub_ne_zero.2 hrisk
    have hne' : entry - stop ≠ 0 := sub_ne_zero.2 (Ne.symm hrisk)
    rw [if_neg hne, if_neg hne', if_neg hrisk, hshort, ite_self]

theorem multiple_eq (t : Trade) : t.multiple = t.riskMultiple := by
  unfold Trade.multiple Trade.riskMultiple
  cases t.rMultiple with
  | some r => rfl
  | none =>
    cases t.stopLossPrice with
    | none => rfl
    | some stop =>
      show Paper.recorderRMultiple _ _ _ _ _ = _
      rw [recorderRMultiple_eq]
      by_cases hrisk : stop = t.entryPrice
      · simp [hrisk]
      · simp [hrisk]

theorem records_row {c : Call} (htaken : c.taken = true) (id : ℕ) :
    Records c (c.trade.row c.now id) where
  pnl := rfl
  win := outcome_win_iff c.trade
  loss := outcome_loss_iff c.trade
  breakeven := outcome_breakeven_iff c.trade
  multiple := multiple_eq c.trade
  reason := by
    have hvalid : c.valid = true := by
      simp only [Call.taken, Bool.and_eq_true] at htaken
      exact htaken.1
    exact of_decide_eq_true hvalid
  closed := rfl

/-! ## Runs of calls -/

/-- What a call adds to the book. -/
theorem step_eq (b : Book) (c : Call) :
    step b c = ⟨b.table ++ if c.taken then [c.trade.row c.now b.table.length] else [],
      b.returned ++ [c.answer b.table.length]⟩ := by
  unfold step Call.answer
  obtain ⟨hvalid, heq⟩ | ⟨hvalid, hdb, heq⟩ | ⟨htaken, heq⟩ := recordTradeOutcome_cases c b.table
  · simp [heq, Call.taken, hvalid]
  · simp [heq, Call.taken, hvalid, hdb]
  · have hboth := htaken
    simp only [Call.taken, Bool.and_eq_true] at hboth
    simp [heq, htaken, hboth.1, hboth.2]

/-- The rows of calls that find `n` rows in the table. -/
def rowsFrom : ℕ → List Call → List Row
  | _, [] => []
  | n, c :: calls =>
    if c.taken then c.trade.row c.now n :: rowsFrom (n + 1) calls else rowsFrom n calls

/-- The answers of calls that find `n` rows in the table. -/
def answersFrom : ℕ → List Call → List (Except String (Option ℕ))
  | _, [] => []
  | n, c :: calls => c.answer n :: answersFrom (if c.taken then n + 1 else n) calls

theorem run_eq (calls : List Call) :
    ∀ b : Book, run step b calls =
      ⟨b.table ++ rowsFrom b.table.length calls, b.returned ++ answersFrom b.table.length calls⟩ := by
  induction calls with
  | nil =>
    intro b
    simp [rowsFrom, answersFrom]
  | cons c calls ih =>
    intro b
    rw [run_cons, ih, step_eq, rowsFrom, answersFrom]
    by_cases htaken : c.taken = true
    · simp [htaken]
    · simp [htaken]

theorem book_eq (calls : List Call) : book calls = ⟨rowsFrom 0 calls, answersFrom 0 calls⟩ :=
  run_eq calls {}

theorem rowsFrom_records (calls : List Call) :
    ∀ n, List.Forall₂ Records (calls.filter Call.taken) (rowsFrom n calls) := by
  induction calls with
  | nil => exact fun _ => .nil
  | cons c calls ih =>
    intro n
    rw [rowsFrom]
    by_cases htaken : c.taken = true
    · rw [List.filter_cons_of_pos htaken, if_pos htaken]
      exact .cons (records_row htaken n) (ih (n + 1))
    · rw [List.filter_cons_of_neg htaken, if_neg htaken]
      exact ih n

theorem rowsFrom_ids (calls : List Call) :
    ∀ n, (rowsFrom n calls).map (·.id) = List.range' n (calls.countP Call.taken) := by
  induction calls with
  | nil => exact fun _ => rfl
  | cons c calls ih =>
    intro n
    rw [rowsFrom]
    by_cases htaken : c.taken = true
    · rw [List.countP_cons_of_pos htaken, if_pos htaken, List.map_cons, ih, List.range'_succ]
      rfl
    · rw [List.countP_cons_of_neg htaken, if_neg htaken, ih]

theorem getElem?_answersFrom (calls : List Call) :
    ∀ m n : ℕ, (answersFrom m calls)[n]? =
      calls[n]?.map fun c : Call => c.answer (m + (calls.take n).countP Call.taken) := by
  induction calls with
  | nil => exact fun _ _ => rfl
  | cons c calls ih =>
    intro m n
    cases n with
    | zero => rfl
    | succ n =>
      rw [answersFrom, List.getElem?_cons_succ, List.getElem?_cons_succ, List.take_succ_cons, ih]
      by_cases htaken : c.taken = true
      · rw [List.countP_cons_of_pos htaken, if_pos htaken, Nat.add_assoc, Nat.add_comm 1]
      · rw [List.countP_cons_of_neg htaken, if_neg htaken]

/-! ## The statistics -/

/-- The label of a row is the sign of its profit. -/
def Labelled (o : OutcomeStats.DecisionOutcome) : Prop :=
  o.isWin = decide (0 < o.pnl) ∧ o.isLoss = decide (o.pnl < 0)

theorem Records.labelled {c : Call} {r : Row} (h : Records c r) : Labelled r.stats :=
  ⟨decide_eq_decide.2 h.win, decide_eq_decide.2 h.loss⟩

section
variable {rows : List OutcomeStats.DecisionOutcome} (hlabelled : ∀ o ∈ rows, Labelled o)
include hlabelled

theorem labelled_found (now : ℤ) (f : OutcomeStats.Filters) :
    ∀ o ∈ OutcomeStats.getFilteredOutcomes rows now f, Labelled o := by
  intro o ho
  refine hlabelled o ?_
  have hmem : o ∈ (rows.filter (f.selects now)).mergeSort OutcomeStats.latestFirst := by
    unfold OutcomeStats.getFilteredOutcomes at ho
    dsimp only at ho
    split at ho
    · exact ho
    · exact ho
    · exact List.mem_of_mem_take ho
  exact (List.mem_filter.1 (List.mem_mergeSort.1 hmem)).1

theorem currentStreak_labelled : OutcomeStats.currentStreak rows = (rows.takeWhile (·.pnl < 0)).length := by
  induction rows with
  | nil => rfl
  | cons o rows ih =>
    have hloss := (hlabelled o List.mem_cons_self).2
    have hrows := ih fun o ho => hlabelled o (List.mem_cons_of_mem _ ho)
    rw [OutcomeStats.currentStreak, List.takeWhile_cons, hloss, hrows]
    cases decide (o.pnl < 0) with
    | true => rfl
    | false => rfl

theorem getWinRate_labelled (now : ℤ) (f : OutcomeStats.Filters) :
    OutcomeStats.getWinRate rows now f =
      winShare (OutcomeStats.getFilteredOutcomes rows now f) := by
  have hfound := labelled_found hlabelled now f
  unfold OutcomeStats.getWinRate winShare
  cases hrows : OutcomeStats.getFilteredOutcomes rows now f with
  | nil => rfl
  | cons o found =>
    rw [hrows] at hfound
    have hwins : (o :: found).countP (·.isWin) = (o :: found).countP (0 < ·.pnl) :=
      List.countP_congr fun o ho => by rw [(hfound o ho).1]
    rw [if_neg (List.cons_ne_nil _ _), ← hwins]
    rfl

theorem getLossStreak_labelled (now : ℤ) (symbol timeframe signalType : Option String) :
    (OutcomeStats.getLossStreak rows now symbol timeframe signalType).map (·.current) =
      lossesFirst (OutcomeStats.getFilteredOutcomes rows now { symbol, timeframe, signalType }) := by
  have hfound := labelled_found hlabelled now { symbol, timeframe, signalType }
  unfold OutcomeStats.getLossStreak lossesFirst
  cases hrows : OutcomeStats.getFilteredOutcomes rows now { symbol, timeframe, signalType } with
  | nil => rfl
  | cons o found =>
    rw [hrows] at hfound
    dsimp only
    rw [if_neg (List.cons_ne_nil _ _), List.reverse_reverse, currentStreak_labelled hfound]
    rfl

end

theorem book_records (calls : List Call) :
    List.Forall₂ Records (calls.filter Call.taken) (book calls).table := by
  rw [book_eq]
  exact rowsFrom_records calls 0

/-- Each row of a book is that of a call. -/
theorem exists_records {calls : List Call} {r : Row} (h : r ∈ (book calls).table) :
    ∃ c, Records c r := by
  obtain ⟨n, hn, rfl⟩ := List.getElem_of_mem h
  have hrows := book_records calls
  exact ⟨_, hrows.get (hrows.length_eq ▸ hn) hn⟩

/-- **The book.** -/
theorem book_agrees (calls : List Call) : Agrees calls := by
  have hlabelled : ∀ o ∈ (book calls).table.map Row.stats, Labelled o := by
    intro o ho
    obtain ⟨r, hr, rfl⟩ := List.mem_map.1 ho
    obtain ⟨c, hrecords⟩ := exists_records hr
    exact hrecords.labelled
  refine ⟨book_records calls, ?_, fun n => ?_, getWinRate_labelled hlabelled,
    getLossStreak_labelled hlabelled⟩
  · rw [book_eq, List.range_eq_range']
    exact rowsFrom_ids calls 0
  · rw [book_eq]
    simpa using getElem?_answersFrom calls 0 n

end Recorder
