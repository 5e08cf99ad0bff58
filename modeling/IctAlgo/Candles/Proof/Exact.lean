import Mathlib.Data.List.Induction
import Mathlib.Data.Set.List
import Mathlib.Order.Bounds.Basic
import IctAlgo.Candles.Ticks
import IctAlgo.Lib.Sorting

/-!
# Candles are exact

* `Accepted`: the rows that are accepted, with their minute and bid price.
* `Summarises`: a candle by the bid prices of its minute, in the order of the file.
* `get?_readTicks`: the candle of a minute after any number of rows.
* `candles_exact`: the candles that are written, and the rows that are not in one.
-/

set_option autoImplicit false

namespace Candles

open Lib

/-- The candle of some bid prices by its definition. -/
structure Summarises (c : M1Candle) (bids : List ℚ) : Prop where
  openPrice : bids.head?.map .fin = some c.openPrice
  close : bids.getLast?.map .fin = some c.close
  high : ∃ q, c.high = .fin q ∧ IsGreatest {p | p ∈ bids} q
  low : ∃ q, c.low = .fin q ∧ IsLeast {p | p ∈ bids} q
  volume : c.volume = bids.length

/-- The prices that are read lie between the lowest and the highest. -/
theorem Summarises.between {c : M1Candle} {bids : List ℚ} (h : Summarises c bids) :
    c.low.le c.openPrice ∧ c.openPrice.le c.high ∧ c.low.le c.close ∧ c.close.le c.high := by
  obtain ⟨hi, hhigh, hgreatest⟩ := h.high
  obtain ⟨lo, hlow, hleast⟩ := h.low
  obtain ⟨first, hfirst, hopen⟩ := Option.map_eq_some_iff.1 h.openPrice
  obtain ⟨last, hlast, hclose⟩ := Option.map_eq_some_iff.1 h.close
  have hfirstMem : first ∈ bids := List.mem_of_mem_head? hfirst
  have hlastMem : last ∈ bids := List.mem_of_getLast? hlast
  rw [hhigh, hlow, ← hopen, ← hclose]
  simp only [PyFloat.le, decide_eq_true_eq]
  exact ⟨hleast.2 hfirstMem, hgreatest.2 hfirstMem, hleast.2 hlastMem, hgreatest.2 hlastMem⟩

/-! ## One minute -/

theorem maxFloat_fin (p q : ℚ) : maxFloat (.fin p) (.fin q) = .fin (max p q) := by
  unfold maxFloat
  simp only [PyFloat.lt, decide_eq_true_eq]
  split <;> rename_i h
  · rw [max_eq_right h.le]
  · rw [max_eq_left (not_lt.1 h)]

theorem minFloat_fin (p q : ℚ) : minFloat (.fin p) (.fin q) = .fin (min p q) := by
  unfold minFloat
  simp only [PyFloat.lt, decide_eq_true_eq]
  split <;> rename_i h
  · rw [min_eq_right h.le]
  · rw [min_eq_left (not_lt.1 h)]

theorem summarises_new (bucket : ℕ) (bid : ℚ) : Summarises (.new bucket (.fin bid)) [bid] := by
  refine ⟨rfl, rfl, ⟨bid, rfl, ?_⟩, ⟨bid, rfl, ?_⟩, rfl⟩
  · simp
  · simp

theorem Summarises.update {c : M1Candle} {bids : List ℚ} (h : Summarises c bids) (bid : ℚ) :
    Summarises (c.update (.fin bid)) (bids ++ [bid]) := by
  obtain ⟨hi, hhigh, hgreatest⟩ := h.high
  obtain ⟨lo, hlow, hleast⟩ := h.low
  have hmem : {p | p ∈ bids ++ [bid]} = {p | p ∈ bids} ∪ {bid} := by
    ext p
    simp [or_comm]
  obtain ⟨first, hfirst, hopen⟩ := Option.map_eq_some_iff.1 h.openPrice
  refine ⟨?_, ?_, ⟨max hi bid, ?_, ?_⟩, ⟨min lo bid, ?_, ?_⟩, ?_⟩
  · rw [List.head?_append, hfirst]
    exact congrArg some hopen
  · rw [List.getLast?_concat]
    rfl
  · simp only [M1Candle.update, hhigh, maxFloat_fin]
  · rw [hmem]
    exact hgreatest.union isGreatest_singleton
  · simp only [M1Candle.update, hlow, minFloat_fin]
  · rw [hmem]
    exact hleast.union isLeast_singleton
  · simp [M1Candle.update, h.volume]

/-- The candle that the bid prices of a minute make one after another. -/
def candleOf? (bucket : ℕ) (bids : List PyFloat) : Option M1Candle :=
  bids.foldl (fun candle bid => some (candle.elim (.new bucket bid) (·.update bid))) none

theorem candleOf?_concat (bucket : ℕ) (bids : List PyFloat) (bid : PyFloat) :
    candleOf? bucket (bids ++ [bid]) =
      some ((candleOf? bucket bids).elim (.new bucket bid) (·.update bid)) := by
  unfold candleOf?
  rw [List.foldl_append]
  rfl

theorem candleOf?_isSome (bucket : ℕ) (bids : List PyFloat) :
    (candleOf? bucket bids).isSome ↔ bids ≠ [] := by
  induction bids using List.reverseRecOn with
  | nil => simp [candleOf?]
  | append_singleton bids bid ih => simp [candleOf?_concat]

theorem candleOf?_timestamp {bucket : ℕ} {bids : List PyFloat} {c : M1Candle}
    (h : candleOf? bucket bids = some c) : c.timestamp = bucket := by
  induction bids using List.reverseRecOn generalizing c with
  | nil => cases h
  | append_singleton bids bid ih =>
    rw [candleOf?_concat] at h
    obtain rfl := Option.some.inj h
    cases hc : candleOf? bucket bids with
    | none => rfl
    | some c =>
      have htime := ih hc
      exact htime

theorem candleOf?_summarises {bucket : ℕ} {bids : List ℚ} {c : M1Candle}
    (h : candleOf? bucket (bids.map .fin) = some c) : Summarises c bids := by
  induction bids using List.reverseRecOn generalizing c with
  | nil => cases h
  | append_singleton bids bid ih =>
    rw [List.map_append, List.map_singleton, candleOf?_concat] at h
    obtain rfl := Option.some.inj h
    cases hc : candleOf? bucket (bids.map .fin) with
    | some c => exact (ih hc).update bid
    | none =>
      have hnil : bids = [] := by
        by_contra hne
        have hsome := (candleOf?_isSome bucket (bids.map .fin)).2 (by simpa using hne)
        rw [hc] at hsome
        cases hsome
      rw [hnil]
      exact summarises_new bucket bid

/-! ## The loop -/

section
variable (floatText : String → Option PyFloat) (rows : List (List String))

/-- The row has four fields, a TrueFX timestamp in this minute, and this number for a bid. -/
def Accepted (row : List String) (bucket : ℕ) (bid : PyFloat) : Prop :=
  ∃ symbol timestampStr bidStr askStr rest dt,
    row = symbol :: timestampStr :: bidStr :: askStr :: rest ∧
      parseTruefxTimestamp timestampStr = some dt ∧ floatText bidStr = some bid ∧ bucket = 60 * (dt / 60)

theorem tick?_eq_some_iff {row : List String} {bucket : ℕ} {bid : PyFloat} :
    tick? floatText row = some (bucket, bid) ↔ Accepted floatText row bucket bid := by
  have hbucket : ∀ dt, getMinuteBucket dt = 60 * (dt / 60) := fun dt => Nat.mul_comm _ _
  constructor
  · intro h
    unfold tick? at h
    split at h
    · rename_i symbol timestampStr bidStr askStr rest
      simp only [Option.bind_eq_bind, Option.bind_eq_some_iff] at h
      obtain ⟨dt, hdt, x, hx, hpair⟩ := h
      cases hpair
      exact ⟨symbol, timestampStr, bidStr, askStr, rest, dt, rfl, hdt, hx, hbucket dt⟩
    · cases h
  · rintro ⟨symbol, timestampStr, bidStr, askStr, rest, dt, rfl, hdt, hbid, rfl⟩
    show (parseTruefxTimestamp timestampStr >>= fun dt => floatText bidStr >>= fun bid =>
      some (getMinuteBucket dt, bid)) = _
    rw [hdt, hbid, ← hbucket]
    rfl

/-- The ticks of the rows that are accepted. -/
def ticks : List (ℕ × PyFloat) := rows.filterMap (tick? floatText)

/-- The accepted bid prices of a minute, in the order of the file. -/
def bidsOf (bucket : ℕ) : List PyFloat := ((ticks floatText rows).filter (·.1 = bucket)).map (·.2)

theorem readTicks_concat (row : List String) :
    readTicks floatText (rows ++ [row]) = (readTicks floatText rows).step floatText row := by
  unfold readTicks
  rw [List.foldl_append]
  rfl

theorem bidsOf_concat (row : List String) (bucket : ℕ) : bidsOf floatText (rows ++ [row]) bucket =
    bidsOf floatText rows bucket ++
      (((tick? floatText row).toList.filter (·.1 = bucket)).map (·.2)) := by
  unfold bidsOf ticks
  rw [List.filterMap_append, List.filter_append, List.map_append]
  cases htick : tick? floatText row <;> simp [htick]

theorem get?_addTick (candles : Dict ℕ M1Candle) (bucket m : ℕ) (bid : PyFloat) :
    (addTick candles bucket bid).get? m = if m = bucket then
      some ((candles.get? bucket).elim (.new bucket bid) (·.update bid)) else candles.get? m := by
  unfold addTick
  cases hc : candles.get? bucket with
  | none => rw [Dict.get?_set]; rfl
  | some c => rw [Dict.get?_set]; rfl

/-- The candle of a minute is that of the bid prices of the minute read so far. -/
theorem get?_readTicks (bucket : ℕ) : (readTicks floatText rows).candles.get? bucket =
    candleOf? bucket (bidsOf floatText rows bucket) := by
  induction rows using List.reverseRecOn with
  | nil => rfl
  | append_singleton rows row ih =>
    rw [readTicks_concat, bidsOf_concat]
    unfold TickLoop.step
    cases htick : tick? floatText row with
    | none => simpa using ih
    | some tick =>
      obtain ⟨m, bid⟩ := tick
      simp only [Option.toList_some]
      rw [get?_addTick]
      by_cases hm : bucket = m
      · subst hm
        simp [candleOf?_concat, ih]
      · rw [if_neg hm]
        simpa [Ne.symm hm] using ih

theorem volumes_addTick (candles : Dict ℕ M1Candle) (bucket : ℕ) (bid : PyFloat) :
    ((addTick candles bucket bid).values.map (·.volume)).sum =
      (candles.values.map (·.volume)).sum + 1 := by
  unfold addTick
  cases hc : candles.get? bucket with
  | none =>
    have hsum := Dict.sum_map_values_set (·.volume) candles bucket (.new bucket bid)
    rw [hc] at hsum
    exact hsum
  | some c =>
    have hsum := Dict.sum_map_values_set (·.volume) candles bucket (c.update bid)
    rw [hc, Option.map_some, Option.getD_some] at hsum
    simp only [M1Candle.update] at hsum ⊢
    omega

/-- A row is in a candle or skipped. -/
theorem volumes_add_skipped :
    ((readTicks floatText rows).candles.values.map (·.volume)).sum +
      (readTicks floatText rows).linesSkipped = rows.length ∧
    (readTicks floatText rows).linesRead = rows.length := by
  induction rows using List.reverseRecOn with
  | nil => exact ⟨rfl, rfl⟩
  | append_singleton rows row ih =>
    obtain ⟨hsum, hread⟩ := ih
    rw [readTicks_concat, List.length_append, List.length_singleton]
    unfold TickLoop.step
    cases htick : tick? floatText row with
    | none =>
      refine ⟨?_, congrArg (· + 1) hread⟩
      dsimp only
      omega
    | some tick =>
      refine ⟨?_, congrArg (· + 1) hread⟩
      dsimp only
      rw [volumes_addTick]
      omega

/-! ## The file -/

/-- The candles that are written are those of the dictionary. -/
theorem perm_convertTruefxToM1 :
    (convertTruefxToM1 floatText rows).Perm (readTicks floatText rows).candles.values := by
  unfold convertTruefxToM1
  rw [← Dict.filterMap_get?_keys]
  exact (List.perm_insertionSort _ _).filterMap _

theorem mem_convertTruefxToM1 {c : M1Candle} : c ∈ convertTruefxToM1 floatText rows ↔
    candleOf? c.timestamp (bidsOf floatText rows c.timestamp) = some c := by
  rw [(perm_convertTruefxToM1 floatText rows).mem_iff, Dict.mem_values]
  refine ⟨fun h => ?_, fun h => ?_⟩
  · obtain ⟨bucket, hget⟩ := h
    rw [get?_readTicks] at hget
    rw [candleOf?_timestamp hget]
    exact hget
  · refine ⟨c.timestamp, ?_⟩
    rw [get?_readTicks]
    exact h

theorem timestamps_convertTruefxToM1 : (convertTruefxToM1 floatText rows).map (·.timestamp) =
    ((readTicks floatText rows).candles.items.map Prod.fst).insertionSort (· ≤ ·) := by
  unfold convertTruefxToM1
  rw [List.map_filterMap]
  have hkeys : ∀ bucket ∈ ((readTicks floatText rows).candles.items.map Prod.fst).insertionSort
      (· ≤ ·), ((readTicks floatText rows).candles.get? bucket).map (·.timestamp) = some bucket := by
    intro bucket hbucket
    rw [(List.perm_insertionSort _ _).mem_iff] at hbucket
    obtain ⟨⟨bucket, c⟩, hitem, rfl⟩ := List.mem_map.1 hbucket
    have hget := Dict.get?_eq_some_iff.2 hitem
    rw [hget, Option.map_some]
    rw [get?_readTicks] at hget
    rw [candleOf?_timestamp hget]
  rw [List.filterMap_congr hkeys]
  exact List.filterMap_some

/-- **Tick aggregation is exact.** Of rows with finite bid prices, each minute with an accepted row has
one candle, in the order of the minutes, that summarises its bid prices; every row is in a candle or
skipped. -/
theorem candles_exact
    (hfinite : ∀ row ∈ rows, ∀ bucket bid, Accepted floatText row bucket bid → ∃ q, bid = .fin q) :
    (∀ row bucket bid, tick? floatText row = some (bucket, bid) ↔ Accepted floatText row bucket bid) ∧
    (convertTruefxToM1 floatText rows).Pairwise (fun c c' => c.timestamp < c'.timestamp) ∧
    (∀ bucket, (∃ c ∈ convertTruefxToM1 floatText rows, c.timestamp = bucket) ↔
      ∃ row ∈ rows, ∃ bid, Accepted floatText row bucket bid) ∧
    (∀ c ∈ convertTruefxToM1 floatText rows, ∃ bids : List ℚ,
      bidsOf floatText rows c.timestamp = bids.map .fin ∧ Summarises c bids ∧
      c.low.le c.openPrice ∧ c.openPrice.le c.high ∧ c.low.le c.close ∧ c.close.le c.high) ∧
    ((convertTruefxToM1 floatText rows).map (·.volume)).sum +
      (readTicks floatText rows).linesSkipped = (readTicks floatText rows).linesRead ∧
    (readTicks floatText rows).linesRead = rows.length := by
  obtain ⟨hvolumes, hread⟩ := volumes_add_skipped floatText rows
  refine ⟨fun row bucket bid => tick?_eq_some_iff floatText, ?_, fun bucket => ?_, fun c hc => ?_, ?_,
    hread⟩
  · have hstrict := sortBy_strict id ((readTicks floatText rows).candles.items.map Prod.fst)
      (by simpa using (readTicks floatText rows).candles.nodup)
    rw [← List.pairwise_map (f := M1Candle.timestamp), timestamps_convertTruefxToM1]
    exact hstrict
  · have hbids : bidsOf floatText rows bucket ≠ [] ↔
        ∃ row ∈ rows, ∃ bid, Accepted floatText row bucket bid := by
      simp only [← tick?_eq_some_iff]
      simp only [bidsOf, ticks, ne_eq, List.map_eq_nil_iff, List.filter_eq_nil_iff,
        List.mem_filterMap, not_forall, decide_eq_true_eq, not_not]
      constructor
      · rintro ⟨⟨_, bid⟩, ⟨row, hrow, hread⟩, rfl⟩
        exact ⟨row, hrow, bid, hread⟩
      · rintro ⟨row, hrow, bid, hread⟩
        exact ⟨(bucket, bid), ⟨row, hrow, hread⟩, rfl⟩
    rw [← hbids, ← candleOf?_isSome bucket, Option.isSome_iff_exists]
    refine ⟨fun h => ?_, fun h => ?_⟩
    · obtain ⟨c, hc, rfl⟩ := h
      exact ⟨c, (mem_convertTruefxToM1 floatText rows).1 hc⟩
    · obtain ⟨c, hc⟩ := h
      have htime := candleOf?_timestamp hc
      refine ⟨c, (mem_convertTruefxToM1 floatText rows).2 ?_, htime⟩
      rw [htime]
      exact hc
  · have hbids : ∃ bids : List ℚ, bidsOf floatText rows c.timestamp = bids.map .fin := by
      have hall : bidsOf floatText rows c.timestamp ∈ Set.range (List.map PyFloat.fin) := by
        rw [Set.range_list_map]
        intro bid hbid
        obtain ⟨⟨bucket, bid⟩, htick, rfl⟩ := List.mem_map.1 hbid
        obtain ⟨row, hrow, hread⟩ := List.mem_filterMap.1 (List.mem_filter.1 htick).1
        obtain ⟨q, hq⟩ := hfinite row hrow bucket bid ((tick?_eq_some_iff floatText).1 hread)
        exact ⟨q, hq.symm⟩
      obtain ⟨bids, hbids⟩ := hall
      exact ⟨bids, hbids.symm⟩
    obtain ⟨bids, hbids⟩ := hbids
    have hcandle := (mem_convertTruefxToM1 floatText rows).1 hc
    rw [hbids] at hcandle
    have hsummarises := candleOf?_summarises hcandle
    exact ⟨bids, hbids, hsummarises, hsummarises.between⟩
  · rw [((perm_convertTruefxToM1 floatText rows).map _).sum_eq, hread]
    exact hvolumes

end

/-- Reads whole numbers only. -/
def wholeText (text : String) : Option PyFloat :=
  if text ≠ "" ∧ text.toList.all Char.isDigit then
    some (.fin (Nat.ofDigitChars 10 text.toList 0 : ℕ))
  else none

/-- Ticks of two minutes, one of them out of order, and two rows that are skipped. -/
def fiveRows : List (List String) :=
  [["EUR/USD", "20260101 18:02:25.204", "2", "3"], ["EUR/USD", "20260101 18:03:00.000", "4", "5"],
    ["EUR/USD", "20260101 18:02:59.999", "1", "3"], ["EUR/USD", "18:02", "1", "3"], ["EUR/USD"]]

/-- The minute 18:02 of the first day of 2026. -/
def minute1802 : ℕ := 60 * ((Calendar.ordinal 2026 1 1 * 86400 + 18 * 3600 + 2 * 60) / 60)

theorem fiveRows_exact :
    convertTruefxToM1 wholeText fiveRows =
      [⟨minute1802, .fin 2, .fin 2, .fin 1, .fin 1, 2⟩,
        ⟨minute1802 + 60, .fin 4, .fin 4, .fin 4, .fin 4, 1⟩] ∧
    (∃ bids : List ℚ, bidsOf wholeText fiveRows minute1802 = bids.map .fin ∧
      Summarises ⟨minute1802, .fin 2, .fin 2, .fin 1, .fin 1, 2⟩ bids) ∧
    ((convertTruefxToM1 wholeText fiveRows).map (·.volume)).sum +
      (readTicks wholeText fiveRows).linesSkipped = 5 := by
  have hwritten : convertTruefxToM1 wholeText fiveRows =
      [⟨minute1802, .fin 2, .fin 2, .fin 1, .fin 1, 2⟩,
        ⟨minute1802 + 60, .fin 4, .fin 4, .fin 4, .fin 4, 1⟩] := by decide +kernel
  have hfinite : ∀ row ∈ fiveRows, ∀ bucket bid, Accepted wholeText row bucket bid →
      ∃ q, bid = .fin q := by
    intro row _ bucket bid haccepted
    obtain ⟨_, _, bidStr, _, _, _, -, -, hbid, -⟩ := haccepted
    unfold wholeText at hbid
    split at hbid
    · exact ⟨_, (Option.some.inj hbid).symm⟩
    · cases hbid
  obtain ⟨-, -, -, hcandles, hsum, hread⟩ := candles_exact wholeText fiveRows hfinite
  refine ⟨hwritten, ?_, hsum.trans hread⟩
  obtain ⟨bids, hbids, hsummarises, -⟩ := hcandles ⟨minute1802, .fin 2, .fin 2, .fin 1, .fin 1, 2⟩
    (by rw [hwritten]; exact List.mem_cons_self)
  exact ⟨bids, hbids, hsummarises⟩

end Candles
