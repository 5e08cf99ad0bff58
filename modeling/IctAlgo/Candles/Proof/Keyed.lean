import IctAlgo.Candles.Merge
import IctAlgo.Lib.Raising
import IctAlgo.Merge.Proof.Rows

/-!
# Merges by instants

* `Keyed`: a merge by instants; `keyed_of_texts`: one by texts is such, where the texts tell the
  instants.
* `oneSpelling_iff`: the merge of TwelveData files, which sorts by time.
* `ordered_iff`: the merge of candle files, which sorts by text.
* `merges_keyed_iff`: both.
-/

set_option autoImplicit false

namespace Candles

open Lib Lib.Raising
open Merge

/-! ## Definitions -/

/-- One row for each instant, the first one, in strict order. -/
structure Keyed (col : String) (rows written : List Row) : Prop where
  increasing : written.Pairwise fun a b => ∃ t t', rowTime? col a = some t ∧
    rowTime? col b = some t' ∧ t < t'
  covers : ∀ row ∈ rows, ∃ w ∈ written, rowTime? col w = rowTime? col row
  first : ∀ w ∈ written, rows.find? (fun row => rowTime? col row = rowTime? col w) = some w

/-- Rows of one instant have one text. -/
def OneSpelling (col : String) (rows : List Row) : Prop :=
  ∀ row ∈ rows, ∀ row' ∈ rows, rowTime? col row = rowTime? col row' → row.key col = row'.key col

/-- The order of the texts is that of the instants. -/
def TextsInOrder (col : String) (rows : List Row) : Prop :=
  ∀ row ∈ rows, ∀ row' ∈ rows, tsText col row < tsText col row' →
    (rowTime? col row).getD 0 < (rowTime? col row').getD 0

/-- All rows have a time. -/
def Timed (col : String) (rows : List Row) : Prop := ∀ row ∈ rows, (rowTime? col row).isSome

section
variable {col : String} {rows : List Row}

/-! ## Rows -/

/-- In a list in strict order, what holds along the list holds along the order. -/
theorem rel_of_pairwise_lt {α κ : Type} [Preorder κ] {key : α → κ} {r : α → α → Prop} {l : List α}
    (h : l.Pairwise fun a b => r a b ∧ key a < key b) {a b : α} (ha : a ∈ l) (hb : b ∈ l)
    (hlt : key a < key b) : r a b := by
  induction h with
  | nil => cases ha
  | cons hhead _ ih =>
    rcases List.mem_cons.1 ha with rfl | hatail
    · rcases List.mem_cons.1 hb with rfl | hbtail
      · exact absurd hlt (lt_irrefl _)
      · exact (hhead b hbtail).1
    · rcases List.mem_cons.1 hb with rfl | hbtail
      · exact absurd (hhead a hatail).2 hlt.asymm
      · exact ih hatail hbtail

theorem rowTime?_of_key {row row' : Row} (h : row.key col = row'.key col) :
    rowTime? col row = rowTime? col row' := by
  unfold rowTime?
  rw [h]

theorem key_of_timed {row : Row} (h : (rowTime? col row).isSome) :
    row.key col = some (tsText col row) := by
  unfold rowTime? at h
  unfold tsText
  cases hkey : row.key col with
  | none => rw [hkey] at h; cases h
  | some text => rfl

theorem rowTime?_of_timed {row : Row} (h : (rowTime? col row).isSome) :
    rowTime? col row = some ((rowTime? col row).getD 0) := by
  obtain ⟨t, ht⟩ := Option.isSome_iff_exists.1 h
  rw [ht]
  rfl

theorem mem_of_mem_deduplicateByKey {row : Row} (h : row ∈ deduplicateByKey col rows) : row ∈ rows :=
  mem_of_firstRow (mem_deduplicateByKey.1 h)

theorem countDuplicates_add_length (seen : List (Option String)) :
    rows.length = (deduplicateFrom col seen rows).length + countDuplicates col seen rows := by
  induction rows generalizing seen with
  | nil => rfl
  | cons row rows ih =>
    rw [deduplicateFrom, countDuplicates]
    by_cases hseen : row.key col ∈ seen
    · rw [if_pos hseen, if_pos (List.contains_iff_mem.2 hseen), List.length_cons, ih seen,
        Nat.add_assoc]
    · rw [if_neg hseen, if_neg (mt List.contains_iff_mem.1 hseen), List.length_cons, List.length_cons,
        ih (row.key col :: seen)]
      omega

/-- The first row of a text is the first of its instant, where the texts tell the instants. -/
theorem first_of_oneSpelling (hone : OneSpelling col rows) {w : Row}
    (hw : w ∈ deduplicateByKey col rows) :
    rows.find? (fun row => rowTime? col row = rowTime? col w) = some w := by
  have hmem := mem_of_mem_deduplicateByKey hw
  have hfirst := mem_deduplicateByKey.1 hw
  unfold firstRow at hfirst
  rw [← hfirst, ← List.head?_filter, ← List.head?_filter]
  congr 1
  refine List.filter_congr fun row hrow => ?_
  rw [Bool.eq_iff_iff, decide_eq_true_iff, decide_eq_true_iff]
  exact ⟨hone row hrow w hmem, rowTime?_of_key⟩

/-- A merge by texts is one by instants. -/
theorem keyed_of_texts {written : List Row} (hone : OneSpelling col rows) (htimed : Timed col rows)
    (hmem : ∀ w, w ∈ written ↔ w ∈ deduplicateByKey col rows)
    (hsorted : written.Pairwise fun a b => (rowTime? col a).getD 0 < (rowTime? col b).getD 0) :
    Keyed col rows written := by
  have htime : ∀ w ∈ written, rowTime? col w = some ((rowTime? col w).getD 0) := fun w hw =>
    rowTime?_of_timed (htimed w (mem_of_mem_deduplicateByKey ((hmem w).1 hw)))
  refine ⟨hsorted.imp_of_mem fun ha hb hlt => ⟨_, _, htime _ ha, htime _ hb, hlt⟩,
    fun row hrow => ?_, fun w hw => first_of_oneSpelling hone ((hmem w).1 hw)⟩
  obtain ⟨kept, hkept, hkey, -⟩ := exists_kept col hrow
  exact ⟨kept, (hmem kept).2 hkept, rowTime?_of_key hkey⟩

/-- Rows in strict order of their instants are told by these. -/
theorem Keyed.eq_of_rowTime? {written : List Row} (h : Keyed col rows written) {a b : Row}
    (ha : a ∈ written) (hb : b ∈ written) (htime : rowTime? col a = rowTime? col b) : a = b := by
  have hnodup : (written.map (rowTime? col)).Nodup := by
    rw [List.Nodup, List.pairwise_map]
    refine h.increasing.imp fun {a b} hlt heq => ?_
    obtain ⟨t, t', ht, ht', hlt⟩ := hlt
    rw [ht, ht'] at heq
    exact hlt.ne (Option.some.inj heq)
  exact List.inj_on_of_nodup_map hnodup ha hb htime

/-! ## A sort by time -/

/-- The rows that `merge` writes. -/
def sortedByTime (col : String) (rows : List Row) : List Row :=
  (deduplicateByKey col rows).insertionSort fun a b =>
    (rowTime? col a).getD 0 ≤ (rowTime? col b).getD 0

theorem mem_sortedByTime {w : Row} : w ∈ sortedByTime col rows ↔ w ∈ deduplicateByKey col rows :=
  (List.perm_insertionSort _ _).mem_iff

theorem oneSpelling_iff (htimed : Timed col rows) :
    Keyed col rows (sortedByTime col rows) ↔ OneSpelling col rows := by
  refine ⟨fun h row hrow row' hrow' htime => ?_, fun hone => ?_⟩
  · obtain ⟨kept, hkept, hkey, -⟩ := exists_kept col hrow
    obtain ⟨kept', hkept', hkey', -⟩ := exists_kept col hrow'
    have hsame : rowTime? col kept = rowTime? col kept' := by
      rw [rowTime?_of_key hkey, rowTime?_of_key hkey', htime]
    have heq := h.eq_of_rowTime? (mem_sortedByTime.2 hkept) (mem_sortedByTime.2 hkept') hsame
    rw [← hkey, ← hkey', heq]
  · refine keyed_of_texts hone htimed (fun w => mem_sortedByTime) (sortBy_strict _ _ ?_)
    rw [List.Nodup, List.pairwise_map]
    refine (List.pairwise_map.1 (nodup_deduplicateByKey col rows)).imp_of_mem fun {a b} ha hb hne heq =>
      hne (hone a (mem_of_mem_deduplicateByKey ha) b (mem_of_mem_deduplicateByKey hb) ?_)
    rw [rowTime?_of_timed (htimed a (mem_of_mem_deduplicateByKey ha)), heq,
      ← rowTime?_of_timed (htimed b (mem_of_mem_deduplicateByKey hb))]

/-! ## A sort by text -/

/-- The rows that `merge_candles` writes. -/
def dedupedByText (col : String) (rows : List Row) : List Row :=
  deduplicateByKey col (rows.insertionSort fun a b => tsText col a ≤ tsText col b)

/-- The sort keeps the order of the rows of a text, so that the first of them is the same. -/
theorem firstRow_sorted (htimed : Timed col rows) {w : Row} (hw : w ∈ rows) :
    firstRow col (rows.insertionSort fun a b => tsText col a ≤ tsText col b) (w.key col) =
      firstRow col rows (w.key col) := by
  have hkey : ∀ row ∈ rows, decide (row.key col = w.key col) = decide (tsText col row = tsText col w) :=
    fun row hrow => by
      rw [key_of_timed (htimed row hrow), key_of_timed (htimed w hw), decide_eq_decide]
      exact Option.some_inj
  have hperm := List.perm_insertionSort (fun a b => tsText col a ≤ tsText col b) rows
  unfold firstRow
  rw [← List.head?_filter, ← List.head?_filter, List.filter_congr hkey,
    List.filter_congr fun row hrow => hkey row (hperm.mem_iff.1 hrow)]
  congr 1
  exact filter_sortBy (tsText col) rows (tsText col w)

theorem mem_dedupedByText (htimed : Timed col rows) {w : Row} :
    w ∈ dedupedByText col rows ↔ w ∈ deduplicateByKey col rows := by
  unfold dedupedByText
  rw [mem_deduplicateByKey, mem_deduplicateByKey]
  refine ⟨fun h => ?_, fun h => ?_⟩
  · rwa [firstRow_sorted htimed ((List.perm_insertionSort _ _).mem_iff.1 (mem_of_firstRow h))] at h
  · rwa [firstRow_sorted htimed (mem_of_firstRow h)]

theorem sublist_deduplicateFrom (seen : List (Option String)) :
    (deduplicateFrom col seen rows).Sublist rows := by
  induction rows generalizing seen with
  | nil => exact List.Sublist.slnil
  | cons row rows ih =>
    unfold deduplicateFrom
    split
    · exact (ih seen).cons row
    · exact (ih _).cons_cons row

/-- The rows are written in the order of their texts. -/
theorem dedupedByText_ordered (htimed : Timed col rows) :
    (dedupedByText col rows).Pairwise fun a b => tsText col a < tsText col b := by
  have hsub : (dedupedByText col rows).Sublist _ := sublist_deduplicateFrom []
  have hle := (sortBy_pairwise (tsText col) rows).sublist hsub
  have hne := List.pairwise_map.1 (nodup_deduplicateByKey col
    (rows.insertionSort fun a b => tsText col a ≤ tsText col b))
  have hmem : ∀ w ∈ dedupedByText col rows, w ∈ rows := fun w hw =>
    mem_of_mem_deduplicateByKey ((mem_dedupedByText htimed).1 hw)
  refine (hle.and hne).imp_of_mem fun {a b} ha hb h => lt_of_le_of_ne h.1 fun heq => h.2 ?_
  rw [key_of_timed (htimed a (hmem a ha)), key_of_timed (htimed b (hmem b hb)), heq]

theorem TextsInOrder.oneSpelling (h : TextsInOrder col rows) (htimed : Timed col rows) :
    OneSpelling col rows := by
  intro row hrow row' hrow' htime
  rw [key_of_timed (htimed row hrow), key_of_timed (htimed row' hrow')]
  rcases lt_trichotomy (tsText col row) (tsText col row') with hlt | heq | hlt
  · exact absurd (h row hrow row' hrow' hlt) (by rw [htime]; exact lt_irrefl _)
  · rw [heq]
  · exact absurd (h row' hrow' row hrow hlt) (by rw [htime]; exact lt_irrefl _)

theorem textsInOrder_iff (htimed : Timed col rows) :
    Keyed col rows (dedupedByText col rows) ↔ TextsInOrder col rows := by
  refine ⟨fun h row hrow row' hrow' hlt => ?_, fun hordered => ?_⟩
  · obtain ⟨kept, hkept, hkey, -⟩ := exists_kept col hrow
    obtain ⟨kept', hkept', hkey', -⟩ := exists_kept col hrow'
    have htext : ∀ {a b : Row}, a.key col = b.key col → tsText col a = tsText col b := fun h => by
      unfold tsText
      rw [h]
    -- the rows that are written are in both orders
    have hboth := h.increasing.and (dedupedByText_ordered htimed)
    have hlt' : tsText col kept < tsText col kept' := by
      rw [htext hkey, htext hkey']
      exact hlt
    obtain ⟨t, t', ht, ht', hltTime⟩ := rel_of_pairwise_lt hboth ((mem_dedupedByText htimed).2 hkept)
      ((mem_dedupedByText htimed).2 hkept') hlt'
    rw [← rowTime?_of_key hkey, ← rowTime?_of_key hkey', ht, ht']
    exact hltTime
  · refine keyed_of_texts (hordered.oneSpelling htimed) htimed (fun w => mem_dedupedByText htimed) ?_
    refine (dedupedByText_ordered htimed).imp_of_mem fun {a b} ha hb hlt => ?_
    exact hordered a (mem_of_mem_deduplicateByKey ((mem_dedupedByText htimed).1 ha)) b
      (mem_of_mem_deduplicateByKey ((mem_dedupedByText htimed).1 hb)) hlt

end

/-! ## Reading -/

section
variable {cc : CellConv} {fs : FileSystem}

theorem timed_readCandle {path : String} {item : Row × ℕ} {row : Row}
    (h : readCandle cc path item = .ok row) : (rowTime? "datetime" row).isSome := by
  simp only [readCandle, bind_ok_iff] at h
  obtain ⟨stripped, -, _, hcheck, _, -, hrow⟩ := h
  cases hrow
  unfold checkDatetime at hcheck
  split at hcheck
  · cases hcheck
  · split at hcheck
    · assumption
    · cases hcheck

theorem timed_readFile {path : String} {rows : List Row} (h : readFile cc fs path = .ok rows) :
    Timed "datetime" rows := by
  unfold readFile at h
  obtain ⟨delimiter, -, h⟩ := bind_ok_iff.1 h
  dsimp only at h
  split at h
  · cases h
  · split at h
    · intro row hrow
      obtain ⟨item, -, hread⟩ := exists_of_mem_right (mapM_ok_iff.1 h) hrow
      exact timed_readCandle hread
    · cases h

theorem timed_validateCandleCsv {path : String} {rows : List Row}
    (h : validateCandleCsv fs path = .ok rows) : Timed "timestamp" rows := by
  unfold validateCandleCsv at h
  split at h
  · cases h
  · split at h
    · obtain ⟨_, hcheck, h⟩ := bind_ok_iff.1 h
      cases h
      intro row hrow
      obtain ⟨i, hi, hget⟩ := List.getElem_of_mem hrow
      have hitem := forM_ok_iff.1 hcheck (row, 2 + i) (by
        rw [List.mk_mem_zipIdx_iff_le_and_getElem?_sub]
        simp [hi, hget])
      unfold checkCandle at hitem
      split at hitem
      · assumption
      · cases hitem
    · cases h

/-- The rows of the files of `--inputs` that `read_file` accepts, in the order in which they are read. -/
def TwelvedataRows (cc : CellConv) (fs : FileSystem) (inputsArg : String) (rows : List Row) : Prop :=
  ∃ inputFiles read, expandInputs fs inputsArg = .ok inputFiles ∧
    inputFiles.mapM (readFile cc fs) = .ok read ∧ read.flatten = rows

/-- The rows of the files that `validate_candle_csv` accepts, in the order in which they are read. -/
def CandleRows (fs : FileSystem) (inputPaths : List String) (rows : List Row) : Prop :=
  ∃ read, inputPaths.mapM (validateCandleCsv fs) = .ok read ∧ read.flatten = rows

/-- The number of rows of a file. -/
def candleCount (fs : FileSystem) (path : String) : ℕ :=
  match validateCandleCsv fs path with
  | .ok rows => rows.length
  | .error _ => 0

theorem timed_flatten {col : String} {read : List (List Row)} (h : ∀ rows ∈ read, Timed col rows) :
    Timed col read.flatten := by
  intro row hrow
  obtain ⟨rows, hrows, hmem⟩ := List.mem_flatten.1 hrow
  exact h rows hrows row hmem

theorem timed_twelvedata {inputsArg : String} {rows : List Row}
    (h : TwelvedataRows cc fs inputsArg rows) : Timed "datetime" rows := by
  obtain ⟨inputFiles, read, -, hread, rfl⟩ := h
  refine timed_flatten fun rows hrows => ?_
  obtain ⟨path, -, hpath⟩ := exists_of_mem_right (mapM_ok_iff.1 hread) hrows
  exact timed_readFile hpath

theorem timed_candles {inputPaths : List String} {rows : List Row}
    (h : CandleRows fs inputPaths rows) : Timed "timestamp" rows := by
  obtain ⟨read, hread, rfl⟩ := h
  refine timed_flatten fun rows hrows => ?_
  obtain ⟨path, -, hpath⟩ := exists_of_mem_right (mapM_ok_iff.1 hread) hrows
  exact timed_validateCandleCsv hpath

/-- The numbers of rows of the files. -/
theorem lengths_validated {inputPaths : List String} {read : List (List Row)}
    (h : inputPaths.mapM (validateCandleCsv fs) = .ok read) :
    read.map (·.length) = inputPaths.map (candleCount fs) := by
  have hall := mapM_ok_iff.1 h
  clear h
  induction hall with
  | nil => rfl
  | cons hfirst _ ih =>
    rw [List.map_cons, List.map_cons, ih]
    unfold candleCount
    rw [hfirst]

end

/-! ## The merges -/

section
variable (cc : CellConv) (fs : FileSystem)

/-- The merge of TwelveData files is by instants, and the rows that are read are written or reported as
duplicates. -/
def TwelvedataKeyed (inputsArg : String) (rows : List Row) : Prop :=
  ∃ out, mergeTwelvedata cc fs inputsArg = .ok out ∧ Keyed "datetime" rows out.rows ∧
    out.rowsReadTotal = rows.length ∧ rows.length = out.rows.length + out.duplicatesRemoved

/-- The same of the merge of candle files. -/
def CandlesKeyed (inputPaths : List String) (rows : List Row) : Prop :=
  ∃ out, mergeCandles fs inputPaths = .ok out ∧ Keyed "timestamp" rows out.rows ∧
    (rows.length : ℤ) = out.rows.length + out.duplicates

/-- Texts in the order of the instants, no cell too many in the first row of a text, and no file with
rows twice. -/
structure PlainCandles (inputPaths : List String) (rows : List Row) : Prop where
  ordered : TextsInOrder "timestamp" rows
  narrow : ∀ row ∈ rows, rows.find? (·.key "timestamp" = row.key "timestamp") = some row →
    row.rest.isEmpty
  once : ∀ path, 1 < inputPaths.count path → candleCount fs path = 0

theorem mergeTwelvedata_eq {inputsArg : String} {rows : List Row}
    (h : TwelvedataRows cc fs inputsArg rows) (hne : rows ≠ []) :
    mergeTwelvedata cc fs inputsArg = .ok
      ⟨sortedByTime "datetime" rows, rows.length, countDuplicates "datetime" [] rows⟩ := by
  obtain ⟨inputFiles, read, hinputs, hread, rfl⟩ := h
  have hsome : (sortedByTime "datetime" read.flatten).isEmpty = false := by
    obtain ⟨row, hrow⟩ := List.exists_mem_of_ne_nil _ hne
    obtain ⟨kept, hkept, -, -⟩ := exists_kept "datetime" hrow
    rw [List.isEmpty_eq_false_iff_exists_mem]
    exact ⟨kept, mem_sortedByTime.2 hkept⟩
  unfold mergeTwelvedata
  refine bind_ok_iff.2 ⟨inputFiles, hinputs, bind_ok_iff.2 ⟨read, hread, ?_⟩⟩
  unfold sortedByTime at hsome
  dsimp only
  rw [hsome, ← List.length_flatten]
  rfl

theorem mergeTwelvedata_nil {inputsArg : String} (h : TwelvedataRows cc fs inputsArg []) :
    mergeTwelvedata cc fs inputsArg = .error .noRows := by
  obtain ⟨inputFiles, read, hinputs, hread, hrows⟩ := h
  unfold mergeTwelvedata
  rw [hinputs]
  change (inputFiles.mapM (readFile cc fs)).bind _ = _
  rw [hread]
  dsimp only [Except.bind]
  rw [hrows]
  rfl

theorem twelvedataKeyed_iff {inputsArg : String} {rows : List Row}
    (h : TwelvedataRows cc fs inputsArg rows) :
    TwelvedataKeyed cc fs inputsArg rows ↔ rows ≠ [] ∧ OneSpelling "datetime" rows := by
  by_cases hne : rows = []
  · subst hne
    refine ⟨fun ⟨out, hout, _⟩ => ?_, fun h => absurd rfl h.1⟩
    rw [mergeTwelvedata_nil cc fs h] at hout
    cases hout
  have hmerge := mergeTwelvedata_eq cc fs h hne
  have hcount : rows.length = (deduplicateByKey "datetime" rows).length +
      countDuplicates "datetime" [] rows := countDuplicates_add_length []
  have hlength : (sortedByTime "datetime" rows).length = (deduplicateByKey "datetime" rows).length :=
    (List.perm_insertionSort _ _).length_eq
  rw [← oneSpelling_iff (timed_twelvedata h)]
  refine ⟨fun ⟨out, hout, hkeyed, _⟩ => ⟨hne, ?_⟩, fun ⟨_, hkeyed⟩ => ⟨_, hmerge, hkeyed, rfl, ?_⟩⟩
  · obtain rfl := Except.ok.inj (hmerge.symm.trans hout)
    exact hkeyed
  · rw [hlength]
    exact hcount

theorem candlesKeyed_iff {inputPaths : List String} {rows : List Row}
    (h : CandleRows fs inputPaths rows) :
    CandlesKeyed fs inputPaths rows ↔ PlainCandles fs inputPaths rows := by
  have htimed := timed_candles h
  obtain ⟨read, hread, rfl⟩ := h
  have hlengths := lengths_validated hread
  have hcounts : inputPaths.zip (read.map (·.length)) =
      inputPaths.map fun path => (path, candleCount fs path) := by
    have hzip := List.zip_map' (f := id) (l := inputPaths) (g := candleCount fs)
    rw [List.map_id] at hzip
    rw [hlengths, hzip]
    rfl
  obtain ⟨-, hsum⟩ := Dict.sum_ofItems_eq_iff (candleCount fs) inputPaths
  rw [← hlengths, ← List.length_flatten] at hsum
  have hnarrow : (dedupedByText "timestamp" read.flatten).all (·.rest.isEmpty) = true ↔
      ∀ row ∈ read.flatten, read.flatten.find? (·.key "timestamp" = row.key "timestamp") = some row →
        row.rest.isEmpty := by
    rw [List.all_eq_true]
    refine ⟨fun hall row _ hfirst => ?_, fun hall row hrow => ?_⟩
    · exact hall row ((mem_dedupedByText htimed).2 (mem_deduplicateByKey.2 hfirst))
    · have hkept := (mem_dedupedByText htimed).1 hrow
      exact hall row (mem_of_mem_deduplicateByKey hkept) (mem_deduplicateByKey.1 hkept)
  have hmerge : mergeCandles fs inputPaths =
      if (dedupedByText "timestamp" read.flatten).all (·.rest.isEmpty) then
        .ok ⟨dedupedByText "timestamp" read.flatten,
          (Dict.ofItems (inputPaths.map fun path => (path, candleCount fs path))).values.sum,
          (Dict.ofItems (inputPaths.map fun path => (path, candleCount fs path))).values.sum -
            (dedupedByText "timestamp" read.flatten).length⟩
      else .error .extraFields := by
    unfold mergeCandles
    rw [hread, ← hcounts]
    rfl
  unfold CandlesKeyed
  rw [hmerge]
  refine ⟨fun ⟨out, hout, hkeyed, hlength⟩ => ?_, fun hplain => ?_⟩
  · split at hout
    · rename_i hall
      obtain rfl := Except.ok.inj hout
      refine ⟨(textsInOrder_iff htimed).1 hkeyed, hnarrow.1 hall, hsum.1 ?_⟩
      dsimp only at hlength
      omega
    · cases hout
  · rw [if_pos (hnarrow.2 hplain.narrow), hsum.2 hplain.once]
    refine ⟨_, rfl, (textsInOrder_iff htimed).2 hplain.ordered, ?_⟩
    dsimp only
    omega

/-- **Merges by instants.** Of files whose rows the scripts accept, the merge of TwelveData files is by
instants exactly when there is a row and rows of one instant have one text, and the merge of candle files
exactly when the texts are in the order of the instants, no first row of a text has cells that are too
many, and no file with rows is listed twice. -/
theorem merges_keyed_iff :
    (∀ inputsArg rows, TwelvedataRows cc fs inputsArg rows →
      (TwelvedataKeyed cc fs inputsArg rows ↔ rows ≠ [] ∧ OneSpelling "datetime" rows)) ∧
    ∀ inputPaths rows, CandleRows fs inputPaths rows →
      (CandlesKeyed fs inputPaths rows ↔ PlainCandles fs inputPaths rows) :=
  ⟨fun _ _ h => twelvedataKeyed_iff cc fs h, fun _ _ h => candlesKeyed_iff fs h⟩

end

/-! ## Two files -/

def rawHeader : Cells := ["datetime", "open", "high", "low", "close"]

def rawLines (texts : List String) : List Cells := texts.map fun text => [text, "1", "1", "1", "1"]

def candleLines (texts : List String) : List Cells :=
  texts.map fun text => [text, "1", "1", "1", "1", "0"]

/-- A TwelveData file and a candle file with rows at these times. -/
def twoFiles (raw candles : List String) : FileSystem where
  pathExists := fun _ => true
  glob := fun _ => []
  contents path :=
    if path = "raw.csv" then
      { firstLine := "datetime,open,high,low,close", lines := fun _ => rawHeader :: rawLines raw }
    else
      { firstLine := "timestamp,open,high,low,close,volume"
        lines := fun _ => candleHeader :: candleLines candles }

/-- A time that is there twice, and the hours 9 and 10 in the wrong order. -/
def paddedTexts : List String := ["2026-01-05 10:00:00", "2026-01-05 09:00:00", "2026-01-05 10:00:00"]

def padded : FileSystem := twoFiles paddedTexts paddedTexts

def paddedRaw : List Row := readRows rawHeader (rawLines paddedTexts)

def paddedCandles : List Row := readRows candleHeader (candleLines paddedTexts)

theorem paddedRaw_read : TwelvedataRows .plain padded "raw.csv" paddedRaw :=
  ⟨["raw.csv"], [paddedRaw], by decide +kernel, rfl, rfl⟩

theorem paddedCandles_read : CandleRows padded ["m1.csv"] paddedCandles :=
  ⟨[paddedCandles], rfl, rfl⟩

theorem padded_keyed :
    TwelvedataKeyed .plain padded "raw.csv" paddedRaw ∧
      CandlesKeyed padded ["m1.csv"] paddedCandles := by
  refine ⟨((merges_keyed_iff _ _).1 _ _ paddedRaw_read).2 ⟨List.cons_ne_nil _ _, ?_⟩,
    ((merges_keyed_iff .plain _).2 _ _ paddedCandles_read).2 ⟨?_, fun row hrow _ => ?_, fun path h => ?_⟩⟩
  · unfold OneSpelling
    decide +kernel
  · unfold TextsInOrder
    decide +kernel
  · have hnarrow : ∀ row ∈ paddedCandles, row.rest.isEmpty := by decide +kernel
    exact hnarrow row hrow
  · exact absurd h (by rw [not_lt]; exact List.count_le_length)

/-- One time in two notations. -/
def unpaddedRawTexts : List String := ["2026-1-5 10:00:00", "2026-01-05 10:00:00"]

/-- The hours 9 and 10. -/
def unpaddedCandleTexts : List String := ["2026-01-05 9:00:00", "2026-01-05 10:00:00"]

def unpadded : FileSystem := twoFiles unpaddedRawTexts unpaddedCandleTexts

theorem unpaddedRaw_read :
    TwelvedataRows .plain unpadded "raw.csv" (readRows rawHeader (rawLines unpaddedRawTexts)) :=
  ⟨["raw.csv"], [_], by decide +kernel, rfl, rfl⟩

theorem unpaddedCandles_read :
    CandleRows unpadded ["m1.csv"] (readRows candleHeader (candleLines unpaddedCandleTexts)) :=
  ⟨[_], rfl, rfl⟩

/-- The one script writes two rows for one instant, and the other writes 10 o'clock before 9. -/
theorem unpadded_not_keyed :
    (∃ rows, TwelvedataRows .plain unpadded "raw.csv" rows ∧
      ¬TwelvedataKeyed .plain unpadded "raw.csv" rows) ∧
    ∃ rows, CandleRows unpadded ["m1.csv"] rows ∧ ¬CandlesKeyed unpadded ["m1.csv"] rows := by
  refine ⟨⟨_, unpaddedRaw_read, fun hkeyed => ?_⟩, ⟨_, unpaddedCandles_read, fun hkeyed => ?_⟩⟩
  · have hone := ((twelvedataKeyed_iff _ _ unpaddedRaw_read).1 hkeyed).2
    revert hone
    unfold OneSpelling
    decide +kernel
  · have hordered := ((candlesKeyed_iff _ unpaddedCandles_read).1 hkeyed).ordered
    revert hordered
    unfold TextsInOrder
    decide +kernel

end Candles
