import IctAlgo.Merge.Chunks
import Mathlib.Data.List.Nodup

/-!
# The rows of a merge

One spec lemma for each step of a merge.

* `key_written`: a line that is written and read again has the text of its row.
* `mem_deduplicateByKey`, `nodup_deduplicateByKey`: of the rows with one text, the first is kept.
* `sortRowsByDatetime_ok`: the sort raises when a row has no text, or some are times and some are none.
* `mergeChunkCsvs_header`: chunks with one header are merged as the rows of all of them.
-/

set_option autoImplicit false

namespace Merge

open Lib

/-! ## Rows -/

theorem isSome_get?_readRow {header : Cells} {col : String} (hcol : col ∈ header) (cells : Cells) :
    ((readRow header cells).fields.get? col).isSome := by
  apply (Dict.isSome_get?_ofItems _ _).2
  rw [List.map_fst_zip (by simp; omega)]
  exact hcol

/-- A line that is written and read again has the text of the row. -/
theorem key_written {header : Cells} {col : String} (hcol : col ∈ header) (cells : Cells)
    {text : String} (h : (readRow header cells).key col = some text) :
    (readRow header ((readRow header cells).written header)).key col = some text := by
  obtain ⟨cell, hcell⟩ := Option.isSome_iff_exists.1 (isSome_get?_readRow hcol cells)
  have htext : cell = some text := by
    rwa [Row.key, Dict.getD, hcell, Option.getD_some] at h
  have hitems : header.zip (((readRow header cells).written header).map some ++
      List.replicate (header.length - ((readRow header cells).written header).length) none) =
        header.map fun c => (c, some (((readRow header cells).fields.getD c none).getD "")) := by
    unfold Row.written
    rw [List.length_map, Nat.sub_self, List.replicate_zero, List.append_nil, List.map_map]
    have hzip := List.zip_map' (f := id) (l := header) (g := some ∘ fun c =>
      ((readRow header cells).fields.getD c none).getD "")
    rwa [List.map_id] at hzip
  unfold Row.key
  rw [readRow, hitems, Dict.getD, Dict.get?_ofItems_map _ hcol, Option.getD_some, Dict.getD, hcell,
    htext]
  rfl

/-! ## Duplicates -/

/-- The first row with the text in the column. -/
def firstRow (col : String) (rows : List Row) (key : Option String) : Option Row :=
  rows.find? (·.key col = key)

/-- What the loop keeps: a row with a text that it has not seen, and that no row before has. -/
theorem mem_deduplicateFrom {col : String} {rows : List Row} {seen : List (Option String)}
    {row : Row} :
    row ∈ deduplicateFrom col seen rows ↔
      row.key col ∉ seen ∧ firstRow col rows (row.key col) = some row := by
  unfold firstRow
  induction rows generalizing seen with
  | nil => simp [deduplicateFrom]
  | cons r rows ih =>
    unfold deduplicateFrom
    by_cases hkey : r.key col = row.key col
    · rw [List.find?_cons_of_pos (by simpa using hkey), hkey]
      by_cases hseen : row.key col ∈ seen
      · simp [hseen, ih]
      · rw [if_neg hseen, List.mem_cons, ih]
        simp [hseen, eq_comm]
    · rw [List.find?_cons_of_neg (by simpa using hkey)]
      by_cases hseen : r.key col ∈ seen
      · rw [if_pos hseen, ih]
      · rw [if_neg hseen, List.mem_cons, ih, List.mem_cons]
        refine ⟨fun h => ?_, fun h => ?_⟩
        · obtain rfl | ⟨hnot, hfind⟩ := h
          · exact absurd rfl hkey
          · exact ⟨fun h => hnot (.inr h), hfind⟩
        · refine .inr ⟨fun hor => ?_, h.2⟩
          obtain heq | hmem := hor
          · exact hkey heq.symm
          · exact h.1 hmem

theorem mem_deduplicateByKey {col : String} {rows : List Row} {row : Row} :
    row ∈ deduplicateByKey col rows ↔ firstRow col rows (row.key col) = some row := by
  unfold deduplicateByKey
  rw [mem_deduplicateFrom]
  simp

theorem nodup_deduplicateFrom (col : String) (rows : List Row) (seen : List (Option String)) :
    ((deduplicateFrom col seen rows).map (·.key col)).Nodup := by
  induction rows generalizing seen with
  | nil => exact List.nodup_nil
  | cons r rows ih =>
    unfold deduplicateFrom
    split
    · exact ih seen
    · rw [List.map_cons, List.nodup_cons]
      refine ⟨fun hmem => ?_, ih _⟩
      obtain ⟨row, hrow, hkey⟩ := List.mem_map.1 hmem
      exact (mem_deduplicateFrom.1 hrow).1 (by rw [hkey]; exact List.mem_cons_self)

theorem nodup_deduplicateByKey (col : String) (rows : List Row) :
    ((deduplicateByKey col rows).map (·.key col)).Nodup := nodup_deduplicateFrom col rows []

theorem key_of_firstRow {col : String} {rows : List Row} {key : Option String} {row : Row}
    (h : firstRow col rows key = some row) : row.key col = key := by
  simpa using List.find?_some h

theorem mem_of_firstRow {col : String} {rows : List Row} {key : Option String} {row : Row}
    (h : firstRow col rows key = some row) : row ∈ rows := List.mem_of_find?_eq_some h

/-- A row that is kept, for the text of each row. -/
theorem exists_kept (col : String) {rows : List Row} {row : Row} (h : row ∈ rows) :
    ∃ kept ∈ deduplicateByKey col rows, kept.key col = row.key col ∧
      firstRow col rows (row.key col) = some kept := by
  have hsome : (firstRow col rows (row.key col)).isSome :=
    List.find?_isSome.2 ⟨row, h, by simp⟩
  obtain ⟨kept, hkept⟩ := Option.isSome_iff_exists.1 hsome
  have hkey := key_of_firstRow hkept
  exact ⟨kept, mem_deduplicateByKey.2 (by rw [hkey]; exact hkept), hkey, hkept⟩

/-- What is kept of the rows of some chunks is the first row with its text of one of them. -/
theorem chunk_of_kept {col : String} {chunks : List (List Row)} {row : Row}
    (h : row ∈ deduplicateByKey col chunks.flatten) :
    ∃ chunk ∈ chunks, firstRow col chunk (row.key col) = some row := by
  have hfirst := mem_deduplicateByKey.1 h
  unfold firstRow at hfirst
  rw [List.find?_flatten] at hfirst
  obtain ⟨chunk, hchunk, hfind⟩ := List.exists_of_findSome?_eq_some hfirst
  exact ⟨chunk, hchunk, hfind⟩

/-- The first rows of the first chunk are kept. -/
theorem kept_of_first {col : String} {chunk : List Row} (chunks : List (List Row))
    {key : Option String} {row : Row} (h : firstRow col chunk key = some row) :
    row ∈ deduplicateByKey col (chunk :: chunks).flatten := by
  apply mem_deduplicateByKey.2
  rw [key_of_firstRow h, List.flatten_cons]
  unfold firstRow at h ⊢
  rw [List.find?_append, h, Option.some_or]

/-! ## The sort -/

/-- The kind of a key: a time or a text. -/
def SortKey.isInstant : SortKey → Bool
  | .instant _ => true
  | .text _ => false

theorem ordersKinds_keys :
    OrdersKinds (fun a b : SortKey × Row => a.1.lt? b.1) (fun a => a.1.isInstant) where
  isSome_iff := by
    intro a b
    obtain ⟨t | s, _⟩ := a <;> obtain ⟨u | v, _⟩ := b <;> simp [SortKey.lt?, SortKey.isInstant]
  asymm := by
    intro a b
    obtain ⟨t | s, _⟩ := a <;> obtain ⟨u | v, _⟩ := b <;>
      simp only [SortKey.lt?, Option.some.injEq, decide_eq_true_eq, decide_eq_false_iff_not, not_lt,
        reduceCtorEq, IsEmpty.forall_iff]
    · omega
    · exact le_of_lt
  trans := by
    intro a b c
    obtain ⟨t | s, _⟩ := a <;> obtain ⟨u | v, _⟩ := b <;> obtain ⟨w | x, _⟩ := c <;>
      simp only [SortKey.lt?, Option.some.injEq, decide_eq_false_iff_not, not_lt, reduceCtorEq,
        IsEmpty.forall_iff, implies_true]
    · omega
    · exact fun h h' => le_trans h h'

/-- The text of a row in the column. -/
def Row.text (row : Row) (col : String) : String := (row.key col).getD ""

/-- The row with the key of its text. -/
def pairOf (col : String) (row : Row) : SortKey × Row := (sortKey (row.text col), row)

theorem mapM_keyed {col : String} {rows : List Row} (h : ∀ row ∈ rows, row.key col ≠ none) :
    rows.mapM (keyed col) = .ok (rows.map (pairOf col)) := by
  induction rows with
  | nil => rfl
  | cons row rows ih =>
    obtain ⟨text, htext⟩ := Option.ne_none_iff_exists'.1 (h row List.mem_cons_self)
    rw [List.mapM_cons, ih fun r hr => h r (List.mem_cons_of_mem row hr)]
    simp only [keyed, pairOf, Row.text, htext, List.map_cons, Option.getD_some]
    rfl

theorem timed_of_mapM {col : String} {rows : List Row} {pairs : List (SortKey × Row)}
    (h : rows.mapM (keyed col) = .ok pairs) : ∀ row ∈ rows, row.key col ≠ none := by
  induction rows generalizing pairs with
  | nil =>
    intro row hrow
    cases hrow
  | cons r rows ih =>
    rw [List.mapM_cons] at h
    cases hkey : r.key col with
    | none =>
      simp only [keyed, hkey] at h
      cases h
    | some text =>
      simp only [keyed, hkey] at h
      cases hrest : rows.mapM (keyed col) with
      | error e =>
        rw [hrest] at h
        cases h
      | ok rest =>
        intro row hrow
        obtain rfl | hrow := List.mem_cons.1 hrow
        · rw [hkey]
          exact Option.some_ne_none text
        · exact ih hrest row hrow

/-- The order of the rows in a sorted file. -/
def sortedBefore (col : String) (a b : Row) : Prop :=
  (sortKey (b.text col)).lt? (sortKey (a.text col)) = some false

/-- What a sort that does not raise returns, and that its rows have texts of one kind. -/
theorem sortRowsByDatetime_ok {col : String} {rows out : List Row}
    (h : sortRowsByDatetime col rows = .ok out) :
    (∀ row ∈ rows, row.key col ≠ none) ∧
      (∀ row ∈ rows, ∀ row' ∈ rows,
        (sortKey (row.text col)).isInstant = (sortKey (row'.text col)).isInstant) ∧
      out.Perm rows ∧ out.Pairwise (sortedBefore col) := by
  unfold sortRowsByDatetime at h
  cases hpairs : rows.mapM (keyed col) with
  | error e =>
    rw [hpairs] at h
    cases h
  | ok pairs =>
    have htimed := timed_of_mapM hpairs
    obtain rfl := Except.ok.inj (hpairs.symm.trans (mapM_keyed htimed))
    cases hsort : sort? (fun a b => a.1.lt? b.1) (rows.map (pairOf col)) with
    | none =>
      simp only [hpairs, bind, Except.bind, hsort] at h
      cases h
    | some sorted =>
      simp only [hpairs, bind, Except.bind, hsort] at h
      obtain rfl := Except.ok.inj h
      have hperm := sort?_perm hsort
      have hkind := (sort?_isSome_iff ordersKinds_keys).1 (by rw [hsort]; rfl)
      have hpair : ∀ pair ∈ sorted, pair = pairOf col pair.2 := by
        intro pair hmem
        obtain ⟨row, -, rfl⟩ := List.mem_map.1 (hperm.mem_iff.1 hmem)
        rfl
      refine ⟨htimed, fun row hrow row' hrow' => ?_, ?_, ?_⟩
      · have hsame := hkind (pairOf col row) (List.mem_map_of_mem hrow) (pairOf col row')
          (List.mem_map_of_mem hrow')
        simp only [pairOf] at hsame
        exact hsame
      · have hrows : (rows.map (pairOf col)).map (·.2) = rows := by
          rw [List.map_map]
          exact List.map_id rows
        have hmap := hperm.map (·.2)
        rwa [hrows] at hmap
      · apply List.pairwise_map.2
        apply (sort?_sorted ordersKinds_keys hsort).imp_of_mem
        intro a b ha hb hle
        rw [hpair a ha, hpair b hb] at hle
        simp only [pairOf] at hle
        exact hle

theorem sortRowsByDatetime_isOk {col : String} {rows : List Row}
    (htimed : ∀ row ∈ rows, row.key col ≠ none)
    (hkind : ∀ row ∈ rows, ∀ row' ∈ rows,
      (sortKey (row.text col)).isInstant = (sortKey (row'.text col)).isInstant) :
    ∃ out, sortRowsByDatetime col rows = .ok out := by
  have hsome : (sort? (fun a b => a.1.lt? b.1) (rows.map (pairOf col))).isSome := by
    apply (sort?_isSome_iff ordersKinds_keys).2
    intro a ha b hb
    obtain ⟨row, hrow, rfl⟩ := List.mem_map.1 ha
    obtain ⟨row', hrow', rfl⟩ := List.mem_map.1 hb
    simp only [pairOf]
    exact hkind row hrow row' hrow'
  obtain ⟨sorted, hsort⟩ := Option.isSome_iff_exists.1 hsome
  refine ⟨sorted.map (·.2), ?_⟩
  unfold sortRowsByDatetime
  rw [mapM_keyed htimed]
  simp only [bind, Except.bind, hsort]
  rfl

/-! ## The merge -/

theorem mergeRows_ok {header : Cells} {col : String} {rows : List Row} {lines : List Cells}
    (h : mergeRows header col rows = .ok lines) :
    ∃ sorted, sortRowsByDatetime col (deduplicateByKey col rows) = .ok sorted ∧
      (∀ row ∈ sorted, row.rest = []) ∧ lines = header :: sorted.map (·.written header) := by
  unfold mergeRows at h
  cases hsort : sortRowsByDatetime col (deduplicateByKey col rows) with
  | error e =>
    rw [hsort] at h
    cases h
  | ok sorted =>
    simp only [hsort, bind, Except.bind] at h
    split at h
    · rename_i hfits
      refine ⟨sorted, rfl, fun row hrow => ?_, (Except.ok.inj h).symm⟩
      exact List.isEmpty_iff.1 (List.all_eq_true.1 hfits row hrow)
    · cases h

theorem mergeRows_isOk {header : Cells} {col : String} {rows sorted : List Row}
    (hsort : sortRowsByDatetime col (deduplicateByKey col rows) = .ok sorted)
    (hfits : ∀ row ∈ sorted, row.rest = []) :
    mergeRows header col rows = .ok (header :: sorted.map (·.written header)) := by
  unfold mergeRows
  have hall : sorted.all (·.rest.isEmpty) = true := by
    apply List.all_eq_true.2
    intro row hrow
    rw [hfits row hrow]
    rfl
  simp only [hsort, bind, Except.bind, hall, ↓reduceIte]
  rfl

theorem mapM_load (header : Cells) (bodies : List (List Cells)) :
    (bodies.map (header :: ·)).mapM loadCsvWithHeader =
      .ok (bodies.map fun body => (header, readRows header body)) := by
  induction bodies with
  | nil => rfl
  | cons body bodies ih =>
    rw [List.map_cons, List.mapM_cons, ih]
    rfl

/-- **Chunks with one header** are merged as the rows of all of them, one chunk after another. -/
theorem mergeChunkCsvs_header (header : Cells) (bodies : List (List Cells)) :
    mergeChunkCsvs (bodies.map (header :: ·)) =
      if bodies = [] then .error (.valueError "No input files provided")
      else match datetimeCol? header with
        | some col => mergeRows header col (bodies.map (readRows header)).flatten
        | none => .error (.exit 1) := by
  cases bodies with
  | nil => rfl
  | cons body bodies =>
    have hsame : (bodies.map fun body => (header, readRows header body)).all (·.1 = header) = true := by
      simp
    have hrows : (bodies.map fun body => (header, readRows header body)).flatMap (·.2) =
        (bodies.map (readRows header)).flatten := by
      rw [List.flatMap_def, List.map_map]
      rfl
    unfold mergeChunkCsvs
    rw [mapM_load, if_neg (List.cons_ne_nil body bodies)]
    simp only [List.map_cons, List.isEmpty_cons, Bool.false_eq_true, ↓reduceIte, hsame, hrows,
      List.flatten_cons]
    rfl

end Merge
