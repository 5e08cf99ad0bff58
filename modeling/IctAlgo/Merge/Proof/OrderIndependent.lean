import IctAlgo.Merge.Proof.Rows
import Mathlib.Data.List.Pairwise

/-!
# When a merge does not depend on the order of the chunks

`OrderIndependent`: every order of the chunks gives the same file, with one row for each instant, in
order, and the rows without a readable time at its end.

* `Consistent.lines_eq`, `Consistent.mergedLines`: consistent chunks are merged to one file.
* `consistent_of_orderIndependent`: chunks that are merged to one file are consistent.
* `orderIndependent_iff`: the chunks that merge in every order.
-/

set_option autoImplicit false

namespace Merge

open Lib

/-! ## What a merge is for -/

/-- The instant of a line under the header. -/
def instantOf (header cells : Cells) : Option ℕ := do
  let col ← datetimeCol? header
  let text ← (readRow header cells).key col
  parseDatetimeFlexible? text

structure MergedLines (header : Cells) (bodies : List (List Cells)) (out : List Cells) : Prop where
  instants : ∀ t, (∃ cells ∈ out, instantOf header cells = some t) ↔
    ∃ body ∈ bodies, ∃ cells ∈ body, instantOf header cells = some t
  increasing : (out.filterMap (instantOf header)).Pairwise (· < ·)
  unreadableLast : out.Pairwise fun a b => instantOf header a = none → instantOf header b = none

def OrderIndependent (header : Cells) (bodies : List (List Cells)) : Prop :=
  ∃ out, MergedLines header bodies out ∧
    ∀ bodies' : List (List Cells), bodies'.Perm bodies →
      mergeChunkCsvs (bodies'.map (header :: ·)) = .ok (header :: out)

/-- Each row has a text in the column, the first row of a chunk with a text has no cells too many, all
texts are times or none is, and those of one instant are written alike. Chunks that have rows with one
text begin them with the same line. -/
structure Consistent (header : Cells) (col : String) (chunks : List (List Row)) : Prop where
  timed : ∀ chunk ∈ chunks, ∀ row ∈ chunk, row.key col ≠ none
  fits : ∀ chunk ∈ chunks, ∀ key row, firstRow col chunk key = some row → row.rest = []
  oneKind : ∀ chunk ∈ chunks, ∀ row ∈ chunk, ∀ chunk' ∈ chunks, ∀ row' ∈ chunk',
    ∀ text text', row.key col = some text → row'.key col = some text' →
      (parseDatetimeFlexible? text).isSome = (parseDatetimeFlexible? text').isSome
  oneNotation : ∀ chunk ∈ chunks, ∀ row ∈ chunk, ∀ chunk' ∈ chunks, ∀ row' ∈ chunk',
    ∀ text text' t, row.key col = some text → row'.key col = some text' →
      parseDatetimeFlexible? text = some t → parseDatetimeFlexible? text' = some t → text = text'
  agree : ∀ chunk ∈ chunks, ∀ chunk' ∈ chunks, ∀ key row row', firstRow col chunk key = some row →
    firstRow col chunk' key = some row' → row.written header = row'.written header

/-! ## Texts and instants of lines -/

theorem sortKey_isInstant (text : String) :
    (sortKey text).isInstant = (parseDatetimeFlexible? text).isSome := by
  unfold sortKey
  cases parseDatetimeFlexible? text <;> rfl

theorem key_of_timed {row : Row} {col : String} (h : row.key col ≠ none) :
    row.key col = some (row.text col) := by
  obtain ⟨text, htext⟩ := Option.ne_none_iff_exists'.1 h
  rw [Row.text, htext, Option.getD_some]

/-- The order of the lines in a sorted file. -/
def lineBefore (header : Cells) (col : String) (a b : Cells) : Prop :=
  sortedBefore col (readRow header a) (readRow header b)

/-- What a sort compares of two rows with times is the times. -/
theorem le_of_sortedBefore {col : String} {a b : Row} {t u : ℕ} (h : sortedBefore col a b)
    (ha : parseDatetimeFlexible? (a.text col) = some t)
    (hb : parseDatetimeFlexible? (b.text col) = some u) : t ≤ u := by
  simpa [sortedBefore, sortKey, ha, hb, SortKey.lt?] using h

/-- Texts of which neither is before the other are the same, or times of one instant. -/
theorem text_antisymm {s s' : String} (h : (sortKey s').lt? (sortKey s) = some false)
    (h' : (sortKey s).lt? (sortKey s') = some false) :
    s = s' ∨ ∃ t, parseDatetimeFlexible? s = some t ∧ parseDatetimeFlexible? s' = some t := by
  unfold sortKey at h h'
  cases hs : parseDatetimeFlexible? s with
  | none =>
    cases hs' : parseDatetimeFlexible? s' with
    | none =>
      simp only [hs, hs', SortKey.lt?, Option.some.injEq, decide_eq_false_iff_not, not_lt] at h h'
      exact .inl (le_antisymm h h')
    | some u =>
      simp [hs, hs', SortKey.lt?] at h
  | some t =>
    cases hs' : parseDatetimeFlexible? s' with
    | none => simp [hs, hs', SortKey.lt?] at h
    | some u =>
      simp only [hs, hs', SortKey.lt?, Option.some.injEq, decide_eq_false_iff_not, not_lt] at h h'
      exact .inr ⟨t, rfl, by rw [le_antisymm h h']⟩

section
variable {header : Cells} {col : String} (hcol : datetimeCol? header = some col)

include hcol

theorem col_mem : col ∈ header := by
  have h := List.find?_some hcol
  simpa using h

theorem instantOf_eq (cells : Cells) :
    instantOf header cells = ((readRow header cells).key col).bind parseDatetimeFlexible? := by
  unfold instantOf
  rw [hcol]
  rfl

/-- A blank line has no instant. -/
theorem instantOf_nil : instantOf header [] = none := by
  have hitems : header.zip (([] : Cells).map some ++
      List.replicate (header.length - ([] : Cells).length) none) =
        header.map fun c => (c, (none : Option String)) := by
    have hzip := List.zip_map' (f := id) (l := header) (g := fun _ => (none : Option String))
    rwa [List.map_id, List.map_const'] at hzip
  rw [instantOf_eq hcol, Row.key, readRow, hitems, Dict.getD, Dict.get?_ofItems_map _ (col_mem hcol)]
  rfl

variable {row : Row} (hread : ∃ cells, row = readRow header cells) (htimed : row.key col ≠ none)

include hread htimed

theorem key_line : (readRow header (row.written header)).key col = row.key col := by
  obtain ⟨cells, rfl⟩ := hread
  rw [key_written (col_mem hcol) cells (key_of_timed htimed), ← key_of_timed htimed]

theorem instantOf_line :
    instantOf header (row.written header) = parseDatetimeFlexible? (row.text col) := by
  rw [instantOf_eq hcol, key_line hcol hread htimed, key_of_timed htimed, Option.bind_some]

end

/-! ## Consistent chunks -/

theorem Consistent.perm {header : Cells} {col : String} {chunks chunks' : List (List Row)}
    (hc : Consistent header col chunks) (hp : chunks'.Perm chunks) :
    Consistent header col chunks' where
  timed := fun c h => hc.timed c (hp.mem_iff.1 h)
  fits := fun c h => hc.fits c (hp.mem_iff.1 h)
  oneKind := fun c h r hr c' h' => hc.oneKind c (hp.mem_iff.1 h) r hr c' (hp.mem_iff.1 h')
  oneNotation := fun c h r hr c' h' =>
    hc.oneNotation c (hp.mem_iff.1 h) r hr c' (hp.mem_iff.1 h')
  agree := fun c h c' h' => hc.agree c (hp.mem_iff.1 h) c' (hp.mem_iff.1 h')

section
variable {header : Cells} {col : String} {chunks : List (List Row)}
  (hc : Consistent header col chunks)

include hc

theorem Consistent.timed_kept : ∀ row ∈ deduplicateByKey col chunks.flatten, row.key col ≠ none := by
  intro row hrow
  obtain ⟨chunk, hchunk, hfirst⟩ := chunk_of_kept hrow
  exact hc.timed chunk hchunk row (mem_of_firstRow hfirst)

/-- Rows of chunks that are kept: a merge of consistent chunks does not raise. -/
theorem Consistent.exists_sorted :
    ∃ sorted, sortRowsByDatetime col (deduplicateByKey col chunks.flatten) = .ok sorted ∧
      ∀ row ∈ sorted, row.rest = [] := by
  obtain ⟨sorted, hsort⟩ := sortRowsByDatetime_isOk hc.timed_kept fun row hrow row' hrow' => by
    obtain ⟨chunk, hchunk, hfirst⟩ := chunk_of_kept hrow
    obtain ⟨chunk', hchunk', hfirst'⟩ := chunk_of_kept hrow'
    rw [sortKey_isInstant, sortKey_isInstant]
    exact hc.oneKind chunk hchunk row (mem_of_firstRow hfirst) chunk' hchunk' row'
      (mem_of_firstRow hfirst') _ _ (key_of_timed (hc.timed_kept row hrow))
      (key_of_timed (hc.timed_kept row' hrow'))
  refine ⟨sorted, hsort, fun row hrow => ?_⟩
  obtain ⟨-, -, hperm, -⟩ := sortRowsByDatetime_ok hsort
  obtain ⟨chunk, hchunk, hfirst⟩ := chunk_of_kept (hperm.mem_iff.1 hrow)
  exact hc.fits chunk hchunk _ row hfirst

/-- A line that one order keeps is kept by every order. -/
theorem Consistent.kept_line {chunks' : List (List Row)} (hp : chunks'.Perm chunks) {row : Row}
    (h : row ∈ deduplicateByKey col chunks.flatten) :
    ∃ row' ∈ deduplicateByKey col chunks'.flatten, row'.written header = row.written header := by
  obtain ⟨chunk, hchunk, hfirst⟩ := chunk_of_kept h
  have hmem : row ∈ chunks'.flatten :=
    List.mem_flatten.2 ⟨chunk, hp.mem_iff.2 hchunk, mem_of_firstRow hfirst⟩
  obtain ⟨kept, hkept, hkey, -⟩ := exists_kept col hmem
  obtain ⟨chunk', hchunk', hfirst'⟩ := chunk_of_kept hkept
  refine ⟨kept, hkept, ?_⟩
  exact hc.agree chunk' (hp.mem_iff.1 hchunk') chunk hchunk (row.key col) kept row
    (by rw [← hkey]; exact hfirst') hfirst

end

theorem read_of_mem {header : Cells} {body : List Cells} {row : Row}
    (h : row ∈ readRows header body) : ∃ cells ∈ body, row = readRow header cells := by
  obtain ⟨cells, hcells, rfl⟩ := List.mem_map.1 h
  exact ⟨cells, List.mem_of_mem_filter hcells, rfl⟩

section
variable {header : Cells} {col : String} (hcol : datetimeCol? header = some col)
  {bodies : List (List Cells)} (hc : Consistent header col (bodies.map (readRows header)))

/-- The rows of the bodies. -/
theorem read_of_kept {row : Row}
    (h : row ∈ deduplicateByKey col (bodies.map (readRows header)).flatten) :
    ∃ body ∈ bodies, row ∈ readRows header body := by
  obtain ⟨chunk, hchunk, hfirst⟩ := chunk_of_kept h
  obtain ⟨body, hbody, rfl⟩ := List.mem_map.1 hchunk
  exact ⟨body, hbody, mem_of_firstRow hfirst⟩

theorem cells_of_kept {row : Row}
    (h : row ∈ deduplicateByKey col (bodies.map (readRows header)).flatten) :
    ∃ cells, row = readRow header cells := by
  obtain ⟨body, -, hrow⟩ := read_of_kept h
  obtain ⟨cells, -, hread⟩ := read_of_mem hrow
  exact ⟨cells, hread⟩

include hc in
/-- Of two rows that are kept, the texts are of one instant only when they are the same. -/
theorem text_of_instant {row row' : Row} {t : ℕ}
    (h : row ∈ deduplicateByKey col (bodies.map (readRows header)).flatten)
    (h' : row' ∈ deduplicateByKey col (bodies.map (readRows header)).flatten)
    (ht : parseDatetimeFlexible? (row.text col) = some t)
    (ht' : parseDatetimeFlexible? (row'.text col) = some t) : row.text col = row'.text col := by
  obtain ⟨chunk, hchunk, hfirst⟩ := chunk_of_kept h
  obtain ⟨chunk', hchunk', hfirst'⟩ := chunk_of_kept h'
  exact hc.oneNotation chunk hchunk row (mem_of_firstRow hfirst) chunk' hchunk' row'
    (mem_of_firstRow hfirst') _ _ t (key_of_timed (hc.timed_kept row h))
    (key_of_timed (hc.timed_kept row' h')) ht ht'

include hcol

/-- The lines of sorted rows have different texts. -/
theorem nodup_lines {sorted : List Row} (hsort : sortRowsByDatetime col
      (deduplicateByKey col (bodies.map (readRows header)).flatten) = .ok sorted) :
    ((sorted.map (·.written header)).map fun line => (readRow header line).key col).Nodup := by
  obtain ⟨htimed, -, hperm, -⟩ := sortRowsByDatetime_ok hsort
  have hkeys : (sorted.map (·.written header)).map (fun line => (readRow header line).key col) =
      sorted.map (·.key col) := by
    rw [List.map_map]
    apply List.map_congr_left
    intro row hrow
    have hkept := hperm.mem_iff.1 hrow
    exact key_line hcol (cells_of_kept hkept) (htimed row hkept)
  rw [hkeys]
  exact ((hperm.map _).nodup_iff).2 (nodup_deduplicateByKey col _)

include hc

/-- The line of a row that is kept has the text of the row. -/
theorem Consistent.key_kept {row : Row}
    (h : row ∈ deduplicateByKey col (bodies.map (readRows header)).flatten) :
    (readRow header (row.written header)).key col = some (row.text col) := by
  have htimed := hc.timed_kept row h
  rw [key_line hcol (cells_of_kept h) htimed, key_of_timed htimed]

theorem Consistent.instantOf_kept {row : Row}
    (h : row ∈ deduplicateByKey col (bodies.map (readRows header)).flatten) :
    instantOf header (row.written header) = parseDatetimeFlexible? (row.text col) :=
  instantOf_line hcol (cells_of_kept h) (hc.timed_kept row h)

section
variable {sorted : List Row} (hsort : sortRowsByDatetime col
  (deduplicateByKey col (bodies.map (readRows header)).flatten) = .ok sorted)

include hsort

/-- The lines are in the order of the rows. -/
theorem Consistent.lines_sorted :
    (sorted.map (·.written header)).Pairwise (lineBefore header col) := by
  obtain ⟨-, -, hperm, hpair⟩ := sortRowsByDatetime_ok hsort
  apply List.pairwise_map.2
  apply hpair.imp_of_mem
  intro a b ha hb h
  have hkey := hc.key_kept hcol (hperm.mem_iff.1 ha)
  have hkey' := hc.key_kept hcol (hperm.mem_iff.1 hb)
  simp only [lineBefore, sortedBefore, Row.text, hkey, hkey', Option.getD_some]
  exact h

omit hcol in
/-- Every line of another order is one of them. -/
theorem Consistent.lines_subset {bodies' : List (List Cells)} (hp : bodies'.Perm bodies)
    {sorted' : List Row} (hsort' : sortRowsByDatetime col
      (deduplicateByKey col (bodies'.map (readRows header)).flatten) = .ok sorted') :
    sorted'.map (·.written header) ⊆ sorted.map (·.written header) := by
  obtain ⟨-, -, hperm, -⟩ := sortRowsByDatetime_ok hsort
  obtain ⟨-, -, hperm', -⟩ := sortRowsByDatetime_ok hsort'
  have hp' := hp.map (readRows header)
  intro line h
  obtain ⟨row, hrow, rfl⟩ := List.mem_map.1 h
  obtain ⟨kept, hkept, hline⟩ := (hc.perm hp').kept_line hp'.symm (hperm'.mem_iff.1 hrow)
  exact List.mem_map.2 ⟨kept, hperm.mem_iff.2 hkept, hline⟩

/-- Two lines of which neither is before the other are one line. -/
theorem Consistent.line_antisymm {a b : Cells} (ha : a ∈ sorted.map (·.written header))
    (hb : b ∈ sorted.map (·.written header)) (hab : lineBefore header col a b)
    (hba : lineBefore header col b a) : a = b := by
  obtain ⟨-, -, hperm, -⟩ := sortRowsByDatetime_ok hsort
  obtain ⟨row, hrow, rfl⟩ := List.mem_map.1 ha
  obtain ⟨row', hrow', rfl⟩ := List.mem_map.1 hb
  have hkept := hperm.mem_iff.1 hrow
  have hkept' := hperm.mem_iff.1 hrow'
  have hkey := hc.key_kept hcol hkept
  have hkey' := hc.key_kept hcol hkept'
  simp only [lineBefore, sortedBefore, Row.text, hkey, hkey', Option.getD_some] at hab hba
  have hsame : row.text col = row'.text col := by
    obtain h | ⟨t, ht, ht'⟩ := text_antisymm hab hba
    · exact h
    · exact text_of_instant hc hkept hkept' ht ht'
  apply List.inj_on_of_nodup_map (nodup_lines hcol hsort) ha hb
  rw [hkey, hkey', hsame]

/-- **Every order of the chunks gives the same lines.** Both files have the same lines, which their
texts tell apart, in one order. -/
theorem Consistent.lines_eq {bodies' : List (List Cells)} (hp : bodies'.Perm bodies)
    {sorted' : List Row} (hsort' : sortRowsByDatetime col
      (deduplicateByKey col (bodies'.map (readRows header)).flatten) = .ok sorted') :
    sorted'.map (·.written header) = sorted.map (·.written header) := by
  have hc' := hc.perm (hp.map (readRows header))
  have hlines : (sorted'.map (·.written header)).Perm (sorted.map (·.written header)) := by
    apply (List.perm_ext_iff_of_nodup (List.Nodup.of_map _ (nodup_lines hcol hsort'))
      (List.Nodup.of_map _ (nodup_lines hcol hsort))).2
    intro line
    exact ⟨fun h => hc.lines_subset hsort hp hsort' h,
      fun h => hc'.lines_subset hsort' hp.symm hsort h⟩
  exact List.Perm.eq_of_pairwise
    (fun a b ha hb => hc.line_antisymm hcol hsort (hlines.mem_iff.1 ha) hb)
    (hc'.lines_sorted hcol hsort') (hc.lines_sorted hcol hsort) hlines

/-- The instants of the file are those of the chunks. -/
theorem Consistent.lines_instants (t : ℕ) :
    (∃ cells ∈ sorted.map (·.written header), instantOf header cells = some t) ↔
      ∃ body ∈ bodies, ∃ cells ∈ body, instantOf header cells = some t := by
  obtain ⟨-, -, hperm, -⟩ := sortRowsByDatetime_ok hsort
  refine ⟨fun h => ?_, fun h => ?_⟩
  · obtain ⟨line, hmem, ht⟩ := h
    obtain ⟨row, hrow, rfl⟩ := List.mem_map.1 hmem
    have hkept := hperm.mem_iff.1 hrow
    obtain ⟨body, hbody, hread⟩ := read_of_kept hkept
    obtain ⟨cells, hcells, rfl⟩ := read_of_mem hread
    refine ⟨body, hbody, cells, hcells, ?_⟩
    rw [instantOf_eq hcol, key_of_timed (hc.timed_kept _ hkept), Option.bind_some,
      ← hc.instantOf_kept hcol hkept]
    exact ht
  · obtain ⟨body, hbody, cells, hcells, ht⟩ := h
    have hne : cells ≠ [] := by
      intro h
      rw [h, instantOf_nil hcol] at ht
      cases ht
    have hrow : readRow header cells ∈ (bodies.map (readRows header)).flatten := by
      refine List.mem_flatten.2 ⟨readRows header body, List.mem_map_of_mem hbody, ?_⟩
      exact List.mem_map_of_mem (List.mem_filter.2 ⟨hcells, by simpa using hne⟩)
    obtain ⟨kept, hkept, hkey, -⟩ := exists_kept col hrow
    refine ⟨_, List.mem_map_of_mem (hperm.mem_iff.2 hkept), ?_⟩
    rw [instantOf_eq hcol, ← hkey, key_of_timed (hc.timed_kept kept hkept), Option.bind_some] at ht
    rw [hc.instantOf_kept hcol hkept, ht]

theorem Consistent.lines_increasing :
    ((sorted.map (·.written header)).filterMap (instantOf header)).Pairwise (· < ·) := by
  obtain ⟨-, -, hperm, hpair⟩ := sortRowsByDatetime_ok hsort
  have hkeys : sorted.Pairwise fun a b => a.key col ≠ b.key col := by
    apply List.pairwise_map.1
    exact ((hperm.map _).nodup_iff).2 (nodup_deduplicateByKey col _)
  rw [List.filterMap_map, List.pairwise_filterMap]
  apply (hpair.and hkeys).imp_of_mem
  intro a b ha hb h t ht u hu
  have ha' := hperm.mem_iff.1 ha
  have hb' := hperm.mem_iff.1 hb
  have hat := (hc.instantOf_kept hcol ha').symm.trans ht
  have hbu := (hc.instantOf_kept hcol hb').symm.trans hu
  apply lt_of_le_of_ne (le_of_sortedBefore h.1 hat hbu)
  intro heq
  subst heq
  apply h.2
  rw [key_of_timed (hc.timed_kept a ha'), key_of_timed (hc.timed_kept b hb'),
    text_of_instant hc ha' hb' hat hbu]

/-- All texts are times or none is: with one line without an instant, there is none. -/
theorem Consistent.lines_unreadable :
    (sorted.map (·.written header)).Pairwise fun a b =>
      instantOf header a = none → instantOf header b = none := by
  obtain ⟨-, -, hperm, -⟩ := sortRowsByDatetime_ok hsort
  apply List.pairwise_map.2
  apply List.Pairwise.imp_of_mem (R := fun _ _ => True) (fun {a b} ha hb _ => ?_)
    (List.pairwise_of_forall fun _ _ => trivial)
  have ha' := hperm.mem_iff.1 ha
  have hb' := hperm.mem_iff.1 hb
  rw [hc.instantOf_kept hcol ha', hc.instantOf_kept hcol hb']
  intro hnone
  obtain ⟨chunk, hchunk, hfirst⟩ := chunk_of_kept ha'
  obtain ⟨chunk', hchunk', hfirst'⟩ := chunk_of_kept hb'
  have hkind := hc.oneKind chunk hchunk a (mem_of_firstRow hfirst) chunk' hchunk' b
    (mem_of_firstRow hfirst') _ _ (key_of_timed (hc.timed_kept a ha'))
    (key_of_timed (hc.timed_kept b hb'))
  rw [hnone] at hkind
  exact Option.isNone_iff_eq_none.1 (by simpa using hkind.symm)

/-- **The file of consistent chunks** has one line for each instant, in order. -/
theorem Consistent.mergedLines : MergedLines header bodies (sorted.map (·.written header)) :=
  ⟨hc.lines_instants hcol hsort, hc.lines_increasing hcol hsort, hc.lines_unreadable hcol hsort⟩

end

/-! ## Chunks that merge in every order -/

omit hc in
/-- The rows that an order of the chunks is merged to, when every order gives the lines `out`. -/
theorem sorted_of_merge {bodies' : List (List Cells)} {out : List Cells} (hne : bodies' ≠ [])
    (h : mergeChunkCsvs (bodies'.map (header :: ·)) = .ok (header :: out)) :
    ∃ sorted, sortRowsByDatetime col
        (deduplicateByKey col (bodies'.map (readRows header)).flatten) = .ok sorted ∧
      (∀ row ∈ sorted, row.rest = []) ∧ out = sorted.map (·.written header) := by
  rw [mergeChunkCsvs_header, if_neg hne, hcol] at h
  obtain ⟨sorted, hsort, hfits, hlines⟩ := mergeRows_ok h
  exact ⟨sorted, hsort, hfits, (List.cons.inj hlines).2⟩

omit hcol hc in
/-- Lines of one instant are one line where the instants increase. -/
theorem line_unique {out : List Cells} (h : (out.filterMap (instantOf header)).Pairwise (· < ·))
    {a b : Cells} {t : ℕ} (ha : a ∈ out) (hb : b ∈ out) (hat : instantOf header a = some t)
    (hbt : instantOf header b = some t) : a = b := by
  have hpair : out.Pairwise fun x y => ¬(instantOf header x = some t ∧ instantOf header y = some t) := by
    apply (List.pairwise_filterMap.1 h).imp
    intro x y hlt hboth
    exact lt_irrefl t (hlt t hboth.1 t hboth.2)
  have hsymm : Std.Symm fun x y =>
      ¬(instantOf header x = some t ∧ instantOf header y = some t) :=
    ⟨fun x y hnot hboth => hnot hboth.symm⟩
  by_contra hne
  exact hpair.forall ha hb hne ⟨hat, hbt⟩

omit hc in
/-- Each row has the text of one that is kept, whose line is in the file. -/
theorem kept_of_merge {out : List Cells} (hne : bodies ≠ [])
    (h : mergeChunkCsvs (bodies.map (header :: ·)) = .ok (header :: out)) :
    ∀ chunk ∈ bodies.map (readRows header), ∀ row ∈ chunk,
      ∃ kept ∈ deduplicateByKey col (bodies.map (readRows header)).flatten,
        kept.key col = row.key col ∧ kept.key col ≠ none ∧ kept.written header ∈ out := by
  intro chunk hchunk row hrow
  obtain ⟨sorted, hsort, -, rfl⟩ := sorted_of_merge hcol hne h
  obtain ⟨htimed, -, hperm, -⟩ := sortRowsByDatetime_ok hsort
  obtain ⟨kept, hmem, hkey, -⟩ := exists_kept col (List.mem_flatten.2 ⟨chunk, hchunk, hrow⟩)
  exact ⟨kept, hmem, hkey, htimed kept hmem, List.mem_map_of_mem (hperm.mem_iff.2 hmem)⟩

omit hc in
/-- The first rows of a chunk are kept by the order that begins with it. -/
theorem first_of_merge {out : List Cells}
    (h : ∀ bodies' : List (List Cells), bodies'.Perm bodies →
      mergeChunkCsvs (bodies'.map (header :: ·)) = .ok (header :: out)) :
    ∀ chunk ∈ bodies.map (readRows header), ∀ key row, firstRow col chunk key = some row →
      row.rest = [] ∧ row.written header ∈ out := by
  intro chunk hchunk key row hrow
  obtain ⟨body, hbody, rfl⟩ := List.mem_map.1 hchunk
  obtain ⟨sorted, hsort, hfits, rfl⟩ := sorted_of_merge hcol (List.cons_ne_nil _ _)
    (h (body :: bodies.erase body) (List.perm_cons_erase hbody).symm)
  obtain ⟨-, -, hperm, -⟩ := sortRowsByDatetime_ok hsort
  have hmem := hperm.mem_iff.2 (kept_of_first ((bodies.erase body).map (readRows header)) hrow)
  exact ⟨hfits row hmem, List.mem_map_of_mem hmem⟩

omit hc in
theorem consistent_of_orderIndependent (hne : bodies ≠ []) (h : OrderIndependent header bodies) :
    Consistent header col (bodies.map (readRows header)) := by
  obtain ⟨out, hm, hrun⟩ := h
  have hself := hrun bodies (List.Perm.refl _)
  have hkept := kept_of_merge hcol hne hself
  have hfirst := first_of_merge hcol hrun
  have hnodup : (out.map fun line => (readRow header line).key col).Nodup := by
    obtain ⟨sorted, hsort, -, rfl⟩ := sorted_of_merge hcol hne hself
    exact nodup_lines hcol hsort
  have htimed : ∀ chunk ∈ bodies.map (readRows header), ∀ row ∈ chunk, row.key col ≠ none := by
    intro chunk hchunk row hrow
    obtain ⟨kept, -, hkey, htimed, -⟩ := hkept chunk hchunk row hrow
    rw [← hkey]
    exact htimed
  have hcells : ∀ chunk ∈ bodies.map (readRows header), ∀ row ∈ chunk,
      ∃ cells, row = readRow header cells := by
    intro chunk hchunk row hrow
    obtain ⟨body, -, rfl⟩ := List.mem_map.1 hchunk
    obtain ⟨cells, -, hread⟩ := read_of_mem hrow
    exact ⟨cells, hread⟩
  refine ⟨htimed, fun chunk hchunk key row hrow => (hfirst chunk hchunk key row hrow).1, ?_, ?_, ?_⟩
  · intro chunk hchunk row hrow chunk' hchunk' row' hrow' text text' htext htext'
    obtain ⟨kept, hmem, hkey, -⟩ := hkept chunk hchunk row hrow
    obtain ⟨kept', hmem', hkey', -⟩ := hkept chunk' hchunk' row' hrow'
    obtain ⟨sorted, hsort, -⟩ := sorted_of_merge hcol hne hself
    obtain ⟨-, hkind, -⟩ := sortRowsByDatetime_ok hsort
    have hsame := hkind kept hmem kept' hmem'
    rwa [sortKey_isInstant, sortKey_isInstant, Row.text, Row.text, hkey, hkey', htext, htext'] at hsame
  · intro chunk hchunk row hrow chunk' hchunk' row' hrow' text text' t htext htext' ht ht'
    obtain ⟨kept, hmem, hkey, hsome, hline⟩ := hkept chunk hchunk row hrow
    obtain ⟨kept', hmem', hkey', hsome', hline'⟩ := hkept chunk' hchunk' row' hrow'
    have hat : instantOf header (kept.written header) = some t := by
      rw [instantOf_line hcol (cells_of_kept hmem) hsome, Row.text, hkey, htext]
      exact ht
    have hbt : instantOf header (kept'.written header) = some t := by
      rw [instantOf_line hcol (cells_of_kept hmem') hsome', Row.text, hkey', htext']
      exact ht'
    have hkeys := key_line hcol (cells_of_kept hmem) hsome
    rw [line_unique hm.increasing hline hline' hat hbt,
      key_line hcol (cells_of_kept hmem') hsome', hkey, hkey', htext, htext'] at hkeys
    exact (Option.some.inj hkeys).symm
  · intro chunk hchunk chunk' hchunk' key row row' hrow hrow'
    have hmem := mem_of_firstRow hrow
    have hmem' := mem_of_firstRow hrow'
    apply List.inj_on_of_nodup_map hnodup (hfirst chunk hchunk key row hrow).2
      (hfirst chunk' hchunk' key row' hrow').2
    rw [key_line hcol (hcells chunk hchunk row hmem) (htimed chunk hchunk row hmem),
      key_line hcol (hcells chunk' hchunk' row' hmem') (htimed chunk' hchunk' row' hmem'),
      key_of_firstRow hrow, key_of_firstRow hrow']

end

/-- **A merge does not depend on the order of the chunks** exactly when they are consistent. -/
theorem orderIndependent_iff (header : Cells) (bodies : List (List Cells)) :
    OrderIndependent header bodies ↔ bodies ≠ [] ∧ ∃ col, datetimeCol? header = some col ∧
      Consistent header col (bodies.map (readRows header)) := by
  refine ⟨fun h => ?_, fun h => ?_⟩
  · obtain ⟨out, -, hrun⟩ := id h
    have hself := hrun bodies (List.Perm.refl _)
    rw [mergeChunkCsvs_header] at hself
    by_cases hne : bodies = []
    · rw [if_pos hne] at hself
      cases hself
    · rw [if_neg hne] at hself
      refine ⟨hne, ?_⟩
      cases hcol : datetimeCol? header with
      | none =>
        rw [hcol] at hself
        cases hself
      | some col => exact ⟨col, rfl, consistent_of_orderIndependent hcol hne h⟩
  · obtain ⟨hne, col, hcol, hc⟩ := h
    obtain ⟨sorted, hsort, hfits⟩ := hc.exists_sorted
    refine ⟨sorted.map (·.written header), hc.mergedLines hcol hsort, fun bodies' hp => ?_⟩
    have hne' : bodies' ≠ [] := by
      intro h
      rw [h] at hp
      exact hne hp.nil_eq.symm
    obtain ⟨sorted', hsort', hfits'⟩ := (hc.perm (hp.map (readRows header))).exists_sorted
    rw [mergeChunkCsvs_header, if_neg hne', hcol, ← hc.lines_eq hcol hsort hp hsort']
    exact mergeRows_isOk hsort' hfits'

/-- A chunk with a time and one with a text that is none: the sort compares a time with a tuple. -/
theorem timeAndText_raise :
    ¬OrderIndependent ["datetime", "close"]
      [[["2026-01-05 10:00:00", "1.08"]], [["n/a", "1.09"]]] := by
  intro h
  obtain ⟨out, -, hrun⟩ := h
  have hraises : mergeChunkCsvs [[["datetime", "close"], ["2026-01-05 10:00:00", "1.08"]],
      [["datetime", "close"], ["n/a", "1.09"]]] = .error .typeError := by
    decide +kernel
  exact absurd ((hrun _ (List.Perm.refl _)).symm.trans hraises) (by simp)

end Merge
