import IctAlgo.Memory.Fusion
import IctAlgo.Memory.Proof.Newest

/-!
# The invariant of fusion

Over what `fetch_window` reads of each timeframe, the calls and the cached snapshot. A window only
changes for a newer alert, so its last timestamp tells whether it has changed.

* `Covered`: every stored alert is in the cached snapshot or on its way into it.
* `Covers`: there is one reader, what it has read is not newer than what is there now, and the cached
  snapshot is not newer than what the reader will write.
* `Covers.upToDate`: the last timestamps of the windows tell whether the cached snapshot is theirs.
* `Covers.keep`, `Covers.acquire`, `Covers.read`, `Covers.write`, `Covers.finish`: what each kind of
  command does to it.
-/

set_option autoImplicit false

namespace Memory.Fusion

open Lib

variable {γ ω μ : Type} {floats : Floats γ ω μ}

/-! ## What is cached -/

def Phase.isReading : Phase γ ω μ → Bool
  | reading _ _ => true
  | _ => false

def Phase.isReturned : Phase γ ω μ → Bool
  | returned _ => true
  | _ => false

/-- What `fuse` reads of these windows. -/
def allWindows (view : String → List (Alert (Body γ))) : Windows γ :=
  tfOrder.map fun tf => (tf, view tf)

/-- The cached snapshot is the one of these windows, at any time of the client's clock. -/
def UpToDate (floats : Floats γ ω μ) (windows : Windows γ) (cached : Option (Snapshot γ ω μ)) : Prop :=
  ∀ nowMs, cached = snapshot? floats nowMs windows

/-- The newest timestamp of each window that is not empty. -/
def latest (windows : Windows γ) : List (String × ℤ) :=
  windows.filterMap fun read => read.2.head?.map fun alert => (read.1, alert.ts)

/-- The last timestamps a snapshot tells. -/
def lastSeen (cached : Option (Snapshot γ ω μ)) : List (String × ℤ) :=
  match cached with
  | none => []
  | some s => s.tfs.map fun summary => (summary.tf, summary.lastTs)

/-- The call reads, and what it has read is still there. -/
def Phase.Current (view : String → List (Alert (Body γ))) : Phase γ ω μ → Prop
  | reading windows _ => ∀ read ∈ windows, read.2 = view read.1
  | _ => False

/-- Every stored alert is in the cached snapshot or on its way into it: some call has yet to try for
the lock, or one that reads the windows has read only what is there, or nobody reads and the cached
snapshot tells the last timestamp of every window. -/
def Covered (view : String → List (Alert (Body γ))) (calls : List (Phase γ ω μ))
    (cached : Option (Snapshot γ ω μ)) : Prop :=
  .stored ∈ calls ∨ (∃ phase ∈ calls, phase.Current view) ∨
    ((∀ phase ∈ calls, phase.isReading = false) ∧ lastSeen cached = latest (allWindows view))

/-- Some window has a newest alert with a positive timestamp, if any has an alert. -/
def Dated (windows : Windows γ) : Prop :=
  latest windows = [] ∨ ∃ seen ∈ latest windows, 0 < seen.2

section
variable [DecidableEq γ] [DecidableEq ω] [DecidableEq μ]

instance (view : String → List (Alert (Body γ))) :
    (phase : Phase γ ω μ) → Decidable (phase.Current view)
  | .reading windows _ => inferInstanceAs (Decidable (∀ read ∈ windows, read.2 = view read.1))
  | .arrived _ | .stored | .releasing _ | .refused | .returned _ => .isFalse id

instance (view : String → List (Alert (Body γ))) (calls : List (Phase γ ω μ))
    (cached : Option (Snapshot γ ω μ)) : Decidable (Covered view calls cached) :=
  inferInstanceAs (Decidable (_ ∨ _ ∨ _))

instance (windows : Windows γ) : Decidable (Dated windows) :=
  inferInstanceAs (Decidable (_ ∨ _))

end

/-! ## Timestamps of snapshots -/

/-- Some window has an alert as late as `t`. -/
def Reached (t : ℤ) (windows : Windows γ) : Prop :=
  ∃ read ∈ windows, (t : WithBot ℤ) ≤ newest read.2

theorem lastTs_nonneg (tfs : List (Summary γ ω)) : 0 ≤ lastTs tfs := by
  have hfold : ∀ (last : ℤ), 0 ≤ last →
      0 ≤ tfs.foldl (fun last s => if s.lastTs = 0 then last else max last s.lastTs) last := by
    induction tfs with
    | nil => exact fun _ h => h
    | cons s tfs ih =>
      intro last h
      apply ih
      show 0 ≤ if s.lastTs = 0 then last else max last s.lastTs
      split
      · exact h
      · exact h.trans (le_max_left _ _)
  exact hfold 0 le_rfl

theorem le_lastTs_iff {t : ℤ} (ht : 0 < t) (tfs : List (Summary γ ω)) :
    t ≤ lastTs tfs ↔ ∃ s ∈ tfs, t ≤ s.lastTs := by
  have hfold : ∀ (last : ℤ),
      t ≤ tfs.foldl (fun last s => if s.lastTs = 0 then last else max last s.lastTs) last ↔
        t ≤ last ∨ ∃ s ∈ tfs, t ≤ s.lastTs := by
    induction tfs with
    | nil => simp
    | cons s tfs ih =>
      intro last
      rw [List.foldl_cons, ih, List.exists_mem_cons_iff, ← or_assoc]
      apply or_congr_left
      split
      · constructor
        · exact .inl
        · intro h
          omega
      · exact le_max_iff
  rw [lastTs, hfold 0]
  constructor
  · intro h
    exact h.resolve_left (by omega)
  · exact .inr

theorem le_lastTs_summaries (floats : Floats γ ω μ) {t : ℤ} (ht : 0 < t) (windows : Windows γ) :
    t ≤ lastTs (summaries floats windows) ↔ Reached t windows := by
  rw [le_lastTs_iff ht]
  unfold Reached summaries
  refine ⟨fun h => ?_, fun h => ?_⟩
  · obtain ⟨s, hs, hle⟩ := h
    obtain ⟨⟨tf, alerts⟩, hread, hsum⟩ := List.mem_filterMap.1 hs
    refine ⟨_, hread, ?_⟩
    cases alerts with
    | nil => cases hsum
    | cons latest older =>
      obtain rfl := Option.some.inj hsum
      exact WithBot.coe_le_coe.2 hle
  · obtain ⟨⟨tf, alerts⟩, hread, hle⟩ := h
    cases alerts with
    | nil => exact absurd hle (WithBot.not_coe_le_bot t)
    | cons latest older =>
      exact ⟨_, List.mem_filterMap.2 ⟨_, hread, rfl⟩, WithBot.coe_le_coe.1 hle⟩

theorem summarizeTf_map (tf : String) (alerts : List (Alert (Body γ))) :
    (summarizeTf floats tf alerts).map (fun summary => (summary.tf, summary.lastTs)) =
      alerts.head?.map fun alert => (tf, alert.ts) := by
  cases alerts with
  | nil => rfl
  | cons latest older => rfl

theorem summaries_map (floats : Floats γ ω μ) (windows : Windows γ) :
    (summaries floats windows).map (fun summary => (summary.tf, summary.lastTs)) =
      latest windows := by
  unfold summaries latest
  rw [List.map_filterMap]
  apply List.filterMap_congr
  intro read _
  exact summarizeTf_map read.1 read.2

/-- A snapshot of dated windows takes its timestamp from an alert. -/
theorem Dated.lastTs_ne_zero {windows : Windows γ} (h : Dated windows)
    (hne : summaries floats windows ≠ []) : lastTs (summaries floats windows) ≠ 0 := by
  obtain hnone | ⟨seen, hseen, hpos⟩ := h
  · rw [← summaries_map floats] at hnone
    exact absurd (List.map_eq_nil_iff.1 hnone) hne
  · rw [← summaries_map floats] at hseen
    obtain ⟨summary, hsummary, rfl⟩ := List.mem_map.1 hseen
    have hle := (le_lastTs_iff hpos (summaries floats windows)).2 ⟨summary, hsummary, le_rfl⟩
    exact (lt_of_lt_of_le hpos hle).ne'

theorem snapshot?_ts {nowMs : ℤ} {windows : Windows γ} {s : Snapshot γ ω μ}
    (h : snapshot? floats nowMs windows = some s) (hdated : Dated windows) :
    0 < s.snapshotTs ∧ s.snapshotTs = lastTs (summaries floats windows) := by
  unfold snapshot? at h
  simp only [Option.ite_none_left_eq_some, Option.some.injEq] at h
  obtain ⟨hne, rfl⟩ := h
  have hdate := hdated.lastTs_ne_zero hne
  have hnonneg := lastTs_nonneg (summaries floats windows)
  refine ⟨?_, if_neg hdate⟩
  show 0 < if lastTs (summaries floats windows) = 0 then nowMs else lastTs (summaries floats windows)
  rw [if_neg hdate]
  exact lt_of_le_of_ne hnonneg (Ne.symm hdate)

theorem snapshot?_congr {windows : Windows γ} (hdated : Dated windows) (nowMs nowMs' : ℤ) :
    snapshot? floats nowMs windows = snapshot? floats nowMs' windows := by
  unfold snapshot?
  by_cases hne : summaries floats windows = []
  · rw [if_pos hne, if_pos hne]
  · simp only [if_neg (hdated.lastTs_ne_zero hne)]

/-- Without a snapshot there is no alert in the windows. -/
theorem not_reached {nowMs t : ℤ} {windows : Windows γ} (h : snapshot? floats nowMs windows = none)
    (ht : 0 < t) : ¬ Reached t windows := by
  have hnone : summaries floats windows = [] := by
    by_contra hne
    unfold snapshot? at h
    rw [if_neg hne] at h
    cases h
  rw [← le_lastTs_summaries floats ht, hnone]
  exact not_le.2 ht

/-- A snapshot tells the last timestamps of the windows it was made of. -/
theorem lastSeen_snapshot? (floats : Floats γ ω μ) (nowMs : ℤ) (windows : Windows γ) :
    lastSeen (snapshot? floats nowMs windows) = latest windows := by
  have hmap := summaries_map floats windows
  unfold snapshot?
  by_cases hnone : summaries floats windows = []
  · rw [if_pos hnone, ← hmap, hnone]
    rfl
  · rw [if_neg hnone]
    exact hmap

theorem mem_latest {windows : Windows γ} {tf : String} {ts : ℤ} (h : (tf, ts) ∈ latest windows) :
    tf ∈ windows.map Prod.fst := by
  obtain ⟨read, hread, heq⟩ := List.mem_filterMap.1 h
  obtain ⟨alert, -, heq⟩ := Option.map_eq_some_iff.1 heq
  obtain ⟨rfl, -⟩ := Prod.mk.inj heq
  exact List.mem_map_of_mem hread

/-- What is left when the window of a timeframe of its own is taken from both. -/
theorem latest_cons_inj {tf : String} {old new : List (Alert (Body γ))} {windows windows' : Windows γ}
    (htf : tf ∉ windows.map Prod.fst) (htf' : tf ∉ windows'.map Prod.fst)
    (h : latest ((tf, old) :: windows) = latest ((tf, new) :: windows')) :
    newest old = newest new ∧ latest windows = latest windows' := by
  cases old with
  | nil =>
    cases new with
    | nil => exact ⟨rfl, h⟩
    | cons alert alerts =>
      have hmem : (tf, alert.ts) ∈ latest windows := by
        rw [show latest windows = _ from h]
        exact List.mem_cons_self
      exact absurd (mem_latest hmem) htf
  | cons alert alerts =>
    cases new with
    | nil =>
      have hmem : (tf, alert.ts) ∈ latest windows' := by
        rw [show latest windows' = _ from h.symm]
        exact List.mem_cons_self
      exact absurd (mem_latest hmem) htf'
    | cons alert' alerts' =>
      obtain ⟨heq, hrest⟩ := List.cons.inj h
      exact ⟨congrArg WithBot.some (Prod.mk.inj heq).2, hrest⟩

/-- The windows of the same timeframes with the same last timestamps: one that has only changed for a
newer alert is the same. -/
theorem eq_of_latest {view : String → List (Alert (Body γ))} {windows : Windows γ}
    (hnodup : (windows.map Prod.fst).Nodup) (hnewer : ∀ read ∈ windows, Newer read.2 (view read.1))
    (h : latest windows = latest (windows.map fun read => (read.1, view read.1))) :
    ∀ read ∈ windows, view read.1 = read.2 := by
  induction windows with
  | nil => exact fun read hread => absurd hread List.not_mem_nil
  | cons read windows ih =>
    obtain ⟨tf, old⟩ := read
    rw [List.map_cons, List.nodup_cons] at hnodup
    obtain ⟨hhead, hnewer⟩ := List.forall_mem_cons.1 hnewer
    have hkeys : tf ∉ (windows.map fun read => (read.1, view read.1)).map Prod.fst := by
      rw [List.map_map]
      exact hnodup.1
    obtain ⟨hnewest, hrest⟩ := latest_cons_inj hnodup.1 hkeys h
    exact List.forall_mem_cons.2 ⟨hhead.eq hnewest, ih hnodup.2 hnewer hrest⟩

/-! ## The invariant -/

/-- What a reader will have read when nothing is stored any more. -/
def filled (view : String → List (Alert (Body γ))) (windows : Windows γ) (todo : List String) :
    Windows γ :=
  windows ++ todo.map fun tf => (tf, view tf)

theorem reached_filled {view : String → List (Alert (Body γ))} {windows : Windows γ}
    {todo : List String} {t : ℤ} : Reached t (filled view windows todo) ↔
      Reached t windows ∨ ∃ tf ∈ todo, (t : WithBot ℤ) ≤ newest (view tf) := by
  unfold Reached filled
  simp only [List.mem_append, or_and_right, exists_or]
  apply or_congr_right
  refine ⟨fun h => ?_, fun h => ?_⟩
  · obtain ⟨read, hread, hle⟩ := h
    obtain ⟨tf, htf, rfl⟩ := List.mem_map.1 hread
    exact ⟨tf, htf, hle⟩
  · obtain ⟨tf, htf, hle⟩ := h
    exact ⟨_, List.mem_map_of_mem htf, hle⟩

theorem reached_allWindows {view : String → List (Alert (Body γ))} {t : ℤ} :
    Reached t (allWindows view) ↔ ∃ tf ∈ tfOrder, (t : WithBot ℤ) ≤ newest (view tf) := by
  have h := @reached_filled _ view [] tfOrder t
  rw [show filled view [] tfOrder = allWindows view from rfl] at h
  rw [h]
  exact or_iff_right fun ⟨_, hread, _⟩ => absurd hread List.not_mem_nil

/-- The windows were read at some time, and each has not changed since or has a newer alert. -/
def ReadFrom (view : String → List (Alert (Body γ))) (windows : Windows γ) : Prop :=
  ∀ read ∈ windows, Newer read.2 (view read.1)

/-- The calls, the windows and the cached snapshot. -/
structure Covers (floats : Floats γ ω μ) (view : String → List (Alert (Body γ)))
    (calls : List (Phase γ ω μ)) (cached : Option (Snapshot γ ω μ)) : Prop where
  one_reader : ∀ (i j : ℕ) windows todo windows' todo', calls[i]? = some (.reading windows todo) →
    calls[j]? = some (.reading windows' todo') → i = j
  order : ∀ (i : ℕ) windows todo, calls[i]? = some (.reading windows todo) →
    windows.map Prod.fst ++ todo = tfOrder
  read_from : ∀ (i : ℕ) windows todo, calls[i]? = some (.reading windows todo) →
    ReadFrom view windows
  /-- The cached snapshot was made of windows that were there. -/
  source : ∀ s, cached = some s → ∃ nowMs windows, snapshot? floats nowMs windows = some s ∧
    Dated windows ∧ windows.map Prod.fst = tfOrder ∧ ReadFrom view windows
  /-- What the reader will write is not older than what is cached. -/
  will_reach : ∀ s, cached = some s → ∀ (i : ℕ) windows todo,
    calls[i]? = some (.reading windows todo) → Reached s.snapshotTs (filled view windows todo)
  covered : Covered view calls cached

section
variable {view view' : String → List (Alert (Body γ))} {calls calls' : List (Phase γ ω μ)}
  {cached : Option (Snapshot γ ω μ)}

theorem covers_new : Covers floats (fun _ => []) [] none := by
  have hnone : ∀ (i : ℕ) (phase : Phase γ ω μ), ([] : List (Phase γ ω μ))[i]? ≠ some phase := by
    intro i phase h
    cases h
  refine ⟨?_, ?_, ?_, nofun, nofun, .inr (.inr ⟨?_, rfl⟩)⟩
  · intro i j windows todo windows' todo' h
    exact absurd h (hnone i _)
  · intro i windows todo h
    exact absurd h (hnone i _)
  · intro i windows todo h
    exact absurd h (hnone i _)
  · intro phase h
    cases h

theorem mem_tfOrder {windows : Windows γ} {todo : List String}
    (horder : windows.map Prod.fst ++ todo = tfOrder) {read : String × List (Alert (Body γ))}
    (hread : read ∈ windows) : read.1 ∈ tfOrder := by
  rw [← horder]
  exact List.mem_append_left _ (List.mem_map_of_mem hread)

theorem ReadFrom.newer {windows : Windows γ} (h : ReadFrom view windows)
    (hread : ∀ read ∈ windows, read.1 ∈ tfOrder)
    (hview : ∀ tf ∈ tfOrder, Newer (view tf) (view' tf)) : ReadFrom view' windows := by
  intro read hmem
  exact (h read hmem).trans (hview _ (hread read hmem))

/-- What was read, and has alerts as late as `t`, is still as late. -/
theorem ReadFrom.reached {windows : Windows γ} {t : ℤ} (h : ReadFrom view windows)
    (horder : windows.map Prod.fst = tfOrder) (ht : Reached t windows) :
    Reached t (allWindows view) := by
  obtain ⟨read, hread, hle⟩ := ht
  rw [← List.append_nil (windows.map Prod.fst)] at horder
  exact reached_allWindows.2 ⟨read.1, mem_tfOrder horder hread, hle.trans (h read hread).le⟩

theorem Covers.positive (h : Covers floats view calls cached) {s : Snapshot γ ω μ}
    (hs : cached = some s) : 0 < s.snapshotTs := by
  obtain ⟨nowMs, windows, hsnapshot, hdated, -, -⟩ := h.source s hs
  exact (snapshot?_ts hsnapshot hdated).1

theorem Covers.reached (h : Covers floats view calls cached) {s : Snapshot γ ω μ}
    (hs : cached = some s) : Reached s.snapshotTs (allWindows view) := by
  obtain ⟨nowMs, windows, hsnapshot, hdated, horder, hread⟩ := h.source s hs
  obtain ⟨hpos, hts⟩ := snapshot?_ts hsnapshot hdated
  exact hread.reached horder ((le_lastTs_summaries floats hpos windows).1 hts.le)

theorem allWindows_eq {windows : Windows γ} (horder : windows.map Prod.fst = tfOrder) :
    allWindows view = windows.map fun read => (read.1, view read.1) := by
  unfold allWindows
  rw [← horder, List.map_map]
  rfl

theorem windows_eq {windows : Windows γ} (horder : windows.map Prod.fst = tfOrder)
    (hread : ∀ read ∈ windows, read.2 = view read.1) : windows = allWindows view := by
  rw [allWindows_eq horder]
  conv_lhs => rw [← List.map_id windows]
  apply List.map_congr_left
  intro read hmem
  exact Prod.ext rfl (hread read hmem)

/-- The last timestamps tell whether a snapshot is the one of the windows. -/
theorem Covers.upToDate (h : Covers floats view calls cached)
    (hlast : lastSeen cached = latest (allWindows view)) :
    UpToDate floats (allWindows view) cached := by
  intro nowMs
  cases cached with
  | none =>
    cases hs : snapshot? floats nowMs (allWindows view) with
    | none => rfl
    | some s =>
      have hempty := lastSeen_snapshot? floats nowMs (allWindows view)
      rw [hs, ← hlast] at hempty
      unfold snapshot? at hs
      simp only [Option.ite_none_left_eq_some, Option.some.injEq] at hs
      obtain ⟨hne, rfl⟩ := hs
      exact absurd (List.map_eq_nil_iff.1 hempty) hne
  | some s =>
    obtain ⟨nowMs', windows, hs, hdated, horder, hread⟩ := h.source s rfl
    rw [← hs, lastSeen_snapshot?, allWindows_eq horder] at hlast
    have hnodup : (windows.map Prod.fst).Nodup := by
      rw [horder]
      decide
    have heq := eq_of_latest hnodup hread hlast
    rw [← windows_eq horder fun read hmem => (heq read hmem).symm, ← hs]
    exact snapshot?_congr hdated _ _

/-- A step that reads nothing and caches nothing: the windows get newer, the readers are the same. -/
theorem Covers.keep (h : Covers floats view calls cached)
    (hview : ∀ tf ∈ tfOrder, Newer (view tf) (view' tf))
    (hreads : ∀ (i : ℕ) windows todo, calls'[i]? = some (.reading windows todo) →
      calls[i]? = some (.reading windows todo))
    (hcovered : Covered view' calls' cached) : Covers floats view' calls' cached where
  one_reader i j windows todo windows' todo' hi hj :=
    h.one_reader i j windows todo windows' todo' (hreads _ _ _ hi) (hreads _ _ _ hj)
  order i windows todo hi := h.order i windows todo (hreads _ _ _ hi)
  read_from i windows todo hi :=
    (h.read_from i windows todo (hreads _ _ _ hi)).newer
      (fun _ => mem_tfOrder (h.order i windows todo (hreads _ _ _ hi))) hview
  source s hs := by
    obtain ⟨nowMs, windows, hsnapshot, hdated, horder, hread⟩ := h.source s hs
    have hall := (List.append_nil _).trans horder
    exact ⟨nowMs, windows, hsnapshot, hdated, horder, hread.newer (fun _ => mem_tfOrder hall) hview⟩
  will_reach s hs i windows todo hi := by
    have horder := h.order i windows todo (hreads _ _ _ hi)
    obtain hread | ⟨tf, htf, hle⟩ := reached_filled.1
      (h.will_reach s hs i windows todo (hreads _ _ _ hi))
    · exact reached_filled.2 (.inl hread)
    · refine reached_filled.2 (.inr ⟨tf, htf, hle.trans (hview tf ?_).le⟩)
      rw [← horder]
      exact List.mem_append_right _ htf
  covered := hcovered

/-! ## Commands of one call -/

theorem covered_iff : Covered view calls cached ↔
      (∃ i : ℕ, calls[i]? = some .stored) ∨
      (∃ (i : ℕ) (windows : Windows γ) (todo : List String),
        calls[i]? = some (.reading windows todo) ∧ ∀ read ∈ windows, read.2 = view read.1) ∨
      ((∀ phase ∈ calls, phase.isReading = false) ∧
        lastSeen cached = latest (allWindows view)) := by
  refine or_congr List.mem_iff_getElem? (or_congr_left ?_)
  refine ⟨fun h => ?_, fun h => ?_⟩
  · obtain ⟨phase, hmem, hcurrent⟩ := h
    obtain ⟨i, hi⟩ := List.mem_iff_getElem?.1 hmem
    cases phase with
    | reading windows todo => exact ⟨i, windows, todo, hi, hcurrent⟩
    | _ => exact absurd hcurrent id
  · obtain ⟨i, windows, todo, hi, hread⟩ := h
    exact ⟨_, List.mem_of_getElem? hi, hread⟩

section
variable {i j : ℕ} {phase phase' phase'' : Phase γ ω μ} {windows : Windows γ} {todo : List String}

theorem getElem?_set_iff (hi : calls[i]? = some phase) : (calls.set i phase')[j]? = some phase'' ↔
    j = i ∧ phase' = phase'' ∨ j ≠ i ∧ calls[j]? = some phase'' := by
  obtain ⟨hlt, -⟩ := List.getElem?_eq_some_iff.1 hi
  rw [List.getElem?_set]
  by_cases hij : i = j
  · subst hij
    rw [if_pos rfl, if_pos hlt]
    simp
  · rw [if_neg hij]
    simp [Ne.symm hij]

/-- A call that goes on without reading leaves the readers as they are. -/
theorem reads_of_set (hi : calls[i]? = some phase) (hphase' : phase'.isReading = false)
    (hj : (calls.set i phase')[j]? = some (.reading windows todo)) :
    j ≠ i ∧ calls[j]? = some (.reading windows todo) := by
  obtain ⟨-, rfl⟩ | h := (getElem?_set_iff hi).1 hj
  · cases hphase'
  · exact h

theorem notReading_set (h : ∀ phase ∈ calls, phase.isReading = false)
    (hphase' : phase'.isReading = false) : ∀ phase ∈ calls.set i phase', phase.isReading = false := by
  intro phase hmem
  obtain hmem | rfl := List.mem_or_eq_of_mem_set hmem
  · exact h phase hmem
  · exact hphase'

/-- A call that neither waits for the lock nor reads. -/
theorem Covered.set (h : Covered view calls cached) (hi : calls[i]? = some phase)
    (hstored : phase ≠ .stored) (hphase : phase.isReading = false)
    (hphase' : phase'.isReading = false) : Covered view (calls.set i phase') cached := by
  apply covered_iff.2
  obtain ⟨j, hj⟩ | ⟨j, windows, todo, hj, hread⟩ | ⟨hnone, hcached⟩ := covered_iff.1 h
  · refine .inl ⟨j, (getElem?_set_iff hi).2 (.inr ⟨?_, hj⟩)⟩
    rintro rfl
    exact hstored (Option.some.inj (hi.symm.trans hj))
  · refine .inr (.inl ⟨j, windows, todo, (getElem?_set_iff hi).2 (.inr ⟨?_, hj⟩), hread⟩)
    rintro rfl
    obtain rfl := Option.some.inj (hi.symm.trans hj)
    cases hphase
  · exact .inr (.inr ⟨notReading_set hnone hphase', hcached⟩)

theorem Covers.set (h : Covers floats view calls cached) (hi : calls[i]? = some phase)
    (hstored : phase ≠ .stored) (hphase : phase.isReading = false)
    (hphase' : phase'.isReading = false) : Covers floats view (calls.set i phase') cached := by
  refine h.keep (fun _ _ => .refl _) ?_ (h.covered.set hi hstored hphase hphase')
  intro j windows todo hj
  exact (reads_of_set hi hphase' hj).2

/-- The lock is given to a call and nobody else reads. -/
theorem Covers.acquire (h : Covers floats view calls cached) (hi : calls[i]? = some phase)
    (hnone : ∀ phase ∈ calls, phase.isReading = false) :
    Covers floats view (calls.set i (.reading [] tfOrder)) cached := by
  have honly : ∀ (j : ℕ) windows todo,
      (calls.set i (.reading [] tfOrder))[j]? = some (.reading windows todo) →
        j = i ∧ windows = [] ∧ todo = tfOrder := by
    intro j windows todo hj
    obtain ⟨rfl, heq⟩ | ⟨-, hj⟩ := (getElem?_set_iff hi).1 hj
    · injection heq with hwindows htodo
      exact ⟨rfl, hwindows.symm, htodo.symm⟩
    · have hreads := hnone _ (List.mem_of_getElem? hj)
      cases hreads
  refine ⟨?_, ?_, ?_, h.source, ?_, ?_⟩
  · intro j j' windows todo windows' todo' hj hj'
    rw [(honly _ _ _ hj).1, (honly _ _ _ hj').1]
  · intro j windows todo hj
    obtain ⟨-, rfl, rfl⟩ := honly _ _ _ hj
    rfl
  · intro j windows todo hj
    obtain ⟨-, rfl, rfl⟩ := honly _ _ _ hj
    exact fun _ hread => absurd hread List.not_mem_nil
  · intro s hs j windows todo hj
    obtain ⟨-, rfl, rfl⟩ := honly _ _ _ hj
    exact h.reached hs
  · apply covered_iff.2
    refine .inr (.inl ⟨i, [], tfOrder, (getElem?_set_iff hi).2 (.inl ⟨rfl, rfl⟩), ?_⟩)
    exact fun _ hread => absurd hread List.not_mem_nil

/-- When the reader goes on, there is no other one. -/
theorem Covers.only (h : Covers floats view calls cached)
    (hi : calls[i]? = some (.reading windows todo)) {windows' : Windows γ} {todo' : List String}
    (hj : (calls.set i phase')[j]? = some (.reading windows' todo')) :
    j = i ∧ phase' = .reading windows' todo' := by
  obtain hj | ⟨hne, hj⟩ := (getElem?_set_iff hi).1 hj
  · exact hj
  · exact absurd (h.one_reader _ _ _ _ _ _ hj hi) hne

/-- What is covered while a call reads: another one waits for the lock, or the windows it has read are
still there. -/
theorem Covers.covered_reading (h : Covers floats view calls cached)
    (hi : calls[i]? = some (.reading windows todo)) :
    (∀ phase', ∃ j : ℕ, (calls.set i phase')[j]? = some .stored) ∨
      ∀ read ∈ windows, read.2 = view read.1 := by
  obtain ⟨j, hj⟩ | ⟨j, windows', todo', hj, hread⟩ | ⟨hnone, -⟩ :=
    covered_iff.1 h.covered
  · refine .inl fun phase' => ⟨j, (getElem?_set_iff hi).2 (.inr ⟨?_, hj⟩)⟩
    rintro rfl
    cases Option.some.inj (hi.symm.trans hj)
  · obtain rfl := h.one_reader _ _ _ _ _ _ hi hj
    injection Option.some.inj (hi.symm.trans hj) with hwindows
    subst hwindows
    exact .inr hread
  · have hreads := hnone _ (List.mem_of_getElem? hi)
    cases hreads

/-- A window is read. -/
theorem Covers.read {tf : String} (h : Covers floats view calls cached)
    (hi : calls[i]? = some (.reading windows (tf :: todo))) :
    Covers floats view (calls.set i (.reading (windows ++ [(tf, view tf)]) todo)) cached := by
  refine ⟨?_, ?_, ?_, h.source, ?_, ?_⟩
  · intro j j' windows' todo' windows'' todo'' hj hj'
    rw [(h.only hi hj).1, (h.only hi hj').1]
  · intro j windows' todo' hj
    injection (h.only hi hj).2 with hwindows htodo
    subst hwindows htodo
    have horder := h.order i _ _ hi
    simp only [List.map_append, List.map_cons, List.map_nil, List.append_assoc]
    exact horder
  · intro j windows' todo' hj read hread
    injection (h.only hi hj).2 with hwindows htodo
    subst hwindows htodo
    obtain hread | hread := List.mem_append.1 hread
    · exact h.read_from i _ _ hi read hread
    · obtain rfl := List.mem_singleton.1 hread
      exact .refl _
  · intro s hs j windows' todo' hj
    injection (h.only hi hj).2 with hwindows htodo
    subst hwindows htodo
    have hreach := h.will_reach s hs i _ _ hi
    unfold filled at hreach ⊢
    rw [List.append_assoc]
    exact hreach
  · apply covered_iff.2
    obtain hwaits | hreads := h.covered_reading hi
    · exact .inl (hwaits _)
    · refine .inr (.inl ⟨i, _, todo, (getElem?_set_iff hi).2 (.inl ⟨rfl, rfl⟩), ?_⟩)
      intro read hread
      obtain hread | hread := List.mem_append.1 hread
      · exact hreads read hread
      · obtain rfl := List.mem_singleton.1 hread
        rfl

/-- A call that has read them all. -/
theorem Covers.order_nil (h : Covers floats view calls cached)
    (hi : calls[i]? = some (.reading windows [])) : windows.map Prod.fst = tfOrder := by
  have horder := h.order i _ _ hi
  rwa [List.append_nil] at horder

/-- The reader of a covered world leaves no one reading behind it. -/
theorem Covers.notReading (h : Covers floats view calls cached)
    (hi : calls[i]? = some (.reading windows todo)) (phase' : Phase γ ω μ)
    (hphase' : phase'.isReading = false) : ∀ phase ∈ calls.set i phase', phase.isReading = false := by
  intro phase hmem
  obtain ⟨j, hj⟩ := List.mem_iff_getElem?.1 hmem
  cases phase with
  | reading windows' todo' =>
    obtain ⟨-, rfl⟩ := h.only hi hj
    cases hphase'
  | _ => rfl

variable {s : Snapshot γ ω μ} {nowMs : ℤ}

/-- A snapshot is not older than the one it replaces. -/
theorem Covers.le_write (h : Covers floats view calls cached)
    (hi : calls[i]? = some (.reading windows [])) (hdated : Dated windows)
    (hs : snapshot? floats nowMs windows = some s) {old : Snapshot γ ω μ} (hold : cached = some old) :
    old.snapshotTs ≤ s.snapshotTs := by
  have hreach := h.will_reach old hold i _ _ hi
  rw [filled, List.map_nil, List.append_nil] at hreach
  rw [(snapshot?_ts hs hdated).2]
  exact (le_lastTs_summaries floats (h.positive hold) windows).2 hreach

/-- The snapshot is written. -/
theorem Covers.write (h : Covers floats view calls cached)
    (hi : calls[i]? = some (.reading windows [])) (hdated : Dated windows)
    (hs : snapshot? floats nowMs windows = some s) :
    Covers floats view (calls.set i (.releasing s)) (some s) := by
  have hnone := h.notReading hi (.releasing s) rfl
  have hreads : ∀ (j : ℕ) windows todo,
      (calls.set i (.releasing s))[j]? ≠ some (.reading windows todo) := by
    intro j windows todo hj
    have hreading := hnone _ (List.mem_of_getElem? hj)
    cases hreading
  refine ⟨?_, ?_, ?_, ?_, ?_, ?_⟩
  · intro j j' windows todo windows' todo' hj
    exact absurd hj (hreads j _ _)
  · intro j windows todo hj
    exact absurd hj (hreads j _ _)
  · intro j windows todo hj
    exact absurd hj (hreads j _ _)
  · intro s' hs'
    obtain rfl := Option.some.inj hs'
    exact ⟨nowMs, windows, hs, hdated, h.order_nil hi, h.read_from i _ _ hi⟩
  · intro s' hs' j windows todo hj
    exact absurd hj (hreads j _ _)
  · apply covered_iff.2
    obtain hwaits | hread := h.covered_reading hi
    · exact .inl (hwaits _)
    · refine .inr (.inr ⟨hnone, ?_⟩)
      rw [← windows_eq (h.order_nil hi) hread, ← hs]
      exact lastSeen_snapshot? floats nowMs windows

/-- There was nothing to read. -/
theorem Covers.finish (h : Covers floats view calls cached)
    (hi : calls[i]? = some (.reading windows [])) (hs : snapshot? floats nowMs windows = none) :
    Covers floats view (calls.set i (.returned none)) cached := by
  have hnone := h.notReading hi (.returned none) rfl
  refine h.keep (fun _ _ => .refl _) ?_ ?_
  · intro j windows' todo' hj
    have hreading := hnone _ (List.mem_of_getElem? hj)
    cases hreading
  · apply covered_iff.2
    obtain hwaits | hread := h.covered_reading hi
    · exact .inl (hwaits _)
    · refine .inr (.inr ⟨hnone, ?_⟩)
      have hcached : cached = none := by
        apply Option.eq_none_iff_forall_ne_some.2
        intro old hold
        have hreach := h.will_reach old hold i _ _ hi
        rw [filled, List.map_nil, List.append_nil] at hreach
        exact not_reached hs (h.positive hold) hreach
      rw [hcached, ← windows_eq (h.order_nil hi) hread, ← hs]
      exact lastSeen_snapshot? floats nowMs windows

end

end

/-! ## Calls and time -/

theorem getElem?_concat_iff {calls : List (Phase γ ω μ)} {phase phase' : Phase γ ω μ} {j : ℕ} :
    (calls ++ [phase])[j]? = some phase' ↔
      calls[j]? = some phase' ∨ j = calls.length ∧ phase = phase' := by
  rw [List.getElem?_append]
  split
  · rename_i hlt
    exact (or_iff_left fun h => by omega).symm
  · rename_i hle
    rw [List.getElem?_eq_none (not_lt.1 hle), List.getElem?_singleton]
    refine ⟨fun h => ?_, fun h' => ?_⟩
    · split at h
      · exact .inr ⟨by omega, Option.some.inj h⟩
      · cases h
    · obtain h | ⟨rfl, rfl⟩ := h'
      · cases h
      · simp

theorem Covers.call {view : String → List (Alert (Body γ))} {calls : List (Phase γ ω μ)}
    {cached : Option (Snapshot γ ω μ)} (h : Covers floats view calls cached) (alert : Alert (Body γ)) :
    Covers floats view (calls ++ [.arrived alert]) cached := by
  refine h.keep (fun _ _ => .refl _) ?_ ?_
  · intro j windows todo hj
    obtain hj | ⟨-, heq⟩ := getElem?_concat_iff.1 hj
    · exact hj
    · cases heq
  · apply covered_iff.2
    obtain ⟨j, hj⟩ | ⟨j, windows, todo, hj, hread⟩ | ⟨hnone, hcached⟩ := covered_iff.1 h.covered
    · exact .inl ⟨j, getElem?_concat_iff.2 (.inl hj)⟩
    · exact .inr (.inl ⟨j, windows, todo, getElem?_concat_iff.2 (.inl hj), hread⟩)
    · refine .inr (.inr ⟨?_, hcached⟩)
      intro phase hmem
      obtain hmem | hmem := List.mem_append.1 hmem
      · exact hnone phase hmem
      · obtain rfl := List.mem_singleton.1 hmem
        rfl

theorem Covers.congr {view view' : String → List (Alert (Body γ))} {calls : List (Phase γ ω μ)}
    {cached : Option (Snapshot γ ω μ)} (h : Covers floats view calls cached)
    (hview : allWindows view' = allWindows view) : Covers floats view' calls cached := by
  have htf : ∀ tf ∈ tfOrder, view' tf = view tf := by
    intro tf hmem
    exact (Prod.mk.inj (List.map_inj_left.1 hview tf hmem)).2
  refine h.keep (fun tf hmem => .inl (htf tf hmem)) (fun _ _ _ hj => hj) ?_
  apply covered_iff.2
  obtain hwaits | ⟨j, windows, todo, hj, hread⟩ | ⟨hnone, hcached⟩ := covered_iff.1 h.covered
  · exact .inl hwaits
  · refine .inr (.inl ⟨j, windows, todo, hj, fun read hmem => ?_⟩)
    rw [htf read.1 (mem_tfOrder (h.order j windows todo hj) hmem)]
    exact hread read hmem
  · refine .inr (.inr ⟨hnone, ?_⟩)
    rw [hview]
    exact hcached

end Memory.Fusion
