import IctAlgo.Lib.Runs
import IctAlgo.Reports.Timeline

/-!
# What the timelines remember

* `Kept`: the timelines group what was appended since the last `clear_all` by its correlation id, and
  every event that was built was appended or is still in the hands of its thread.
* `histories_kept`: whatever the order of the steps of the threads, each query answers from that
  history.
-/

set_option autoImplicit false

namespace Reports

open Lib Lib.Runs Timelines

variable {h : Histories} {ops : List TimelineOp}

/-! ## The invariant -/

structure Kept (h : Histories) : Prop where
  grouped : h.service.timelines =
    Dict.groupBy (·.correlationId) (fun es e => es ++ [e]) [] h.history
  counted : h.service.eventCount = h.history.length
  cleared : h.cleared ≤ h.appended.length
  custody : h.accepted.Perm (h.appended ++ h.service.built.values)
  named : ∀ e ∈ h.accepted, e.correlationId ≠ ""

theorem groupBy_concat (es : List Event) (e : Event) :
    Dict.groupBy (·.correlationId) (fun es e => es ++ [e]) [] (es ++ [e]) =
      (Dict.groupBy (·.correlationId) (fun es e => es ++ [e]) [] es).set e.correlationId
        ((Dict.groupBy (·.correlationId) (fun es e => es ++ [e]) [] es).getD e.correlationId [] ++
          [e]) := by
  unfold Dict.groupBy
  rw [List.foldl_append]
  rfl

theorem textOf?_ne {v : Orchestrator.Value} {text : String} (h : textOf? v = some text) : text ≠ "" := by
  unfold textOf? at h
  split at h
  · split at h
    · cases h
    · rename_i hne
      exact Option.some.inj h ▸ hne
  · cases h

theorem buildEvent_named {n : ℕ} {call : RecordCall} {e : Event} (h : buildEvent n call = some e) :
    e.correlationId ≠ "" := by
  unfold buildEvent at h
  split at h
  · rename_i hid _
    split at h
    · obtain rfl := Option.some.inj h
      exact textOf?_ne hid
    · cases h
  · cases h

theorem Kept.build (hk : Kept h) (thread : ℕ) (call : RecordCall) :
    Kept (h.step (.thread (.build thread call))) := by
  have happended : h.appended ++ (h.service.appendedBy (.build thread call)).toList = h.appended :=
    List.append_nil _
  unfold Histories.step
  dsimp only
  rw [happended]
  unfold Timelines.step builtBy
  dsimp only
  split
  · rw [Option.toList_none, List.append_nil]
    exact ⟨hk.grouped, hk.counted, hk.cleared, hk.custody, hk.named⟩
  · rename_i hfree
    cases hbuild : buildEvent h.service.eventCount call with
    | none =>
      rw [Option.toList_none, List.append_nil]
      exact ⟨hk.grouped, hk.counted, hk.cleared, hk.custody, hk.named⟩
    | some e =>
      have hnone : h.service.built.get? thread = none := Option.not_isSome_iff_eq_none.1 hfree
      refine ⟨hk.grouped, hk.counted, hk.cleared, ?_, fun e' he' => ?_⟩
      · dsimp only
        rw [Dict.values_set_of_new e hnone, ← List.append_assoc]
        exact hk.custody.append_right _
      · obtain he' | he' := List.mem_append.1 he'
        · exact hk.named e' he'
        · obtain rfl := List.mem_singleton.1 he'
          exact buildEvent_named hbuild

theorem Kept.append (hk : Kept h) (thread : ℕ) : Kept (h.step (.thread (.append thread))) := by
  have haccepted : h.accepted ++ (h.service.builtBy (.append thread)).toList = h.accepted :=
    List.append_nil _
  unfold Histories.step
  dsimp only
  rw [haccepted]
  unfold Timelines.step appendedBy
  dsimp only
  cases hbuilt : h.service.built.get? thread with
  | none =>
    rw [Option.toList_none, List.append_nil]
    exact ⟨hk.grouped, hk.counted, hk.cleared, hk.custody, hk.named⟩
  | some e =>
    have hhistory : (h.appended ++ [e]).drop h.cleared = h.history ++ [e] :=
      List.drop_append_of_le_length hk.cleared
    refine ⟨?_, ?_, ?_, ?_, hk.named⟩
    · change (h.service.appendEvent e).timelines = _
      rw [Histories.history, Option.toList_some, hhistory, groupBy_concat, ← hk.grouped]
      rfl
    · change h.service.eventCount + 1 = _
      rw [Histories.history, Option.toList_some, hhistory, List.length_append, hk.counted]
      rfl
    · rw [Option.toList_some, List.length_append]
      exact hk.cleared.trans (Nat.le_add_right _ _)
    · rw [Option.toList_some, List.append_assoc]
      exact hk.custody.trans ((Dict.perm_values_erase hbuilt).append_left _)

theorem Kept.clear (hk : Kept h) : Kept (h.step .clear) := by
  have hhistory : (h.step .clear).history = [] := List.drop_length
  refine ⟨?_, ?_, Nat.le_refl _, hk.custody, hk.named⟩
  · rw [hhistory]
    rfl
  · rw [hhistory]
    rfl

theorem kept_run (ops : List TimelineOp) : Kept (run Histories.step {} ops) := by
  refine run_inv ops ?_ fun h op hk => ?_
  · exact ⟨rfl, rfl, Nat.le_refl _, List.Perm.refl _, fun _ h => absurd h List.not_mem_nil⟩
  · cases op with
    | clear => exact hk.clear
    | thread a =>
      cases a with
      | build thread call => exact hk.build thread call
      | append thread => exact hk.append thread

/-! ## The queries -/

/-- The events of the history with that id. -/
def Histories.eventsOf (h : Histories) (c : String) : List Event :=
  h.history.filter fun e => e.correlationId = c

structure Answers (h : Histories) : Prop where
  custody : h.accepted.Perm (h.appended ++ h.service.built.values)
  replayed : ∀ c, h.service.replay c = h.eventsOf c
  typed : ∀ c t, h.service.getEventsByType c t = (h.eventsOf c).filter fun e => e.eventType = t
  counted : ∀ c, h.service.getEventCount c =
    if c = "" then h.history.length else (h.eventsOf c).length
  ids : h.service.getAllCorrelationIds.Pairwise (· < ·) ∧
    ∀ c, c ∈ h.service.getAllCorrelationIds ↔ h.eventsOf c ≠ []
  found : ∀ c, (h.service.exportTimeline c).found = true ↔ h.eventsOf c ≠ []
  exported : ∀ c, (h.service.exportTimeline c).events = h.eventsOf c ∧
    (h.service.exportTimeline c).eventCount = (h.eventsOf c).length ∧
    (h.service.exportTimeline c).eventTypes = (h.eventsOf c).map (·.eventType) ∧
    (h.service.exportTimeline c).firstEventTime = (h.eventsOf c).head?.map (·.timestamp) ∧
    (h.service.exportTimeline c).lastEventTime = (h.eventsOf c).getLast?.map (·.timestamp)
  validated : ∀ c, (h.service.validateTimeline c).eventCount = (h.eventsOf c).length ∧
    ((h.service.validateTimeline c).reason = none ↔ h.eventsOf c ≠ [])
  total : h.service.getStatistics.totalEvents = h.history.length
  correlations : h.service.getStatistics.totalCorrelations =
    h.service.getAllCorrelationIds.length
  distribution : ∀ t, h.service.getStatistics.eventTypeDistribution.getD t 0 =
    h.history.countP fun e => e.eventType = t

namespace Kept

section
variable (hk : Kept h)
include hk

theorem history_named {e : Event} (he : e ∈ h.history) : e.correlationId ≠ "" :=
  hk.named e (hk.custody.mem_iff.2 (List.mem_append_left _ (List.mem_of_mem_drop he)))

theorem get?_timelines (c : String) :
    h.service.timelines.get? c = if h.eventsOf c = [] then none else some (h.eventsOf c) := by
  have hfold : ∀ es acc : List Event, es.foldl (fun es e => es ++ [e]) acc = acc ++ es := by
    intro es
    induction es with
    | nil => exact fun acc => (List.append_nil acc).symm
    | cons e es ih => exact fun acc => by rw [List.foldl_cons, ih, List.append_assoc]; rfl
  rw [hk.grouped, Dict.get?_groupBy, hfold, List.nil_append]
  rfl

theorem getD_timelines (c : String) : h.service.timelines.getD c [] = h.eventsOf c := by
  rw [Dict.getD, hk.get?_timelines]
  split
  · rename_i hnil
    exact hnil.symm
  · rfl

theorem getTimeline_eq (c : String) : h.service.getTimeline c = h.eventsOf c := by
  unfold getTimeline
  split
  · rename_i hempty
    refine (List.filter_eq_nil_iff.2 fun e he => ?_).symm
    rw [hempty, decide_eq_true_eq]
    exact hk.history_named he
  · exact hk.getD_timelines c

theorem perm_flatten : h.service.timelines.values.flatten.Perm h.history := by
  rw [hk.grouped]
  exact Dict.perm_values_groupBy _ _

theorem sum_lengths : (h.service.timelines.values.map (·.length)).sum = h.history.length := by
  rw [← List.length_flatten]
  exact hk.perm_flatten.length_eq

theorem mem_ids (c : String) : c ∈ h.service.getAllCorrelationIds ↔ h.eventsOf c ≠ [] := by
  have hkey : c ∈ h.service.timelines.items.map Prod.fst ↔
      (h.service.timelines.get? c).isSome = true := by
    rw [Option.isSome_iff_exists]
    constructor
    · intro hmem
      obtain ⟨⟨c', es⟩, hitem, rfl⟩ := List.mem_map.1 hmem
      exact ⟨es, Dict.get?_eq_some_iff.2 hitem⟩
    · rintro ⟨es, hget⟩
      exact List.mem_map.2 ⟨(c, es), Dict.get?_eq_some_iff.1 hget, rfl⟩
  unfold getAllCorrelationIds
  rw [List.mem_insertionSort, hkey, hk.get?_timelines]
  split
  · rename_i hnil
    simp [hnil]
  · rename_i hne
    simp [hne]

end

theorem ids_sorted (s : Timelines) : s.getAllCorrelationIds.Pairwise (· < ·) := by
  have hle : s.getAllCorrelationIds.Pairwise (· ≤ ·) := List.pairwise_insertionSort _ _
  have hnodup : s.getAllCorrelationIds.Nodup :=
    (List.perm_insertionSort _ _).nodup_iff.2 s.timelines.nodup
  exact (hle.and hnodup).imp fun h => lt_of_le_of_ne h.1 h.2

/-- Counting by type. -/
theorem foldl_count (es : List Event) (n : ℕ) : es.foldl (fun n _ => n + 1) n = n + es.length := by
  induction es generalizing n with
  | nil => rfl
  | cons e es ih => rw [List.foldl_cons, ih, List.length_cons, Nat.add_right_comm, Nat.add_assoc]

theorem answers (hk : Kept h) : Answers h where
  custody := hk.custody
  replayed := hk.getTimeline_eq
  typed c t := by rw [getEventsByType, hk.getTimeline_eq]
  counted c := by
    unfold getEventCount
    split
    · exact hk.sum_lengths
    · rw [hk.getD_timelines]
  ids := ⟨ids_sorted h.service, hk.mem_ids⟩
  found c := by
    unfold exportTimeline
    rw [hk.getTimeline_eq]
    cases h.eventsOf c with
    | nil => simp
    | cons e es => simp
  exported c := by
    unfold exportTimeline
    rw [hk.getTimeline_eq]
    cases h.eventsOf c with
    | nil => exact ⟨rfl, rfl, rfl, rfl, rfl⟩
    | cons e es => exact ⟨rfl, rfl, rfl, rfl, rfl⟩
  validated c := by
    unfold validateTimeline
    rw [hk.getTimeline_eq]
    cases h.eventsOf c with
    | nil => simp
    | cons e es => simp
  total := hk.sum_lengths
  correlations := by
    unfold getStatistics getAllCorrelationIds
    rw [List.length_insertionSort, List.length_map]
  distribution t := by
    change (Dict.groupBy _ _ _ _).getD t 0 = _
    rw [Dict.getD, Dict.get?_groupBy, ← hk.perm_flatten.countP_eq, List.countP_eq_length_filter]
    split
    · rename_i hnil
      rw [hnil]
      rfl
    · rw [Option.getD_some, foldl_count, Nat.zero_add]

end Kept

/-- **The timelines.** Whatever the order of the steps of the threads and of the calls of `clear_all`, no
event that was built is lost or appended twice, and the queries answer from what was appended since the
last `clear_all`, in its order. -/
theorem histories_kept (ops : List TimelineOp) : Answers (run Histories.step {} ops) :=
  (kept_run ops).answers

end Reports
