import IctAlgo.Lib.Runs
import IctAlgo.Reports.Timeline

/-!
# Sequence numbers of timelines

`TotallyOrdered`: what the sequence numbers promise. An event takes the number of events recorded so
far when it is built, and the counter moves when it is appended.

* `NumberedInOrder`: the invariant of the runs without an overlap; the recorded numbers are those
  below the counter.
* `totallyOrdered_iff`: the promise holds all along a run exactly when no call appends between the
  two steps of another one that appends.
-/

set_option autoImplicit false

namespace Reports

open Lib Lib.Runs Orchestrator Timelines

/-- Distinct numbers over all timelines, in increasing order along each of them, as many as the
counter says; the validation finds no fault with the order. -/
structure TotallyOrdered (s : Timelines) : Prop where
  distinct : (s.recorded.map (·.sequenceNumber)).Nodup
  increasing : ∀ c es, s.timelines.get? c = some es → (es.map (·.sequenceNumber)).Pairwise (· < ·)
  counted : s.eventCount = s.recorded.length
  validated : ∀ c, sequenceIssues 0 (-1) (s.getTimeline c) = []

/-- No event was recorded between the two steps of the call that appends. -/
def Undisturbed (s : Timelines) : Step → Prop
  | .build _ _ => True
  | .append thread => ∀ e, s.built.get? thread = some e → e.sequenceNumber = s.eventCount

structure NumberedInOrder (s : Timelines) : Prop where
  numbers : (s.recorded.map (·.sequenceNumber)).Perm (List.range s.eventCount)
  increasing : ∀ c es, s.timelines.get? c = some es → (es.map (·.sequenceNumber)).Pairwise (· < ·)
  built : ∀ t e, s.built.get? t = some e → e.sequenceNumber ≤ s.eventCount

/-! ## The validation -/

theorem sequenceIssues_of_pairwise {es : List Event} (i : ℕ) (prev : ℤ)
    (hprev : ∀ e ∈ es, prev ≤ e.sequenceNumber)
    (h : (es.map (·.sequenceNumber)).Pairwise (· < ·)) : sequenceIssues i prev es = [] := by
  induction es generalizing i prev with
  | nil => rfl
  | cons e es ih =>
    rw [List.map_cons, List.pairwise_cons] at h
    have hfirst := hprev e List.mem_cons_self
    unfold sequenceIssues
    rw [if_neg (not_lt.2 hfirst)]
    apply ih
    · intro e' he'
      have := h.1 e'.sequenceNumber (List.mem_map_of_mem he')
      omega
    · exact h.2

namespace NumberedInOrder

variable {s : Timelines}

theorem timeline_increasing (h : NumberedInOrder s) (c : String) :
    ((s.timelines.getD c []).map (·.sequenceNumber)).Pairwise (· < ·) := by
  unfold Dict.getD
  cases hget : s.timelines.get? c with
  | none => exact List.Pairwise.nil
  | some es => exact h.increasing c es hget

theorem totallyOrdered (h : NumberedInOrder s) : TotallyOrdered s where
  distinct := h.numbers.nodup_iff.2 List.nodup_range
  increasing := h.increasing
  counted := by
    have hlen := h.numbers.length_eq
    rw [List.length_map, List.length_range] at hlen
    exact hlen.symm
  validated := by
    intro c
    unfold getTimeline
    split
    · rfl
    · apply sequenceIssues_of_pairwise
      · intro e _
        omega
      · exact h.timeline_increasing c

/-- Every recorded number is below the counter. -/
theorem lt_eventCount (h : NumberedInOrder s) {c : String} {e : Event}
    (he : e ∈ s.timelines.getD c []) : e.sequenceNumber < s.eventCount := by
  have hmem : e ∈ s.recorded := by
    unfold Dict.getD at he
    cases hget : s.timelines.get? c with
    | none =>
      rw [hget] at he
      cases he
    | some es =>
      rw [hget] at he
      exact List.mem_flatten.2 ⟨es, Dict.mem_values.2 ⟨c, hget⟩, he⟩
  exact List.mem_range.1 (h.numbers.mem_iff.1 (List.mem_map_of_mem hmem))

end NumberedInOrder

/-! ## The two steps -/

section
variable {s : Timelines} {e : Event}

/-- Appending an event adds its number to the recorded ones. -/
theorem numbers_appendEvent (s : Timelines) (e : Event) :
    ((s.appendEvent e).recorded.map (·.sequenceNumber)).Perm
      (e.sequenceNumber :: s.recorded.map (·.sequenceNumber)) :=
  (Dict.perm_values_append s.timelines e.correlationId e).map (·.sequenceNumber)

theorem buildEvent_number {n : ℕ} {call : RecordCall} (h : buildEvent n call = some e) :
    e.sequenceNumber = n := by
  unfold buildEvent at h
  split at h
  · split at h
    · obtain rfl := Option.some.inj h
      rfl
    · cases h
  · cases h

theorem numberedInOrder_build (h : NumberedInOrder s) (thread : ℕ) (call : RecordCall) :
    NumberedInOrder (s.step (.build thread call)) := by
  simp only [step]
  split
  · exact h
  · split
    · rename_i e he
      refine ⟨h.numbers, h.increasing, fun t e' ht => ?_⟩
      simp only [Dict.get?_set] at ht
      split at ht
      · obtain rfl := Option.some.inj ht
        exact (buildEvent_number he).le
      · exact h.built t e' ht
    · exact h

/-- An event that takes the number of the counter keeps the order. -/
theorem numberedInOrder_append (h : NumberedInOrder s) (he : e.sequenceNumber = s.eventCount)
    (thread : ℕ) :
    NumberedInOrder { s.appendEvent e with built := s.built.eraseAll [thread] } where
  numbers := by
    refine (numbers_appendEvent s e).trans ?_
    rw [he]
    refine (h.numbers.cons s.eventCount).trans ?_
    change List.Perm _ (List.range (s.eventCount + 1))
    rw [List.range_succ]
    exact (List.perm_append_singleton _ _).symm
  increasing := by
    intro c es hget
    simp only [appendEvent, Dict.get?_set] at hget
    split at hget
    · obtain rfl := Option.some.inj hget
      rw [List.map_append, List.pairwise_append]
      refine ⟨h.timeline_increasing _, List.pairwise_singleton _ _, fun n hn m hm => ?_⟩
      obtain ⟨e', he', rfl⟩ := List.mem_map.1 hn
      rw [List.map_singleton, List.mem_singleton] at hm
      rw [hm, he]
      exact h.lt_eventCount he'
    · exact h.increasing c es hget
  built := by
    intro t e' ht
    have hmem := List.mem_of_mem_filter (Dict.get?_eq_some_iff.1 ht)
    have hle := h.built t e' (Dict.get?_eq_some_iff.2 hmem)
    change e'.sequenceNumber ≤ s.eventCount + 1
    omega

/-- An event whose number the counter has left behind repeats a recorded number. -/
theorem not_distinct_of_stale (h : NumberedInOrder s) (he : e.sequenceNumber < s.eventCount) :
    ¬((s.appendEvent e).recorded.map (·.sequenceNumber)).Nodup := by
  intro hnodup
  have hcons := (numbers_appendEvent s e).nodup_iff.1 hnodup
  refine (List.nodup_cons.1 hcons).1 ?_
  exact h.numbers.mem_iff.2 (List.mem_range.2 he)

end

/-! ## Runs -/

theorem numberedInOrder_step (s : Timelines) (a : Step) (h : NumberedInOrder s)
    (ha : Undisturbed s a) : NumberedInOrder (s.step a) := by
  cases a with
  | build thread call => exact numberedInOrder_build h thread call
  | append thread =>
    simp only [step]
    split
    · rename_i e he
      exact numberedInOrder_append h (ha e he) thread
    · exact h

theorem not_totallyOrdered_step (s : Timelines) (a : Step) (h : NumberedInOrder s)
    (ha : ¬Undisturbed s a) : ¬TotallyOrdered (s.step a) := by
  cases a with
  | build thread call => exact absurd trivial ha
  | append thread =>
    unfold Undisturbed at ha
    push Not at ha
    obtain ⟨e, he, hne⟩ := ha
    have hstale : e.sequenceNumber < s.eventCount := lt_of_le_of_ne (h.built thread e he) hne
    intro hordered
    have hdistinct := hordered.distinct
    simp only [step, he] at hdistinct
    exact not_distinct_of_stale h hstale hdistinct

theorem numberedInOrder_init : NumberedInOrder {} where
  numbers := List.Perm.refl _
  increasing := by
    intro c es h
    cases h
  built := by
    intro t e h
    cases h

/-- **Sequence numbers along a run** of any threads. They are a total order in every state it reaches
exactly when each call that appends an event does so in the state of the counter it was built in. -/
theorem totallyOrdered_iff (as : List Step) :
    Always Timelines.step TotallyOrdered {} as ↔ Within Timelines.step Undisturbed {} as :=
  always_iff_within numberedInOrder_init numberedInOrder_step (fun _ h => h.totallyOrdered)
    not_totallyOrdered_step

/-- Two threads record an event each for a trade; both build it before either appends. -/
def twoThreads : List Step :=
  let call : RecordCall :=
    { eventType := .str "SIGNAL_DETECTED", payload := .dict Dict.empty, correlationId := .str "trade-1"
      timestamp := "2026-01-01T00:00:00+00:00" }
  [.build 0 call, .build 1 call, .append 0, .append 1]

/-- Both events get the number 0. -/
theorem twoThreads_collide : ¬Always Timelines.step TotallyOrdered {} twoThreads := by
  intro h
  exact absurd h.last.distinct (by decide +kernel)

end Reports
