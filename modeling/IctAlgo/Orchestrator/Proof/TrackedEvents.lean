import Mathlib.Data.Finset.Card
import Mathlib.Data.Finset.Dedup
import IctAlgo.Lib.Runs
import IctAlgo.Lib.Sorting
import IctAlgo.Orchestrator.EventTracker

/-!
# The bound on the tracked events

The cleanup deletes `int(max_tracked_events * 0.1)` trackers, which is at least one exactly from the
limit 10 on (`toRemove_pos`, `toRemove_small`).

* `length_step_le`: from there on a call keeps the number of trackers within the limit.
* `mem_items_run_small`: below, nothing is ever deleted, so every id that was created is tracked.
* `evictees_oldest`: what the cleanup deletes is no newer than what it leaves.
* `trackerBound_iff`: the bound holds of a run exactly when the limit is at least 10 or the run
  creates no more ids than the limit.
-/

set_option autoImplicit false

namespace Orchestrator.EventCorrelationManager

open Lib Lib.Runs

variable {m : EventCorrelationManager} {old : List (String × EventTracker)}

/-! ## The number of deletions -/

theorem toRemove_pos {r : ℕ} (hm : 10 ≤ m.maxTrackedEvents) (h : m.toRemove = some r) : 1 ≤ r := by
  unfold toRemove at h
  obtain ⟨x, hx, rfl⟩ := Option.map_eq_some_iff.1 h
  have hten : 10 ≤ x := Binary64.le_of_ofNat? (by decide) hx hm
  unfold Binary64.truncMul
  rw [Nat.le_div_iff_mul_le (Nat.two_pow_pos _), Nat.one_mul]
  apply Binary64.two_pow_le_roundSig
  omega

theorem toRemove_small (hm : m.maxTrackedEvents < 10) : m.toRemove = some 0 := by
  have hfloor : ∀ x < 10, Binary64.truncMul x 3602879701896397 55 = 0 := by decide
  unfold toRemove
  rw [Binary64.ofNat?_of_lt (by omega), Option.map_some, hfloor _ hm]

/-! ## The cleanup -/

theorem evictees_of_lt (h : m.events.items.length < m.maxTrackedEvents) : m.evictees = some [] :=
  if_neg (not_le.2 h)

theorem evictees_small (hm : m.maxTrackedEvents < 10) : m.evictees = some [] := by
  unfold evictees
  split
  · rw [toRemove_small hm]
    rfl
  · rfl

theorem mem_sortedEvents {e : String × EventTracker} : e ∈ m.sortedEvents ↔ e ∈ m.events.items :=
  (List.perm_insertionSort _ _).mem_iff

/-- A cleanup deletes a first part of the sorted items. -/
theorem evictees_eq (h : m.evictees = some old) : ∃ rest, m.sortedEvents = old ++ rest := by
  unfold evictees at h
  split at h
  · obtain ⟨r, -, rfl⟩ := Option.map_eq_some_iff.1 h
    exact ⟨m.sortedEvents.drop r, (List.take_append_drop r _).symm⟩
  · obtain rfl := Option.some.inj h
    exact ⟨m.sortedEvents, rfl⟩

/-- **The oldest go first.** -/
theorem evictees_oldest (h : m.evictees = some old) {e x : String × EventTracker} (he : e ∈ old)
    (hx : x ∈ m.events.items) (hkept : x.1 ∉ old.map Prod.fst) :
    e.2.createdAtMs ≤ x.2.createdAtMs := by
  obtain ⟨rest, hsplit⟩ := evictees_eq h
  have hsorted : m.sortedEvents.Pairwise fun x y => x.2.createdAtMs ≤ y.2.createdAtMs :=
    sortBy_pairwise (fun x : String × EventTracker => x.2.createdAtMs) _
  rw [hsplit, List.pairwise_append] at hsorted
  have hmem : x ∈ old ++ rest := by
    rw [← hsplit]
    exact mem_sortedEvents.2 hx
  obtain hmem | hmem := List.mem_append.1 hmem
  · exact absurd (List.mem_map_of_mem hmem) hkept
  · exact hsorted.2.2 e he x hmem

theorem mem_items_of_mem_evictees (h : m.evictees = some old) {e : String × EventTracker}
    (he : e ∈ old) : e ∈ m.events.items := by
  obtain ⟨rest, hsplit⟩ := evictees_eq h
  rw [← mem_sortedEvents, hsplit]
  exact List.mem_append_left _ he

/-- From the limit 10 on a cleanup of a full store deletes something. -/
theorem evictees_ne_nil (hm : 10 ≤ m.maxTrackedEvents)
    (hfull : m.maxTrackedEvents ≤ m.events.items.length) (h : m.evictees = some old) : old ≠ [] := by
  unfold evictees at h
  rw [if_pos hfull] at h
  obtain ⟨r, hr, rfl⟩ := Option.map_eq_some_iff.1 h
  have hpos := toRemove_pos hm hr
  have hlen : m.sortedEvents.length = m.events.items.length := List.length_insertionSort _ _
  apply List.ne_nil_of_length_pos
  rw [List.length_take, hlen]
  omega

/-! ## One call -/

variable {id eventType : String} {now : ℤ} {call : Call}

/-- What a creation does. -/
theorem step_create (m : EventCorrelationManager) (id eventType : String) (now : ℤ) :
    (m.evictees = none ∧ m.step (.create id eventType now) = m) ∨
    ∃ old, m.evictees = some old ∧ m.step (.create id eventType now) = { m with
      events := (m.events.eraseAll (old.map Prod.fst)).set id
        { correlationId := id, eventType := eventType, createdAtMs := now } } := by
  cases h : m.evictees with
  | none => exact .inl ⟨rfl, by simp [step, createEventTracker, h]⟩
  | some old => exact .inr ⟨old, rfl, by simp [step, createEventTracker, h]⟩

/-- What an update does. -/
theorem step_update (m : EventCorrelationManager) (id : String) (newState : EventState)
    (reason : Option String) (now : ℤ) :
    (m.events.get? id = none ∧ m.step (.update id newState reason now) = m) ∨
    ∃ tracker, m.events.get? id = some tracker ∧ m.step (.update id newState reason now) = { m with
      events := m.events.set id (tracker.updateState newState reason now) } := by
  cases h : m.events.get? id with
  | none => exact .inl ⟨rfl, by simp [step, updateEventState, h]⟩
  | some tracker => exact .inr ⟨tracker, rfl, by simp [step, updateEventState, h]⟩

theorem step_maxTrackedEvents (m : EventCorrelationManager) (call : Call) :
    (m.step call).maxTrackedEvents = m.maxTrackedEvents := by
  cases call with
  | create id eventType now =>
    obtain ⟨-, h⟩ | ⟨old, -, h⟩ := m.step_create id eventType now
    · rw [h]
    · rw [h]
  | update id newState reason now =>
    obtain ⟨-, h⟩ | ⟨tracker, -, h⟩ := m.step_update id newState reason now
    · rw [h]
    · rw [h]

/-- An update sets a key that is there. -/
theorem length_step_update (m : EventCorrelationManager) (id : String) (newState : EventState)
    (reason : Option String) (now : ℤ) :
    (m.step (.update id newState reason now)).events.items.length = m.events.items.length := by
  obtain ⟨-, h⟩ | ⟨tracker, hget, h⟩ := m.step_update id newState reason now
  · rw [h]
  · rw [h]
    have hkeys := Dict.setItems_keys m.events.items id (tracker.updateState newState reason now)
    rw [if_pos (List.mem_map.2 ⟨_, Dict.get?_eq_some_iff.1 hget, rfl⟩)] at hkeys
    simpa [Dict.set] using congrArg List.length hkeys

/-- From the limit 10 on the number of trackers stays within it. -/
theorem length_step_le (hm : 10 ≤ m.maxTrackedEvents)
    (h : m.events.items.length ≤ m.maxTrackedEvents) :
    (m.step call).events.items.length ≤ m.maxTrackedEvents := by
  cases call with
  | update id newState reason now =>
    rw [length_step_update]
    exact h
  | create id eventType now =>
    obtain ⟨-, hstep⟩ | ⟨old, hold, hstep⟩ := m.step_create id eventType now
    · rw [hstep]
      exact h
    · rw [hstep]
      refine (Dict.length_setItems_le _ _ _).trans ?_
      by_cases hfull : m.maxTrackedEvents ≤ m.events.items.length
      · obtain ⟨e, he⟩ := List.exists_mem_of_ne_nil _ (evictees_ne_nil hm hfull hold)
        have hlt := Dict.length_eraseAll_lt (mem_items_of_mem_evictees hold he)
          (List.mem_map_of_mem he)
        omega
      · have hle : (m.events.eraseAll (old.map Prod.fst)).items.length ≤ m.events.items.length :=
          List.length_filter_le _ _
        omega

/-- The trackers after a call: one of the trackers before it, as old as that was, or one created by
the call. A creation keeps only what it does not evict. -/
theorem mem_step {x : String × EventTracker} (h : x ∈ (m.step call).events.items) :
    x.2.createdAtMs = call.now ∨
    ∃ y ∈ m.events.items, y.2.createdAtMs = x.2.createdAtMs ∧
      ∀ e ∈ m.evicted call, e.2.createdAtMs ≤ x.2.createdAtMs := by
  cases call with
  | create id eventType now =>
    obtain ⟨hold, hstep⟩ | ⟨old, hold, hstep⟩ := m.step_create id eventType now
    · rw [hstep] at h
      exact .inr ⟨x, h, rfl, by simp [evicted, hold]⟩
    · rw [hstep] at h
      obtain rfl | hmem := Dict.mem_setItems h
      · exact .inl rfl
      · obtain ⟨hmem, hkept⟩ := List.mem_filter.1 hmem
        refine .inr ⟨x, hmem, rfl, fun e he => ?_⟩
        rw [evicted, hold] at he
        exact evictees_oldest hold he hmem (by simpa using hkept)
  | update id newState reason now =>
    refine .inr ?_
    obtain ⟨-, hstep⟩ | ⟨tracker, hget, hstep⟩ := m.step_update id newState reason now
    · rw [hstep] at h
      exact ⟨x, h, rfl, by simp [evicted]⟩
    · rw [hstep] at h
      obtain rfl | hmem := Dict.mem_setItems h
      · exact ⟨_, Dict.get?_eq_some_iff.1 hget, rfl, by simp [evicted]⟩
      · exact ⟨x, hmem, rfl, by simp [evicted]⟩

/-- A creation in a store that is not full keeps every other id. -/
theorem get?_step_create {k : String} (hk : k ≠ id)
    (h : m.events.items.length < m.maxTrackedEvents) :
    (m.step (.create id eventType now)).events.get? k = m.events.get? k := by
  obtain ⟨-, hstep⟩ | ⟨old, hold, hstep⟩ := m.step_create id eventType now
  · rw [hstep]
  · rw [evictees_of_lt h] at hold
    obtain rfl := Option.some.inj hold
    rw [hstep, List.map_nil, Dict.eraseAll_nil]
    exact Dict.get?_set_ne _ _ hk

/-! ## Runs -/

/-- A new manager. -/
def init (maxTrackedEvents : ℕ) : EventCorrelationManager := { maxTrackedEvents := maxTrackedEvents }

/-- The ids the calls create. -/
def ids (calls : List Call) : List String := calls.filterMap fun
  | .create id _ _ => some id
  | .update .. => none

/-- The trackers of a run stay within the limit, go oldest first, and make room for another id only
when the store is full. -/
structure TrackerBound (maxTrackedEvents : ℕ) (calls : List Call) : Prop where
  bounded : Always step (fun m => m.events.items.length ≤ maxTrackedEvents) (init maxTrackedEvents)
    calls
  oldest : ∀ before call after, before ++ call :: after <+: calls →
    ∀ e ∈ (run step (init maxTrackedEvents) before).evicted call,
    ∀ x ∈ (run step (init maxTrackedEvents) (before ++ call :: after)).events.items,
      e.2.createdAtMs ≤ x.2.createdAtMs
  keeps : ∀ before id eventType now, before ++ [.create id eventType now] <+: calls →
    (run step (init maxTrackedEvents) before).events.items.length < maxTrackedEvents →
    ∀ k ≠ id, (run step (init maxTrackedEvents) (before ++ [.create id eventType now])).events.get? k =
      (run step (init maxTrackedEvents) before).events.get? k

theorem run_maxTrackedEvents (max : ℕ) (calls : List Call) :
    (run step (init max) calls).maxTrackedEvents = max :=
  run_inv (I := fun m : EventCorrelationManager => m.maxTrackedEvents = max) calls rfl
    fun m call h => by rw [step_maxTrackedEvents, h]

/-- From the limit 10 on the bound holds after every run. -/
theorem run_within_limit {max : ℕ} (hmax : 10 ≤ max) (calls : List Call) :
    (run step (init max) calls).maxTrackedEvents = max ∧
      (run step (init max) calls).events.items.length ≤ max := by
  refine run_inv (I := fun m : EventCorrelationManager =>
    m.maxTrackedEvents = max ∧ m.events.items.length ≤ max) calls ⟨rfl, Nat.zero_le _⟩ ?_
  intro m call h
  obtain ⟨rfl, hlen⟩ := h
  exact ⟨step_maxTrackedEvents m call, length_step_le hmax hlen⟩

/-- A tracker was created at the time of one of the calls. -/
theorem created_in_run (max : ℕ) (calls : List Call) :
    ∀ x ∈ (run step (init max) calls).events.items, ∃ call ∈ calls, x.2.createdAtMs = call.now := by
  induction calls using List.reverseRecOn with
  | nil => simp [init, Dict.empty]
  | append_singleton calls call ih =>
    intro x hx
    rw [run_append] at hx
    obtain h | ⟨y, hy, hage, -⟩ := mem_step hx
    · exact ⟨call, by simp, h⟩
    · obtain ⟨c, hc, hnow⟩ := ih y hy
      exact ⟨c, List.mem_append_left _ hc, hage.symm.trans hnow⟩

/-- What is at least as new as `t` stays so while the clock is at least `t`. -/
theorem createdAt_ge_run {t : ℤ} (calls : List Call) (hclock : ∀ call ∈ calls, t ≤ call.now)
    (h : ∀ x ∈ m.events.items, t ≤ x.2.createdAtMs) :
    ∀ x ∈ (run step m calls).events.items, t ≤ x.2.createdAtMs := by
  induction calls generalizing m with
  | nil => exact h
  | cons call calls ih =>
    obtain ⟨hnow, hclock⟩ := List.forall_mem_cons.1 hclock
    refine ih hclock fun x hx => ?_
    obtain heq | ⟨y, hy, hage, -⟩ := mem_step hx
    · rw [heq]
      exact hnow
    · rw [← hage]
      exact h y hy

theorem oldest_of_clock {max : ℕ} {before after : List Call} {call : Call}
    (hclock : ((before ++ call :: after).map Call.now).Pairwise (· ≤ ·))
    {e x : String × EventTracker} (he : e ∈ (run step (init max) before).evicted call)
    (hx : x ∈ (run step (init max) (before ++ call :: after)).events.items) :
    e.2.createdAtMs ≤ x.2.createdAtMs := by
  rw [List.map_append, List.map_cons, List.pairwise_append, List.pairwise_cons] at hclock
  obtain ⟨-, ⟨hlater, -⟩, hearlier⟩ := hclock
  have hborn : e.2.createdAtMs ≤ call.now := by
    have hmem : e ∈ (run step (init max) before).events.items := by
      cases call with
      | create id eventType now =>
        rw [evicted] at he
        cases hold : (run step (init max) before).evictees with
        | none => simp [hold] at he
        | some old =>
          rw [hold] at he
          exact mem_items_of_mem_evictees hold he
      | update => simp [evicted] at he
    obtain ⟨c, hc, hnow⟩ := created_in_run max before e hmem
    rw [hnow]
    exact hearlier _ (List.mem_map_of_mem hc) _ List.mem_cons_self
  rw [run_append, run_cons] at hx
  refine createdAt_ge_run after (fun c hc => ?_) (fun y hy => ?_) x hx
  · exact hborn.trans (hlater _ (List.mem_map_of_mem hc))
  · obtain heq | ⟨-, -, -, hold⟩ := mem_step hy
    · rw [heq]
      exact hborn
    · exact hold e he

/-- Below the limit 10 every id that was created stays tracked. -/
theorem mem_items_run_small {max : ℕ} (hmax : max < 10) (calls : List Call) (k : String) :
    k ∈ (run step (init max) calls).events.items.map Prod.fst ↔ k ∈ ids calls := by
  induction calls using List.reverseRecOn with
  | nil => simp [init, Dict.empty, ids]
  | append_singleton calls call ih =>
    generalize hm : run step (init max) calls = m at ih
    have hsmall : m.maxTrackedEvents < 10 := by
      rw [← hm, run_maxTrackedEvents]
      exact hmax
    rw [run_append, hm, run_cons, run_nil]
    cases call with
    | create id eventType now =>
      have hids : ids (calls ++ [.create id eventType now]) = ids calls ++ [id] := by simp [ids]
      rw [hids, List.mem_append, List.mem_singleton, ← ih]
      obtain ⟨hnone, -⟩ | ⟨old, hold, hstep⟩ := m.step_create id eventType now
      · rw [evictees_small hsmall] at hnone
        cases hnone
      · rw [evictees_small hsmall] at hold
        obtain rfl := Option.some.inj hold
        rw [hstep, List.map_nil, Dict.eraseAll_nil]
        simp only [Dict.set, Dict.setItems_keys]
        split
        · rename_i hid
          constructor
          · exact .inl
          · intro h'
            obtain h | rfl := h'
            · exact h
            · exact hid
        · rw [List.mem_append, List.mem_singleton]
    | update id newState reason now =>
      have hids : ids (calls ++ [.update id newState reason now]) = ids calls := by simp [ids]
      rw [hids, ← ih]
      obtain ⟨-, hstep⟩ | ⟨tracker, hget, hstep⟩ := m.step_update id newState reason now
      · rw [hstep]
      · rw [hstep]
        simp only [Dict.set, Dict.setItems_keys]
        rw [if_pos (List.mem_map.2 ⟨_, Dict.get?_eq_some_iff.1 hget, rfl⟩)]

theorem length_run_small {max : ℕ} (hmax : max < 10) (calls : List Call) :
    (run step (init max) calls).events.items.length = (ids calls).toFinset.card := by
  have hset : ((run step (init max) calls).events.items.map Prod.fst).toFinset =
      (ids calls).toFinset := by
    apply Finset.ext
    intro k
    rw [List.mem_toFinset, List.mem_toFinset]
    exact mem_items_run_small hmax calls k
  rw [← hset, List.toFinset_card_of_nodup (Dict.nodup _), List.length_map]

/-- **The bound, exactly.** -/
theorem trackerBound_iff (maxTrackedEvents : ℕ) (calls : List Call)
    (hclock : (calls.map Call.now).Pairwise (· ≤ ·)) :
    TrackerBound maxTrackedEvents calls ↔
      10 ≤ maxTrackedEvents ∨ (ids calls).toFinset.card ≤ maxTrackedEvents := by
  refine ⟨fun h => ?_, fun h => ?_⟩
  · by_cases hmax : 10 ≤ maxTrackedEvents
    · exact .inl hmax
    · right
      rw [← length_run_small (not_le.1 hmax)]
      exact h.bounded.last
  · refine ⟨?_, ?_, ?_⟩
    · by_cases hmax : 10 ≤ maxTrackedEvents
      · intro before _
        exact (run_within_limit hmax before).2
      · intro before h'
        obtain ⟨after, rfl⟩ := h'
        show (run step (init maxTrackedEvents) before).events.items.length ≤ maxTrackedEvents
        rw [length_run_small (not_le.1 hmax)]
        refine le_trans (Finset.card_le_card ?_) (h.resolve_left hmax)
        intro k hk
        simp only [ids, List.filterMap_append, List.mem_toFinset] at hk ⊢
        exact List.mem_append_left _ hk
    · rintro before call after hpre e he x hx
      refine oldest_of_clock (List.Pairwise.sublist ?_ hclock) he hx
      exact hpre.sublist.map _
    · rintro before id eventType now - hroom k hk
      rw [run_append, run_cons, run_nil]
      refine get?_step_create hk ?_
      rw [run_maxTrackedEvents]
      exact hroom

/-- Twelve events, one after another, the second of them processed meanwhile. -/
def twelveEvents : List Call :=
  .create "" "signal" 0 :: .create "a" "signal" 1 :: .update "a" .processed none 1 ::
    (List.range' 2 10).map fun k => .create (String.ofList (List.replicate k 'a')) "signal" k

/-- With the limit 10 the two oldest are gone at the end. -/
theorem trackerBound_iff_twelve :
    TrackerBound 10 twelveEvents ∧ (run step (init 10) twelveEvents).events.items.length = 10 ∧
      (run step (init 10) twelveEvents).events.get? "a" = none := by
  refine ⟨(trackerBound_iff 10 twelveEvents ?_).2 (.inl le_rfl), ?_, ?_⟩
  · decide +kernel
  · decide +kernel
  · decide +kernel

/-- With the limit 1 the second id is tracked beside the first. -/
theorem trackerBound_exceeded : ¬ TrackerBound 1 [.create "a" "signal" 0, .create "b" "signal" 0] := by
  intro h
  have hle := h.bounded.last
  revert hle
  decide +kernel

end Orchestrator.EventCorrelationManager
