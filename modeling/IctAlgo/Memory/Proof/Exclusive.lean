import IctAlgo.Lib.Lease
import IctAlgo.Lib.Runs
import IctAlgo.Memory.Fusion

/-!
# The lock of `fuse`

`_acquire_lock` and `_release_lock` refine a lock that expires (`Lease`): a step of the server is a
step of the lease (`Tracks.step`), whatever the calls do in the meantime.

* `fuse_exclusive`: in every run the lock is held by the call inside `fuse` that got it within the
  last second, and those inside got it at least a second apart.
-/

set_option autoImplicit false

namespace Memory.Fusion

open Lib Lib.Runs

variable {γ ω μ : Type} (floats : Floats γ ω μ) (symbol : String)

/-- The call has got the lock and not yet tried to release it. -/
def Phase.isInside : Phase γ ω μ → Bool
  | .reading _ _ | .releasing _ => true
  | _ => false

def World.inside (w : World γ ω μ) (i : ℕ) : Bool := w.calls[i]?.any Phase.isInside

/-- A world with the times at which the calls that are inside came in. -/
structure Timed (γ ω μ : Type) where
  world : World γ ω μ := {}
  entered : ℕ → Option ℤ := fun _ => none

def Timed.step (t : Timed γ ω μ) (event : Event γ) : Timed γ ω μ where
  world := t.world.step floats symbol event
  entered i :=
    if (t.world.step floats symbol event).inside i then
      if t.world.inside i then t.entered i else some t.world.clock
    else none

theorem world_run (events : List (Event γ)) : (run (Timed.step floats symbol) {} events).world =
    run (World.step floats symbol) {} events := by
  induction events using List.reverseRecOn with
  | nil => rfl
  | append_singleton events event ih =>
    rw [run_append, run_append, ← ih]
    rfl

/-! ## The lease -/

/-- The server's lock and the calls inside are those of a lease. -/
structure Tracks (t : Timed γ ω μ) (l : Lease ℕ) : Prop where
  now : t.world.clock = l.now
  lock : t.world.locks.get? (lockKey symbol) = l.lock.map fun e => ⟨e.1, some e.2⟩
  entered : t.entered = l.entered
  inside : ∀ i, t.world.inside i = (l.entered i).isSome

variable {floats} {symbol} {t : Timed γ ω μ} {l : Lease ℕ}

theorem Tracks.fetch (h : Tracks symbol t l) :
    t.world.locks.fetch t.world.clock (lockKey symbol) = l.holder := by
  unfold Keyspace.fetch Lease.holder
  rw [h.lock, h.now]
  cases l.lock with
  | none => rfl
  | some e => by_cases hlive : l.now < e.2 <;> simp [Expiring.live, hlive]

/-- A step that lets nobody in and nobody out. -/
theorem Tracks.stay (h : Tracks symbol t l) {event : Event γ}
    (hnow : (t.world.step floats symbol event).clock = t.world.clock)
    (hlocks : (t.world.step floats symbol event).locks = t.world.locks)
    (hinside : ∀ i, (t.world.step floats symbol event).inside i = t.world.inside i) :
    Tracks symbol (t.step floats symbol event) l where
  now := hnow.trans h.now
  lock := by
    show (t.world.step floats symbol event).locks.get? _ = _
    rw [hlocks, h.lock]
  entered := by
    funext i
    show (if _ then _ else _) = _
    rw [hinside, h.inside, h.entered]
    cases l.entered i <;> rfl
  inside := fun i => (hinside i).trans (h.inside i)

theorem inside_set {w : World γ ω μ} {i : ℕ} {phase : Phase γ ω μ} (hi : w.calls[i]? = some phase)
    (phase' : Phase γ ω μ) (j : ℕ) :
    (w.calls.set i phase')[j]?.any Phase.isInside =
      if j = i then phase'.isInside else w.inside j := by
  have hlen : i < w.calls.length := (List.getElem?_eq_some_iff.1 hi).1
  unfold World.inside
  rw [List.getElem?_set]
  by_cases hj : i = j
  · subst hj
    simp [hlen]
  · rw [if_neg hj, if_neg (Ne.symm hj)]

section
variable {event : Event γ} {i : ℕ} {phase phase' : Phase γ ω μ} {w : World γ ω μ}

theorem inside_step (hi : t.world.calls[i]? = some phase)
    (hstep : t.world.step floats symbol event = w.move i phase') (hcalls : w.calls = t.world.calls)
    (j : ℕ) : (t.world.step floats symbol event).inside j =
      if j = i then phase'.isInside else t.world.inside j := by
  have hafter : (t.world.step floats symbol event).calls = t.world.calls.set i phase' := by
    rw [hstep, ← hcalls]
    rfl
  rw [← inside_set hi phase' j, ← hafter]
  rfl

/-- A step by which a call comes in. -/
theorem Tracks.goIn (h : Tracks symbol t l) (hi : t.world.calls[i]? = some phase)
    (hstep : t.world.step floats symbol event = w.move i phase') (hcalls : w.calls = t.world.calls)
    (hout : phase.isInside = false) (hin : phase'.isInside = true) (hfree : l.holder = none)
    (hnow : w.clock = t.world.clock)
    (hlocks : w.locks = t.world.locks.put (lockKey symbol) i (some (t.world.clock + lockTtlMs))) :
    Tracks symbol (t.step floats symbol event) (l.enter lockTtlMs i) := by
  have hinside (j : ℕ) : (t.world.step floats symbol event).inside j =
      if j = i then true else t.world.inside j := by
    rw [inside_step hi hstep hcalls, hin]
  have hbefore : t.world.inside i = false := by
    unfold World.inside
    rw [hi, Option.any_some, hout]
  unfold Lease.enter
  rw [if_pos hfree]
  refine ⟨?_, ?_, ?_, ?_⟩
  · show (t.world.step floats symbol event).clock = l.now
    rw [hstep, ← h.now]
    exact hnow
  · show (t.world.step floats symbol event).locks.get? _ = _
    rw [hstep]
    show w.locks.get? _ = _
    rw [hlocks, Keyspace.put, Dict.get?_set, if_pos rfl, h.now]
    rfl
  · funext j
    show (if _ then _ else _) = Function.update l.entered i (some l.now) j
    rw [hinside, Function.update_apply]
    by_cases hj : j = i
    · subst hj
      rw [if_pos rfl, if_pos rfl, hbefore, if_neg (by decide), if_pos rfl, h.now]
    · rw [if_neg hj, if_neg hj, h.inside, h.entered]
      cases l.entered j <;> rfl
  · intro j
    show (t.world.step floats symbol event).inside j =
      (Function.update l.entered i (some l.now) j).isSome
    rw [hinside, Function.update_apply]
    by_cases hj : j = i
    · rw [if_pos hj, if_pos hj]
      rfl
    · rw [if_neg hj, if_neg hj, h.inside]

theorem locks_releaseLock (w : World γ ω μ) (i : ℕ) : (w.releaseLock symbol i).locks =
    if w.locks.fetch w.clock (lockKey symbol) = some i then w.locks.delete (lockKey symbol)
    else w.locks := rfl

/-- A step by which a call goes out. -/
theorem Tracks.goOut (h : Tracks symbol t l) (hi : t.world.calls[i]? = some phase)
    (hstep : t.world.step floats symbol event = (t.world.releaseLock symbol i).move i phase')
    (hout : phase'.isInside = false) : Tracks symbol (t.step floats symbol event) (l.leave i) := by
  have hinside (j : ℕ) : (t.world.step floats symbol event).inside j =
      if j = i then false else t.world.inside j := by
    rw [inside_step hi hstep rfl, hout]
  refine ⟨?_, ?_, ?_, ?_⟩
  · show (t.world.step floats symbol event).clock = l.now
    rw [hstep, ← h.now]
    rfl
  · show (t.world.step floats symbol event).locks.get? _ = _
    rw [hstep]
    show (t.world.releaseLock symbol i).locks.get? _ = _
    rw [locks_releaseLock, h.fetch]
    unfold Lease.leave
    dsimp only
    split
    · exact Dict.get?_eraseAll_of_mem _ (List.mem_singleton_self _)
    · exact h.lock
  · funext j
    show (if _ then _ else _) = Function.update l.entered i none j
    rw [hinside, Function.update_apply]
    by_cases hj : j = i
    · rw [if_pos hj, if_pos hj, if_neg (by decide)]
    · rw [if_neg hj, if_neg hj, h.inside, h.entered]
      cases l.entered j <;> rfl
  · intro j
    show (t.world.step floats symbol event).inside j = (Function.update l.entered i none j).isSome
    rw [hinside, Function.update_apply]
    by_cases hj : j = i
    · rw [if_pos hj, if_pos hj]
      rfl
    · rw [if_neg hj, if_neg hj, h.inside]

/-- A step of a call that neither takes nor releases the lock. -/
theorem Tracks.move (h : Tracks symbol t l) (hi : t.world.calls[i]? = some phase)
    (hstep : t.world.step floats symbol event = w.move i phase') (hcalls : w.calls = t.world.calls)
    (hsame : phase'.isInside = phase.isInside) (hnow : w.clock = t.world.clock)
    (hlocks : w.locks = t.world.locks) : Tracks symbol (t.step floats symbol event) l := by
  refine h.stay ?_ ?_ fun j => ?_
  · rw [hstep]
    exact hnow
  · rw [hstep]
    exact hlocks
  · rw [inside_step hi hstep hcalls]
    by_cases hj : j = i
    · rw [if_pos hj, hsame, hj, World.inside, hi, Option.any_some]
    · rw [if_neg hj]

end

/-! ## Steps -/

variable (floats)

theorem Tracks.command (h : Tracks symbol t l) (hsafe : l.Safe lockTtlMs) (i : ℕ) (nowMs : ℤ) :
    ∃ l', Tracks symbol (t.step floats symbol (.command i nowMs)) l' ∧ l'.Safe lockTtlMs := by
  cases hi : t.world.calls[i]? with
  | none =>
    refine ⟨l, h.stay ?_ ?_ fun j => ?_, hsafe⟩ <;> simp [World.step, World.command, hi]
  | some phase =>
    cases phase with
    | arrived alert =>
      have hstep : t.world.step floats symbol (.command i nowMs) =
          { t.world with server := (t.world.server.storeAlert t.world.clock alert none).2 }.move i
            (if (t.world.server.storeAlert t.world.clock alert none).1 then .stored
              else .returned none) := by
        simp only [World.step, World.command, hi]
      refine ⟨l, h.move hi hstep rfl ?_ rfl rfl, hsafe⟩
      split_ifs <;> rfl
    | stored =>
      cases hholder : l.holder with
      | none =>
        have hfree := h.fetch.trans hholder
        have hstep : t.world.step floats symbol (.command i nowMs) =
            { t.world with
              locks := t.world.locks.put (lockKey symbol) i
                (some (t.world.clock + lockTtlMs)) }.move i (.reading [] tfOrder) := by
          simp only [World.step, World.command, hi, Keyspace.setNx_of_none hfree]
          rfl
        exact ⟨_, h.goIn hi hstep rfl rfl rfl hholder rfl rfl, hsafe.enter i⟩
      | some token =>
        have htaken := h.fetch.trans hholder
        have hstep : t.world.step floats symbol (.command i nowMs) =
            { t.world with locks := t.world.locks }.move i .refused := by
          simp only [World.step, World.command, hi, Keyspace.setNx_of_some htaken]
          rfl
        exact ⟨l, h.move hi hstep rfl rfl rfl rfl, hsafe⟩
    | reading windows todo =>
      cases todo with
      | cons tf todo =>
        have hstep : t.world.step floats symbol (.command i nowMs) =
            t.world.move i (.reading (windows ++ [(tf, t.world.window symbol tf)]) todo) := by
          simp only [World.step, World.command, hi]
        exact ⟨l, h.move hi hstep rfl rfl rfl rfl, hsafe⟩
      | nil =>
        cases hsnapshot : snapshot? floats nowMs windows with
        | none =>
          have hstep : t.world.step floats symbol (.command i nowMs) =
              (t.world.releaseLock symbol i).move i (.returned none) := by
            simp only [World.step, World.command, hi, hsnapshot]
          exact ⟨_, h.goOut hi hstep rfl, hsafe.leave i⟩
        | some snapshot =>
          have hstep : t.world.step floats symbol (.command i nowMs) =
              { t.world with
                cache := t.world.cache.put (fuseKey symbol) snapshot
                  (some (t.world.clock + fuseTtl)) }.move i (.releasing snapshot) := by
            simp only [World.step, World.command, hi, hsnapshot]
          exact ⟨l, h.move hi hstep rfl rfl rfl rfl, hsafe⟩
    | releasing snapshot =>
      have hstep : t.world.step floats symbol (.command i nowMs) =
          (t.world.releaseLock symbol i).move i (.returned (some snapshot)) := by
        simp only [World.step, World.command, hi]
      exact ⟨_, h.goOut hi hstep rfl, hsafe.leave i⟩
    | refused =>
      have hstep : t.world.step floats symbol (.command i nowMs) =
          t.world.move i (.returned (t.world.cached symbol)) := by
        simp only [World.step, World.command, hi]
      exact ⟨l, h.move hi hstep rfl rfl rfl rfl, hsafe⟩
    | returned snapshot =>
      refine ⟨l, h.stay ?_ ?_ fun j => ?_, hsafe⟩ <;> simp [World.step, World.command, hi]

/-- Every step of the server is a step of the lease. -/
theorem Tracks.step (h : Tracks symbol t l) (hsafe : l.Safe lockTtlMs) (event : Event γ) :
    ∃ l', Tracks symbol (t.step floats symbol event) l' ∧ l'.Safe lockTtlMs := by
  cases event with
  | call tf ts body =>
    refine ⟨l, h.stay rfl rfl fun i => ?_, hsafe⟩
    unfold World.inside World.step
    rw [List.getElem?_append]
    split
    · rfl
    · rename_i hlen
      rw [List.getElem?_eq_none (not_lt.1 hlen)]
      cases hi : i - t.world.calls.length <;> rfl
  | tick ms =>
    refine ⟨l.wait ms, ⟨?_, h.lock, ?_, h.inside⟩, hsafe.wait ms⟩
    · show t.world.clock + ms = l.now + ms
      rw [h.now]
    · have hstay : Tracks symbol (t.step floats symbol (.tick 0)) l :=
        h.stay (by simp [World.step]) rfl fun _ => rfl
      exact hstay.entered
  | command i nowMs => exact h.command floats hsafe i nowMs

/-! ## Runs -/

variable (symbol)

theorem tracks_run (events : List (Event γ)) :
    ∃ l, Tracks symbol (run (Timed.step floats symbol) {} events) l ∧ l.Safe lockTtlMs := by
  apply run_inv (I := fun t : Timed γ ω μ => ∃ l, Tracks symbol t l ∧ l.Safe lockTtlMs)
  · exact ⟨{}, ⟨rfl, rfl, rfl, fun i => rfl⟩, Lease.safe_new⟩
  · rintro t event ⟨l, htracks, hsafe⟩
    exact htracks.step floats hsafe event

/-- What holds of the lock and of the calls inside. -/
structure Exclusive (t : Timed γ ω μ) : Prop where
  /-- The calls inside are those with a time of entry. -/
  inside_iff : ∀ i, t.world.inside i = true ↔ ∃ entry, t.entered i = some entry
  past : ∀ i entry, t.entered i = some entry → entry ≤ t.world.clock
  /-- The lock is held by the call inside whose time is not over: nobody else can release it. -/
  holds_iff : ∀ i, t.world.locks.fetch t.world.clock (lockKey symbol) = some i ↔
    ∃ entry, t.entered i = some entry ∧ t.world.clock < entry + lockTtlMs
  apart : ∀ i j entry entry', i ≠ j → t.entered i = some entry → t.entered j = some entry' →
    entry + lockTtlMs ≤ entry' ∨ entry' + lockTtlMs ≤ entry
  /-- A call comes in exactly when the time of all those inside is over. -/
  admits_iff : ∀ i nowMs, t.world.calls[i]? = some .stored →
    ((t.world.step floats symbol (.command i nowMs)).inside i = true ↔
      ∀ j entry, t.entered j = some entry → entry + lockTtlMs ≤ t.world.clock)

theorem inside_stored {w : World γ ω μ} {i : ℕ} (hi : w.calls[i]? = some .stored) (nowMs : ℤ) :
    (w.step floats symbol (.command i nowMs)).inside i = true ↔
      w.locks.fetch w.clock (lockKey symbol) = none := by
  cases hlock : w.locks.fetch w.clock (lockKey symbol) with
  | none =>
    have hstep : (w.step floats symbol (.command i nowMs)).calls =
        w.calls.set i (.reading [] tfOrder) := by
      simp only [World.step, World.command, hi, Keyspace.setNx_of_none hlock, World.move]
      rfl
    rw [World.inside, hstep, inside_set hi, if_pos rfl]
    exact iff_of_true rfl rfl
  | some token =>
    have hstep : (w.step floats symbol (.command i nowMs)).calls = w.calls.set i .refused := by
      simp only [World.step, World.command, hi, Keyspace.setNx_of_some hlock, World.move]
      rfl
    rw [World.inside, hstep, inside_set hi, if_pos rfl]
    exact iff_of_false nofun nofun

/-- **The lock of `fuse` excludes**, for its time, in every run of the service: whatever the order of the
commands of any number of calls and however long each of them takes. -/
theorem fuse_exclusive (events : List (Event γ)) :
    (run (Timed.step floats symbol) {} events).world = run (World.step floats symbol) {} events ∧
      Exclusive floats symbol (run (Timed.step floats symbol) {} events) := by
  obtain ⟨l, h, hsafe⟩ := tracks_run floats symbol events
  refine ⟨world_run floats symbol events, ?_⟩
  constructor
  · intro i
    rw [h.inside, h.entered, Option.isSome_iff_exists]
  · intro i entry hi
    rw [h.now]
    exact hsafe.past i entry (h.entered ▸ hi)
  · intro i
    rw [h.fetch, h.entered, h.now]
    exact hsafe.holder_iff
  · intro i j entry entry' hne hi hj
    rw [h.entered] at hi hj
    exact hsafe.apart i j entry entry' hne hi hj
  · intro i nowMs hi
    rw [inside_stored floats symbol hi, h.fetch, h.entered, h.now]
    exact hsafe.free_iff

end Memory.Fusion
