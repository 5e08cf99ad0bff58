import IctAlgo.Lib.Runs
import IctAlgo.Memory.Proof.Covers

/-!
# Alerts and the fused snapshot

A call stores its alert and then fuses, but a call that finds the lock taken leaves the cache as it
is: its alert is in the snapshot of the call that holds the lock only if that one has yet to read its
window. And the lock runs out: a call that is still reading then may write over a newer snapshot.

* `Undisturbed`: the condition on a step, under which neither leaves an alert uncovered.
* `Inv.step`, `Inv.noOlder`: such a step keeps the invariant and caches no older snapshot.
* `nothingLost_of_undisturbed`: in the runs of such steps nothing is lost.
-/

set_option autoImplicit false

namespace Memory.Fusion

open Lib Lib.Runs

variable {γ ω μ : Type} {floats : Floats γ ω μ}

namespace World

/-- Nothing that `fuse` reads or caches expires in these milliseconds. -/
def Unexpired (symbol : String) (w : World γ ω μ) (ms : ℕ) : Prop :=
  { w with clock := w.clock + ms }.windows symbol = w.windows symbol ∧
    { w with clock := w.clock + ms }.cached symbol = w.cached symbol

/-- The condition on the next command of a call: the one that gets the lock is the only one to read,
one that is refused leaves every alert covered, and a snapshot that is written is dated. -/
def Orderly (symbol : String) (w : World γ ω μ) (i : ℕ) : Phase γ ω μ → Prop
  | .stored =>
    if w.locks.fetch w.clock (lockKey symbol) = none then
      ∀ phase ∈ w.calls, phase.isReading = false
    else Covered (w.window symbol) (w.calls.set i .refused) (w.cached symbol)
  | .reading windows [] => Dated windows
  | _ => True

/-- The condition on a step. -/
def Undisturbed (symbol : String) (w : World γ ω μ) : Event γ → Prop
  | .call _ _ _ => True
  | .tick ms => w.Unexpired symbol ms
  | .command i _ => ∀ phase ∈ w.calls[i]?, w.Orderly symbol i phase

/-- The cached snapshot is still there, or a later one. -/
def NoOlder (symbol : String) (w w' : World γ ω μ) : Prop :=
  ∀ s, w.cached symbol = some s → ∃ s', w'.cached symbol = some s' ∧ s.snapshotTs ≤ s'.snapshotTs

section
variable [DecidableEq γ] [DecidableEq ω] [DecidableEq μ]

instance (symbol : String) (w : World γ ω μ) (i : ℕ) :
    (phase : Phase γ ω μ) → Decidable (w.Orderly symbol i phase)
  | .stored => inferInstanceAs (Decidable
      (if w.locks.fetch w.clock (lockKey symbol) = none then
        ∀ phase ∈ w.calls, phase.isReading = false
      else Covered (w.window symbol) (w.calls.set i .refused) (w.cached symbol)))
  | .reading windows [] => inferInstanceAs (Decidable (Dated windows))
  | .reading _ (_ :: _) | .arrived _ | .releasing _ | .refused | .returned _ => .isTrue trivial

instance (symbol : String) (w : World γ ω μ) :
    (event : Event γ) → Decidable (Undisturbed symbol w event)
  | .call _ _ _ => .isTrue trivial
  | .tick _ => inferInstanceAs (Decidable (_ ∧ _))
  | .command i _ =>
    inferInstanceAs (Decidable (∀ phase ∈ w.calls[i]?, w.Orderly symbol i phase))

end

/-- Once all calls have returned, the cached snapshot is the one of the windows. -/
def Reflected (floats : Floats γ ω μ) (symbol : String) (w : World γ ω μ) : Prop :=
  (∀ phase ∈ w.calls, phase.isReturned = true) →
    UpToDate floats (w.windows symbol) (w.cached symbol)

/-- At every point of a run: what has returned is reflected, and the cached snapshot is not older than
any before it. -/
structure NothingLost (floats : Floats γ ω μ) (symbol : String) (events : List (Event γ)) : Prop where
  reflected : Always (World.step floats symbol) (Reflected floats symbol) {} events
  forward : ∀ es es', es ++ es' <+: events →
    NoOlder symbol (run (World.step floats symbol) {} es)
      (run (World.step floats symbol) {} (es ++ es'))

/-! ## Steps and runs -/

variable {symbol : String} {w : World γ ω μ} {event : Event γ}

structure Inv (floats : Floats γ ω μ) (symbol : String) (w : World γ ω μ) : Prop where
  synced : w.server.Synced
  covers : Covers floats (w.window symbol) w.calls (w.cached symbol)

theorem inv_new : Inv floats symbol ({} : World γ ω μ) := by
  have hview : ({} : World γ ω μ).window symbol = fun _ => [] := by
    funext tf
    show dedupBy Alert.ts (upTo ([] : List (Alert (Body γ))) _) = []
    rw [upTo, List.take_nil]
    rfl
  refine ⟨Server.synced_new, ?_⟩
  rw [hview]
  exact covers_new

theorem cached_write (s : Snapshot γ ω μ) :
    { w with cache := w.cache.put (fuseKey symbol) s (some (w.clock + fuseTtl)) }.cached symbol =
      some s := by
  unfold cached
  simp only
  rw [Keyspace.fetch_put, if_pos rfl, if_pos (by simp [Expiring.live, fuseTtl])]

theorem Inv.command (h : Inv floats symbol w) {i : ℕ} {nowMs : ℤ}
    (hok : ∀ phase ∈ w.calls[i]?, w.Orderly symbol i phase) :
    Inv floats symbol (w.command floats symbol i nowMs) := by
  unfold World.command
  cases hi : w.calls[i]? with
  | none => exact h
  | some phase =>
    have hok := hok phase hi
    cases phase with
    | arrived alert =>
      obtain heq | ⟨hstored, hsynced, hnewer⟩ := h.synced.storeAlert w.clock alert
      · simp only [heq]
        exact ⟨h.synced, h.covers.set hi nofun rfl rfl⟩
      · simp only [hstored]
        refine ⟨hsynced, h.covers.keep ?_ ?_ ?_⟩
        · exact fun tf _ => hnewer symbol tf
        · intro j windows todo hj
          exact (reads_of_set hi rfl hj).2
        · exact covered_iff.2 (.inl ⟨i, (getElem?_set_iff hi).2 (.inl ⟨rfl, rfl⟩)⟩)
    | stored =>
      unfold Orderly at hok
      cases hlock : w.locks.fetch w.clock (lockKey symbol) with
      | none =>
        rw [if_pos hlock] at hok
        simp only [Keyspace.setNx_of_none hlock]
        exact ⟨h.synced, h.covers.acquire hi hok⟩
      | some token =>
        rw [if_neg (by rw [hlock]; nofun)] at hok
        simp only [Keyspace.setNx_of_some hlock]
        refine ⟨h.synced, h.covers.keep (fun _ _ => .refl _) ?_ hok⟩
        intro j windows todo hj
        exact (reads_of_set hi rfl hj).2
    | reading windows todo =>
      cases todo with
      | cons tf todo => exact ⟨h.synced, h.covers.read hi⟩
      | nil =>
        simp only
        cases hs : snapshot? floats nowMs windows with
        | none => exact ⟨h.synced, h.covers.finish hi hs⟩
        | some s =>
          refine ⟨h.synced, ?_⟩
          have hwrite := h.covers.write hi hok hs
          rw [← cached_write s] at hwrite
          exact hwrite
    | releasing s => exact ⟨h.synced, h.covers.set hi nofun rfl rfl⟩
    | refused => exact ⟨h.synced, h.covers.set hi nofun rfl rfl⟩
    | returned s => exact h

theorem Inv.step (h : Inv floats symbol w) (hok : Undisturbed symbol w event) :
    Inv floats symbol (w.step floats symbol event) := by
  cases event with
  | call tf ts body => exact ⟨h.synced, h.covers.call _⟩
  | tick ms =>
    obtain ⟨hwindows, hcached⟩ := hok
    refine ⟨h.synced, ?_⟩
    have hcovers := h.covers.congr hwindows
    rw [← hcached] at hcovers
    exact hcovers
  | command i nowMs => exact h.command hok

theorem NoOlder.of_eq {w' : World γ ω μ} (h : w'.cached symbol = w.cached symbol) :
    NoOlder symbol w w' := by
  intro s hs
  exact ⟨s, h.trans hs, le_rfl⟩

theorem NoOlder.trans {w' w'' : World γ ω μ} (h : NoOlder symbol w w') (h' : NoOlder symbol w' w'') :
    NoOlder symbol w w'' := by
  intro s hs
  obtain ⟨s', hs', hle⟩ := h s hs
  obtain ⟨s'', hs'', hle'⟩ := h' s' hs'
  exact ⟨s'', hs'', hle.trans hle'⟩

/-- Only a write changes the cached snapshot, and not to an older one. -/
theorem Inv.command_noOlder (h : Inv floats symbol w) {i : ℕ} {nowMs : ℤ}
    (hok : ∀ phase ∈ w.calls[i]?, w.Orderly symbol i phase) :
    NoOlder symbol w (w.command floats symbol i nowMs) := by
  unfold World.command
  cases hi : w.calls[i]? with
  | none => exact .of_eq rfl
  | some phase =>
    have hok := hok phase hi
    cases phase with
    | reading windows todo =>
      cases todo with
      | cons tf todo => exact .of_eq rfl
      | nil =>
        simp only
        cases hs : snapshot? floats nowMs windows with
        | none => exact .of_eq rfl
        | some s =>
          intro old hold
          exact ⟨s, cached_write s, h.covers.le_write hi hok hs hold⟩
    | _ => exact .of_eq rfl

theorem Inv.noOlder (h : Inv floats symbol w) (hok : Undisturbed symbol w event) :
    NoOlder symbol w (w.step floats symbol event) := by
  cases event with
  | call tf ts body => exact .of_eq rfl
  | tick ms => exact .of_eq hok.2
  | command i nowMs => exact h.command_noOlder hok

/-- When all calls have returned, nothing is on its way. -/
theorem Inv.reflected (h : Inv floats symbol w) : Reflected floats symbol w := by
  intro hall
  obtain ⟨i, hi⟩ | ⟨i, windows, todo, hi, -⟩ | ⟨-, hcached⟩ :=
    covered_iff.1 h.covers.covered
  · cases hall _ (List.mem_of_getElem? hi)
  · cases hall _ (List.mem_of_getElem? hi)
  · exact h.covers.upToDate hcached

/-- **No alert is lost** while no call disturbs another. -/
theorem nothingLost_of_undisturbed (floats : Floats γ ω μ) (symbol : String)
    (events : List (Event γ))
    (h : Within (World.step floats symbol) (Undisturbed symbol) {} events) :
    NothingLost floats symbol events := by
  refine ⟨?_, ?_⟩
  · exact h.always (I := Inv floats symbol) inv_new (fun _ _ => Inv.step) fun _ => Inv.reflected
  · refine (related_iff_within (fun _ => NoOlder.of_eq rfl) fun _ _ _ => NoOlder.trans).2 ?_
    exact h.imp (I := Inv floats symbol) inv_new (fun _ _ => Inv.step) fun _ _ => Inv.noOlder

/-- Prices as integers, and the floats left out. -/
def noFloats : Floats ℤ Unit Unit := ⟨fun _ _ => (), fun _ _ => ()⟩

/-- An alert of the timeframe, in the order of its timestamp. -/
def barCall (tf : String) (ts : ℤ) : Event ℤ := .call tf ts { close := ts }

/-- The next commands of a call. -/
def commands (i n : ℕ) : List (Event ℤ) := List.replicate n (.command i 9)

/-- The second call is refused while the first one has not read a window yet. -/
theorem nothingLost_two : NothingLost noFloats "BTCUSD"
    ([barCall "H1" 5, barCall "D" 6] ++ commands 0 1 ++ commands 1 1 ++ [.tick 3] ++ commands 0 1 ++
      commands 1 1 ++ commands 0 8 ++ commands 1 1) :=
  nothingLost_of_undisturbed noFloats "BTCUSD" _ (by decide +kernel)

/-- The second call stores an alert whose window the first one has already read, and is refused: both
return, and the cached snapshot is without the alert. -/
theorem alert_lost : ¬ NothingLost noFloats "BTCUSD"
    ([barCall "H1" 5] ++ commands 0 3 ++ [barCall "D" 6] ++ commands 1 2 ++ commands 0 7 ++
      commands 1 1) := by
  intro h
  have hcached := h.reflected.last (by decide +kernel) 9
  revert hcached
  decide +kernel

end World

end Memory.Fusion
