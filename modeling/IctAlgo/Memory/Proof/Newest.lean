import IctAlgo.Memory.Proof.RingBuffer
import Mathlib.Data.Int.ConditionallyCompleteOrder
import Mathlib.Order.ConditionallyCompleteLattice.Basic

/-!
# The newest alert of a window

A buffer is only written when the alert is newer than its head, whatever the size of the timestamps:
the comparison in floats keeps their order (`Binary64.ofInt_mono`). So as long as nothing expires,
the newest alert of a window only gets newer.

* `Synced`: the head of a buffer is the timestamp of its first alert, with the same deadline.
* `Newer`: a window is the same or has a newer alert. `Synced.storeAlert`: what a store makes of each
  of them.
-/

set_option autoImplicit false

namespace Memory

open Lib

variable {β : Type}

/-- The timestamp of the newest alert, if there is one. -/
def newest : List (Alert β) → WithBot ℤ
  | [] => ⊥
  | alert :: _ => alert.ts

/-- The window has not changed, or has a newer alert. -/
def Newer (old new : List (Alert β)) : Prop := new = old ∨ newest old < newest new

theorem Newer.refl (alerts : List (Alert β)) : Newer alerts alerts := .inl rfl

theorem Newer.le {old new : List (Alert β)} (h : Newer old new) : newest old ≤ newest new := by
  obtain rfl | hlt := h
  · exact le_rfl
  · exact hlt.le

theorem Newer.trans {old new new' : List (Alert β)} (h : Newer old new) (h' : Newer new new') :
    Newer old new' := by
  obtain rfl | hlt := h
  · exact h'
  · exact .inr (hlt.trans_le h'.le)

/-- The newest alert tells two windows apart. -/
theorem Newer.eq {old new : List (Alert β)} (h : Newer old new) (heq : newest old = newest new) :
    new = old :=
  h.resolve_right heq.not_lt

theorem newest_dedupBy (alerts : List (Alert β)) :
    newest (dedupBy (·.ts) alerts) = newest alerts := by
  cases alerts with
  | nil => rfl
  | cons alert alerts =>
    unfold dedupBy dedupFrom
    rw [if_neg List.not_mem_nil]
    rfl

theorem newest_upTo {n : ℕ} (hn : 0 < n) (alerts : List (Alert β)) :
    newest (upTo alerts (n - 1)) = newest alerts := by
  rw [upTo_pred hn]
  cases alerts with
  | nil => rw [List.take_nil]
  | cons alert alerts =>
    obtain ⟨n, rfl⟩ := Nat.exists_eq_succ_of_ne_zero hn.ne'
    rfl

theorem windowCap_pos (tf : String) : 0 < windowCap tf :=
  Nat.pos_of_ne_zero (Int.natCast_ne_zero.1 (Server.capOr_ne_zero none tf))

namespace Server

variable {s : Server β} {now : ℤ} {buffer : String} {alert : Alert β}

theorem newest_fetchWindow (s : Server β) (now : ℤ) (symbol tf : String) :
    newest (s.fetchWindow now symbol tf none) = newest (s.entries now (bufferName symbol tf)) := by
  unfold fetchWindow
  rw [newest_dedupBy]
  exact newest_upTo (windowCap_pos tf) _

/-- What is in a buffer has its timestamp as the head. -/
def Synced (s : Server β) : Prop :=
  ∀ buffer e, s.buffers.get? (rbKey buffer) = some e → ∃ latest older,
    e.value = latest :: older ∧ s.heads.get? (headKey buffer) = some ⟨latest.ts, e.deadline⟩

theorem synced_new : Synced ({} : Server β) := by
  intro buffer e he
  cases he

theorem Synced.head (h : Synced s) {latest : Alert β} {older : List (Alert β)}
    (hentries : s.entries now buffer = latest :: older) : s.head now buffer = some latest.ts := by
  unfold entries at hentries
  cases hfetch : s.buffers.fetch now (rbKey buffer) with
  | none =>
    rw [hfetch] at hentries
    cases hentries
  | some alerts =>
    rw [hfetch] at hentries
    obtain rfl : alerts = latest :: older := hentries
    obtain ⟨deadline, hget, hlive⟩ := Keyspace.fetch_eq_some_iff.1 hfetch
    obtain ⟨latest', older', heq, hhead⟩ := h buffer _ hget
    obtain ⟨rfl, rfl⟩ := List.cons.inj heq
    exact Keyspace.fetch_eq_some_iff.2 ⟨deadline, hhead, hlive⟩

/-- The script stores nothing, or an alert newer than those of its buffer. -/
theorem Synced.storeAlertLua_cases (h : Synced s) (now : ℤ) (alert : Alert β) (cap : ℤ) :
    s.storeAlertLua now alert cap = (false, s) ∨
    (newest (s.entries now alert.buffer) < alert.ts ∧
      s.storeAlertLua now alert cap = (true, {
        heads := s.heads.put (headKey alert.buffer) alert.ts (some (now + rbTtl))
        buffers := s.buffers.put (rbKey alert.buffer)
          (upTo (alert :: s.entries now alert.buffer) (cap - 1)) (some (now + rbTtl)) })) := by
  unfold storeAlertLua
  cases hentries : s.entries now alert.buffer with
  | nil =>
    cases s.head now alert.buffer with
    | none => exact .inr ⟨WithBot.bot_lt_coe _, rfl⟩
    | some head =>
      simp only
      split
      · exact .inl rfl
      · exact .inr ⟨WithBot.bot_lt_coe _, rfl⟩
  | cons latest older =>
    rw [h.head hentries]
    simp only
    split
    · exact .inl rfl
    · rename_i hnew
      have hlt : latest.ts < alert.ts := by
        apply not_le.1
        intro hle
        exact hnew (Binary64.ofInt_mono hle)
      exact .inr ⟨WithBot.coe_lt_coe.2 hlt, rfl⟩

/-- **A store** leaves the server as it is or makes the window of its buffer newer. -/
theorem Synced.storeAlert (h : Synced s) (now : ℤ) (alert : Alert β) :
    s.storeAlert now alert none = (false, s) ∨
    ((s.storeAlert now alert none).1 = true ∧ Synced (s.storeAlert now alert none).2 ∧
      ∀ symbol tf, Newer (s.fetchWindow now symbol tf none)
        ((s.storeAlert now alert none).2.fetchWindow now symbol tf none)) := by
  unfold Server.storeAlert
  by_cases hempty : alert.symbol = "" ∨ alert.tf = ""
  · rw [if_pos hempty]
    exact .inl rfl
  rw [if_neg hempty]
  obtain heq | ⟨hnew, heq⟩ := h.storeAlertLua_cases now alert (capOr none alert.tf)
  · exact .inl heq
  rw [heq]
  have hcap := windowCap_pos alert.tf
  refine .inr ⟨rfl, fun buffer e he => ?_, fun symbol tf => ?_⟩
  · simp only [Keyspace.put] at he ⊢
    by_cases hb : buffer = alert.buffer
    · subst hb
      rw [Dict.get?_set_self] at he ⊢
      obtain rfl := Option.some.inj he
      refine ⟨alert, (s.entries now alert.buffer).take (windowCap alert.tf - 1), ?_, rfl⟩
      show upTo _ ((windowCap alert.tf : ℤ) - 1) = _
      rw [upTo_pred hcap]
      obtain ⟨n, hn⟩ := Nat.exists_eq_succ_of_ne_zero hcap.ne'
      rw [hn]
      rfl
    · rw [Dict.get?_set_ne _ _ (mt rbKey_inj.1 hb)] at he
      rw [Dict.get?_set_ne _ _ (mt headKey_inj.1 hb)]
      exact h buffer e he
  · by_cases hb : bufferName symbol tf = alert.buffer
    · refine .inr ?_
      rw [newest_fetchWindow, newest_fetchWindow, hb]
      refine hnew.trans_eq ?_
      unfold entries
      rw [Keyspace.fetch_put, if_pos rfl, if_pos (by simp [Expiring.live, rbTtl])]
      exact (newest_upTo hcap (alert :: s.entries now alert.buffer)).symm
    · left
      unfold fetchWindow entries
      rw [Keyspace.fetch_put_ne (mt rbKey_inj.1 hb)]

end Server

end Memory
