import Mathlib.Algebra.Order.BigOperators.Group.List
import Mathlib.Algebra.Order.Ring.Nat
import Mathlib.Data.List.Induction
import IctAlgo.Alerts.Notifiers
import IctAlgo.Lib.Retry

/-!
# What the Telegram notifier reports

* `send_ok_iff`: a chat is reported as reached exactly when the first answer it got within four POSTs
  says so.
* `notify_reports`: every chat has one entry, that of its last turn, and costs four POSTs at most.
-/

set_option autoImplicit false

namespace Alerts

open Lib Lib.Retry

variable {reply : ℕ → Reply} {left attempt : ℕ}

/-- After such a reply there is no other POST, unless there are no more attempts anyway. -/
def Reply.final : Reply → Bool
  | .answered _ _ | .unexpected _ => true
  | .failed _ | .rateLimited _ => false

/-- What the reply a chat ends with makes of its entry. -/
def Reply.verdict : Reply → ChatResult
  | .answered true _ => .ok
  | .answered false description => .error (description.getD "Unknown error")
  | .failed error | .unexpected error => .error error
  | .rateLimited _ => .skipped

/-- The reply a chat ends with: the first final one, or the last of all. -/
def lastReply (reply : ℕ → Reply) : Option ℕ → Reply
  | some i => reply i
  | none => reply maxRetries

section

theorem sendLoop_final (h : (reply attempt).final = true) :
    (sendLoop reply (left + 1) attempt).result = (reply attempt).verdict ∧
      (sendLoop reply (left + 1) attempt).posts = 1 := by
  rw [sendLoop]
  cases hr : reply attempt with
  | failed error | rateLimited after =>
    rw [hr] at h
    cases h
  | unexpected error => exact ⟨rfl, rfl⟩
  | answered ok description =>
    cases ok with
    | true => exact ⟨rfl, rfl⟩
    | false => exact ⟨rfl, rfl⟩

theorem sendLoop_again (h : (reply attempt).final = false) (hlt : attempt < maxRetries) :
    (sendLoop reply (left + 1) attempt).result = (sendLoop reply left (attempt + 1)).result ∧
      (sendLoop reply (left + 1) attempt).posts =
        (sendLoop reply left (attempt + 1)).posts + 1 := by
  rw [sendLoop]
  cases hr : reply attempt with
  | failed error => simp only [if_pos hlt, and_self]
  | rateLimited after => exact ⟨rfl, rfl⟩
  | unexpected error | answered ok description =>
    rw [hr] at h
    cases h

theorem sendLoop_last (h : (reply maxRetries).final = false) :
    (sendLoop reply 1 maxRetries).result = (reply maxRetries).verdict ∧
      (sendLoop reply 1 maxRetries).posts = 1 := by
  rw [sendLoop]
  cases hr : reply maxRetries with
  | failed error => simp only [if_neg (lt_irrefl maxRetries), Reply.verdict, and_self]
  | rateLimited after => exact ⟨rfl, rfl⟩
  | unexpected error | answered ok description =>
    rw [hr] at h
    cases h

end

/-- The loop ends with that reply, if there is an attempt left. -/
theorem sendLoop_eq (h : left + 1 + attempt = maxRetries + 1) :
    (sendLoop reply (left + 1) attempt).result =
        (lastReply reply (firstFinal Reply.final reply attempt (left + 1))).verdict ∧
      (sendLoop reply (left + 1) attempt).posts =
        count attempt (left + 1) (firstFinal Reply.final reply attempt (left + 1)) := by
  induction left generalizing attempt with
  | zero =>
    obtain rfl : attempt = maxRetries := by omega
    rw [firstFinal]
    cases hfinal : (reply maxRetries).final with
    | true =>
      rw [if_pos rfl, lastReply, count, Nat.add_sub_cancel_left]
      exact sendLoop_final hfinal
    | false =>
      rw [if_neg Bool.false_ne_true]
      exact sendLoop_last hfinal
  | succ left ih =>
    rw [firstFinal]
    cases hfinal : (reply attempt).final with
    | true =>
      rw [if_pos rfl, lastReply, count, Nat.add_sub_cancel_left]
      exact sendLoop_final hfinal
    | false =>
      have hlt : attempt < maxRetries := by omega
      have hrest : left + 1 + (attempt + 1) = maxRetries + 1 := by omega
      obtain ⟨hres, hposts⟩ := sendLoop_again hfinal hlt
      obtain ⟨hres', hposts'⟩ := ih hrest
      rw [if_neg Bool.false_ne_true, hres, hposts, hres', hposts']
      refine ⟨rfl, ?_⟩
      cases hf : firstFinal Reply.final reply (attempt + 1) (left + 1) with
      | none => rfl
      | some i =>
        have hi := (firstFinal_eq_some_iff.1 hf).1
        simp only [count]
        omega

/-- The reply with which the chat ends, and how many POSTs there were. -/
theorem send_eq (reply : ℕ → Reply) :
    (send reply).result = (lastReply reply (firstFinal Reply.final reply 0 4)).verdict ∧
      (send reply).posts = count 0 4 (firstFinal Reply.final reply 0 4) :=
  sendLoop_eq rfl

/-- The chat is reported as reached when an answer says so, after nothing but errors of the transport
or the status, and limits of the rate. -/
theorem send_ok_iff (reply : ℕ → Reply) :
    (send reply).result = .ok ↔
      ∃ k ≤ maxRetries, (∃ description, reply k = .answered true description) ∧
        ∀ j < k, (reply j).final = false := by
  rw [(send_eq reply).1]
  have hok : ∀ r : Reply, r.verdict = .ok ↔ ∃ description, r = .answered true description := by
    intro r
    cases r with
    | answered ok description =>
      cases ok with
      | true => exact iff_of_true rfl ⟨description, rfl⟩
      | false => exact iff_of_false (fun h => by cases h) fun ⟨_, h⟩ => by cases h
    | failed error | unexpected error | rateLimited after =>
      exact iff_of_false (fun h => by cases h) fun ⟨_, h⟩ => by cases h
  rw [hok]
  cases hf : firstFinal Reply.final reply 0 4 with
  | none =>
    have hall := firstFinal_eq_none_iff.1 hf
    have hnot : ∀ k ≤ maxRetries, ¬ ∃ description, reply k = .answered true description := by
      rintro k hk ⟨description, hd⟩
      have hfinal := hall k (Nat.zero_le k) (by unfold maxRetries at hk; omega)
      rw [hd] at hfinal
      cases hfinal
    exact iff_of_false (hnot maxRetries (le_refl _)) fun ⟨k, hk, hd, _⟩ => hnot k hk hd
  | some i =>
    obtain ⟨-, hi, hfinal, hbefore⟩ := firstFinal_eq_some_iff.1 hf
    have hle : i ≤ maxRetries := by unfold maxRetries; omega
    refine ⟨fun hd => ⟨i, hle, hd, fun j hj => hbefore j (Nat.zero_le j) hj⟩, ?_⟩
    rintro ⟨k, hk, ⟨description, hd⟩, hearlier⟩
    have hkfinal : (reply k).final = true := by rw [hd]; rfl
    rcases lt_trichotomy k i with hlt | rfl | hlt
    · rw [hbefore k (Nat.zero_le k) hlt] at hkfinal
      cases hkfinal
    · exact ⟨description, hd⟩
    · rw [hearlier i hlt] at hfinal
      cases hfinal

theorem posts_pos_le (reply : ℕ → Reply) : 1 ≤ (send reply).posts ∧ (send reply).posts ≤ 4 := by
  rw [(send_eq reply).2]
  cases hf : firstFinal Reply.final reply 0 4 with
  | none => exact ⟨by decide, by decide⟩
  | some i => exact ⟨by simp [count], count_le hf⟩

/-! ## All chats -/

/-- The entry of a chat is that of its last turn. -/
theorem notify_get? (chats : List (String × (ℕ → Reply))) (chat : String) :
    (notify chats).results.get? chat =
      ((chats.reverse.find? fun c => c.1 = chat).map fun c => (send c.2).result) := by
  induction chats using List.reverseRecOn with
  | nil => rfl
  | append_singleton chats c ih =>
    have hadd : notify (chats ++ [c]) = (notify chats).add c := by
      rw [notify, List.foldl_append]
      rfl
    rw [hadd, Notified.add, Dict.get?_set, ih, List.reverse_append, List.reverse_singleton,
      List.singleton_append, List.find?_cons]
    by_cases h : chat = c.1
    · rw [if_pos h]
      simp [h]
    · rw [if_neg h]
      simp [Ne.symm h]

theorem notify_posts (chats : List (String × (ℕ → Reply))) :
    (notify chats).posts = (chats.map fun c => (send c.2).posts).sum := by
  induction chats using List.reverseRecOn with
  | nil => rfl
  | append_singleton chats c ih =>
    rw [List.map_append, List.sum_append, ← ih, notify, List.foldl_append]
    rfl

/-- **What is reported.** Every chat of the list has an entry, and no other has one. It says that the
chat was reached exactly when in its last turn one of the first four replies was an answer that says
so, and the ones before it were errors of the transport or the status, or limits of the rate. A turn
costs one POST at least, and four at most. -/
theorem notify_reports (chats : List (String × (ℕ → Reply))) :
    (∀ chat, ((notify chats).results.get? chat).isSome ↔ ∃ reply, (chat, reply) ∈ chats) ∧
      (∀ before chat reply rest, chats = before ++ (chat, reply) :: rest →
        (∀ c ∈ rest, c.1 ≠ chat) →
          ((notify chats).results.get? chat = some .ok ↔
            ∃ k ≤ maxRetries, (∃ description, reply k = .answered true description) ∧
              ∀ j < k, (reply j).final = false)) ∧
      chats.length ≤ (notify chats).posts ∧
        (notify chats).posts ≤ chats.length * (maxRetries + 1) := by
  refine ⟨fun chat => ?_, ?_, ?_, ?_⟩
  · rw [notify_get?, Option.isSome_map, List.find?_isSome]
    constructor
    · rintro ⟨⟨c, reply⟩, hmem, heq⟩
      obtain rfl : c = chat := of_decide_eq_true heq
      exact ⟨reply, List.mem_reverse.1 hmem⟩
    · rintro ⟨reply, hmem⟩
      exact ⟨(chat, reply), List.mem_reverse.2 hmem, decide_eq_true rfl⟩
  · rintro before chat reply rest rfl hrest
    have hskip : (rest.reverse.find? fun c => c.1 = chat) = none := by
      refine List.find?_eq_none.2 fun c hc => ?_
      simpa using hrest c (List.mem_reverse.1 hc)
    rw [notify_get?, List.reverse_append, List.reverse_cons, List.append_assoc, List.find?_append,
      hskip, Option.none_or, List.singleton_append, List.find?_cons, decide_eq_true rfl,
      Option.map_some, Option.some.injEq, send_ok_iff]
  · rw [notify_posts, ← List.length_map (f := fun c : String × (ℕ → Reply) => (send c.2).posts)]
    refine List.length_le_sum_of_one_le _ fun n hn => ?_
    obtain ⟨c, -, rfl⟩ := List.mem_map.1 hn
    exact (posts_pos_le c.2).1
  · rw [notify_posts, ← List.length_map (f := fun c : String × (ℕ → Reply) => (send c.2).posts)]
    refine List.sum_le_card_nsmul _ _ fun n hn => ?_
    obtain ⟨c, -, rfl⟩ := List.mem_map.1 hn
    exact (posts_pos_le c.2).2

end Alerts
