import IctAlgo.Orchestrator.Proof.Conservation
import IctAlgo.Orchestrator.Proof.Deferral

/-!
# Entries that are retried once

Passes of `_dlq_retry_once` in which every insert succeeds and the Redis client does not come or go
(`Quiet`).

* `Settled`: between two passes, an entry is queued or was inserted, and that once.
* `Passing`: within a pass over the queue in memory. What is left of the pass stands in the queue
  behind entries that are not due only, so that a search for an equal entry finds the one that was
  inserted.
* `Away`: within a pass over Redis, which leaves the queue in memory alone.
* `inserted_retries_iff`: the entry is inserted once if one of the passes takes it up, else never.
-/

set_option autoImplicit false

namespace Orchestrator.Dlq

open Lib Lib.Runs

variable {δ : Type}

/-- Every insert of the pass succeeds, and Redis is in use throughout or not at all. -/
structure Quiet (cfg : DlqSettings) (p : RetryPass δ) : Prop where
  inserts : ∀ n, (p.own n).2.insert = .ok ()
  steady : ∀ n, cfg.redisInUse (p.own n).2.connected = cfg.redisInUse p.connected
  pops : p.pop ≠ .failed

/-- The pass takes up an entry that is due at `due`. -/
def Takes (cfg : DlqSettings) (due : ℚ) (p : RetryPass δ) : Prop :=
  cfg.redisInUse p.connected = false ∧ due ≤ p.now

instance (cfg : DlqSettings) (due : ℚ) (p : RetryPass δ) : Decidable (Takes cfg due p) :=
  inferInstanceAs (Decidable (_ ∧ _))

/-- The entry `r` is due at `due`; it is queued or was inserted, once. -/
structure Once (due : ℚ) (s : Dlq δ) (r : ℕ) : Prop where
  bounded : Bounded s
  cell : ∃ c, s.heap[r]? = some c ∧ c.entry.nextAttemptTs = due
  once : s.persistDlq.count r + s.outcomes r .inserted = 1

structure Settled (due : ℚ) (s : Dlq δ) (r : ℕ) : Prop extends Once due s r where
  idle : s.pass.pending = []

/-- An entry of the heap that is not due at `now`. -/
def Early (now : ℚ) (s : Dlq δ) (z : ℕ) : Prop :=
  ∀ c, s.heap[z]? = some c → now < c.entry.nextAttemptTs

/-- Within a pass over the queue in memory that began with `k` copies of `r` in it. -/
structure Passing (due : ℚ) (k : ℕ) (s : Dlq δ) (r : ℕ) : Prop extends Once due s r where
  split : ∃ before after, s.persistDlq = before ++ s.pass.pending ++ after ∧ r ∉ after ∧
    ∀ z ∈ before, Early s.pass.now s z
  early : s.pass.now < due → s.persistDlq.count r = k

/-- Within a pass over Redis. -/
structure Away (due : ℚ) (k : ℕ) (s : Dlq δ) (r : ℕ) : Prop extends Once due s r where
  elsewhere : r ∉ s.pass.pending
  kept : s.persistDlq.count r = k

section
variable {due : ℚ} {k : ℕ} {s : Dlq δ} {r z : ℕ} {cfg : DlqSettings} {a : Attempt} {rest : List ℕ}

theorem Once.lt (h : Once due s r) : r < s.heap.length := by
  obtain ⟨c, hc, -⟩ := h.cell
  exact (List.getElem?_eq_some_iff.1 hc).1

/-! ## Enqueues -/

theorem alloc_getElem? (hz : z < s.heap.length) (entry : DlqEntry δ) (origin : ℕ) :
    (s.alloc entry origin).heap[z]? = s.heap[z]? :=
  List.getElem?_append_left hz

theorem append_count (hr : r < s.heap.length) (entry : DlqEntry δ) :
    (s.append entry).persistDlq.count r = s.persistDlq.count r := by
  have hne : s.heap.length ≠ r := by omega
  simp [Dlq.append, List.count_append, hne]

theorem Once.alloc (h : Once due s r) (entry : DlqEntry δ) (origin : ℕ) :
    Once due (s.alloc entry origin) r := by
  obtain ⟨c, hc, hdue⟩ := h.cell
  exact ⟨h.bounded.alloc entry origin, ⟨c, (alloc_getElem? h.lt entry origin).trans hc, hdue⟩, h.once⟩

theorem Once.append (h : Once due s r) (entry : DlqEntry δ) : Once due (s.append entry) r := by
  have hcount := append_count h.lt entry
  obtain ⟨c, hc, hdue⟩ := h.cell
  refine ⟨h.bounded.append entry, ⟨c, ?_, hdue⟩, ?_⟩
  · exact (alloc_getElem? h.lt entry s.heap.length).trans hc
  · rw [hcount]
    exact h.once

theorem Settled.append (h : Settled due s r) (entry : DlqEntry δ) : Settled due (s.append entry) r :=
  ⟨h.toOnce.append entry, h.idle⟩

theorem Settled.enqueue (h : Settled due s r) (connected : Bool) (reply : RedisReply)
    (entry : DlqEntry δ) : Settled due (s.enqueue cfg connected reply entry) r := by
  unfold Dlq.enqueue
  split
  · have ha := h.toOnce.alloc entry s.heap.length
    split
    · exact ⟨⟨⟨ha.bounded.queue, ha.bounded.pending, ha.bounded.events⟩, ha.cell, ha.once⟩, h.idle⟩
    · exact h.append entry
    · exact ⟨ha, h.idle⟩
  · exact h.append entry

theorem Passing.append (h : Passing due k s r) (entry : DlqEntry δ) :
    Passing due k (s.append entry) r := by
  obtain ⟨before, after, hsplit, hafter, hearly⟩ := h.split
  refine ⟨h.toOnce.append entry, ⟨before, after ++ [s.heap.length], ?_, ?_, ?_⟩, ?_⟩
  · show s.persistDlq ++ [s.heap.length] = before ++ s.pass.pending ++ (after ++ [s.heap.length])
    rw [hsplit, List.append_assoc _ after]
  · intro hmem
    obtain hmem | hmem := List.mem_append.1 hmem
    · exact hafter hmem
    · exact Nat.lt_irrefl _ (List.mem_singleton.1 hmem ▸ h.lt)
  · intro z hz c hc
    have hlt : z < s.heap.length := h.bounded.queue z (by rw [hsplit]; simp [hz])
    exact hearly z hz c ((alloc_getElem? hlt entry s.heap.length).symm.trans hc)
  · intro hnow
    rw [append_count h.lt]
    exact h.early hnow

theorem Away.append (h : Away due k s r) (entry : DlqEntry δ) : Away due k (s.append entry) r :=
  ⟨h.toOnce.append entry, h.elsewhere, (append_count h.lt entry).trans h.kept⟩

/-! ## Attempts -/

theorem Once.of_eq {s' : Dlq δ} (h : Once due s r) (hbounded : Bounded s') (hheap : s'.heap = s.heap)
    (honce : s'.persistDlq.count r + s'.outcomes r .inserted =
      s.persistDlq.count r + s.outcomes r .inserted) : Once due s' r := by
  refine ⟨hbounded, ?_, honce.trans h.once⟩
  rw [hheap]
  exact h.cell

theorem Once.popped (h : Once due s r) (hp : s.pass.pending = z :: rest) :
    Once due (s.popped rest) r := h.of_eq (h.bounded.popped hp) rfl rfl

/-- The head of the pass is not due, or there is no such entry. -/
theorem Passing.popped (h : Passing due k s r) (hp : s.pass.pending = z :: rest)
    (hz : Early s.pass.now s z) : Passing due k (s.popped rest) r := by
  obtain ⟨before, after, hsplit, hafter, hearly⟩ := h.split
  refine ⟨h.toOnce.popped hp, ⟨before ++ [z], after, ?_, hafter, ?_⟩, h.early⟩
  · show s.persistDlq = before ++ [z] ++ rest ++ after
    rw [hsplit, hp]
    simp
  · intro y hy
    obtain hy | hy := List.mem_append.1 hy
    · exact hearly y hy
    · rw [List.mem_singleton.1 hy]
      exact hz

variable [DecidableEq δ]

/-- The search after an insert finds the head of the pass. -/
theorem Passing.remove_head {before after : List ℕ} {c : Cell δ} (hc : s.heap[z]? = some c)
    (hdue : c.entry.nextAttemptTs ≤ s.pass.now) (hearly : ∀ y ∈ before, Early s.pass.now s y) :
    (before ++ z :: rest ++ after).eraseP (sameEntry s.heap z) = before ++ rest ++ after := by
  have hmiss : ∀ y ∈ before, ¬ sameEntry s.heap z y = true := by
    intro y hy hsame
    simp only [sameEntry, decide_eq_true_eq] at hsame
    obtain rfl | hsame := hsame
    · exact absurd (hearly y hy c hc) (not_lt.2 hdue)
    · rw [hc] at hsame
      obtain ⟨c', hc', heq⟩ := Option.map_eq_some_iff.1 hsame
      have hlate := hearly y hy c' hc'
      rw [heq] at hlate
      exact absurd hlate (not_lt.2 hdue)
  rw [List.append_assoc, List.eraseP_append_right _ hmiss, List.cons_append, List.eraseP_cons_of_pos,
    List.append_assoc]
  simp [sameEntry]

/-- The head of the pass is due. -/
theorem Passing.succeed (h : Passing due k s r) (hp : s.pass.pending = z :: rest) {c : Cell δ}
    (hc : s.heap[z]? = some c) (hdue : c.entry.nextAttemptTs ≤ s.pass.now) :
    Passing due k (((s.popped rest).record z .inserted).remove z) r := by
  obtain ⟨before, after, hsplit, hafter, hearly⟩ := h.split
  have hlt : z < s.heap.length := (List.getElem?_eq_some_iff.1 hc).1
  rw [hp] at hsplit
  have hqueue : (((s.popped rest).record z .inserted).remove z).persistDlq =
      before ++ rest ++ after := by
    show s.persistDlq.eraseP (sameEntry s.heap z) = _
    rw [hsplit]
    exact remove_head hc hdue hearly
  have hcount : s.persistDlq.count r =
      (before ++ rest ++ after).count r + if z = r then 1 else 0 := by
    rw [hsplit]
    by_cases hz : z = r
    · subst hz
      simp only [List.count_append, List.count_cons_self, ↓reduceIte]
      omega
    · simp [List.count_append, hz]
  have hout : (((s.popped rest).record z .inserted).remove z).outcomes r .inserted =
      s.outcomes r .inserted + if z = r then 1 else 0 := by
    rw [outcomes_remove, outcomes_record, popped_outcomes]
    simp
  refine ⟨h.toOnce.of_eq ?_ rfl ?_, ⟨before, after, hqueue, hafter, hearly⟩, ?_⟩
  · exact ((h.bounded.popped hp).record hlt).remove
  · rw [hqueue, hout, hcount]
    omega
  · intro hnow
    have hz : z ≠ r := by
      rintro rfl
      obtain ⟨c', hc', heq⟩ := h.cell
      obtain rfl := Option.some.inj (hc.symm.trans hc')
      rw [heq] at hdue
      exact absurd hnow (not_lt.2 hdue)
    rw [hqueue, ← h.early hnow, hcount, if_neg hz, Nat.add_zero]

theorem Passing.attempt (h : Passing due k s r) (hinsert : a.insert = .ok ())
    (hmemory : cfg.redisInUse a.connected = false) : Passing due k (s.attempt cfg a) r := by
  rcases hp : s.pass.pending with _ | ⟨z, rest⟩
  · simpa only [Dlq.attempt, hp] using h
  rw [attempt_cons hp]
  cases hc : s.heap[z]? with
  | none => exact h.popped hp fun c hc' => by rw [hc] at hc'; cases hc'
  | some c =>
    dsimp only
    split
    · rename_i hlate
      refine h.popped hp fun c' hc' => ?_
      obtain rfl := Option.some.inj (hc.symm.trans hc')
      exact hlate
    · rename_i hdue
      rw [hinsert]
      dsimp only
      unfold Dlq.succeed
      rw [hmemory]
      exact h.succeed hp hc (not_lt.1 hdue)

theorem Away.attempt (h : Away due k s r) (hinsert : a.insert = .ok ())
    (hredis : cfg.redisInUse a.connected = true) : Away due k (s.attempt cfg a) r := by
  rcases hp : s.pass.pending with _ | ⟨z, rest⟩
  · simpa only [Dlq.attempt, hp] using h
  have hz : z ≠ r := by
    rintro rfl
    exact h.elsewhere (by rw [hp]; exact List.mem_cons_self)
  have hrest : r ∉ rest := fun hmem => h.elsewhere (by rw [hp]; exact List.mem_cons_of_mem z hmem)
  have hpopped : Away due k (s.popped rest) r := ⟨h.toOnce.popped hp, hrest, h.kept⟩
  rw [attempt_cons hp]
  cases hc : s.heap[z]? with
  | none => exact hpopped
  | some c =>
    dsimp only
    split
    · exact hpopped
    · rw [hinsert]
      dsimp only
      unfold Dlq.succeed
      rw [hredis]
      refine ⟨hpopped.toOnce.of_eq ?_ rfl ?_, hrest, h.kept⟩
      · exact (h.bounded.popped hp).record (List.getElem?_eq_some_iff.1 hc).1
      · show (s.popped rest).persistDlq.count r + _ = _
        rw [if_pos rfl, outcomes_record]
        simp [hz]

/-! ## Passes -/

variable {p : RetryPass δ} {ps : List (RetryPass δ)}

theorem retry_eq (hidle : s.pass.pending = []) : s.retry cfg p =
    run (step cfg) (s.startPass cfg p.now p.connected p.pop)
      (turns p.own (s.startPass cfg p.now p.connected p.pop).pass.pending.length) := by
  simp only [Dlq.retry, RetryPass.inputs, RetryPass.start, hidle, List.length_nil, Dlq.turns,
    List.nil_append, run_append, run_cons, run_nil]
  rfl

omit [DecidableEq δ] in
theorem Settled.startPass_memory (h : Settled due s r) (hmemory : cfg.redisInUse p.connected = false) :
    Passing due (s.persistDlq.count r) (s.startPass cfg p.now p.connected p.pop) r ∧
      (s.startPass cfg p.now p.connected p.pop).pass.now = p.now := by
  unfold Dlq.startPass
  rw [if_neg (by simp [h.idle]), hmemory, if_neg Bool.false_ne_true]
  have hbounded : Bounded { s with pass := ⟨p.now, s.persistDlq⟩ } :=
    ⟨h.bounded.queue, h.bounded.queue, h.bounded.events⟩
  refine ⟨⟨h.toOnce.of_eq hbounded rfl rfl, ⟨[], [], ?_, List.not_mem_nil, ?_⟩, fun _ => rfl⟩, rfl⟩
  · exact (List.append_nil _).symm
  · exact fun z hz => absurd hz List.not_mem_nil

omit [DecidableEq δ] in
theorem Settled.startPass_redis (h : Settled due s r) (hredis : cfg.redisInUse p.connected = true)
    (hpop : p.pop ≠ .failed) :
    Away due (s.persistDlq.count r) (s.startPass cfg p.now p.connected p.pop) r := by
  have hsame : Away due (s.persistDlq.count r) s r :=
    ⟨h.toOnce, by rw [h.idle]; exact List.not_mem_nil, rfl⟩
  have hbounded : Bounded (s.startPass cfg p.now p.connected p.pop) := h.bounded.startPass _ _ _
  unfold Dlq.startPass at hbounded ⊢
  rw [if_neg (by simp [h.idle]), hredis, if_pos rfl] at hbounded ⊢
  split
  · exact hsame
  · rename_i heq
    exact absurd heq hpop
  · exact hsame
  · exact ⟨h.toOnce.of_eq ⟨h.bounded.queue, h.bounded.pending, h.bounded.events⟩ rfl rfl,
      hsame.elsewhere, rfl⟩
  · rename_i origin entry rest hpop' hlist
    rw [hpop', hlist] at hbounded
    obtain ⟨c, hc, hdue⟩ := h.cell
    refine ⟨⟨hbounded, ⟨c, (alloc_getElem? h.lt entry origin).trans hc, hdue⟩, h.once⟩, ?_, rfl⟩
    intro hmem
    exact Nat.lt_irrefl _ (List.mem_singleton.1 hmem ▸ h.lt)

/-- **One pass** takes up the entry, or leaves it queued. -/
theorem Settled.retry (h : Settled due s r) (hp : Quiet cfg p) :
    Settled due (s.retry cfg p) r ∧
      (s.retry cfg p).persistDlq.count r = if Takes cfg due p then 0 else s.persistDlq.count r := by
  rw [retry_eq h.idle]
  have hpass : (run (step cfg) (s.startPass cfg p.now p.connected p.pop)
      (turns p.own (s.startPass cfg p.now p.connected p.pop).pass.pending.length)).pass =
        ⟨(s.startPass cfg p.now p.connected p.pop).pass.now, []⟩ := turns_pending rfl
  cases huse : cfg.redisInUse p.connected with
  | false =>
    obtain ⟨hstart, hnow⟩ := h.startPass_memory (p := p) huse
    rw [hnow] at hpass
    have hturns := turns_inv (I := fun t => Passing due (s.persistDlq.count r) t r)
      (s.startPass cfg p.now p.connected p.pop).pass.pending.length hstart
      (fun _ entry h => h.append entry)
      fun _ n h => h.attempt (hp.inserts n) ((hp.steady n).trans huse)
    generalize run (step cfg) (s.startPass cfg p.now p.connected p.pop) _ = t at hpass hturns ⊢
    refine ⟨⟨hturns.toOnce, by rw [hpass]⟩, ?_⟩
    by_cases hdue : due ≤ p.now
    · rw [if_pos ⟨huse, hdue⟩, List.count_eq_zero]
      intro hmem
      obtain ⟨before, after, hsplit, hafter, hearly⟩ := hturns.split
      rw [hsplit, hpass, List.append_nil] at hmem
      obtain hmem | hmem := List.mem_append.1 hmem
      · obtain ⟨c, hc, heq⟩ := hturns.cell
        have hlate := hearly r hmem c hc
        rw [hpass, heq] at hlate
        exact absurd hdue (not_le.2 hlate)
      · exact hafter hmem
    · rw [if_neg fun htakes => hdue htakes.2]
      refine hturns.early ?_
      rw [hpass]
      exact not_le.1 hdue
  | true =>
    have hstart := h.startPass_redis huse hp.pops
    have hturns := turns_inv (I := fun t => Away due (s.persistDlq.count r) t r)
      (s.startPass cfg p.now p.connected p.pop).pass.pending.length hstart
      (fun _ entry h => h.append entry)
      fun _ n h => h.attempt (hp.inserts n) ((hp.steady n).trans huse)
    rw [if_neg fun htakes => by rw [Takes, huse] at htakes; cases htakes.1]
    exact ⟨⟨hturns.toOnce, by rw [hpass]⟩, hturns.kept⟩

/-- The queue after some passes. -/
def retries (cfg : DlqSettings) (s : Dlq δ) (ps : List (RetryPass δ)) : Dlq δ :=
  ps.foldl (retry cfg) s

theorem Settled.retries (h : Settled due s r) (hps : ∀ p ∈ ps, Quiet cfg p) :
    Settled due (s.retries cfg ps) r ∧ (s.retries cfg ps).persistDlq.count r =
      if ∃ p ∈ ps, Takes cfg due p then 0 else s.persistDlq.count r := by
  induction ps generalizing s with
  | nil => exact ⟨h, by simp [Dlq.retries]⟩
  | cons p ps ih =>
    obtain ⟨hp, hps⟩ := List.forall_mem_cons.1 hps
    obtain ⟨hnext, hcount⟩ := h.retry hp
    obtain ⟨hlast, hrest⟩ := ih hnext hps
    refine ⟨hlast, ?_⟩
    show (Dlq.retries cfg (s.retry cfg p) ps).persistDlq.count r = _
    rw [hrest, hcount]
    by_cases htakes : Takes cfg due p
    · simp [htakes]
    · simp [htakes]

/-- **A queued entry is inserted exactly once if a pass takes it up**, and else never. -/
theorem inserted_retries_iff (h : Settled due s r) (hqueued : s.persistDlq.count r = 1)
    (hps : ∀ p ∈ ps, Quiet cfg p) :
    (s.retries cfg ps).outcomes r .inserted = 1 ↔ ∃ p ∈ ps, Takes cfg due p := by
  obtain ⟨hlast, hcount⟩ := h.retries hps
  have honce := hlast.once
  rw [hcount, hqueued] at honce
  split at honce
  · rename_i htakes
    exact ⟨fun _ => htakes, fun _ => by omega⟩
  · rename_i hnone
    exact ⟨fun hone => by omega, fun htakes => absurd htakes hnone⟩

end

end Orchestrator.Dlq
