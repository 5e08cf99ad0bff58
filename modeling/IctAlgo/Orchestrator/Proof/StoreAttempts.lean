import IctAlgo.Orchestrator.Proof.StoreLedger

/-!
# Attempts on two stores

* `FailureOk.failed`: what a failure within the condition makes of the queue.
* `refines_succeed_memory`, `refines_fail_memory`, `refines_succeed_redis`, `refines_fail_redis`:
  within the condition an attempt is one of custody, of an entry in memory or of one out of Redis.
* `Coherent`: no cell, copy or drop has more attempts than were recorded. Every step keeps it.
-/

set_option autoImplicit false

namespace Orchestrator.Dlq

open Lib

variable {δ : Type}

/-! ## Attempts -/

section
variable {cfg : DlqSettings} {s : Dlq δ} {a : Attempt} {r : ℕ} {rest : List ℕ} {c : Cell δ}
  {err : String}

/-- Where a failed entry is put, within the condition: it stays in memory, or is gone with its last
attempt, or it goes back to Redis. -/
inductive Stored (cfg : DlqSettings) (s : Dlq δ) (r : ℕ) (rest : List ℕ) (c : Cell δ)
    (entry : DlqEntry δ) : Dlq δ → Prop
  | inPlace (mem : r ∈ s.persistDlq ∨ Exceeds cfg c) :
      Stored cfg s r rest c entry ((s.popped rest).changed r c entry)
  | pushed (notMem : r ∉ s.persistDlq) :
      Stored cfg s r rest c entry (((s.popped rest).changed r c entry).push c.origin entry)

theorem Stored.persistDlq {entry : DlqEntry δ} {v : Dlq δ} (h : Stored cfg s r rest c entry v) :
    v.persistDlq = s.persistDlq := by
  cases h with
  | inPlace _ => rfl
  | pushed _ => rfl

theorem Stored.heap {entry : DlqEntry δ} {v : Dlq δ} (h : Stored cfg s r rest c entry v) :
    v.heap = s.heap.set r { c with entry := entry } := by
  cases h with
  | inPlace _ => rfl
  | pushed _ => rfl

theorem StoreOk.stored (hok : StoreOk cfg s a r c) (hc : s.heap[r]? = some c) (next : ℚ) :
    Stored cfg s r rest c (failedEntry c.entry err next)
      (store cfg a r c ((s.popped rest).changed r c (failedEntry c.entry err next))
        (failedEntry c.entry err next)) := by
  unfold StoreOk at hok
  unfold store
  by_cases huse : cfg.redisInUse a.connected = true
  · rw [if_pos huse] at hok ⊢
    by_cases hrpushed : a.rpushed = true
    · rw [if_pos hrpushed] at hok ⊢
      exact .pushed hok
    · rw [if_neg hrpushed] at hok ⊢
      exact .inPlace hok
  · rw [if_neg huse] at hok ⊢
    obtain ⟨hfinds, hmem⟩ := hok
    -- The slot that is written to is the entry's own.
    have hupdate : ((s.popped rest).changed r c (failedEntry c.entry err next)).update r =
        (s.popped rest).changed r c (failedEntry c.entry err next) := by
      refine FindsOwn.update ?_
      show s.FindsOwn (sameSlot (s.heap.set r { c with entry := failedEntry c.entry err next }) r) r
      rwa [sameSlot_set s.heap hc err next]
    rw [hupdate]
    exact .inPlace hmem

section
variable [DecidableEq δ]

/-- The search of a drop finds the entry itself, wherever it was put. -/
theorem Stored.findsOwn {entry : DlqEntry δ} {v : Dlq δ} (h : Stored cfg s r rest c entry v)
    (hdrop : DropOk cfg s a r { c with entry := entry })
    (huse : ¬ cfg.redisInUse a.connectedAtDrop = true) :
    (v.record r .dropped).FindsOwn (sameEntry (v.record r .dropped).heap r) r := by
  have hown := hdrop (by simpa using huse)
  unfold FindsOwn at hown ⊢
  show v.persistDlq.find? (sameEntry v.heap r) = v.persistDlq.find? (· = r)
  rw [h.persistDlq, h.heap]
  exact hown

/-- What a failure within the condition makes of the queue. -/
inductive Failed (cfg : DlqSettings) (s : Dlq δ) (a : Attempt) (r : ℕ) (rest : List ℕ) (c : Cell δ) :
    Dlq δ → Prop
  | unscheduled (mem : r ∈ s.persistDlq) : Failed cfg s a r rest c ((s.popped rest).record r .failed)
  | stays {entry : DlqEntry δ} {v : Dlq δ} (notLast : ¬ Exceeds cfg c)
      (stored : Stored cfg s r rest c entry v) : Failed cfg s a r rest c v
  | goes {entry : DlqEntry δ} {v : Dlq δ} (last : Exceeds cfg c)
      (stored : Stored cfg s r rest c entry v)
      (dropOk : DropOk cfg s a r { c with entry := entry }) :
      Failed cfg s a r rest c (v.drop cfg a r)

theorem FailureOk.failed (hok : FailureOk cfg s a r c err) (hc : s.heap[r]? = some c) :
    Failed cfg s a r rest c ((s.popped rest).fail cfg a r c err) := by
  unfold FailureOk at hok
  cases hd : cfg.retryDelay (c.entry.attempts + 1) with
  | none =>
    rw [hd] at hok
    rw [fail_none a r _ hd]
    exact .unscheduled hok
  | some delay =>
    rw [hd] at hok
    obtain ⟨hstore, hdrop⟩ := hok
    rw [fail_some a r _ hd]
    have hstored : Stored cfg s r rest c (failedEntry c.entry err (s.pass.now + delay)) _ :=
      hstore.stored hc (s.pass.now + delay)
    dsimp only
    split
    · rename_i hlast
      exact .goes hlast hstored (hdrop hlast)
    · rename_i hlast
      exact .stays hlast hstored

end

/-- The record of a failure, after the entry was taken up. -/
theorem ledger_changed_popped (entry : DlqEntry δ) (hc : s.heap[r]? = some c) :
    ((s.popped rest).changed r c entry).ledger = (s.popped rest).ledger.note (s.origin r) .failed :=
  ledger_changed (s := s.popped rest) entry hc

/-- And of a drop after it. -/
theorem ledger_dropped_popped (entry : DlqEntry δ) (hc : s.heap[r]? = some c) :
    (((s.popped rest).changed r c entry).record r .dropped).ledger =
      ((s.popped rest).ledger.note (s.origin r) .failed).note (s.origin r) .dropped := by
  rw [ledger_record, ledger_changed_popped entry hc, origin_changed (s := s.popped rest) entry hc]
  rfl

section
variable (hp : s.pass.pending = r :: rest) (hall : ∀ z ∈ s.pass.pending, z ∈ s.persistDlq)
include hp hall

theorem head_mem : r ∈ s.persistDlq := by
  apply hall
  rw [hp]
  exact List.mem_cons_self

theorem rest_mem : ∀ z ∈ rest, z ∈ s.persistDlq := by
  intro z hz
  apply hall
  rw [hp]
  exact List.mem_cons_of_mem r hz

theorem ledger_popped : (s.popped rest).ledger = s.ledger := by
  have hrest := rest_mem hp hall
  have hall' : ∀ z ∈ (s.popped rest).pass.pending, z ∈ (s.popped rest).persistDlq := hrest
  unfold ledger
  rw [passEntries_nil hall, passEntries_nil hall']
  rfl

variable [DecidableEq δ]

theorem refines_succeed_memory (hnodup : s.pass.pending.Nodup) (hok : SuccessOk cfg s a r) :
    Refines s ((s.popped rest).succeed cfg a r) := by
  have hr := head_mem hp hall
  have hrest := rest_mem hp hall
  unfold SuccessOk at hok
  by_cases huse : cfg.redisInUse a.connected = true
  · rw [if_pos huse] at hok
    exact absurd hr hok
  · rw [if_neg huse] at hok
    have hnot : r ∉ rest := by
      rw [hp] at hnodup
      exact (List.nodup_cons.1 hnodup).1
    have hfind : ((s.popped rest).record r .inserted).FindsOwn
        (sameEntry ((s.popped rest).record r .inserted).heap r) r := hok
    refine refines_go (mem_held_of_memory hr) (.inl rfl) ?_
    simp only [succeed, huse, ↓reduceIte, Bool.false_eq_true]
    rw [hfind.ledger_remove hr hrest hnot, ledger_record, ledger_popped hp hall]
    rfl

theorem refines_fail_memory (hnodup : s.pass.pending.Nodup) (hc : s.heap[r]? = some c)
    (hok : FailureOk cfg s a r c err) : Refines s ((s.popped rest).fail cfg a r c err) := by
  have hr := head_mem hp hall
  have hrest := rest_mem hp hall
  have hheld := mem_held_of_memory hr
  have hpopped := ledger_popped hp hall
  have hfailed : Failed cfg s a r rest c ((s.popped rest).fail cfg a r c err) := hok.failed hc
  generalize (s.popped rest).fail cfg a r c err = t at hfailed ⊢
  cases hfailed with
  | unscheduled _ =>
    refine refines_stay (o := .failed) hheld (by decide) ?_
    rw [ledger_record, hpopped]
    rfl
  | @stays entry v _ hstored =>
    cases hstored with
    | inPlace _ =>
      refine refines_stay (o := .failed) hheld (by decide) ?_
      rw [ledger_changed_popped entry hc, hpopped]
    | pushed hnot => exact absurd hr hnot
  | @goes entry v _ hstored hdrop =>
    have hfinds := hstored.findsOwn hdrop
    cases hstored with
    | pushed hnot => exact absurd hr hnot
    | inPlace _ =>
      unfold Dlq.drop
      split
      · refine refines_last_stay hheld ?_
        rw [ledger_dropped_popped entry hc, hpopped]
      · rename_i huse
        have hnot : r ∉ rest := by
          rw [hp] at hnodup
          exact (List.nodup_cons.1 hnodup).1
        refine refines_last_go hheld ?_
        rw [(hfinds huse).ledger_remove hr hrest hnot, ledger_dropped_popped entry hc, hpopped]
        congr 1
        exact congrFun (origin_changed (s := s.popped rest) entry hc) r

end

section
variable (hp : s.pass.pending = [r]) (hr : r ∉ s.persistDlq)
include hp hr

/-- The pass holds the entry it took out of Redis. -/
theorem ledger_taken : s.ledger = (s.popped []).ledger.hold (s.origin r) := by
  refine ledger_hold rfl rfl fun z => ?_
  have hmemory : (s.popped []).memoryEntries = s.memoryEntries := rfl
  have hredis : (s.popped []).redisEntries = s.redisEntries := rfl
  have hpass : (s.popped []).passEntries = [] := rfl
  have htaken : s.passEntries = [s.origin r] := by
    simp [passEntries, hp, hr]
  unfold places
  rw [hmemory, hredis, hpass, htaken]
  simp only [List.count_nil, List.count_singleton, beq_iff_eq]
  omega

theorem mem_held_of_taken : s.origin r ∈ s.ledger.held := by
  rw [ledger_taken hp hr]
  exact Multiset.mem_cons_self (s.origin r) (s.popped []).ledger.held

variable [DecidableEq δ]

theorem refines_succeed_redis (hok : SuccessOk cfg s a r) :
    Refines s ((s.popped []).succeed cfg a r) := by
  refine refines_go (o := .inserted) (mem_held_of_taken hp hr) (.inl rfl) ?_
  have hsucceed : (s.popped []).succeed cfg a r = (s.popped []).record r .inserted := by
    unfold SuccessOk at hok
    by_cases huse : cfg.redisInUse a.connected = true
    · simp only [succeed, huse, ↓reduceIte]
    · rw [if_neg huse] at hok
      have hfind : ((s.popped []).record r .inserted).FindsOwn
          (sameEntry ((s.popped []).record r .inserted).heap r) r := hok
      simp only [succeed, huse, ↓reduceIte, Bool.false_eq_true]
      exact hfind.remove_of_not_mem hr
  rw [hsucceed, ledger_record, ledger_taken hp hr, Custody.Ledger.note_hold,
    Custody.Ledger.release_hold]
  rfl

omit hp in
/-- Dropping an entry out of Redis removes nothing. -/
theorem drop_taken {v : Dlq δ} {entry : DlqEntry δ} (hstored : Stored cfg s r [] c entry v)
    (hdrop : DropOk cfg s a r { c with entry := entry }) : v.drop cfg a r = v.record r .dropped := by
  unfold Dlq.drop
  split
  · rfl
  · rename_i huse
    refine (hstored.findsOwn hdrop huse).remove_of_not_mem ?_
    show r ∉ v.persistDlq
    rwa [hstored.persistDlq]

theorem refines_fail_redis (hc : s.heap[r]? = some c) (hok : FailureOk cfg s a r c err) :
    Refines s ((s.popped []).fail cfg a r c err) := by
  have hheld := mem_held_of_taken hp hr
  have htaken := ledger_taken hp hr
  -- Back in Redis, the entry is held as before.
  have hpushed (entry : DlqEntry δ) :
      (((s.popped []).changed r c entry).push c.origin entry).ledger =
        s.ledger.note (s.origin r) .failed := by
    rw [ledger_push, ledger_changed_popped entry hc, htaken, Custody.Ledger.note_hold, origin_eq hc]
  have hfailed : Failed cfg s a r [] c ((s.popped []).fail cfg a r c err) := hok.failed hc
  generalize (s.popped []).fail cfg a r c err = t at hfailed ⊢
  cases hfailed with
  | unscheduled hmem => exact absurd hmem hr
  | @stays entry v hlast hstored =>
    cases hstored with
    | inPlace hmem => exact absurd (hmem.resolve_left hr) hlast
    | pushed _ => exact refines_stay (o := .failed) hheld (by decide) (hpushed entry)
  | @goes entry v _ hstored hdrop =>
    rw [drop_taken hr hstored hdrop]
    cases hstored with
    | inPlace _ =>
      refine refines_last_go hheld ?_
      rw [ledger_dropped_popped entry hc, htaken]
      simp
    | pushed _ =>
      refine refines_last_stay hheld ?_
      rw [ledger_record, hpushed entry]
      congr 1
      exact congrFun (origin_changed (s := s.popped []) entry hc) r

end

end

/-! ## Counts -/

/-- All references are into the heap; a cell, a copy in Redis and a dropped entry have no more
attempts than were recorded. -/
structure Coherent (cfg : DlqSettings) (s : Dlq δ) : Prop where
  bounded : Bounded s
  cells : ∀ (r : ℕ) (c : Cell δ), s.heap[r]? = some c → s.Counted c.origin c.entry.attempts
  redis : ∀ o entry, some (o, entry) ∈ s.redis → s.Counted o entry.attempts
  dropped : ∀ e ∈ s.events, e.outcome = .dropped →
    ∃ n : ℕ, cfg.maxRetries ≤ n ∧ s.Counted (s.origin e.ref) n

section
variable {cfg : DlqSettings} {s s' : Dlq δ} {a : Attempt} {r : ℕ} {rest : List ℕ} {c : Cell δ}
  {err : String}

/-- A step that grows the queue, with what is new in it counted. -/
theorem Coherent.frame (h : Coherent cfg s) (hg : Grown s s') (hb : Bounded s')
    (hcells : ∀ (r : ℕ) (c : Cell δ), s'.heap[r]? = some c →
      s.heap[r]? = some c ∨ s'.Counted c.origin c.entry.attempts)
    (hredis : ∀ o entry, some (o, entry) ∈ s'.redis →
      some (o, entry) ∈ s.redis ∨ s'.Counted o entry.attempts)
    (hdropped : ∀ e ∈ s'.events, e ∈ s.events ∨ (e.outcome = .dropped →
      ∃ n : ℕ, cfg.maxRetries ≤ n ∧ s'.Counted (s'.origin e.ref) n)) : Coherent cfg s' where
  bounded := hb
  cells r c hc := by
    rcases hcells r c hc with hc | hcount
    · exact (h.cells r c hc).grown hg h.bounded
    · exact hcount
  redis o entry he := by
    rcases hredis o entry he with he | hcount
    · exact (h.redis o entry he).grown hg h.bounded
    · exact hcount
  dropped e he hout := by
    rcases hdropped e he with he | hcount
    · obtain ⟨n, hn, hcount⟩ := h.dropped e he hout
      refine ⟨n, hn, ?_⟩
      rw [hg.origin (h.bounded.events e he)]
      exact hcount.grown hg h.bounded
    · exact hcount hout

/-- Nothing new but an event that drops nothing. -/
theorem Coherent.same (h : Coherent cfg s) (hb : Bounded s') (hheap : s'.heap = s.heap)
    (hevents : s.events <+: s'.events) (hredis : ∀ item ∈ s'.redis, item ∈ s.redis)
    (hnew : ∀ e ∈ s'.events, e ∈ s.events ∨ e.outcome ≠ .dropped) : Coherent cfg s' := by
  refine h.frame ⟨fun r c hc => ⟨c, hheap ▸ hc, rfl, rfl⟩, hevents⟩ hb (fun r c hc => ?_)
    (fun o entry he => .inl (hredis _ he)) fun e he => ?_
  · exact .inl (hheap ▸ hc)
  · rcases hnew e he with he | hne
    · exact .inl he
    · exact .inr fun hout => absurd hout hne

/-! ### Enqueues and passes -/

/-- A new cell that is counted. -/
theorem Coherent.alloc (h : Coherent cfg s) {entry : DlqEntry δ} {o : ℕ}
    (hnew : (s.alloc entry o).Counted o entry.attempts) : Coherent cfg (s.alloc entry o) := by
  refine h.frame (grown_alloc s entry o) (h.bounded.alloc entry o) (fun r c hc => ?_)
    (fun o entry he => .inl he) fun e he => .inl he
  rcases Nat.lt_trichotomy r s.heap.length with hr | rfl | hr
  · left
    rwa [Dlq.alloc, List.getElem?_append_left hr] at hc
  · obtain rfl := Option.some.inj ((heap_alloc s entry o).symm.trans hc)
    exact .inr hnew
  · have hlen : (s.alloc entry o).heap.length ≤ r := by
      simp only [Dlq.alloc, List.length_append, List.length_singleton]
      omega
    rw [List.getElem?_eq_none hlen] at hc
    cases hc

theorem counted_alloc (s : Dlq δ) (entry : DlqEntry δ) :
    (s.alloc entry s.heap.length).Counted s.heap.length entry.attempts :=
  ⟨_, heap_alloc s entry s.heap.length, rfl, Nat.le_add_right _ _⟩

theorem Coherent.append (h : Coherent cfg s) (entry : DlqEntry δ) : Coherent cfg (s.append entry) :=
  (h.alloc (counted_alloc s entry)).same (h.bounded.append entry) rfl (List.prefix_refl _)
    (fun _ hi => hi) fun _ he => .inl he

theorem Coherent.push (h : Coherent cfg s) {o : ℕ} {entry : DlqEntry δ}
    (hcount : s.Counted o entry.attempts) : Coherent cfg (s.push o entry) := by
  refine h.frame ⟨fun r c hc => ⟨c, hc, rfl, rfl⟩, List.prefix_refl _⟩
    ⟨h.bounded.queue, h.bounded.pending, h.bounded.events⟩ (fun r c hc => .inl hc)
    (fun o' entry' he => ?_) fun e he => .inl he
  rcases List.mem_append.1 he with he | he
  · exact .inl he
  · cases List.mem_singleton.1 he
    exact .inr hcount

theorem Coherent.enqueue (h : Coherent cfg s) (connected : Bool) (reply : RedisReply)
    (entry : DlqEntry δ) : Coherent cfg (s.enqueue cfg connected reply entry) := by
  have hnew := counted_alloc s entry
  unfold Dlq.enqueue
  split
  · cases reply with
    | ok => exact (h.alloc hnew).push hnew
    | failed => exact h.append entry
    | raised => exact h.alloc hnew
  · exact h.append entry

theorem Coherent.startPass (h : Coherent cfg s) (now : ℚ) (connected : Bool) (pop : RedisReply) :
    Coherent cfg (s.startPass cfg now connected pop) := by
  have hb : Bounded (s.startPass cfg now connected pop) := h.bounded.startPass now connected pop
  unfold Dlq.startPass at hb ⊢
  split
  · exact h
  · split
    · split
      · exact h
      · exact h.same ⟨h.bounded.queue, h.bounded.queue, h.bounded.events⟩ rfl (List.prefix_refl _)
          (fun _ hi => hi) fun _ he => .inl he
      · exact h
      · rename_i rest hredis
        refine h.same ⟨h.bounded.queue, h.bounded.pending, h.bounded.events⟩ rfl (List.prefix_refl _)
          (fun i hi => ?_) fun _ he => .inl he
        rw [hredis]
        exact List.mem_cons_of_mem _ hi
      · rename_i o entry rest hredis
        have hcount : s.Counted o entry.attempts :=
          h.redis o entry (by rw [hredis]; exact List.mem_cons_self)
        have halloc := h.alloc (hcount.grown (grown_alloc s entry o) h.bounded)
        refine halloc.same ⟨halloc.bounded.queue, fun z hz => ?_, halloc.bounded.events⟩ rfl
          (List.prefix_refl _) (fun i hi => ?_) fun _ he => .inl he
        · rw [List.mem_singleton.1 hz]
          simp [Dlq.alloc]
        · show i ∈ s.redis
          rw [hredis]
          exact List.mem_cons_of_mem _ hi
    · exact h.same ⟨h.bounded.queue, h.bounded.queue, h.bounded.events⟩ rfl (List.prefix_refl _)
        (fun _ hi => hi) fun _ he => .inl he

/-! ### Attempts -/

/-- A failure counts. -/
theorem Counted.changed {n : ℕ} (hc : s.heap[r]? = some c)
    (h : s.Counted c.origin n) (entry : DlqEntry δ) :
    (s.changed r c entry).Counted c.origin (n + 1) := by
  obtain ⟨c₀, hc₀, ho, hn⟩ := h
  obtain ⟨c', hc', ho', hborn⟩ := (grown_changed entry hc).cells _ c₀ hc₀
  have hfailures : (s.changed r c entry).failures c.origin = s.failures c.origin + 1 := by
    have hr : s.origin r = c.origin := origin_eq hc
    unfold failures
    rw [origin_changed entry hc]
    show (s.record r .failed).events.countP _ = _
    simp [record, List.countP_append, hr]
  refine ⟨c', hc', ho'.trans ho, ?_⟩
  rw [hborn, hfailures]
  omega

theorem Coherent.changed (h : Coherent cfg s) (hc : s.heap[r]? = some c) (next : ℚ) :
    Coherent cfg (s.changed r c (failedEntry c.entry err next)) := by
  have hlt := (List.getElem?_eq_some_iff.1 hc).1
  refine h.frame (grown_changed _ hc) (h.bounded.changed hlt _) (fun z c' hc' => ?_)
    (fun o entry he => .inl he) fun e he => ?_
  · by_cases hz : r = z
    · subst hz
      have hself : (s.changed r c (failedEntry c.entry err next)).heap[r]? =
          some { c with entry := failedEntry c.entry err next } := List.getElem?_set_self hlt
      obtain rfl := Option.some.inj (hself.symm.trans hc')
      exact .inr ((h.cells r c hc).changed hc _)
    · left
      rwa [Dlq.changed, List.getElem?_set_ne hz] at hc'
  · rcases List.mem_append.1 he with he | he
    · exact .inl he
    · right
      rw [List.mem_singleton.1 he]
      intro hout
      cases hout

theorem Coherent.popped (h : Coherent cfg s) (hp : s.pass.pending = r :: rest) :
    Coherent cfg (s.popped rest) :=
  h.same (h.bounded.popped hp) rfl (List.prefix_refl _) (fun _ hi => hi) fun _ he => .inl he

theorem Coherent.record (h : Coherent cfg s) (hr : r < s.heap.length) {o : Outcome}
    (ho : o ≠ .dropped) : Coherent cfg (s.record r o) := by
  refine h.same (h.bounded.record hr) rfl (List.prefix_append _ _) (fun _ hi => hi) fun e he => ?_
  rcases List.mem_append.1 he with he | he
  · exact .inl he
  · rw [List.mem_singleton.1 he]
    exact .inr ho

theorem Coherent.update (h : Coherent cfg s) (hr : r < s.heap.length) : Coherent cfg (s.update r) :=
  h.same (h.bounded.update hr) rfl (List.prefix_refl _) (fun _ hi => hi) fun _ he => .inl he

variable [DecidableEq δ]

theorem Coherent.remove (h : Coherent cfg s) : Coherent cfg (s.remove r) :=
  h.same h.bounded.remove rfl (List.prefix_refl _) (fun _ hi => hi) fun _ he => .inl he

/-- A drop after as many attempts as there may be. -/
theorem Coherent.drop (h : Coherent cfg s) (hr : r < s.heap.length) {n : ℕ} (hn : cfg.maxRetries ≤ n)
    (hcount : s.Counted (s.origin r) n) : Coherent cfg (s.drop cfg a r) := by
  have hg : Grown s (s.record r .dropped) := ⟨fun z c hc => ⟨c, hc, rfl, rfl⟩, List.prefix_append _ _⟩
  have hrecord : Coherent cfg (s.record r .dropped) := by
    refine h.frame hg (h.bounded.record hr) (fun z c hc => .inl hc) (fun o entry he => .inl he)
      fun e he => ?_
    rcases List.mem_append.1 he with he | he
    · exact .inl he
    · rw [List.mem_singleton.1 he]
      exact .inr fun _ => ⟨n, hn, hcount.grown hg h.bounded⟩
  unfold Dlq.drop
  split
  · exact hrecord
  · exact hrecord.remove

theorem Coherent.fail (h : Coherent cfg s) (hc : s.heap[r]? = some c) :
    Coherent cfg (s.fail cfg a r c err) := by
  have hlt := (List.getElem?_eq_some_iff.1 hc).1
  cases hd : cfg.retryDelay (c.entry.attempts + 1) with
  | none =>
    rw [fail_none a r s hd]
    exact h.record hlt (by decide)
  | some delay =>
    rw [fail_some a r s hd]
    simp only
    generalize s.pass.now + delay = next
    have hchanged : Coherent cfg (s.changed r c (failedEntry c.entry err next)) := h.changed hc next
    have hcount := (h.cells r c hc).changed hc (failedEntry c.entry err next)
    have hlt' : r < (s.changed r c (failedEntry c.entry err next)).heap.length := by
      simpa [Dlq.changed] using hlt
    have hstore : Coherent cfg (store cfg a r c (s.changed r c (failedEntry c.entry err next))
        (failedEntry c.entry err next)) := by
      unfold store
      split
      · split
        · exact hchanged.push hcount
        · exact hchanged
      · exact hchanged.update hlt'
    split
    · rename_i hexceeds
      refine hstore.drop (n := c.entry.attempts + 1) ?_ hexceeds ?_
      · rw [store_heap]
        exact hlt'
      · have hgrown : Grown (s.changed r c (failedEntry c.entry err next)) (store cfg a r c
            (s.changed r c (failedEntry c.entry err next)) (failedEntry c.entry err next)) := by
          refine ⟨fun z c' hc' => ⟨c', ?_, rfl, rfl⟩, ?_⟩
          · rw [store_heap]
            exact hc'
          · rw [store_events]
        rw [hgrown.origin hlt', origin_changed _ hc, origin_eq hc]
        exact hcount.grown hgrown hchanged.bounded
    · exact hstore

theorem Coherent.succeed (h : Coherent cfg s) (hr : r < s.heap.length) :
    Coherent cfg (s.succeed cfg a r) := by
  have hrecord : Coherent cfg (s.record r .inserted) := h.record hr (by decide)
  simp only [Dlq.succeed]
  split
  · exact hrecord
  · exact hrecord.remove

theorem Coherent.attempt (h : Coherent cfg s) : Coherent cfg (s.attempt cfg a) := by
  cases hp : s.pass.pending with
  | nil => simpa only [Dlq.attempt, hp] using h
  | cons r rest =>
    have hpopped := h.popped hp
    have hr : r < s.heap.length := h.bounded.pending r (by rw [hp]; exact List.mem_cons_self)
    rw [attempt_cons hp]
    split
    · exact hpopped
    · rename_i c hc
      split
      · exact hpopped
      · split
        · exact hpopped.succeed hr
        · exact hpopped.fail hc

theorem Coherent.step (h : Coherent cfg s) (i : Input δ) : Coherent cfg (s.step cfg i) := by
  cases i with
  | append entry => exact h.append entry
  | enqueue connected reply entry => exact h.enqueue connected reply entry
  | startPass now connected pop => exact h.startPass now connected pop
  | attempt a => exact h.attempt

end

end Orchestrator.Dlq
