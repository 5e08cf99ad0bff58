import Mathlib.Data.List.Nodup
import IctAlgo.Orchestrator.Proof.Attempts

/-!
# Conservation of the in-memory queue

* `Conserved`: every entry enqueued is queued once, or was inserted once, or was dropped after as
  many failed attempts as `DLQ_MAX_RETRIES` allows (`Fate`).
* `AttemptOk`: the search of the attempt finds the entry itself. It fails when another entry with
  the same `ts` stands before a failing one; `update` then overwrites that entry.
* `conserved_iff`: without Redis, a run conserves all its entries exactly when each of its attempts
  is `AttemptOk`.
-/

set_option autoImplicit false

namespace Orchestrator.Dlq

open Lib

variable {δ : Type}

/-- How often the entry `r` had this outcome. -/
def outcomes (s : Dlq δ) (r : ℕ) (o : Outcome) : ℕ :=
  s.events.countP fun e => e.ref = r ∧ e.outcome = o

/-- What may become of an entry that was enqueued after `born` attempts: it is queued, inserted or
dropped, the number of its failed attempts being `failed`. -/
def Fate (cfg : DlqSettings) (queued inserted dropped failed born : ℕ) : Prop :=
  (queued = 1 ∧ inserted = 0 ∧ dropped = 0) ∨
  (queued = 0 ∧ inserted = 1 ∧ dropped = 0) ∨
  (queued = 0 ∧ inserted = 0 ∧ dropped = 1 ∧
    (born + failed : ℤ) = max cfg.maxRetries (born + 1))

instance (cfg : DlqSettings) (q i d f b : ℕ) : Decidable (Fate cfg q i d f b) :=
  inferInstanceAs (Decidable (_ ∨ _ ∨ _))

/-- The fate of the entry in the cell `c` of `r`. -/
def FateOf (cfg : DlqSettings) (s : Dlq δ) (r : ℕ) (c : Cell δ) : Prop :=
  Fate cfg (s.persistDlq.count r) (s.outcomes r .inserted) (s.outcomes r .dropped)
    (s.outcomes r .failed) c.born.attempts

instance (cfg : DlqSettings) (s : Dlq δ) (r : ℕ) (c : Cell δ) : Decidable (s.FateOf cfg r c) :=
  inferInstanceAs (Decidable (Fate ..))

/-- No entry is lost and none appears twice. -/
def Conserved (cfg : DlqSettings) (s : Dlq δ) : Prop :=
  ∀ r c, s.heap[r]? = some c → s.FateOf cfg r c

@[simp] theorem outcomes_record (s : Dlq δ) (r z : ℕ) (o o' : Outcome) :
    (s.record r o).outcomes z o' = s.outcomes z o' + if r = z ∧ o = o' then 1 else 0 := by
  simp [outcomes, record, List.countP_append, List.countP_singleton]

/-! ## The invariant -/

/-- The fate of an entry, and for a queued one how its attempts count its failures: exactly, until
the delay overflows. -/
structure CellOk (cfg : DlqSettings) (s : Dlq δ) (r : ℕ) (c : Cell δ) : Prop where
  fate : s.FateOf cfg r c
  tries : s.persistDlq.count r = 1 →
    (c.entry.attempts = c.born.attempts + s.outcomes r .failed ∨ 1024 ≤ c.entry.attempts) ∧
    (c.entry.attempts = c.born.attempts ∨ (c.entry.attempts : ℤ) < cfg.maxRetries)

structure Inv (cfg : DlqSettings) (s : Dlq δ) : Prop where
  cells : ∀ r c, s.heap[r]? = some c → CellOk cfg s r c
  bound : ∀ r ∈ s.persistDlq, r < s.heap.length
  events : ∀ e ∈ s.events, e.ref < s.heap.length
  nodup : s.pass.pending.Nodup
  pending : ∀ r ∈ s.pass.pending, r ∈ s.persistDlq

variable {cfg : DlqSettings} {s s' : Dlq δ} {r : ℕ} {rest : List ℕ} {c : Cell δ}

theorem Inv.conserved (h : Inv cfg s) : Conserved cfg s := fun r c hc => (h.cells r c hc).fate

/-- A queued entry is queued once and has no other fate. -/
theorem Inv.queued (h : Inv cfg s) (hr : r ∈ s.persistDlq) :
    ∃ c, s.heap[r]? = some c ∧ s.persistDlq.count r = 1 ∧ s.outcomes r .inserted = 0 ∧
      s.outcomes r .dropped = 0 := by
  have hlt := h.bound r hr
  have hfate := (h.cells r _ (List.getElem?_eq_getElem hlt)).fate
  have hpos : 0 < s.persistDlq.count r := List.count_pos_iff.2 hr
  refine ⟨_, List.getElem?_eq_getElem hlt, ?_⟩
  unfold FateOf Fate at hfate
  omega

/-- What is known of the entry an attempt is made on. -/
theorem Inv.head (h : Inv cfg s) (hp : s.pass.pending = r :: rest) (hc : s.heap[r]? = some c) :
    r ∈ s.persistDlq ∧ s.persistDlq.count r = 1 ∧ s.outcomes r .inserted = 0 ∧
      s.outcomes r .dropped = 0 ∧
      (c.entry.attempts = c.born.attempts + s.outcomes r .failed ∨ 1024 ≤ c.entry.attempts) ∧
      (c.entry.attempts = c.born.attempts ∨ (c.entry.attempts : ℤ) < cfg.maxRetries) := by
  have hr : r ∈ s.persistDlq := h.pending r (by rw [hp]; exact List.mem_cons_self)
  obtain ⟨c', -, hcount, hins, hdrop⟩ := h.queued hr
  obtain ⟨htries, hmax⟩ := (h.cells r c hc).tries hcount
  exact ⟨hr, hcount, hins, hdrop, htries, hmax⟩

theorem Inv.persistDlq_nodup (h : Inv cfg s) : s.persistDlq.Nodup := by
  refine List.nodup_iff_count_le_one.2 fun r => ?_
  by_cases hr : r ∈ s.persistDlq
  · obtain ⟨c, -, hcount, -, -⟩ := h.queued hr
    omega
  · rw [List.count_eq_zero.2 hr]
    omega

theorem inv_empty : Inv cfg ({} : Dlq δ) where
  cells r c h := by simp at h
  bound r h := by simp at h
  events e h := by simp at h
  nodup := List.nodup_nil
  pending r h := by simp at h

/-- A step that changes no cell but that of `r`, and its queue position only, keeps the invariant if
it keeps it for `r`. -/
theorem Inv.frame (h : Inv cfg s) (hr : r ∈ s.persistDlq) (hp : s.pass.pending = r :: rest)
    (hp' : s'.pass.pending = rest) (hlen : s'.heap.length = s.heap.length)
    (hheap : ∀ z ≠ r, s'.heap[z]? = s.heap[z]?)
    (hcount : ∀ z ≠ r, s'.persistDlq.count z = s.persistDlq.count z)
    (hout : ∀ z ≠ r, ∀ o, s'.outcomes z o = s.outcomes z o)
    (hev : ∀ e ∈ s'.events, e.ref = r ∨ e ∈ s.events)
    (hcell : ∀ c, s'.heap[r]? = some c → CellOk cfg s' r c) : Inv cfg s' where
  cells z c hc := by
    by_cases hz : z = r
    · subst hz
      exact hcell c hc
    · have hok := h.cells z c (by rwa [hheap z hz] at hc)
      refine ⟨?_, fun hq => ?_⟩
      · have hf := hok.fate
        unfold FateOf at *
        rwa [hcount z hz, hout z hz, hout z hz, hout z hz]
      · rw [hout z hz]
        exact hok.tries (by rwa [hcount z hz] at hq)
  bound z hz := by
    rw [hlen]
    by_cases hzr : z = r
    · exact hzr ▸ h.bound r hr
    · refine h.bound z (List.count_pos_iff.1 ?_)
      rw [← hcount z hzr]
      exact List.count_pos_iff.2 hz
  events e he := by
    rw [hlen]
    rcases hev e he with heq | he
    · exact heq ▸ h.bound r hr
    · exact h.events e he
  nodup := by
    have hn := h.nodup
    rw [hp] at hn
    rw [hp']
    exact (List.nodup_cons.1 hn).2
  pending z hz := by
    have hn := h.nodup
    rw [hp] at hn
    rw [hp'] at hz
    have hzr : z ≠ r := by
      rintro rfl
      exact (List.nodup_cons.1 hn).1 hz
    refine List.count_pos_iff.1 ?_
    rw [hcount z hzr]
    exact List.count_pos_iff.2 (h.pending z (by rw [hp]; exact List.mem_cons_of_mem r hz))

theorem Inv.append (h : Inv cfg s) (entry : DlqEntry δ) : Inv cfg (s.append entry) where
  cells z c hc := by
    have hnew : s.heap.length ∉ s.persistDlq := fun hm => Nat.lt_irrefl _ (h.bound _ hm)
    rcases Nat.lt_trichotomy z s.heap.length with hz | rfl | hz
    · have hold : s.heap[z]? = some c := by
        rwa [Dlq.append, alloc, List.getElem?_append_left hz] at hc
      have hne : s.heap.length ≠ z := by omega
      have hcount : (s.append entry).persistDlq.count z = s.persistDlq.count z := by
        simp [Dlq.append, List.count_append, hne]
      obtain ⟨hf, ht⟩ := h.cells z c hold
      refine ⟨?_, fun hq => ht (by rwa [hcount] at hq)⟩
      unfold FateOf at *
      rwa [hcount]
    · have hcell : c = ⟨entry, entry, s.heap.length⟩ := by
        simpa [Dlq.append, alloc, eq_comm] using hc
      have hcount : (s.append entry).persistDlq.count s.heap.length = 1 := by
        simp [Dlq.append, List.count_append, List.count_eq_zero.2 hnew]
      have hout (o : Outcome) : (s.append entry).outcomes s.heap.length o = 0 := by
        refine List.countP_eq_zero.2 fun e he => ?_
        have := h.events e he
        simp only [decide_eq_true_eq, not_and]
        omega
      subst hcell
      refine ⟨?_, fun _ => ⟨Or.inl ?_, Or.inl rfl⟩⟩
      · rw [FateOf, hcount, hout, hout, hout]
        exact Or.inl ⟨rfl, rfl, rfl⟩
      · rw [hout]
        rfl
    · have hlen : (s.append entry).heap.length ≤ z := by
        simp only [Dlq.append, alloc, List.length_append, List.length_singleton]
        omega
      rw [List.getElem?_eq_none hlen] at hc
      cases hc
  bound z hz := by
    simp only [Dlq.append, alloc, List.length_append, List.length_singleton, List.mem_append,
      List.mem_singleton] at hz ⊢
    rcases hz with hz | rfl
    · have := h.bound z hz
      omega
    · omega
  events e he := by
    have := h.events e he
    simp only [Dlq.append, alloc, List.length_append, List.length_singleton]
    omega
  nodup := h.nodup
  pending z hz := List.mem_append_left _ (h.pending z hz)

theorem inv_initial (cfg : DlqSettings) (entries : List (DlqEntry δ)) :
    Inv cfg (initial entries) := by
  have hfold : ∀ s : Dlq δ, Inv cfg s → Inv cfg (entries.foldl Dlq.append s) := by
    induction entries with
    | nil => exact fun s h => h
    | cons entry entries ih => exact fun s h => ih _ (h.append entry)
  exact hfold {} inv_empty

/-! ## Pieces of an attempt -/

@[simp] theorem popped_outcomes (s : Dlq δ) (rest : List ℕ) (r : ℕ) (o : Outcome) :
    (s.popped rest).outcomes r o = s.outcomes r o := rfl

theorem attempts_of_overflow {n : ℕ} (hd : cfg.retryDelay (n + 1) = none) : 1024 ≤ n := by
  unfold DlqSettings.retryDelay at hd
  split at hd
  · omega
  · cases hd

theorem attempts_of_delay {n : ℕ} {delay : ℚ} (hd : cfg.retryDelay (n + 1) = some delay) :
    n < 1024 := by
  unfold DlqSettings.retryDelay at hd
  split at hd
  · cases hd
  · omega

/-- The queue after a failure: recorded, the entry changed and written to its slot. -/
def failed (s : Dlq δ) (r : ℕ) (c : Cell δ) (err : String) (next : ℚ) : Dlq δ :=
  Dlq.update { s.record r .failed with
    heap := s.heap.set r { c with entry := failedEntry c.entry err next } } r

section
variable {err : String} {next : ℚ}

theorem failed_persistDlq (hc : s.heap[r]? = some c) :
    (s.failed r c err next).persistDlq =
      FirstMatch.replaceFirst (sameSlot s.heap r) r s.persistDlq := by
  have h := sameSlot_set s.heap hc err next
  simp only [failed, Dlq.update, h]
  rfl

/-- The entry that is found first is put back where it was. -/
theorem failed_persistDlq_popped (hc : s.heap[r]? = some c)
    (hf : s.persistDlq.find? (sameSlot s.heap r) = some r) (rest : List ℕ) (err : String)
    (next : ℚ) : ((s.popped rest).failed r c err next).persistDlq = s.persistDlq := by
  rw [failed_persistDlq (s := s.popped rest) hc]
  exact FirstMatch.replaceFirst_self hf

theorem failed_outcomes (z : ℕ) (o : Outcome) :
    (s.failed r c err next).outcomes z o = s.outcomes z o + if r = z ∧ .failed = o then 1 else 0 :=
  outcomes_record s r z .failed o

theorem failed_getElem?_self (hlt : r < s.heap.length) :
    (s.failed r c err next).heap[r]? = some { c with entry := failedEntry c.entry err next } :=
  List.getElem?_set_self hlt

theorem failed_getElem?_ne {z : ℕ} (hz : z ≠ r) :
    (s.failed r c err next).heap[z]? = s.heap[z]? :=
  List.getElem?_set_ne (Ne.symm hz)

theorem failed_length : (s.failed r c err next).heap.length = s.heap.length := List.length_set

end

theorem Inv.startPass (h : Inv cfg s) (now : ℚ) (connected : Bool) (pop : RedisReply) :
    Inv cfg (s.startPass cfg.inMemory now connected pop) := by
  simp only [Dlq.startPass, DlqSettings.redisInUse_inMemory, Bool.false_eq_true, ↓reduceIte]
  split
  · exact h
  · exact ⟨fun r c hc => ⟨(h.cells r c hc).fate, (h.cells r c hc).tries⟩, h.bound, h.events,
      h.persistDlq_nodup, fun r hr => hr⟩

/-- Taking up an entry that is not processed. -/
theorem Inv.popped (h : Inv cfg s) (hp : s.pass.pending = r :: rest) : Inv cfg (s.popped rest) := by
  have hr : r ∈ s.persistDlq := h.pending r (by rw [hp]; exact List.mem_cons_self)
  exact h.frame hr hp rfl rfl (fun _ _ => rfl) (fun _ _ => rfl) (fun _ _ _ => rfl)
    (fun _ he => Or.inr he) fun c hc => ⟨(h.cells r c hc).fate, (h.cells r c hc).tries⟩

/-! ## Attempts -/

/-- The delay overflows: the entry stays as it is, with more attempts than it can count. -/
theorem Inv.failed_overflow (h : Inv cfg s) (hp : s.pass.pending = r :: rest)
    (hc : s.heap[r]? = some c) (hd : cfg.retryDelay (c.entry.attempts + 1) = none) :
    Inv cfg ((s.popped rest).record r .failed) := by
  obtain ⟨hr, hcount, hins, hdrop, -, hmax⟩ := h.head hp hc
  refine h.frame hr hp rfl rfl (fun _ _ => rfl) (fun _ _ => rfl) (fun z hz o => ?_)
    (fun e he => mem_record he) fun c' hc' => ?_
  · have hne : r ≠ z := Ne.symm hz
    simp [hne]
  · obtain rfl : c = c' := Option.some.inj (hc.symm.trans hc')
    refine ⟨Or.inl ⟨hcount, ?_, ?_⟩, fun _ => ⟨Or.inr (attempts_of_overflow hd), hmax⟩⟩
    · simp [hins]
    · simp [hdrop]

/-- The entry stays in the queue, with the attempt counted. -/
theorem Inv.failed_kept {err : String} {delay next : ℚ} (h : Inv cfg s)
    (hp : s.pass.pending = r :: rest) (hc : s.heap[r]? = some c)
    (hf : s.persistDlq.find? (sameSlot s.heap r) = some r)
    (hd : cfg.retryDelay (c.entry.attempts + 1) = some delay)
    (hge : ¬ ((c.entry.attempts + 1 : ℕ) : ℤ) ≥ cfg.maxRetries) :
    Inv cfg ((s.popped rest).failed r c err next) := by
  obtain ⟨hr, hcount, hins, hdrop, htries, hmax⟩ := h.head hp hc
  have hlt := h.bound r hr
  have hlow := attempts_of_delay hd
  have hsame := failed_persistDlq_popped hc hf rest err next
  have hcell : ((s.popped rest).failed r c err next).heap[r]? =
      some { c with entry := failedEntry c.entry err next } := failed_getElem?_self hlt
  refine h.frame hr hp rfl failed_length (fun z hz => failed_getElem?_ne hz)
    (fun z hz => by rw [hsame]) (fun z hz o => ?_) (fun e he => mem_record he) fun c' hc' => ?_
  · have hne : r ≠ z := Ne.symm hz
    simp [failed_outcomes, hne]
  · obtain rfl := Option.some.inj (hcell.symm.trans hc')
    refine ⟨Or.inl ⟨by rw [hsame, hcount], ?_, ?_⟩, fun _ => ⟨Or.inl ?_, Or.inr ?_⟩⟩
    · simp [failed_outcomes, hins]
    · simp [failed_outcomes, hdrop]
    · simp only [failed_outcomes, failedEntry, popped_outcomes]
      simp only [and_self, ↓reduceIte]
      omega
    · simp only [failedEntry]
      omega

variable [DecidableEq δ]

/-- The searches of the attempt find the entry itself: a successful one removes the first equal
dictionary, a failed one writes to the first slot with its `ts`. -/
def AttemptOk (cfg : DlqSettings) (s : Dlq δ) (a : Attempt) : Prop :=
  ∀ r rest c, s.pass.pending = r :: rest → s.heap[r]? = some c →
    c.entry.nextAttemptTs ≤ s.pass.now →
    match a.insert with
    | .ok () => s.persistDlq.find? (sameEntry s.heap r) = some r
    | .error _ => cfg.retryDelay (c.entry.attempts + 1) ≠ none →
        s.persistDlq.find? (sameSlot s.heap r) = some r

/-- The condition of a step. -/
def InputOk (cfg : DlqSettings) (s : Dlq δ) : Input δ → Prop
  | .attempt a => AttemptOk cfg s a
  | _ => True

@[simp] theorem outcomes_remove (s : Dlq δ) (r z : ℕ) (o : Outcome) :
    (s.remove r).outcomes z o = s.outcomes z o := rfl

theorem count_remove {x : ℕ} (hfind : s.persistDlq.find? (sameEntry s.heap r) = some x) (z : ℕ) :
    (s.remove r).persistDlq.count z + (if x = z then 1 else 0) = s.persistDlq.count z :=
  FirstMatch.count_eraseP hfind z

variable {a : Attempt}

/-- The queue after a successful insert of `r`. -/
theorem succeed_inMemory (s : Dlq δ) (r : ℕ) :
    s.succeed cfg.inMemory a r = (s.record r .inserted).remove r := by
  simp [succeed]

theorem Inv.succeed (h : Inv cfg s) (hp : s.pass.pending = r :: rest)
    (hfind : s.persistDlq.find? (sameEntry s.heap r) = some r) :
    Inv cfg ((s.popped rest).succeed cfg.inMemory a r) := by
  have hr : r ∈ s.persistDlq := h.pending r (by rw [hp]; exact List.mem_cons_self)
  obtain ⟨c, hc, hcount, hins, hdrop⟩ := h.queued hr
  rw [succeed_inMemory]
  refine h.frame hr hp rfl rfl (fun _ _ => rfl) (fun z hz => ?_) (fun z hz o => ?_)
    (fun e he => ?_) fun c' hc' => ?_
  · have hcount := FirstMatch.count_eraseP hfind z
    have hne : r ≠ z := Ne.symm hz
    show (s.persistDlq.eraseP (sameEntry s.heap r)).count z = s.persistDlq.count z
    simpa [hne] using hcount
  · have hne : r ≠ z := Ne.symm hz
    show ((s.popped rest).record r .inserted).outcomes z o = s.outcomes z o
    simp [hne]
  · exact mem_record (s := s.popped rest) he
  · have hcount' := FirstMatch.count_eraseP hfind r
    have hzero : (((s.popped rest).record r .inserted).remove r).persistDlq.count r = 0 := by
      show (s.persistDlq.eraseP (sameEntry s.heap r)).count r = 0
      simp only [↓reduceIte] at hcount'
      omega
    refine ⟨Or.inr (Or.inl ⟨hzero, ?_, ?_⟩), fun hq => ?_⟩
    · show ((s.popped rest).record r .inserted).outcomes r .inserted = 1
      simp [hins]
    · show ((s.popped rest).record r .inserted).outcomes r .dropped = 0
      simp [hdrop]
    · omega

/-! ### A failed insert -/

theorem fail_inMemory {err : String} {delay : ℚ}
    (hd : cfg.retryDelay (c.entry.attempts + 1) = some delay) :
    s.fail cfg.inMemory a r c err =
      if ((c.entry.attempts + 1 : ℕ) : ℤ) ≥ cfg.maxRetries then
        ((s.failed r c err (s.pass.now + delay)).record r .dropped).remove r
      else s.failed r c err (s.pass.now + delay) := by
  have hd' : cfg.inMemory.retryDelay (c.entry.attempts + 1) = some delay := hd
  rw [fail_some a r s hd']
  simp only [store, drop, DlqSettings.redisInUse_inMemory, Bool.false_eq_true, ↓reduceIte]
  rfl

/-- Equal dictionaries have one `ts`. -/
theorem sameSlot_of_sameEntry {heap : List (Cell δ)} {q : ℕ} (h : sameEntry heap r q = true) :
    sameSlot heap r q = true := by
  have h' : q = r ∨ heap[q]?.map (·.entry) = heap[r]?.map (·.entry) := by simpa [sameEntry] using h
  rcases h' with h' | h'
  · simp [sameSlot, h']
  · have hts := congrArg (Option.map (·.ts)) h'
    simp only [Option.map_map] at hts
    simp only [sameSlot, decide_eq_true_eq]
    exact Or.inr hts

section
variable {err : String} {delay next : ℚ}

/-- The last attempt: what is equal to the entry has its `ts`, so `remove` finds it too. -/
theorem Inv.failed_last (h : Inv cfg s) (hp : s.pass.pending = r :: rest) (hc : s.heap[r]? = some c)
    (hf : s.persistDlq.find? (sameSlot s.heap r) = some r)
    (hd : cfg.retryDelay (c.entry.attempts + 1) = some delay)
    (hge : ((c.entry.attempts + 1 : ℕ) : ℤ) ≥ cfg.maxRetries) :
    Inv cfg ((((s.popped rest).failed r c err next).record r .dropped).remove r) := by
  obtain ⟨hr, hcount, hins, hdrop, htries, hmax⟩ := h.head hp hc
  have hlt := h.bound r hr
  have hlow := attempts_of_delay hd
  have hsame := failed_persistDlq_popped hc hf rest err next
  have hcell : ((s.popped rest).failed r c err next).heap[r]? =
      some { c with entry := failedEntry c.entry err next } := failed_getElem?_self hlt
  have htry : c.entry.attempts = c.born.attempts + s.outcomes r .failed := by omega
  have hslot : sameSlot ((s.popped rest).failed r c err next).heap r = sameSlot s.heap r :=
    sameSlot_set s.heap hc err _
  have hremove : ((s.popped rest).failed r c err next).persistDlq.find?
      (sameEntry ((s.popped rest).failed r c err next).heap r) = some r := by
    rw [hsame]
    refine FirstMatch.find?_of_imp hf (by simp [sameEntry]) fun q hq => ?_
    rw [← hslot]
    exact sameSlot_of_sameEntry hq
  have hcount' (z : ℕ) :=
    count_remove (s := ((s.popped rest).failed r c err next).record r .dropped) hremove z
  have hsame' : (((s.popped rest).failed r c err next).record r .dropped).persistDlq =
    s.persistDlq := hsame
  rw [hsame'] at hcount'
  refine h.frame hr hp rfl failed_length (fun z hz => failed_getElem?_ne hz) (fun z hz => ?_)
    (fun z hz o => ?_) (fun e he => ?_) fun c' hc' => ?_
  · have hne : r ≠ z := Ne.symm hz
    simpa [hne] using hcount' z
  · have hne : r ≠ z := Ne.symm hz
    simp [failed_outcomes, hne]
  · rcases mem_record he with he | he
    · exact Or.inl he
    · exact mem_record he
  · obtain rfl := Option.some.inj (hcell.symm.trans hc')
    have hgone : ((((s.popped rest).failed r c err next).record r .dropped).remove
        r).persistDlq.count r = 0 := by
      have := hcount' r
      simp only [↓reduceIte] at this
      exact Nat.add_right_cancel (this.trans hcount)
    refine ⟨Or.inr (Or.inr ⟨hgone, ?_, ?_, ?_⟩), fun hq => ?_⟩
    · simp [failed_outcomes, hins]
    · simp [failed_outcomes, hdrop]
    · simp only [outcomes_remove, outcomes_record, failed_outcomes, popped_outcomes]
      simp only [and_self, ↓reduceIte, reduceCtorEq, and_false]
      push_cast at hge ⊢
      omega
    · rw [hgone] at hq
      cases hq

theorem Inv.failed (h : Inv cfg s) (hp : s.pass.pending = r :: rest) (hc : s.heap[r]? = some c)
    (hfind : cfg.retryDelay (c.entry.attempts + 1) ≠ none →
      s.persistDlq.find? (sameSlot s.heap r) = some r) :
    Inv cfg ((s.popped rest).fail cfg.inMemory a r c err) := by
  cases hd : cfg.retryDelay (c.entry.attempts + 1) with
  | none =>
    rw [fail_none a r _ (show cfg.inMemory.retryDelay _ = none from hd)]
    exact h.failed_overflow hp hc hd
  | some delay =>
    have hf := hfind (by simp [hd])
    rw [fail_inMemory hd]
    split
    · rename_i hge
      exact h.failed_last hp hc hf hd hge
    · rename_i hge
      exact h.failed_kept hp hc hf hd hge

end

/-! ## Steps -/

theorem Inv.attempt (h : Inv cfg s) (hok : AttemptOk cfg s a) : Inv cfg (s.attempt cfg.inMemory a) := by
  rcases hp : s.pass.pending with _ | ⟨r, rest⟩
  · simpa only [Dlq.attempt, hp] using h
  have hr : r ∈ s.persistDlq := h.pending r (by rw [hp]; exact List.mem_cons_self)
  obtain ⟨c, hc, -⟩ := h.queued hr
  by_cases hdue : c.entry.nextAttemptTs ≤ s.pass.now
  · have hok := hok r rest c hp hc hdue
    rw [attempt_due hp hc hdue]
    cases hi : a.insert with
    | error err =>
      rw [hi] at hok
      exact h.failed hp hc hok
    | ok _ =>
      rw [hi] at hok
      exact h.succeed hp hok
  · have hlate : c.entry.nextAttemptTs > s.pass.now := not_le.1 hdue
    simp only [Dlq.attempt, hp, hc, hlate, ↓reduceIte]
    exact h.popped hp

theorem Inv.step (h : Inv cfg s) (i : Input δ) (hok : InputOk cfg s i) :
    Inv cfg (s.step cfg.inMemory i) := by
  cases i with
  | append entry => exact h.append entry
  | enqueue connected reply entry =>
    simp only [Dlq.step, enqueue, DlqSettings.redisInUse_inMemory, Bool.false_eq_true, ↓reduceIte]
    exact h.append entry
  | startPass now connected pop => exact h.startPass now connected pop
  | attempt a => exact h.attempt hok

/-! ## The condition is exact -/

/-- An attempt that misses the condition breaks conservation: a success leaves the entry queued, a
failure overwrites another one. -/
theorem not_conserved_of_not_ok (h : Inv cfg s) (hok : ¬ AttemptOk cfg s a) :
    ¬ Conserved cfg (s.attempt cfg.inMemory a) := by
  intro hcons
  simp only [AttemptOk, not_forall] at hok
  obtain ⟨r, rest, c, hp, hc, hdue, hmiss⟩ := hok
  have hr : r ∈ s.persistDlq := h.pending r (by rw [hp]; exact List.mem_cons_self)
  obtain ⟨c', hc', hcount, hins, hdrop⟩ := h.queued hr
  rw [attempt_due hp hc hdue] at hcons
  cases hi : a.insert with
  | error err =>
    -- The slot of another entry `q` is overwritten: `q` is gone.
    rw [hi] at hmiss hcons
    simp only [Classical.not_imp] at hmiss
    obtain ⟨hdelay, hne⟩ := hmiss
    obtain ⟨delay, hd⟩ := Option.ne_none_iff_exists'.1 hdelay
    obtain ⟨q, hq⟩ := FirstMatch.find?_isSome_of_mem
      (p := sameSlot s.heap r) (x := r) (by simp [sameSlot]) hr
    have hqr : q ≠ r := fun heq => hne (heq ▸ hq)
    obtain ⟨cq, hcq, hcountq, hinsq, hdropq⟩ := h.queued (List.mem_of_find?_eq_some hq)
    simp only [fail_inMemory hd] at hcons
    generalize (s.popped rest).pass.now + delay = next at hcons
    have hgone : ((s.popped rest).failed r c err next).persistDlq.count q = 0 := by
      have hrep := FirstMatch.count_replaceFirst (y := r) hq q
      rw [failed_persistDlq (s := s.popped rest) hc]
      simp only [↓reduceIte, hqr.symm, hcountq] at hrep
      exact Nat.add_right_cancel hrep
    have hcell : ((s.popped rest).failed r c err next).heap[q]? = some cq :=
      (failed_getElem?_ne (s := s.popped rest) hqr).trans hcq
    split at hcons
    · have hfate := hcons q cq hcell
      have hle : ((((s.popped rest).failed r c err next).record r .dropped).remove
          r).persistDlq.count q ≤ ((s.popped rest).failed r c err next).persistDlq.count q :=
        List.eraseP_sublist.count_le q
      simp only [FateOf, outcomes_remove, outcomes_record, failed_outcomes, popped_outcomes,
        hqr.symm, false_and, ↓reduceIte] at hfate
      unfold Fate at hfate
      omega
    · have hfate := hcons q cq hcell
      simp only [FateOf, failed_outcomes, popped_outcomes, hqr.symm, false_and, ↓reduceIte] at hfate
      unfold Fate at hfate
      omega
  | ok _ =>
    -- An equal entry is removed in the place of the inserted one, which stays queued.
    rw [hi] at hmiss hcons
    obtain ⟨q, hq⟩ := FirstMatch.find?_isSome_of_mem
      (p := sameEntry s.heap r) (x := r) (by simp [sameEntry]) hr
    have hqr : q ≠ r := fun heq => hmiss (heq ▸ hq)
    have hfate := hcons r c (by rw [succeed_inMemory]; exact hc)
    have hcount' := count_remove (s := (s.popped rest).record r .inserted) hq r
    simp only [hqr, ↓reduceIte, Nat.add_zero] at hcount'
    have hstill : (s.popped rest).persistDlq.count r = 1 := hcount
    rw [succeed_inMemory, FateOf, hcount', outcomes_remove, outcomes_record] at hfate
    simp only [Fate, and_self, ↓reduceIte] at hfate
    have hq' : ((s.popped rest).record r .inserted).persistDlq.count r = 1 := hcount
    omega

/-- **Without Redis, a run conserves its entries exactly when the searches of its attempts find the
entry they are for.** -/
theorem conserved_iff (cfg : DlqSettings) (entries : List (DlqEntry δ)) (inputs : List (Input δ)) :
    Runs.Always (step cfg.inMemory) (Conserved cfg) (initial entries) inputs ↔
      Runs.Within (step cfg.inMemory) (InputOk cfg) (initial entries) inputs := by
  refine Runs.always_iff_within (inv_initial cfg entries) (fun s i h hok => h.step i hok)
    (fun s h => h.conserved) fun s i h hok => ?_
  cases i with
  | attempt a => exact not_conserved_of_not_ok h hok
  | append entry => exact absurd trivial hok
  | enqueue connected reply entry => exact absurd trivial hok
  | startPass now connected pop => exact absurd trivial hok

/-- Two entries with one `ts` whose inserts fail in one pass: the second overwrites the first. -/
theorem equalTs_not_conserved :
    ¬ Runs.Always (step (DlqSettings.inMemory {})) (Conserved {})
      (initial [⟨"EURUSD", "init", 1000, 0, 0⟩, ⟨"GBPUSD", "init", 1000, 0, 0⟩])
      (dlqRetryOnce 1 [{ insert := .error "db down" }, { insert := .error "db down" }]) := by
  intro h
  have hlost := h.last 0 _ rfl
  revert hlost
  decide +kernel

end Orchestrator.Dlq
