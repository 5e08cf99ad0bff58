import IctAlgo.Orchestrator.Dlq

/-!
# Attempts, step by step

What one step of the queue does to its references, to its pass and to the record of attempts, with
Redis or without.

* `fail_none`, `fail_some`, `attempt_cons`: an attempt as a chain of `changed`, `store` and `drop`.
* `Bounded`: all references are into the heap (`bounded_run`: in every queue that can be reached).
* `Attempted`: an entry was attempted; `attempt_pass`: an attempt takes the head off the pass.
-/

set_option autoImplicit false

namespace Orchestrator.Dlq

open Lib Lib.Runs

variable {δ : Type}

/-- The entry `r` was attempted. -/
def Attempted (s : Dlq δ) (r : ℕ) : Prop := ∃ e ∈ s.events, e.ref = r

instance (s : Dlq δ) (r : ℕ) : Decidable (s.Attempted r) :=
  inferInstanceAs (Decidable (∃ e ∈ s.events, _))

/-! ## Pieces of an attempt -/

/-- The queue when the next entry of the pass is taken up. -/
def popped (s : Dlq δ) (rest : List ℕ) : Dlq δ :=
  { s with pass := { s.pass with pending := rest } }

/-- The entry with the metadata of one more failure. -/
def failedEntry (entry : DlqEntry δ) (err : String) (next : ℚ) : DlqEntry δ :=
  { entry with attempts := entry.attempts + 1, error := err, nextAttemptTs := next }

section
variable (cfg : DlqSettings) (a : Attempt) (r : ℕ) (c : Cell δ) (s : Dlq δ)

/-- Put a failed entry back: into the Redis list or to its slot. -/
def store (entry : DlqEntry δ) : Dlq δ :=
  if cfg.redisInUse a.connected then
    if a.rpushed then { s with redis := s.redis ++ [some (c.origin, entry)] } else s
  else s.update r

/-- The queue with a failure recorded and the entry changed, not yet put back. -/
def changed (entry : DlqEntry δ) : Dlq δ :=
  { s.record r .failed with heap := s.heap.set r { c with entry := entry } }

variable [DecidableEq δ]

/-- Drop an entry. -/
def drop : Dlq δ :=
  if cfg.redisInUse a.connectedAtDrop then s.record r .dropped else (s.record r .dropped).remove r

variable {cfg c}

theorem fail_none {err : String} (hd : cfg.retryDelay (c.entry.attempts + 1) = none) :
    s.fail cfg a r c err = s.record r .failed := by
  simp only [fail, hd]

theorem fail_some {err : String} {delay : ℚ}
    (hd : cfg.retryDelay (c.entry.attempts + 1) = some delay) :
    s.fail cfg a r c err =
      let entry := failedEntry c.entry err (s.pass.now + delay)
      let t := store cfg a r c (s.changed r c entry) entry
      if ((c.entry.attempts + 1 : ℕ) : ℤ) ≥ cfg.maxRetries then t.drop cfg a r else t := by
  simp only [fail, hd]
  rfl

end

section
variable {cfg : DlqSettings} {a : Attempt} {s : Dlq δ} {r : ℕ} {c : Cell δ} {rest : List ℕ} {o : Outcome}

theorem mem_record {o : Outcome} {e : DlqEvent} (he : e ∈ (s.record r o).events) :
    e.ref = r ∨ e ∈ s.events := by
  rcases List.mem_append.1 he with he | he
  · exact Or.inr he
  · exact Or.inl (by rw [List.mem_singleton.1 he])

/-- A changed entry keeps its slot. -/
theorem sameSlot_set (heap : List (Cell δ)) (hc : heap[r]? = some c) (err : String) (next : ℚ) :
    sameSlot (heap.set r { c with entry := failedEntry c.entry err next }) r = sameSlot heap r := by
  obtain ⟨hlt, rfl⟩ := List.getElem?_eq_some_iff.1 hc
  funext q
  by_cases hq : q = r
  · simp [sameSlot, hq]
  · have hne : r ≠ q := Ne.symm hq
    simp [sameSlot, hq, hlt, List.getElem?_set_ne hne, failedEntry]

variable [DecidableEq δ]

/-- What an attempt at the head of the pass does. -/
theorem attempt_cons (hp : s.pass.pending = r :: rest) :
    s.attempt cfg a = match s.heap[r]? with
      | none => s.popped rest
      | some c =>
        if c.entry.nextAttemptTs > s.pass.now then s.popped rest
        else match a.insert with
          | .ok () => (s.popped rest).succeed cfg a r
          | .error err => (s.popped rest).fail cfg a r c err := by
  simp only [attempt, hp]
  rfl

theorem attempt_due (hp : s.pass.pending = r :: rest) (hc : s.heap[r]? = some c)
    (hdue : c.entry.nextAttemptTs ≤ s.pass.now) :
    s.attempt cfg a = match a.insert with
      | .ok () => (s.popped rest).succeed cfg a r
      | .error err => (s.popped rest).fail cfg a r c err := by
  rw [attempt_cons hp, hc]
  exact if_neg (not_lt.2 hdue)

end

/-! ## References -/

/-- All references are into the heap. -/
structure Bounded (s : Dlq δ) : Prop where
  queue : ∀ r ∈ s.persistDlq, r < s.heap.length
  pending : ∀ r ∈ s.pass.pending, r < s.heap.length
  events : ∀ e ∈ s.events, e.ref < s.heap.length

section
variable {s : Dlq δ} {r z : ℕ} {o : Outcome}

theorem Bounded.alloc (h : Bounded s) (entry : DlqEntry δ) (origin : ℕ) :
    Bounded (s.alloc entry origin) := by
  have hlen : (s.alloc entry origin).heap.length = s.heap.length + 1 := by simp [Dlq.alloc]
  constructor
  · intro r hr
    have := h.queue r hr
    omega
  · intro r hr
    have := h.pending r hr
    omega
  · intro e he
    have := h.events e he
    omega

theorem Bounded.append (h : Bounded s) (entry : DlqEntry δ) : Bounded (s.append entry) := by
  have ha := h.alloc entry s.heap.length
  refine ⟨fun r hr => ?_, ha.pending, ha.events⟩
  rcases List.mem_append.1 hr with hr | hr
  · exact ha.queue r hr
  · rw [List.mem_singleton.1 hr]
    simp [Dlq.append, Dlq.alloc]

theorem Bounded.record (h : Bounded s) (hr : r < s.heap.length) : Bounded (s.record r o) := by
  refine ⟨h.queue, h.pending, fun e he => ?_⟩
  rcases List.mem_append.1 he with he | he
  · exact h.events e he
  · rw [List.mem_singleton.1 he]
    exact hr

theorem Bounded.update (h : Bounded s) (hr : r < s.heap.length) : Bounded (s.update r) := by
  refine ⟨fun z hz => ?_, h.pending, h.events⟩
  rcases FirstMatch.mem_of_mem_replaceFirst hz with rfl | hz
  · exact hr
  · exact h.queue z hz

/-- A changed cell. -/
theorem Bounded.set (h : Bounded s) (c : Cell δ) : Bounded { s with heap := s.heap.set r c } := by
  constructor
  all_goals simp only [List.length_set]
  · exact h.queue
  · exact h.pending
  · exact h.events

theorem Bounded.remove [DecidableEq δ] (h : Bounded s) : Bounded (s.remove r) :=
  ⟨fun z hz => h.queue z (List.mem_of_mem_eraseP hz), h.pending, h.events⟩

end

section
variable {cfg : DlqSettings} {a : Attempt} {s : Dlq δ} {r : ℕ} {c : Cell δ}

theorem Bounded.changed (h : Bounded s) (hr : r < s.heap.length) (entry : DlqEntry δ) :
    Bounded (s.changed r c entry) :=
  (h.record hr).set _

theorem Bounded.store (h : Bounded s) (hr : r < s.heap.length) (entry : DlqEntry δ) :
    Bounded (s.store cfg a r c entry) := by
  unfold Dlq.store
  split
  · split
    · exact ⟨h.queue, h.pending, h.events⟩
    · exact h
  · exact h.update hr

theorem store_length (entry : DlqEntry δ) : (s.store cfg a r c entry).heap.length = s.heap.length := by
  unfold Dlq.store
  split
  · split <;> rfl
  · rfl

theorem Bounded.popped (h : Bounded s) {rest : List ℕ} (hp : s.pass.pending = r :: rest) :
    Bounded (s.popped rest) :=
  ⟨h.queue, fun z hz => h.pending z (by rw [hp]; exact List.mem_cons_of_mem r hz), h.events⟩

theorem Bounded.startPass (h : Bounded s) (now : ℚ) (connected : Bool) (pop : RedisReply) :
    Bounded (s.startPass cfg now connected pop) := by
  unfold Dlq.startPass
  split
  · exact h
  split
  · split
    · exact h
    · exact ⟨h.queue, h.queue, h.events⟩
    · exact h
    · exact ⟨h.queue, h.pending, h.events⟩
    · rename_i origin entry rest _
      have ha := h.alloc entry origin
      refine ⟨ha.queue, fun z hz => ?_, ha.events⟩
      rw [List.mem_singleton.1 hz]
      simp [Dlq.alloc]
  · exact ⟨h.queue, h.queue, h.events⟩

theorem Bounded.enqueue (h : Bounded s) (connected : Bool) (reply : RedisReply)
    (entry : DlqEntry δ) : Bounded (s.enqueue cfg connected reply entry) := by
  have ha := h.alloc entry s.heap.length
  unfold Dlq.enqueue
  split
  · split
    · exact ⟨ha.queue, ha.pending, ha.events⟩
    · exact h.append entry
    · exact ha
  · exact h.append entry

variable [DecidableEq δ]

theorem Bounded.drop (h : Bounded s) (hr : r < s.heap.length) : Bounded (s.drop cfg a r) := by
  unfold Dlq.drop
  split
  · exact h.record hr
  · exact (h.record hr).remove

theorem Bounded.fail {err : String} (h : Bounded s) (hr : r < s.heap.length) :
    Bounded (s.fail cfg a r c err) := by
  cases hd : cfg.retryDelay (c.entry.attempts + 1) with
  | none =>
    rw [fail_none a r s hd]
    exact h.record hr
  | some delay =>
    rw [fail_some a r s hd]
    have hlen (entry : DlqEntry δ) : r < (s.changed r c entry).heap.length := by
      simpa [Dlq.changed] using hr
    have hstore (entry : DlqEntry δ) : Bounded (Dlq.store cfg a r c (s.changed r c entry) entry) :=
      (h.changed hr entry).store (hlen entry) entry
    dsimp only
    split
    · refine (hstore _).drop ?_
      rw [store_length]
      exact hlen _
    · exact hstore _

theorem Bounded.succeed (h : Bounded s) (hr : r < s.heap.length) :
    Bounded (s.succeed cfg a r) := by
  have hrec : Bounded (s.record r .inserted) := h.record hr
  simp only [Dlq.succeed]
  split
  · exact hrec
  · exact hrec.remove

/-! ## Steps -/

theorem Bounded.attempt (h : Bounded s) : Bounded (s.attempt cfg a) := by
  rcases hp : s.pass.pending with _ | ⟨r, rest⟩
  · simpa only [Dlq.attempt, hp] using h
  have hr : r < s.heap.length := h.pending r (by rw [hp]; exact List.mem_cons_self)
  have hpop := h.popped hp
  rw [attempt_cons hp]
  split
  · exact hpop
  · split
    · exact hpop
    · split
      · exact hpop.succeed hr
      · exact hpop.fail hr

theorem Bounded.step (h : Bounded s) (i : Input δ) : Bounded (s.step cfg i) := by
  cases i with
  | append entry => exact h.append entry
  | enqueue connected reply entry => exact h.enqueue connected reply entry
  | startPass now connected pop => exact h.startPass now connected pop
  | attempt a => exact h.attempt

/-- Every queue that is reached from an empty one. -/
theorem bounded_run (cfg : DlqSettings) (inputs : List (Input δ)) :
    Bounded (run (step cfg) ({} : Dlq δ) inputs) := by
  refine run_inv inputs ⟨fun r hr => ?_, fun r hr => ?_, fun e he => ?_⟩ fun s i h => h.step i
  · cases hr
  · cases hr
  · cases he

end

/-! ## Attempts and the pass -/

section
variable {cfg : DlqSettings} {a : Attempt} {s : Dlq δ} {r z : ℕ} {c : Cell δ} {o : Outcome}
  {rest : List ℕ}

theorem attempted_record : (s.record z o).Attempted r ↔ z = r ∨ s.Attempted r := by
  simp [Attempted, record, List.mem_append, or_and_right, exists_or, or_comm, eq_comm]

theorem store_heap (entry : DlqEntry δ) : (s.store cfg a z c entry).heap = s.heap := by
  unfold Dlq.store
  split
  · split <;> rfl
  · rfl

theorem store_events (entry : DlqEntry δ) : (s.store cfg a z c entry).events = s.events := by
  unfold Dlq.store
  split
  · split <;> rfl
  · rfl

theorem attempted_store (entry : DlqEntry δ) :
    (s.store cfg a z c entry).Attempted r ↔ s.Attempted r := by
  unfold Attempted
  rw [store_events]

theorem store_pass (entry : DlqEntry δ) : (s.store cfg a z c entry).pass = s.pass := by
  unfold Dlq.store
  split
  · split <;> rfl
  · rfl

variable [DecidableEq δ]

theorem attempted_drop (h : s.Attempted r) : (s.drop cfg a z).Attempted r := by
  unfold Dlq.drop
  split <;> exact attempted_record.2 (Or.inr h)

theorem attempted_succeed (h : z = r ∨ s.Attempted r) : (s.succeed cfg a z).Attempted r := by
  simp only [Dlq.succeed]
  split <;> exact attempted_record.2 h

theorem attempted_fail {err : String} (h : z = r ∨ s.Attempted r) :
    (s.fail cfg a z c err).Attempted r := by
  have hrec : (s.record z .failed).Attempted r := attempted_record.2 h
  cases hd : cfg.retryDelay (c.entry.attempts + 1) with
  | none => rwa [fail_none a z s hd]
  | some delay =>
    rw [fail_some a z s hd]
    dsimp only
    split
    · exact attempted_drop ((attempted_store _).2 hrec)
    · exact (attempted_store _).2 hrec

theorem Attempted.attempt (h : s.Attempted r) : (s.attempt cfg a).Attempted r := by
  rcases hp : s.pass.pending with _ | ⟨z, rest⟩
  · simpa only [Dlq.attempt, hp] using h
  have hpop : (s.popped rest).Attempted r := h
  rw [attempt_cons hp]
  split
  · exact hpop
  split
  · exact hpop
  split
  · exact attempted_succeed (Or.inr hpop)
  · exact attempted_fail (Or.inr hpop)

theorem drop_pass : (s.drop cfg a z).pass = s.pass := by
  unfold Dlq.drop
  split <;> rfl

theorem succeed_pass : (s.succeed cfg a z).pass = s.pass := by
  simp only [Dlq.succeed]
  split <;> rfl

theorem fail_pass {err : String} : (s.fail cfg a z c err).pass = s.pass := by
  cases hd : cfg.retryDelay (c.entry.attempts + 1) with
  | none =>
    rw [fail_none a z s hd]
    rfl
  | some delay =>
    rw [fail_some a z s hd]
    dsimp only
    split
    · rw [drop_pass, store_pass]
      rfl
    · rw [store_pass]
      rfl

/-- An attempt takes the head off the pass, and does nothing else to it. -/
theorem attempt_pass (cfg : DlqSettings) (a : Attempt) (hp : s.pass.pending = z :: rest) :
    (s.attempt cfg a).pass = ⟨s.pass.now, rest⟩ := by
  rw [attempt_cons hp]
  split
  · rfl
  split
  · rfl
  split
  · exact succeed_pass
  · exact fail_pass

end

end Orchestrator.Dlq
