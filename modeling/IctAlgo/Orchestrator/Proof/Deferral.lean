import IctAlgo.Orchestrator.Policy
import IctAlgo.Orchestrator.Proof.Attempts

/-!
# Deferred decisions and their retry

The policy gate enqueues a deferred decision with its cooldown, in milliseconds, as
`next_attempt_ts`; a retry pass compares that field with a clock in seconds.

* `Waiting`: the entry is queued, untried and due at a given clock reading.
* `OnTime`: no pass before the end of the cooldown attempts the entry, the first one at or after it
  does.
* `onTime_iff`: as long as the attempts spare the entry (`Spared`), it is retried on time exactly
  when every pass is on the same side of the cooldown in both units (`UnitsAgree`).
* `deferred_onTime_iff`: the same of a decision the gate defers.
-/

set_option autoImplicit false

namespace Orchestrator

open Lib Lib.Runs

namespace Dlq

variable {δ : Type}

/-! ## Passes -/

/-- The attempts of a pass with `n` entries left. Before each, other entries may be enqueued. -/
def turns (f : ℕ → List (DlqEntry δ) × Attempt) : ℕ → List (Input δ)
  | 0 => []
  | n + 1 => (f n).1.map .append ++ .attempt (f n).2 :: turns f n

/-- A call of `_dlq_retry_once`, and the attempts a pass that runs already makes before it. -/
structure RetryPass (δ : Type) where
  running : ℕ → List (DlqEntry δ) × Attempt
  now : ℚ
  connected : Bool := false
  pop : RedisReply := .ok
  own : ℕ → List (DlqEntry δ) × Attempt

/-- The pass takes up the queue in memory. -/
def RetryPass.readsMemory (p : RetryPass δ) (cfg : DlqSettings) : Prop :=
  cfg.redisInUse p.connected = false ∨ p.pop = .failed

instance (p : RetryPass δ) (cfg : DlqSettings) : Decidable (p.readsMemory cfg) :=
  inferInstanceAs (Decidable (_ ∨ _))

section
variable [DecidableEq δ] (cfg : DlqSettings)

/-- The steps up to the start of the pass. -/
def RetryPass.start (p : RetryPass δ) (s : Dlq δ) : List (Input δ) :=
  turns p.running s.pass.pending.length ++ [.startPass p.now p.connected p.pop]

/-- The steps of the pass. -/
def RetryPass.inputs (p : RetryPass δ) (s : Dlq δ) : List (Input δ) :=
  p.start s ++ turns p.own (run (step cfg) s (p.start s)).pass.pending.length

/-- The queue after the pass. -/
def retry (s : Dlq δ) (p : RetryPass δ) : Dlq δ := run (step cfg) s (p.inputs cfg s)

/-- An entry with a cooldown of `cooldown` milliseconds is not attempted in the passes before its
end, and is attempted in the first pass that is not before it. -/
def OnTime (cooldown : ℤ) (r : ℕ) : Dlq δ → List (RetryPass δ) → Prop
  | _, [] => True
  | s, p :: ps =>
    if 1000 * p.now < cooldown then
      ¬ (s.retry cfg p).Attempted r ∧ OnTime cooldown r (s.retry cfg p) ps
    else (s.retry cfg p).Attempted r

instance OnTime.decidable (cooldown : ℤ) (r : ℕ) :
    ∀ (s : Dlq δ) (ps : List (RetryPass δ)), Decidable (OnTime cfg cooldown r s ps)
  | _, [] => .isTrue trivial
  | s, p :: ps =>
    have := decidable cooldown r (s.retry cfg p) ps
    inferInstanceAs (Decidable (if 1000 * p.now < cooldown then
      ¬ (s.retry cfg p).Attempted r ∧ OnTime cfg cooldown r (s.retry cfg p) ps
      else (s.retry cfg p).Attempted r))

/-- Up to the first pass at or after the end of the cooldown, the passes that take up the queue in
memory are on the same side of the cooldown in seconds as in milliseconds, and that first pass is
one of them. -/
def UnitsAgree (cooldown : ℤ) : List (RetryPass δ) → Prop
  | [] => True
  | p :: ps =>
    if 1000 * p.now < cooldown then (p.readsMemory cfg → p.now < cooldown) ∧ UnitsAgree cooldown ps
    else p.readsMemory cfg ∧ cooldown ≤ p.now

instance UnitsAgree.decidable (cooldown : ℤ) :
    ∀ ps : List (RetryPass δ), Decidable (UnitsAgree cfg cooldown ps)
  | [] => .isTrue trivial
  | p :: ps =>
    have := decidable cooldown ps
    inferInstanceAs (Decidable (if 1000 * p.now < cooldown then
      (p.readsMemory cfg → p.now < cooldown) ∧ UnitsAgree cfg cooldown ps
      else p.readsMemory cfg ∧ cooldown ≤ p.now))

/-- The search after an insert of the entry `z`, in the cell `c`, does not find `r`. -/
def Misses (r : ℕ) (s : Dlq δ) (z : ℕ) (c : Cell δ) : Except String Unit → Prop
  | .ok () => s.persistDlq.find? (sameEntry s.heap z) ≠ some r
  | .error _ => cfg.retryDelay (c.entry.attempts + 1) ≠ none →
      s.persistDlq.find? (sameSlot s.heap z) ≠ some r

/-- An attempt at another entry leaves `r` in its place. -/
def Spares (r : ℕ) (s : Dlq δ) (a : Attempt) : Prop :=
  ∀ z ∈ s.pass.pending.head?, z ≠ r → ∀ c ∈ s.heap[z]?, c.entry.nextAttemptTs ≤ s.pass.now →
    cfg.redisInUse a.connected = false → Misses cfg r s z c a.insert

def SparesInput (r : ℕ) (s : Dlq δ) : Input δ → Prop
  | .attempt a => Spares cfg r s a
  | _ => True

instance (r : ℕ) (s : Dlq δ) (z : ℕ) (c : Cell δ) :
    ∀ reply, Decidable (Misses cfg r s z c reply)
  | .ok () => inferInstanceAs (Decidable (_ ≠ _))
  | .error _ => inferInstanceAs (Decidable (_ → _))

instance (r : ℕ) (s : Dlq δ) : ∀ i, Decidable (SparesInput cfg r s i)
  | .attempt _ => inferInstanceAs (Decidable (∀ _ ∈ _, _))
  | .append _ | .enqueue .. | .startPass .. => inferInstanceAs (Decidable True)

/-- Every attempt of the passes spares `r`. -/
def Spared (r : ℕ) : Dlq δ → List (RetryPass δ) → Prop
  | _, [] => True
  | s, p :: ps =>
    Within (step cfg) (SparesInput cfg r) s (p.inputs cfg s) ∧ Spared r (s.retry cfg p) ps

instance Spared.decidable (r : ℕ) :
    ∀ (s : Dlq δ) (ps : List (RetryPass δ)), Decidable (Spared cfg r s ps)
  | _, [] => .isTrue trivial
  | s, p :: ps => @instDecidableAnd _ _ _ (decidable r (s.retry cfg p) ps)

end

/-! ## Waiting entries -/

/-- The entry `r` is queued, untried and due at the clock reading `due`. -/
structure Waiting (due : ℚ) (s : Dlq δ) (r : ℕ) : Prop where
  cell : ∃ c, s.heap[r]? = some c ∧ c.entry.nextAttemptTs = due ∧ c.entry.attempts = 0
  queued : r ∈ s.persistDlq
  untried : ¬ s.Attempted r

section
variable {due : ℚ} {cfg : DlqSettings} {a : Attempt} {s : Dlq δ} {r z : ℕ} {c : Cell δ} {o : Outcome}
  {rest : List ℕ} {p : RetryPass δ}

theorem Waiting.lt (h : Waiting due s r) : r < s.heap.length := by
  obtain ⟨c, hc, -⟩ := h.cell
  exact (List.getElem?_eq_some_iff.1 hc).1

theorem Waiting.alloc (h : Waiting due s r) (entry : DlqEntry δ) (origin : ℕ) :
    Waiting due (s.alloc entry origin) r := by
  obtain ⟨c, hc, hdue⟩ := h.cell
  exact ⟨⟨c, by rw [Dlq.alloc, List.getElem?_append_left h.lt, hc], hdue⟩, h.queued, h.untried⟩

theorem Waiting.append (h : Waiting due s r) (entry : DlqEntry δ) :
    Waiting due (s.append entry) r := by
  have ha := h.alloc entry s.heap.length
  exact ⟨ha.cell, List.mem_append_left _ h.queued, ha.untried⟩

theorem Waiting.popped (h : Waiting due s r) (rest : List ℕ) : Waiting due (s.popped rest) r :=
  ⟨h.cell, h.queued, h.untried⟩

theorem Waiting.record (h : Waiting due s r) (hz : z ≠ r) : Waiting due (s.record z o) r := by
  refine ⟨h.cell, h.queued, fun hr => ?_⟩
  rcases attempted_record.1 hr with hr | hr
  · exact hz hr
  · exact h.untried hr

theorem Waiting.changed (h : Waiting due s r) (hz : z ≠ r) (entry : DlqEntry δ) :
    Waiting due (s.changed z c entry) r := by
  have hrec := h.record (o := .failed) hz
  obtain ⟨c', hc', hdue⟩ := h.cell
  refine ⟨⟨c', ?_, hdue⟩, hrec.queued, hrec.untried⟩
  show (s.heap.set z _)[r]? = _
  rw [List.getElem?_set_ne hz, hc']

theorem Waiting.store (h : Waiting due s r) (entry : DlqEntry δ)
    (hne : cfg.redisInUse a.connected = false → s.persistDlq.find? (sameSlot s.heap z) ≠ some r) :
    Waiting due (s.store cfg a z c entry) r := by
  unfold Dlq.store
  split
  · split
    · exact ⟨h.cell, h.queued, h.untried⟩
    · exact h
  · rename_i hredis
    have hne := hne (by simpa using hredis)
    exact ⟨h.cell, FirstMatch.mem_replaceFirst h.queued hne, h.untried⟩

/-- The start of a pass, when none runs. -/
theorem Waiting.startPass (h : Waiting due s r) (cfg : DlqSettings) (p : RetryPass δ)
    (hp : s.pass.pending = []) :
    Waiting due (s.startPass cfg p.now p.connected p.pop) r ∧
      (p.readsMemory cfg →
        (s.startPass cfg p.now p.connected p.pop).pass = ⟨p.now, s.persistDlq⟩) ∧
      (¬ p.readsMemory cfg → r ∉ (s.startPass cfg p.now p.connected p.pop).pass.pending) := by
  have hsame : Waiting due { s with pass := ⟨p.now, s.persistDlq⟩ } r :=
    ⟨h.cell, h.queued, h.untried⟩
  have hout : r ∉ s.pass.pending := by simp [hp]
  simp only [Dlq.startPass, hp, ne_eq, not_true_eq_false, ↓reduceIte, RetryPass.readsMemory]
  split
  · rename_i hredis
    simp only [hredis, Bool.true_eq_false, false_or]
    rcases hpop : p.pop with _ | _ | _
    · rcases s.redis with _ | ⟨item, redis⟩
      · exact ⟨h, fun hf => (by cases hf), fun _ => hout⟩
      · rcases item with _ | ⟨origin, entry⟩
        · exact ⟨⟨h.cell, h.queued, h.untried⟩, fun hf => (by cases hf), fun _ => hout⟩
        · have ha := h.alloc entry origin
          refine ⟨⟨ha.cell, ha.queued, ha.untried⟩, fun hf => (by cases hf), fun _ hmem => ?_⟩
          have hlt := h.lt
          rw [List.mem_singleton.1 hmem] at hlt
          exact Nat.lt_irrefl _ hlt
    · exact ⟨hsame, fun _ => rfl, fun hf => absurd rfl hf⟩
    · exact ⟨h, fun hf => (by cases hf), fun _ => hout⟩
  · rename_i hredis
    exact ⟨hsame, fun _ => rfl, fun hf => absurd (Or.inl (by simpa using hredis)) hf⟩

variable [DecidableEq δ]

theorem Waiting.remove (h : Waiting due s r)
    (hne : s.persistDlq.find? (sameEntry s.heap z) ≠ some r) : Waiting due (s.remove z) r :=
  ⟨h.cell, FirstMatch.mem_eraseP h.queued hne, h.untried⟩

/-- An entry that was tried is dropped: it is not equal to one that was not. -/
theorem Waiting.drop (h : Waiting due s r) (hz : z ≠ r) (hc : s.heap[z]? = some c)
    (htried : c.entry.attempts ≠ 0) : Waiting due (s.drop cfg a z) r := by
  have hrec := h.record (o := .dropped) hz
  unfold Dlq.drop
  split
  · exact hrec
  · refine hrec.remove fun hfind => htried ?_
    obtain ⟨c', hc', -, hattempts⟩ := h.cell
    have heq := List.find?_some hfind
    have hheap : (s.record z .dropped).heap = s.heap := rfl
    simp only [sameEntry, hheap, hz.symm, hc, hc', Option.map_some, Option.some.injEq, false_or,
      decide_eq_true_eq] at heq
    rw [← heq, hattempts]

theorem Waiting.succeed (h : Waiting due s r) (hz : z ≠ r)
    (hne : cfg.redisInUse a.connected = false →
      s.persistDlq.find? (sameEntry s.heap z) ≠ some r) :
    Waiting due (s.succeed cfg a z) r := by
  have hrec := h.record (o := .inserted) hz
  simp only [Dlq.succeed]
  split
  · exact hrec
  · rename_i hredis
    exact hrec.remove (hne (by simpa using hredis))

theorem Waiting.fail {err : String} (h : Waiting due s r) (hz : z ≠ r) (hc : s.heap[z]? = some c)
    (hne : cfg.redisInUse a.connected = false → cfg.retryDelay (c.entry.attempts + 1) ≠ none →
      s.persistDlq.find? (sameSlot s.heap z) ≠ some r) :
    Waiting due (s.fail cfg a z c err) r := by
  cases hd : cfg.retryDelay (c.entry.attempts + 1) with
  | none =>
    rw [fail_none a z s hd]
    exact h.record hz
  | some delay =>
    rw [fail_some a z s hd]
    have hstore : Waiting due (Dlq.store cfg a z c (s.changed z c
        (failedEntry c.entry err (s.pass.now + delay)))
        (failedEntry c.entry err (s.pass.now + delay))) r := by
      refine (h.changed hz _).store _ fun hredis => ?_
      have hslot := sameSlot_set s.heap hc err (s.pass.now + delay)
      show s.persistDlq.find? (sameSlot (s.heap.set z _) z) ≠ some r
      rw [hslot]
      exact hne hredis (by simp [hd])
    dsimp only
    split
    · refine hstore.drop hz (c := { c with
        entry := failedEntry c.entry err (s.pass.now + delay) }) ?_ (by simp [failedEntry])
      rw [store_heap]
      exact List.getElem?_set_self (List.getElem?_eq_some_iff.1 hc).1
    · exact hstore

/-- An attempt that does not process `r` leaves it waiting. -/
theorem Waiting.attempt (h : Waiting due s r) (hp : s.pass.pending = z :: rest)
    (hs : Spares cfg r s a) (hr : z = r → s.pass.now < due) :
    Waiting due (s.attempt cfg a) r := by
  rw [attempt_cons hp]
  have hpop := h.popped rest
  split
  · exact hpop
  · rename_i c hc
    split
    · exact hpop
    · rename_i hlate
      have hz : z ≠ r := by
        rintro rfl
        obtain ⟨c', hc', hdue, -⟩ := h.cell
        obtain rfl := Option.some.inj (hc.symm.trans hc')
        exact hlate (hdue ▸ hr rfl)
      have hs := hs z (by simp [hp]) hz c hc (not_lt.1 hlate)
      split
      · rename_i hi
        rw [hi] at hs
        exact hpop.succeed hz hs
      · rename_i hi
        rw [hi] at hs
        exact hpop.fail hz hc hs

/-- An attempt at an entry that is due. -/
theorem Waiting.attempted (h : Waiting due s r) (hp : s.pass.pending = r :: rest)
    (hdue : due ≤ s.pass.now) : (s.attempt cfg a).Attempted r := by
  obtain ⟨c, hc, rfl, -⟩ := h.cell
  rw [attempt_due hp hc hdue]
  split
  · exact attempted_succeed (Or.inl rfl)
  · exact attempted_fail (Or.inl rfl)

/-! ## Passes -/

variable {f : ℕ → List (DlqEntry δ) × Attempt} {n : ℕ} {I : Dlq δ → Prop}

/-- What an enqueue keeps holds after several. -/
theorem appends_inv (happend : ∀ s entry, I s → I (s.append entry)) (es : List (DlqEntry δ))
    (h : I s) : I (run (step cfg) s (es.map .append)) := by
  induction es generalizing s with
  | nil => exact h
  | cons entry es ih => exact ih (happend s entry h)

/-- What enqueues and the attempts keep holds after the attempts of a pass. -/
theorem turns_inv (n : ℕ) (h : I s) (happend : ∀ s entry, I s → I (s.append entry))
    (hattempt : ∀ s n, I s → I (s.attempt cfg (f n).2)) : I (run (step cfg) s (turns f n)) := by
  induction n generalizing s with
  | zero => exact h
  | succ n ih =>
    simp only [Dlq.turns, run_append, run_cons]
    exact ih (hattempt _ n (appends_inv happend (f n).1 h))

theorem Attempted.turns (h : s.Attempted r) : (run (step cfg) s (turns f n)).Attempted r :=
  turns_inv (I := fun t => t.Attempted r) n h (fun _ _ h => h) fun _ _ h => h.attempt

/-- One turn of a pass: what is enqueued before it is not in it, and the attempt takes its head
off. -/
theorem turn_pass (cfg : DlqSettings) (es : List (DlqEntry δ)) (a : Attempt)
    (hp : s.pass.pending = z :: rest) :
    (run (step cfg) s (es.map .append)).pass = s.pass ∧
      (Dlq.attempt cfg a (run (step cfg) s (es.map .append))).pass = ⟨s.pass.now, rest⟩ := by
  have hpass : (run (step cfg) s (es.map .append)).pass = s.pass :=
    appends_inv (I := fun t => t.pass = s.pass) (fun _ _ h => h) es rfl
  have hafter := attempt_pass cfg a
    (show (run (step cfg) s (es.map .append)).pass.pending = z :: rest by rw [hpass, hp])
  rw [hpass] at hafter
  exact ⟨hpass, hafter⟩

/-- A pass has as many attempts as entries. -/
theorem turns_pending (hn : s.pass.pending.length = n) :
    (run (step cfg) s (turns f n)).pass = ⟨s.pass.now, []⟩ := by
  induction n generalizing s with
  | zero =>
    show s.pass = _
    rw [← List.length_eq_zero_iff.1 hn]
  | succ n ih =>
    obtain ⟨z, rest, hp⟩ := List.exists_cons_of_length_eq_add_one hn
    simp only [Dlq.turns, run_append, run_cons]
    obtain ⟨-, hafter⟩ := turn_pass cfg (f n).1 (f n).2 hp
    have hlen : (Dlq.attempt cfg (f n).2 (run (step cfg) s ((f n).1.map .append))).pass.pending.length =
        n := by
      rw [hafter]
      simpa [hp] using hn
    rw [show step cfg _ (.attempt (f n).2) = Dlq.attempt cfg (f n).2 _ from rfl, ih hlen, hafter]

/-- The attempts of a pass that `r` is not in, or is too early for, leave it waiting. -/
theorem Waiting.turns (h : Waiting due s r) (hn : s.pass.pending.length = n)
    (hs : Within (step cfg) (SparesInput cfg r) s (turns f n))
    (hr : r ∈ s.pass.pending → s.pass.now < due) :
    Waiting due (run (step cfg) s (Dlq.turns f n)) r ∧
      (run (step cfg) s (Dlq.turns f n)).pass.pending = [] := by
  refine ⟨?_, by rw [turns_pending hn]⟩
  induction n generalizing s with
  | zero => exact h
  | succ n ih =>
    obtain ⟨z, rest, hp⟩ := List.exists_cons_of_length_eq_add_one hn
    have hrest : rest.length = n := by simpa [hp] using hn
    simp only [Dlq.turns, run_append, run_cons, within_append, Within] at hs ⊢
    obtain ⟨-, hspare, hs⟩ := hs
    have happ : Waiting due (run (step cfg) s ((f n).1.map .append)) r :=
      appends_inv (I := fun t => Waiting due t r) (fun _ entry h => h.append entry) (f n).1 h
    obtain ⟨hpass, hafter⟩ := turn_pass cfg (f n).1 (f n).2 hp
    refine ih (happ.attempt (by rw [hpass, hp]) hspare fun hz => ?_) ?_ hs fun hmem => ?_
    · rw [hpass]
      exact hr (by rw [hp, hz]; exact List.mem_cons_self)
    · show (Dlq.attempt cfg (f n).2 _).pass.pending.length = n
      rw [hafter]
      exact hrest
    · change r ∈ (Dlq.attempt cfg (f n).2 _).pass.pending at hmem
      show (Dlq.attempt cfg (f n).2 _).pass.now < due
      rw [hafter] at hmem ⊢
      exact hr (by rw [hp]; exact List.mem_cons_of_mem z hmem)

/-- The attempts of a pass that `r` is in and due for come to it. -/
theorem Waiting.turns_attempted (h : Waiting due s r) (hn : s.pass.pending.length = n)
    (hs : Within (step cfg) (SparesInput cfg r) s (Dlq.turns f n)) (hr : r ∈ s.pass.pending)
    (hdue : due ≤ s.pass.now) : (run (step cfg) s (Dlq.turns f n)).Attempted r := by
  induction n generalizing s with
  | zero => simp [List.length_eq_zero_iff.1 hn] at hr
  | succ n ih =>
    obtain ⟨z, rest, hp⟩ := List.exists_cons_of_length_eq_add_one hn
    have hrest : rest.length = n := by simpa [hp] using hn
    simp only [Dlq.turns, run_append, run_cons, within_append, Within] at hs ⊢
    obtain ⟨-, hspare, hs⟩ := hs
    have happ : Waiting due (run (step cfg) s ((f n).1.map .append)) r :=
      appends_inv (I := fun t => Waiting due t r) (fun _ entry h => h.append entry) (f n).1 h
    obtain ⟨hpass, hafter⟩ := turn_pass cfg (f n).1 (f n).2 hp
    have hp' : (run (step cfg) s ((f n).1.map .append)).pass.pending = z :: rest := by
      rw [hpass, hp]
    by_cases hz : z = r
    · subst hz
      exact Attempted.turns (happ.attempted hp' (by rw [hpass]; exact hdue))
    · refine ih (happ.attempt hp' hspare fun heq => absurd heq hz) ?_ hs ?_ ?_
      · show (Dlq.attempt cfg (f n).2 _).pass.pending.length = n
        rw [hafter]
        exact hrest
      · show r ∈ (Dlq.attempt cfg (f n).2 _).pass.pending
        rw [hafter]
        rw [hp] at hr
        exact (List.mem_cons.1 hr).resolve_left fun heq => hz heq.symm
      · show due ≤ (Dlq.attempt cfg (f n).2 _).pass.now
        rw [hafter]
        exact hdue

variable {ps : List (RetryPass δ)}

/-- A pass attempts a waiting entry exactly when it takes up the queue in memory and the entry is
due. -/
theorem Waiting.retry (h : Waiting due s r) (hr : r ∉ s.pass.pending)
    (hs : Within (step cfg) (SparesInput cfg r) s (p.inputs cfg s)) :
    if p.readsMemory cfg ∧ due ≤ p.now then (s.retry cfg p).Attempted r
    else Waiting due (s.retry cfg p) r ∧ r ∉ (s.retry cfg p).pass.pending := by
  simp only [RetryPass.inputs, RetryPass.start, within_append, run_append, Dlq.retry] at hs ⊢
  obtain ⟨⟨hs, -⟩, hsOwn⟩ := hs
  -- The pass that runs already ends; `r` is not in it.
  obtain ⟨hwait, hidle⟩ := h.turns rfl hs fun hmem => absurd hmem hr
  generalize run (step cfg) s (Dlq.turns p.running s.pass.pending.length) = t at hwait hidle hsOwn ⊢
  obtain ⟨hstart, hreads, hnot⟩ := hwait.startPass cfg p hidle
  change Within (step cfg) _ (t.startPass cfg p.now p.connected p.pop)
    (Dlq.turns p.own (t.startPass cfg p.now p.connected p.pop).pass.pending.length) at hsOwn
  show if _ then Attempted (run (step cfg) (t.startPass cfg p.now p.connected p.pop)
      (Dlq.turns p.own (t.startPass cfg p.now p.connected p.pop).pass.pending.length)) r
    else Waiting due (run (step cfg) (t.startPass cfg p.now p.connected p.pop)
      (Dlq.turns p.own (t.startPass cfg p.now p.connected p.pop).pass.pending.length)) r ∧ _
  split
  · rename_i hdue
    have hpass := hreads hdue.1
    refine hstart.turns_attempted rfl hsOwn ?_ ?_
    · rw [hpass]
      exact hwait.queued
    · rw [hpass]
      exact hdue.2
  · rename_i hdue
    obtain ⟨hw, hdone⟩ := hstart.turns rfl hsOwn fun hmem => by
      have hmemory : p.readsMemory cfg := by
        by_contra hn
        exact hnot hn hmem
      rw [hreads hmemory]
      exact not_le.1 fun hle => hdue ⟨hmemory, hle⟩
    refine ⟨hw, ?_⟩
    show r ∉ (run (step cfg) (t.startPass cfg p.now p.connected p.pop)
      (Dlq.turns p.own (t.startPass cfg p.now p.connected p.pop).pass.pending.length)).pass.pending
    rw [hdone]
    exact List.not_mem_nil

/-- **A waiting entry is retried on time exactly when its cooldown reads the same in both units at
every pass.** -/
theorem onTime_iff {cooldown : ℤ} (h : Waiting cooldown s r) (hr : r ∉ s.pass.pending)
    (hs : Spared cfg r s ps) : OnTime cfg cooldown r s ps ↔ UnitsAgree cfg cooldown ps := by
  induction ps generalizing s with
  | nil => simp [OnTime, UnitsAgree]
  | cons p ps ih =>
    have hpass := h.retry hr hs.1
    unfold OnTime UnitsAgree
    by_cases hearly : 1000 * p.now < cooldown
    · simp only [hearly, ↓reduceIte]
      by_cases hdue : p.readsMemory cfg ∧ (cooldown : ℚ) ≤ p.now
      · rw [if_pos hdue] at hpass
        refine ⟨fun hon => absurd hpass hon.1, fun hagree => ?_⟩
        exact absurd hdue.2 (not_le.2 (hagree.1 hdue.1))
      · rw [if_neg hdue] at hpass
        have hbefore : p.readsMemory cfg → p.now < (cooldown : ℚ) := fun hm =>
          not_le.1 fun hle => hdue ⟨hm, hle⟩
        rw [ih hpass.1 hpass.2 hs.2]
        exact ⟨fun hon => ⟨hbefore, hon.2⟩, fun hagree => ⟨hpass.1.untried, hagree.2⟩⟩
    · simp only [hearly, ↓reduceIte]
      by_cases hdue : p.readsMemory cfg ∧ (cooldown : ℚ) ≤ p.now
      · rw [if_pos hdue] at hpass
        exact ⟨fun _ => hdue, fun _ => hpass⟩
      · rw [if_neg hdue] at hpass
        exact ⟨fun hon => absurd hon hpass.1.untried, fun hagree => absurd hagree hdue⟩

end

end Dlq

/-! ## Decisions the gate defers -/

open Dlq

section
variable {cv : Conv} {cfg : GateConfig} {env : GateEnv} {snapshot : Payload} {d : Fields} {s : Orch}
  {cooldown : ℤ}

theorem loadAllowlist_dlq : (s.loadAllowlist cfg env).dlq = s.dlq := by
  simp only [Orch.loadAllowlist]
  split
  · split <;> rfl
  · rfl

theorem cooldown_later (h : cooldown? cv env d = some cooldown) : env.nowMs < cooldown := by
  have hlater := (Option.filter_eq_some_iff.1 h).2
  simp only [decide_eq_true_eq] at hlater
  exact hlater.2

theorem checkOutcomes_ne_defer : (checkOutcomes cv cfg env d s).1 ≠ .defer cooldown := by
  unfold checkOutcomes
  split
  · simp
  split
  · simp
  dsimp only
  split <;> simp

/-- A deferral comes from the cooldown. -/
theorem checkSnapshot_defer (h : (checkSnapshot cv cfg env d s).1 = .defer cooldown) :
    cooldown? cv env d = some cooldown ∧
      (checkSnapshot cv cfg env d s).2.2 = s.deferred cooldown env.ts d := by
  unfold checkSnapshot at h ⊢
  split at h
  · cases h
  split at h
  · rename_i _ heq
    cases h
    exact ⟨heq, rfl⟩
  split at h
  · cases h
  · exact absurd h checkOutcomes_ne_defer

/-- What the gate enqueues with a deferral, for a cooldown that is later than now. -/
theorem deferred_dlq (h : (preReasoningPolicyCheck cv cfg env snapshot s).1 = .defer cooldown) :
    env.nowMs < cooldown ∧ ∃ d, snapshot = .dict d ∧
      (preReasoningPolicyCheck cv cfg env snapshot s).2.2.dlq =
        s.dlq.append ⟨d, "policy_defer", env.ts, 0, cooldown⟩ := by
  unfold preReasoningPolicyCheck at h ⊢
  split at h
  · cases h
  split at h
  · cases h
  · rename_i hmode _ d
    obtain ⟨hcooldown, hafter⟩ := checkSnapshot_defer h
    refine ⟨cooldown_later hcooldown, d, rfl, ?_⟩
    rw [if_neg hmode]
    dsimp only
    rw [hafter]
    show (s.loadAllowlist cfg env).dlq.append _ = _
    rw [loadAllowlist_dlq]

/-- The gate, for an orchestrator with the dead letters `dlq`. -/
def gateWith (cv : Conv) (cfg : GateConfig) (env : GateEnv) (snapshot : Payload) (s : Orch)
    (dlq : Dlq Fields) : GateResult × Payload × Orch :=
  preReasoningPolicyCheck cv cfg env snapshot { s with dlq := dlq }

/-- **A decision the gate defers is retried on time exactly when its cooldown reads the same in
seconds and in milliseconds at every pass.** The queue before is any that can be reached. -/
theorem deferred_onTime_iff (cv : Conv) (cfg : GateConfig) (env : GateEnv) (snapshot : Payload)
    (s : Orch) (dcfg : DlqSettings) (inputs : List (Input Fields)) (cooldown : ℤ)
    (ps : List (RetryPass Fields))
    (hdefer : (gateWith cv cfg env snapshot s (run (step dcfg) {} inputs)).1 = .defer cooldown)
    (hspared : Spared dcfg (run (step dcfg) {} inputs).heap.length
      (gateWith cv cfg env snapshot s (run (step dcfg) {} inputs)).2.2.dlq ps) :
    OnTime dcfg cooldown (run (step dcfg) {} inputs).heap.length
        (gateWith cv cfg env snapshot s (run (step dcfg) {} inputs)).2.2.dlq ps ↔
      UnitsAgree dcfg cooldown ps := by
  obtain ⟨-, d, -, hdlq⟩ := deferred_dlq hdefer
  have hbound := bounded_run dcfg inputs
  have hcell : (gateWith cv cfg env snapshot s (run (step dcfg) {} inputs)).2.2.dlq =
      (run (step dcfg) {} inputs).append ⟨d, "policy_defer", env.ts, 0, cooldown⟩ := hdlq
  rw [hcell] at hspared ⊢
  generalize run (step dcfg) ({} : Dlq Fields) inputs = q at hbound hspared ⊢
  have hwait : Waiting cooldown (q.append ⟨d, "policy_defer", env.ts, 0, cooldown⟩)
      q.heap.length := by
    refine ⟨⟨_, List.getElem?_concat_length, rfl, rfl⟩, ?_, ?_⟩
    · exact List.mem_append_right _ List.mem_cons_self
    · intro h
      obtain ⟨e, he, heq⟩ := h
      have hlt := hbound.events e he
      omega
  exact onTime_iff hwait (fun hmem => Nat.lt_irrefl _ (hbound.pending _ hmem)) hspared

/-- A decision with a marker for a cooldown of a minute. -/
def coolingDown : Fields :=
  (Dict.empty.set "symbol" (.str "TST")).set "cooldown_until" (.int 1700000060000)

/-- The gate at the start of that minute. -/
def atStart : GateEnv := defaultPolicies .plain 1700000000000

/-- A pass in which every insert succeeds. -/
def quietPass (now : ℚ) : RetryPass Fields where
  running _ := ([], { insert := .ok () })
  now := now
  own _ := ([], { insert := .ok () })

/-- A minute after the cooldown the decision is still not retried. -/
theorem coolingDown_missed :
    (gateWith .plain { permissive := false } atStart (.dict coolingDown) {} {}).1 =
        .defer 1700000060000 ∧
      ¬ OnTime {} 1700000060000 0
        (gateWith .plain { permissive := false } atStart (.dict coolingDown) {} {}).2.2.dlq
        [quietPass 1700000120] := by
  decide +kernel

theorem coolingDown_early :
    OnTime {} 1700000060000 0
      (gateWith .plain { permissive := false } atStart (.dict coolingDown) {} {}).2.2.dlq
      [quietPass 1700000030, quietPass 1700000059] :=
  (deferred_onTime_iff .plain { permissive := false } atStart (.dict coolingDown) {} {} []
    1700000060000 [quietPass 1700000030, quietPass 1700000059] (by decide +kernel)
    (by decide +kernel)).2 (by decide +kernel)

end

end Orchestrator
