import IctAlgo.Lib.Custody
import IctAlgo.Orchestrator.Proof.Attempts

/-!
# The queue as a ledger

With the Redis queue enabled a pass takes an entry out of the Redis list and has to put it back;
without a client, or when `LPOP` fails, it works on the list in memory. An entry is the enqueue it
comes from (`origin`), and the queue is a ledger of its entries, held in one of the two stores or by
the pass.

* `Kept`: an inserted entry is not attempted again, one that is neither inserted nor dropped is in
  exactly one place, and a dropped one has had its attempts.
* `StepKeeps`: the branches an attempt takes at its end are those of the store its entry came from,
  and an entry out of Redis goes back.
* `ledger_record`, `ledger_changed`, `ledger_remove`, `ledger_push`: what the pieces of a step do to
  the ledger.
-/

set_option autoImplicit false

namespace Orchestrator.Dlq

open Lib

variable {δ : Type}

/-! ## Entries and their places -/

/-- The enqueue a reference comes from. -/
def origin (s : Dlq δ) (r : ℕ) : ℕ := s.heap[r]?.elim r (·.origin)

/-- The reference is that of an enqueue, not of a copy out of Redis. -/
def IsEntry (s : Dlq δ) (o : ℕ) : Prop := ∃ c, s.heap[o]? = some c ∧ c.origin = o

def memoryEntries (s : Dlq δ) : List ℕ := s.persistDlq.map s.origin

def redisEntries (s : Dlq δ) : List ℕ := s.redis.filterMap (·.map Prod.fst)

/-- What the pass took out of Redis; its other entries are still in memory. -/
def passEntries (s : Dlq δ) : List ℕ := (s.pass.pending.filter (· ∉ s.persistDlq)).map s.origin

/-- In how many places the entry is. Between passes these are the two stores. -/
def places (s : Dlq δ) (o : ℕ) : ℕ := s.memoryEntries.count o + s.redisEntries.count o + s.passEntries.count o

/-- How often the insert of the entry failed. -/
def failures (s : Dlq δ) (o : ℕ) : ℕ :=
  s.events.countP fun e => s.origin e.ref = o ∧ e.outcome = .failed

/-- The entry had at least `n` attempts. -/
def Counted (s : Dlq δ) (o n : ℕ) : Prop :=
  ∃ c, s.heap[o]? = some c ∧ c.origin = o ∧ n ≤ c.born.attempts + s.failures o

/-- No entry is lost, and none is inserted and attempted again. -/
structure Kept (cfg : DlqSettings) (s : Dlq δ) : Prop where
  settled : s.events.Pairwise fun e e' => e.outcome = .inserted → s.origin e.ref ≠ s.origin e'.ref
  once : ∀ o, s.places o ≤ 1
  kept : ∀ o, s.IsEntry o → (∀ e ∈ s.events, s.origin e.ref = o → e.outcome = .failed) →
    s.places o = 1
  dropped : ∀ e ∈ s.events, e.outcome = .dropped →
    ∃ n : ℕ, cfg.maxRetries ≤ n ∧ s.Counted (s.origin e.ref) n

/-! ## The condition -/

/-- The search finds the entry `r` where it is in memory, and no other one. -/
def FindsOwn (s : Dlq δ) (p : ℕ → Bool) (r : ℕ) : Prop :=
  s.persistDlq.find? p = s.persistDlq.find? (· = r)

section
variable [DecidableEq δ] (cfg : DlqSettings) (s : Dlq δ) (a : Attempt) (r : ℕ) (c : Cell δ)

/-- A success is taken out of memory exactly when the entry is there. -/
def SuccessOk : Prop :=
  if cfg.redisInUse a.connected then r ∉ s.persistDlq else s.FindsOwn (sameEntry s.heap r) r

/-- The attempt is the last one. -/
def Exceeds : Prop := ((c.entry.attempts + 1 : ℕ) : ℤ) ≥ cfg.maxRetries

/-- The entry is put back where it came from, unless the attempt is the last one. -/
def StoreOk : Prop :=
  if cfg.redisInUse a.connected then
    if a.rpushed then r ∉ s.persistDlq else r ∈ s.persistDlq ∨ Exceeds cfg c
  else s.FindsOwn (sameSlot s.heap r) r ∧ (r ∈ s.persistDlq ∨ Exceeds cfg c)

/-- The drop of the entry, whose cell is `c` by now, removes no other one. -/
def DropOk : Prop :=
  cfg.redisInUse a.connectedAtDrop = false → s.FindsOwn (sameEntry (s.heap.set r c) r) r

/-- A failure; without a delay for the next attempt the entry stays where it is. -/
def FailureOk (err : String) : Prop :=
  match cfg.retryDelay (c.entry.attempts + 1) with
  | none => r ∈ s.persistDlq
  | some delay => StoreOk cfg s a r c ∧ (Exceeds cfg c →
      DropOk cfg s a r { c with entry := failedEntry c.entry err (s.pass.now + delay) })

/-- The condition of an attempt of `r`. An entry that is not due is not put back. -/
def AttemptKeeps : Prop :=
  if c.entry.nextAttemptTs > s.pass.now then r ∈ s.persistDlq
  else match a.insert with
    | .ok () => SuccessOk cfg s a r
    | .error err => FailureOk cfg s a r c err

/-- The condition of a step. -/
def StepKeeps : Input δ → Prop
  | .enqueue connected reply _ => cfg.redisInUse connected = true → reply ≠ .raised
  | .attempt a => ∀ r rest c, s.pass.pending = r :: rest → s.heap[r]? = some c →
      AttemptKeeps cfg s a r c
  | _ => True

/-! ### The condition is decidable -/

instance (p : ℕ → Bool) : Decidable (s.FindsOwn p r) := inferInstanceAs (Decidable (_ = _))

instance : Decidable (SuccessOk cfg s a r) :=
  inferInstanceAs (Decidable (if cfg.redisInUse a.connected = true then r ∉ s.persistDlq
    else s.FindsOwn (sameEntry s.heap r) r))

instance : Decidable (Exceeds cfg c) := inferInstanceAs (Decidable (_ ≥ _))

instance : Decidable (StoreOk cfg s a r c) :=
  inferInstanceAs (Decidable (if cfg.redisInUse a.connected = true then
      if a.rpushed = true then r ∉ s.persistDlq else r ∈ s.persistDlq ∨ Exceeds cfg c
    else s.FindsOwn (sameSlot s.heap r) r ∧ (r ∈ s.persistDlq ∨ Exceeds cfg c)))

instance : Decidable (DropOk cfg s a r c) := inferInstanceAs (Decidable (_ → _))

instance (err : String) : Decidable (FailureOk cfg s a r c err) :=
  match h : cfg.retryDelay (c.entry.attempts + 1) with
  | none => decidable_of_iff (r ∈ s.persistDlq) (by unfold FailureOk; rw [h])
  | some delay => decidable_of_iff (StoreOk cfg s a r c ∧ (Exceeds cfg c →
      DropOk cfg s a r { c with entry := failedEntry c.entry err (s.pass.now + delay) }))
      (by unfold FailureOk; rw [h])

instance : Decidable (AttemptKeeps cfg s a r c) :=
  match h : a.insert with
  | .ok () => decidable_of_iff (if c.entry.nextAttemptTs > s.pass.now then r ∈ s.persistDlq
      else SuccessOk cfg s a r) (by unfold AttemptKeeps; rw [h])
  | .error err => decidable_of_iff (if c.entry.nextAttemptTs > s.pass.now then r ∈ s.persistDlq
      else FailureOk cfg s a r c err) (by unfold AttemptKeeps; rw [h])

instance : (i : Input δ) → Decidable (StepKeeps cfg s i)
  | .enqueue connected reply _ =>
    inferInstanceAs (Decidable (cfg.redisInUse connected = true → reply ≠ .raised))
  | .attempt a =>
    match hp : s.pass.pending with
    | [] => .isTrue fun r rest c h => by rw [hp] at h; cases h
    | r :: rest =>
      match hc : s.heap[r]? with
      | none => .isTrue fun r' rest' c h hc' => by rw [hp] at h; cases h; rw [hc] at hc'; cases hc'
      | some c => decidable_of_iff (AttemptKeeps cfg s a r c) <| by
          refine ⟨fun hok r' rest' c' h hc' => ?_, fun hall => hall r rest c hp hc⟩
          rw [hp] at h
          cases h
          rw [hc] at hc'
          cases hc'
          exact hok
  | .append _ | .startPass .. => .isTrue trivial

end

/-- `RPUSH` of a copy of the entry `o`. -/
def push (s : Dlq δ) (o : ℕ) (entry : DlqEntry δ) : Dlq δ :=
  { s with redis := s.redis ++ [some (o, entry)] }

/-! ## Custody -/

/-- The queue as a ledger of its entries. -/
def ledger (s : Dlq δ) : Custody.Ledger ℕ Outcome where
  accepted := {o | s.IsEntry o}
  held := s.memoryEntries + s.redisEntries + s.passEntries
  log := s.events.map fun e => (s.origin e.ref, e.outcome)

/-- From `s` to `s'` there are only steps of custody. -/
abbrev Refines (s s' : Dlq δ) : Prop :=
  Custody.Steps (· = .inserted) (· = .dropped) s.ledger s'.ledger

theorem places_eq (s : Dlq δ) (o : ℕ) : s.places o = s.ledger.held.count o := by
  simp [places, ledger, add_assoc]

/-- Another ledger with one more entry held. -/
theorem ledger_hold {s t : Dlq δ} {o : ℕ} (haccepted : t.ledger.accepted = s.ledger.accepted)
    (hlog : t.ledger.log = s.ledger.log)
    (h : ∀ z, t.places z = s.places z + if o = z then 1 else 0) : t.ledger = s.ledger.hold o := by
  have hheld : t.ledger.held = o ::ₘ s.ledger.held := by
    refine Multiset.ext.2 fun z => ?_
    rw [← places_eq, Multiset.count_cons, h, places_eq]
    simp only [eq_comm]
  unfold Custody.Ledger.hold
  rw [← hheld, ← haccepted, ← hlog]

/-! ### Origins -/

section
variable {s s' : Dlq δ} {r z o n : ℕ} {c : Cell δ}

theorem origin_eq (h : s.heap[r]? = some c) : s.origin r = c.origin := by simp [origin, h]

/-- `s'` has the cells of `s`, as far as where they come from goes. -/
structure Grown (s s' : Dlq δ) : Prop where
  cells : ∀ (r : ℕ) (c : Cell δ), s.heap[r]? = some c →
    ∃ c' : Cell δ, s'.heap[r]? = some c' ∧ c'.origin = c.origin ∧ c'.born = c.born
  events : s.events <+: s'.events

theorem Grown.origin (h : Grown s s') (hr : r < s.heap.length) : s'.origin r = s.origin r := by
  obtain ⟨c', hc', ho, -⟩ := h.cells r _ (List.getElem?_eq_getElem hr)
  rw [origin_eq hc', ho, origin_eq (List.getElem?_eq_getElem hr)]

theorem Grown.failures (h : Grown s s') (hb : Bounded s) (o : ℕ) : s.failures o ≤ s'.failures o := by
  obtain ⟨events, hevents⟩ := h.events
  have hsame : s.failures o =
      s.events.countP fun e => s'.origin e.ref = o ∧ e.outcome = .failed := by
    refine List.countP_congr fun e he => ?_
    rw [h.origin (hb.events e he)]
  rw [hsame, Dlq.failures, ← hevents, List.countP_append]
  exact Nat.le_add_right _ _

theorem Counted.grown (h : s.Counted o n) (hg : Grown s s') (hb : Bounded s) : s'.Counted o n := by
  obtain ⟨c, hc, ho, hn⟩ := h
  obtain ⟨c', hc', ho', hborn⟩ := hg.cells o c hc
  have hf := hg.failures hb o
  refine ⟨c', hc', ho'.trans ho, ?_⟩
  rw [hborn]
  omega

theorem Counted.isEntry (h : s.Counted o n) : s.IsEntry o := by
  obtain ⟨c, hc, ho, -⟩ := h
  exact ⟨c, hc, ho⟩

theorem grown_alloc (s : Dlq δ) (entry : DlqEntry δ) (o : ℕ) : Grown s (s.alloc entry o) := by
  refine ⟨fun r c hc => ⟨c, ?_, rfl, rfl⟩, List.prefix_refl _⟩
  have hlt := (List.getElem?_eq_some_iff.1 hc).1
  rw [Dlq.alloc, List.getElem?_append_left hlt]
  exact hc

theorem heap_alloc (s : Dlq δ) (entry : DlqEntry δ) (o : ℕ) :
    (s.alloc entry o).heap[s.heap.length]? = some ⟨entry, entry, o⟩ := by
  simp [Dlq.alloc]

/-- A new cell is an entry when it is its own origin. -/
theorem isEntry_alloc (entry : DlqEntry δ) :
    (s.alloc entry o).IsEntry z ↔ s.IsEntry z ∨ (z = s.heap.length ∧ o = z) := by
  rcases Nat.lt_trichotomy z s.heap.length with hz | rfl | hz
  · simp [IsEntry, Dlq.alloc, List.getElem?_append_left hz, hz.ne]
  · simp [IsEntry, Dlq.alloc]
  · have hold : s.heap[z]? = none := List.getElem?_eq_none hz.le
    have hnew : (s.alloc entry o).heap[z]? = none := by
      apply List.getElem?_eq_none
      show (s.heap ++ [_]).length ≤ z
      rw [List.length_append]
      exact hz
    simp [IsEntry, hold, hnew, hz.ne']

/-! ### Ledgers -/

theorem ledger_record (s : Dlq δ) (r : ℕ) (o : Outcome) :
    (s.record r o).ledger = s.ledger.note (s.origin r) o := by
  unfold ledger Custody.Ledger.note
  congr 1
  exact List.map_append

theorem origin_changed (entry : DlqEntry δ) (hc : s.heap[r]? = some c) :
    (s.changed r c entry).origin = s.origin := by
  obtain ⟨hlt, rfl⟩ := List.getElem?_eq_some_iff.1 hc
  funext z
  unfold origin changed
  by_cases hz : r = z
  · subst hz
    simp [hlt]
  · rw [List.getElem?_set_ne hz]

theorem isEntry_changed (entry : DlqEntry δ) (hc : s.heap[r]? = some c) :
    (s.changed r c entry).IsEntry z ↔ s.IsEntry z := by
  obtain ⟨hlt, rfl⟩ := List.getElem?_eq_some_iff.1 hc
  unfold IsEntry changed
  by_cases hz : r = z
  · subst hz
    simp [hlt]
  · rw [List.getElem?_set_ne hz]

theorem grown_changed (entry : DlqEntry δ) (hc : s.heap[r]? = some c) :
    Grown s (s.changed r c entry) := by
  refine ⟨fun z c' hc' => ?_, List.prefix_append _ _⟩
  obtain ⟨hlt, rfl⟩ := List.getElem?_eq_some_iff.1 hc
  unfold changed
  by_cases hz : r = z
  · subst hz
    obtain rfl := Option.some.inj (hc.symm.trans hc')
    exact ⟨_, List.getElem?_set_self hlt, rfl, rfl⟩
  · refine ⟨c', ?_, rfl, rfl⟩
    rw [List.getElem?_set_ne hz]
    exact hc'

/-- A failure that is recorded, with the changed cell. -/
theorem ledger_changed (entry : DlqEntry δ) (hc : s.heap[r]? = some c) :
    (s.changed r c entry).ledger = s.ledger.note (s.origin r) .failed := by
  unfold ledger Custody.Ledger.note memoryEntries passEntries
  rw [origin_changed entry hc]
  congr 1
  · ext z
    exact isEntry_changed entry hc
  · exact List.map_append

theorem memoryEntries_alloc (hb : Bounded s) (entry : DlqEntry δ) (o : ℕ) :
    (s.alloc entry o).memoryEntries = s.memoryEntries :=
  List.map_congr_left fun r hr => (grown_alloc s entry o).origin (hb.queue r hr)

/-- A new cell changes no entry that is there. -/
theorem ledger_alloc (hb : Bounded s) (entry : DlqEntry δ) (o : ℕ) :
    (s.alloc entry o).ledger =
      { s.ledger with accepted := {z | s.IsEntry z ∨ (z = s.heap.length ∧ o = z)} } := by
  have horigin : ∀ r < s.heap.length, (s.alloc entry o).origin r = s.origin r := fun r hr =>
    (grown_alloc s entry o).origin hr
  have hpass : (s.alloc entry o).passEntries = s.passEntries :=
    List.map_congr_left fun r hr => horigin r (hb.pending r (List.mem_of_mem_filter hr))
  have hlog : (s.alloc entry o).ledger.log = s.ledger.log :=
    List.map_congr_left fun e he => by
      show ((s.alloc entry o).origin e.ref, e.outcome) = (s.origin e.ref, e.outcome)
      rw [horigin _ (hb.events e he)]
  unfold ledger at hlog ⊢
  rw [memoryEntries_alloc hb, hpass]
  congr 1
  ext z
  exact isEntry_alloc entry

/-! ### The stores -/

theorem FindsOwn.of_mem {p : ℕ → Bool} (h : s.FindsOwn p r) (hr : r ∈ s.persistDlq) :
    s.persistDlq.find? p = some r := by
  obtain ⟨z, hz⟩ := FirstMatch.find?_isSome_of_mem (p := (· = r)) (decide_eq_true rfl) hr
  have hzr : z = r := by simpa using List.find?_some hz
  rw [h, hz, hzr]

theorem FindsOwn.of_not_mem {p : ℕ → Bool} (h : s.FindsOwn p r) (hr : r ∉ s.persistDlq) :
    s.persistDlq.find? p = none := by
  rw [h, List.find?_eq_none]
  rintro z hz hzr
  exact hr (of_decide_eq_true hzr ▸ hz)

/-- A failed entry that is where it belongs is written onto itself. -/
theorem FindsOwn.update (h : s.FindsOwn (sameSlot s.heap r) r) : s.update r = s := by
  unfold Dlq.update
  by_cases hr : r ∈ s.persistDlq
  · rw [FirstMatch.replaceFirst_self (h.of_mem hr)]
  · rw [FirstMatch.replaceFirst_of_none (h.of_not_mem hr)]

/-- A pass over the memory has nothing out of Redis. -/
theorem passEntries_nil (h : ∀ z ∈ s.pass.pending, z ∈ s.persistDlq) : s.passEntries = [] := by
  unfold passEntries
  rw [List.map_eq_nil_iff, List.filter_eq_nil_iff]
  intro z hz
  simp [h z hz]

theorem mem_held_of_memory (hr : r ∈ s.persistDlq) : s.origin r ∈ s.ledger.held := by
  refine Multiset.mem_add.2 (.inl (Multiset.mem_add.2 (.inl ?_)))
  exact Multiset.mem_coe.2 (List.mem_map_of_mem hr)

section
variable [DecidableEq δ]

theorem FindsOwn.remove_of_not_mem (h : s.FindsOwn (sameEntry s.heap r) r) (hr : r ∉ s.persistDlq) :
    s.remove r = s := by
  unfold Dlq.remove
  rw [List.eraseP_of_forall_not (List.find?_eq_none.1 (h.of_not_mem hr))]

/-- The entry leaves the memory. -/
theorem FindsOwn.ledger_remove (h : s.FindsOwn (sameEntry s.heap r) r) (hr : r ∈ s.persistDlq)
    (hpending : ∀ z ∈ s.pass.pending, z ∈ s.persistDlq) (hnot : r ∉ s.pass.pending) :
    (s.remove r).ledger = s.ledger.release (s.origin r) := by
  have hfind := h.of_mem hr
  have hpending' : ∀ z ∈ (s.remove r).pass.pending, z ∈ (s.remove r).persistDlq := by
    intro z hz
    refine FirstMatch.mem_eraseP (hpending z hz) ?_
    rw [hfind]
    rintro heq
    exact hnot (Option.some.inj heq ▸ hz)
  obtain ⟨as, bs, hsplit, -, -, herase⟩ := FirstMatch.split_find? hfind
  have hmemory : s.memoryEntries = as.map s.origin ++ s.origin r :: bs.map s.origin := by
    simp [memoryEntries, hsplit]
  have hmemory' : (s.remove r).memoryEntries = as.map s.origin ++ bs.map s.origin := by
    show ((s.persistDlq.eraseP (sameEntry s.heap r)).map s.origin) = _
    rw [herase, List.map_append]
  have hheld : s.ledger = (s.remove r).ledger.hold (s.origin r) := by
    refine ledger_hold rfl rfl fun z => ?_
    have hredis : (s.remove r).redisEntries = s.redisEntries := rfl
    unfold places
    rw [hmemory, hmemory', hredis, passEntries_nil hpending, passEntries_nil hpending']
    simp only [List.count_append, List.count_cons, beq_iff_eq]
    omega
  rw [hheld, Custody.Ledger.release_hold]

end

/-- An entry goes into the Redis list. -/
theorem ledger_push (s : Dlq δ) (o : ℕ) (entry : DlqEntry δ) :
    (s.push o entry).ledger = s.ledger.hold o := by
  refine ledger_hold rfl rfl fun z => ?_
  have hredis : (s.push o entry).redisEntries = s.redisEntries ++ [o] := by
    simp [redisEntries, push]
  have hmemory : (s.push o entry).memoryEntries = s.memoryEntries := rfl
  have hpass : (s.push o entry).passEntries = s.passEntries := rfl
  unfold places
  rw [hredis, hmemory, hpass, List.count_append]
  simp only [List.count_singleton, beq_iff_eq]
  omega

/-! ### Refined steps -/

section
variable {o : Outcome}

/-- An attempt after which the entry is held still. -/
theorem refines_stay (hheld : s.origin r ∈ s.ledger.held) (ho : o ≠ .inserted)
    (h : s'.ledger = s.ledger.note (s.origin r) o) : Refines s s' := by
  refine .single ?_
  rw [h]
  exact .stay hheld ho

/-- An attempt with which the entry goes. -/
theorem refines_go (hheld : s.origin r ∈ s.ledger.held) (ho : o = .inserted ∨ o = .dropped)
    (h : s'.ledger = (s.ledger.note (s.origin r) o).release (s.origin r)) : Refines s s' := by
  refine .single ?_
  rw [h]
  exact .go hheld ho

/-- The last attempt, after which the entry is held still. -/
theorem refines_last_stay (hheld : s.origin r ∈ s.ledger.held)
    (h : s'.ledger = (s.ledger.note (s.origin r) .failed).note (s.origin r) .dropped) :
    Refines s s' := by
  have hfailed : Custody.Step (· = .inserted) (· = .dropped) s.ledger
      (s.ledger.note (s.origin r) .failed) := .stay hheld (by decide)
  refine (Relation.ReflTransGen.single hfailed).tail ?_
  rw [h]
  exact .stay hheld (by decide)

/-- The last attempt, with which the entry goes. -/
theorem refines_last_go (hheld : s.origin r ∈ s.ledger.held)
    (h : s'.ledger =
      ((s.ledger.note (s.origin r) .failed).note (s.origin r) .dropped).release (s.origin r)) :
    Refines s s' := by
  have hfailed : Custody.Step (· = .inserted) (· = .dropped) s.ledger
      (s.ledger.note (s.origin r) .failed) := .stay hheld (by decide)
  refine (Relation.ReflTransGen.single hfailed).tail ?_
  rw [h]
  exact .go hheld (.inr rfl)

end

end

end Orchestrator.Dlq
