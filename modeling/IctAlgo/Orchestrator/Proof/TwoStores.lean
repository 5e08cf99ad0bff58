import IctAlgo.Orchestrator.Proof.StoreAttempts

/-!
# The two stores of the queue

* `Custodial.step`: within the condition every step of the queue is one of custody.
* `kept_of_within`: so the runs within it keep every entry, whatever the stores hold at first.
* `notDue_lost`: an entry that is taken out of Redis before it is due is lost.
-/

set_option autoImplicit false

namespace Orchestrator.Dlq

open Lib

variable {δ : Type}

/-! ## Enqueues and passes -/

section
variable {cfg : DlqSettings} {s : Dlq δ}

theorem not_accepted (s : Dlq δ) : s.heap.length ∉ s.ledger.accepted := by
  intro h
  obtain ⟨c, hc, -⟩ := h
  simp at hc

/-- A new entry that is held is accepted. -/
theorem hold_alloc (hb : Bounded s) (entry : DlqEntry δ) :
    (s.alloc entry s.heap.length).ledger.hold s.heap.length = s.ledger.accept s.heap.length := by
  rw [ledger_alloc hb]
  unfold Custody.Ledger.hold Custody.Ledger.accept
  congr 1
  ext z
  simp [ledger, or_comm, eq_comm]

theorem ledger_append (hb : Bounded s) (entry : DlqEntry δ) :
    (s.append entry).ledger = s.ledger.accept s.heap.length := by
  rw [← hold_alloc hb entry]
  refine ledger_hold rfl rfl fun z => ?_
  have horigin : (s.alloc entry s.heap.length).origin s.heap.length = s.heap.length :=
    origin_eq (heap_alloc s entry _)
  have hmemory : (s.append entry).memoryEntries =
      (s.alloc entry s.heap.length).memoryEntries ++ [s.heap.length] := by
    show (s.persistDlq ++ [s.heap.length]).map (s.alloc entry s.heap.length).origin = _
    rw [List.map_append, List.map_singleton, horigin]
    rfl
  have hpass : (s.append entry).passEntries = (s.alloc entry s.heap.length).passEntries := by
    show (s.pass.pending.filter (· ∉ s.persistDlq ++ [s.heap.length])).map _ =
      (s.pass.pending.filter (· ∉ s.persistDlq)).map _
    congr 1
    refine List.filter_congr fun z hz => ?_
    have hne : z ≠ s.heap.length := (hb.pending z hz).ne
    simp [hne]
  have hredis : (s.append entry).redisEntries = (s.alloc entry s.heap.length).redisEntries := rfl
  unfold places
  rw [hmemory, hpass, hredis, List.count_append]
  simp only [List.count_singleton, beq_iff_eq]
  omega

theorem refines_append (hb : Bounded s) (entry : DlqEntry δ) : Refines s (s.append entry) := by
  refine .single ?_
  rw [ledger_append hb]
  exact .accept (not_accepted s)

theorem refines_push (hb : Bounded s) (entry : DlqEntry δ) :
    Refines s ((s.alloc entry s.heap.length).push s.heap.length entry) := by
  refine .single ?_
  rw [ledger_push, hold_alloc hb]
  exact .accept (not_accepted s)

theorem refines_enqueue (hb : Bounded s) {connected : Bool} {reply : RedisReply} (entry : DlqEntry δ)
    (hok : cfg.redisInUse connected = true → reply ≠ .raised) :
    Refines s (s.enqueue cfg connected reply entry) := by
  unfold Dlq.enqueue
  split
  · rename_i huse
    cases reply with
    | ok => exact refines_push hb entry
    | failed => exact refines_append hb entry
    | raised => exact absurd rfl (hok huse)
  · exact refines_append hb entry

/-- What is in the same places. -/
theorem ledger_same {s t : Dlq δ} (haccepted : t.ledger.accepted = s.ledger.accepted)
    (hlog : t.ledger.log = s.ledger.log) (h : ∀ z, t.places z = s.places z) : t.ledger = s.ledger := by
  have hheld : t.ledger.held = s.ledger.held :=
    Multiset.ext.2 fun z => by rw [← places_eq, h, places_eq]
  cases ht : t.ledger
  cases hs : s.ledger
  rw [ht, hs] at haccepted hlog hheld
  congr

/-- A pass over the memory takes nothing. -/
theorem ledger_startMemory (hp : s.pass.pending = []) (now : ℚ) :
    ({ s with pass := ⟨now, s.persistDlq⟩ } : Dlq δ).ledger = s.ledger := by
  have hnone : s.passEntries = [] := by simp [passEntries, hp]
  have hnone' : ({ s with pass := ⟨now, s.persistDlq⟩ } : Dlq δ).passEntries = [] :=
    passEntries_nil fun z hz => hz
  unfold ledger
  rw [hnone, hnone']
  rfl

/-- An entry that is taken out of Redis is with the pass. -/
theorem ledger_take (h : Coherent cfg s) (hp : s.pass.pending = []) (now : ℚ) {o : ℕ}
    {entry : DlqEntry δ} {rest : List (Option (ℕ × DlqEntry δ))}
    (hredis : s.redis = some (o, entry) :: rest) :
    ({ s.alloc entry o with redis := rest, pass := ⟨now, [s.heap.length]⟩ } : Dlq δ).ledger =
      s.ledger := by
  have halloc := ledger_alloc h.bounded entry o
  have hentry : s.IsEntry o := (h.redis o entry (by rw [hredis]; exact List.mem_cons_self)).isEntry
  have hne : o ≠ s.heap.length := by
    obtain ⟨c, hc, -⟩ := hentry
    exact (List.getElem?_eq_some_iff.1 hc).1.ne
  refine ledger_same ?_ ?_ fun z => ?_
  · show (s.alloc entry o).ledger.accepted = _
    rw [halloc]
    ext z
    refine or_iff_left ?_
    intro h'
    obtain ⟨rfl, heq⟩ := h'
    exact hne heq
  · show (s.alloc entry o).ledger.log = _
    rw [halloc]
  · have hnew : s.heap.length ∉ s.persistDlq := fun hmem =>
      Nat.lt_irrefl _ (h.bounded.queue _ hmem)
    have hmemory : ({ s.alloc entry o with
        redis := rest, pass := ⟨now, [s.heap.length]⟩ } : Dlq δ).memoryEntries = s.memoryEntries :=
      memoryEntries_alloc h.bounded entry o
    have htaken : ({ s.alloc entry o with
        redis := rest, pass := ⟨now, [s.heap.length]⟩ } : Dlq δ).passEntries = [o] := by
      have horigin : (s.alloc entry o).origin s.heap.length = o := origin_eq (heap_alloc s entry o)
      show ([s.heap.length].filter (· ∉ s.persistDlq)).map (s.alloc entry o).origin = [o]
      simp [hnew, horigin]
    have hnone : s.passEntries = [] := by simp [passEntries, hp]
    have hhead : s.redisEntries = o :: rest.filterMap (·.map Prod.fst) := by
      simp [redisEntries, hredis]
    unfold places
    rw [hmemory, htaken, hnone, hhead]
    simp only [redisEntries, List.count_cons, List.count_nil, beq_iff_eq]
    omega

theorem refines_startPass (h : Coherent cfg s) (now : ℚ) (connected : Bool) (pop : RedisReply) :
    Refines s (s.startPass cfg now connected pop) := by
  unfold Dlq.startPass
  split
  · exact .refl
  · rename_i hpending
    have hp : s.pass.pending = [] := not_not.1 hpending
    split
    · split
      · exact .refl
      · unfold Refines
        rw [ledger_startMemory hp]
      · exact .refl
      · rename_i rest hredis
        have hsame : ({ s with redis := rest } : Dlq δ).ledger = s.ledger := by
          have hentries : s.redisEntries = rest.filterMap (·.map Prod.fst) := by
            simp [redisEntries, hredis]
          unfold ledger
          rw [hentries]
          rfl
        unfold Refines
        rw [hsame]
      · rename_i o entry rest hredis
        unfold Refines
        rw [ledger_take h hp now hredis]
    · unfold Refines
      rw [ledger_startMemory hp]

end

/-! ## The invariant -/

/-- The pass is over entries in memory, or over one that it took out of Redis. -/
def PassShape (s : Dlq δ) : Prop :=
  (s.pass.pending.Nodup ∧ ∀ r ∈ s.pass.pending, r ∈ s.persistDlq) ∨
    ∃ r, s.pass.pending = [r] ∧ r ∉ s.persistDlq

/-- The counts are right, the pass has its shape, and the ledger is sound. -/
structure Custodial (cfg : DlqSettings) (s : Dlq δ) : Prop extends Coherent cfg s where
  pass : PassShape s
  sound : Custody.Sound (· = .inserted) (· = .dropped) s.ledger

section
variable {cfg : DlqSettings} {s : Dlq δ} {a : Attempt} {r : ℕ} {rest : List ℕ} {c : Cell δ}

theorem Custodial.kept (h : Custodial cfg s) : Kept cfg s where
  settled := List.pairwise_map.1 h.sound.settled
  once o := by
    rw [places_eq]
    exact Multiset.nodup_iff_count_le_one.1 h.sound.once o
  kept o ho hfailed := by
    have hheld : o ∈ s.ledger.held := by
      refine h.sound.kept o ho fun out hout => ?_
      obtain ⟨e, he, heq⟩ := List.mem_map.1 hout
      cases heq
      rw [hfailed e he rfl]
      exact ⟨by decide, by decide⟩
    rw [places_eq]
    exact Multiset.count_eq_one_of_mem h.sound.once hheld
  dropped := h.dropped

theorem Custodial.persistDlq_nodup (h : Custodial cfg s) : s.persistDlq.Nodup := by
  have honce := h.sound.once
  unfold ledger at honce
  have hmemory : (s.memoryEntries : Multiset ℕ).Nodup :=
    Multiset.nodup_of_le ((Multiset.le_add_right _ _).trans (Multiset.le_add_right _ _)) honce
  exact List.Nodup.of_map _ (Multiset.coe_nodup.1 hmemory)

/-! ### The shape of the pass -/

theorem PassShape.append (h : PassShape s) (hb : Bounded s) (entry : DlqEntry δ) :
    PassShape (s.append entry) := by
  rcases h with ⟨hnodup, hall⟩ | ⟨r, hp, hr⟩
  · exact .inl ⟨hnodup, fun z hz => List.mem_append_left _ (hall z hz)⟩
  · refine .inr ⟨r, hp, fun hmem => ?_⟩
    rcases List.mem_append.1 hmem with hmem | hmem
    · exact hr hmem
    · have hlt := hb.pending r (by rw [hp]; exact List.mem_singleton_self r)
      exact hlt.ne (List.mem_singleton.1 hmem)

theorem PassShape.enqueue (h : PassShape s) (hb : Bounded s) (connected : Bool) (reply : RedisReply)
    (entry : DlqEntry δ) : PassShape (s.enqueue cfg connected reply entry) := by
  unfold Dlq.enqueue
  split
  · cases reply with
    | ok => exact h
    | failed => exact h.append hb entry
    | raised => exact h
  · exact h.append hb entry

theorem Custodial.passShape_startPass (h : Custodial cfg s) (now : ℚ) (connected : Bool)
    (pop : RedisReply) : PassShape (s.startPass cfg now connected pop) := by
  have hmemory : PassShape ({ s with pass := ⟨now, s.persistDlq⟩ } : Dlq δ) :=
    .inl ⟨h.persistDlq_nodup, fun _ hz => hz⟩
  unfold Dlq.startPass
  split
  · exact h.pass
  · split
    · split
      · exact h.pass
      · exact hmemory
      · exact h.pass
      · exact h.pass
      · exact .inr ⟨_, rfl, fun hmem => Nat.lt_irrefl _ (h.bounded.queue _ hmem)⟩
    · exact hmemory

/-- Without other entries the pass is over. -/
theorem passShape_nil (h : s.pass.pending = []) : PassShape s := by
  refine .inl ⟨?_, ?_⟩
  · rw [h]
    exact List.nodup_nil
  · rw [h]
    exact List.forall_mem_nil _

variable {err : String} {z : ℕ}

variable [DecidableEq δ]

/-- The search for an entry leaves the others. -/
theorem FindsOwn.mem_remove (h : s.FindsOwn (sameEntry s.heap r) r) (hz : z ∈ s.persistDlq)
    (hzr : z ≠ r) : z ∈ (s.remove r).persistDlq := by
  refine FirstMatch.mem_eraseP hz ?_
  by_cases hr : r ∈ s.persistDlq
  · rw [h.of_mem hr]
    exact fun heq => hzr (Option.some.inj heq).symm
  · rw [h.of_not_mem hr]
    exact fun heq => nomatch heq

theorem mem_succeed (hok : SuccessOk cfg s a r) (hz : z ∈ s.persistDlq) (hzr : z ≠ r) :
    z ∈ ((s.popped rest).succeed cfg a r).persistDlq := by
  unfold SuccessOk at hok
  by_cases huse : cfg.redisInUse a.connected = true
  · simp only [succeed, huse, ↓reduceIte]
    exact hz
  · rw [if_neg huse] at hok
    simp only [succeed, huse, ↓reduceIte, Bool.false_eq_true]
    exact FindsOwn.mem_remove (s := (s.popped rest).record r .inserted) hok hz hzr

theorem mem_fail (hc : s.heap[r]? = some c) (hok : FailureOk cfg s a r c err) (hz : z ∈ s.persistDlq)
    (hzr : z ≠ r) : z ∈ ((s.popped rest).fail cfg a r c err).persistDlq := by
  have hfailed : Failed cfg s a r rest c ((s.popped rest).fail cfg a r c err) := hok.failed hc
  generalize (s.popped rest).fail cfg a r c err = t at hfailed ⊢
  cases hfailed with
  | unscheduled _ => exact hz
  | stays _ hstored => rwa [hstored.persistDlq]
  | @goes entry v _ hstored hdrop =>
    have hv : z ∈ (v.record r .dropped).persistDlq := by
      show z ∈ v.persistDlq
      rwa [hstored.persistDlq]
    unfold Dlq.drop
    split
    · exact hv
    · rename_i huse
      exact (hstored.findsOwn hdrop huse).mem_remove hv hzr

/-! ### Attempts -/

/-- An attempt within the condition is one of custody. -/
theorem Custodial.refines_attempt (h : Custodial cfg s) (hp : s.pass.pending = r :: rest)
    (hc : s.heap[r]? = some c) (hok : AttemptKeeps cfg s a r c) : Refines s (s.attempt cfg a) := by
  unfold AttemptKeeps at hok
  rw [attempt_cons hp, hc]
  simp only
  rcases h.pass with ⟨hnodup, hall⟩ | ⟨q, hq, hnot⟩
  · -- The entry is in memory.
    split
    · unfold Refines
      rw [ledger_popped hp hall]
    · rename_i hdue
      rw [if_neg hdue] at hok
      cases hi : a.insert with
      | error err =>
        rw [hi] at hok
        exact refines_fail_memory hp hall hnodup hc hok
      | ok _ =>
        rw [hi] at hok
        exact refines_succeed_memory hp hall hnodup hok
  · -- The entry was taken out of Redis, and is the only one of the pass.
    obtain ⟨rfl, rfl⟩ : q = r ∧ rest = [] := by
      rw [hq] at hp
      simpa [eq_comm] using hp
    split
    · rename_i hlate
      rw [if_pos hlate] at hok
      exact absurd hok hnot
    · rename_i hdue
      rw [if_neg hdue] at hok
      cases hi : a.insert with
      | error err =>
        rw [hi] at hok
        exact refines_fail_redis hq hnot hc hok
      | ok _ =>
        rw [hi] at hok
        exact refines_succeed_redis hq hnot hok

theorem mem_attempt (hp : s.pass.pending = r :: rest) (hc : s.heap[r]? = some c)
    (hok : AttemptKeeps cfg s a r c) (hz : z ∈ s.persistDlq) (hzr : z ≠ r) :
    z ∈ (s.attempt cfg a).persistDlq := by
  unfold AttemptKeeps at hok
  rw [attempt_cons hp, hc]
  simp only
  split
  · exact hz
  · rename_i hdue
    rw [if_neg hdue] at hok
    cases hi : a.insert with
    | error err =>
      rw [hi] at hok
      exact mem_fail hc hok hz hzr
    | ok _ =>
      rw [hi] at hok
      exact mem_succeed hok hz hzr

theorem Custodial.passShape_attempt (h : Custodial cfg s) (hp : s.pass.pending = r :: rest)
    (hc : s.heap[r]? = some c) (hok : AttemptKeeps cfg s a r c) : PassShape (s.attempt cfg a) := by
  have hpass := attempt_pass cfg a hp
  rcases h.pass with ⟨hnodup, hall⟩ | ⟨q, hq, -⟩
  · rw [hp] at hnodup
    obtain ⟨hr, hrest⟩ := List.nodup_cons.1 hnodup
    refine .inl ⟨by rw [hpass]; exact hrest, fun z hz => ?_⟩
    rw [hpass] at hz
    refine mem_attempt hp hc hok (hall z ?_) ?_
    · rw [hp]
      exact List.mem_cons_of_mem r hz
    · rintro rfl
      exact hr hz
  · refine passShape_nil ?_
    rw [hq] at hp
    rw [hpass]
    exact (List.cons.inj hp).2.symm

theorem Custodial.attempt (h : Custodial cfg s)
    (hok : ∀ r rest c, s.pass.pending = r :: rest → s.heap[r]? = some c → AttemptKeeps cfg s a r c) :
    Custodial cfg (s.attempt cfg a) := by
  cases hp : s.pass.pending with
  | nil => simpa only [Dlq.attempt, hp] using h
  | cons r rest =>
    have hlt : r < s.heap.length := h.bounded.pending r (by rw [hp]; exact List.mem_cons_self)
    have hc := List.getElem?_eq_getElem hlt
    have hok := hok r rest _ hp hc
    exact ⟨h.toCoherent.attempt, h.passShape_attempt hp hc hok,
      h.sound.steps (h.refines_attempt hp hc hok)⟩

/-- **Within the condition every step keeps custody.** -/
theorem Custodial.step (h : Custodial cfg s) (i : Input δ) (hok : StepKeeps cfg s i) :
    Custodial cfg (s.step cfg i) := by
  refine ⟨h.toCoherent.step i, ?_, ?_⟩
  · cases i with
    | append entry => exact h.pass.append h.bounded entry
    | enqueue connected reply entry => exact h.pass.enqueue h.bounded connected reply entry
    | startPass now connected pop => exact h.passShape_startPass now connected pop
    | attempt a => exact (h.attempt hok).pass
  · cases i with
    | append entry => exact h.sound.steps (refines_append h.bounded entry)
    | enqueue connected reply entry => exact h.sound.steps (refines_enqueue h.bounded entry hok)
    | startPass now connected pop =>
      exact h.sound.steps (refines_startPass h.toCoherent now connected pop)
    | attempt a => exact (h.attempt hok).sound

end

/-! ## Runs -/

/-- Put an item into the Redis list of a queue; `none` is one that is not valid JSON. -/
def pushItem (s : Dlq δ) : Option (DlqEntry δ) → Dlq δ
  | none => { s with redis := s.redis ++ [none] }
  | some entry => (s.alloc entry s.heap.length).push s.heap.length entry

/-- The queue with `entries` in memory and `items` in Redis. -/
def stored (entries : List (DlqEntry δ)) (items : List (Option (DlqEntry δ))) : Dlq δ :=
  items.foldl pushItem (initial entries)

theorem custodial_empty (cfg : DlqSettings) : Custodial cfg ({} : Dlq δ) where
  bounded := ⟨List.forall_mem_nil _, List.forall_mem_nil _, List.forall_mem_nil _⟩
  cells r c hc := by simp at hc
  redis o entry he := by simp at he
  dropped e he := by simp at he
  pass := passShape_nil rfl
  sound := by
    have hheld : ({} : Dlq δ).ledger.held = 0 := rfl
    constructor
    · rw [hheld]
      exact Multiset.nodup_zero
    · rw [hheld]
      exact fun x hx => absurd hx (Multiset.notMem_zero x)
    · exact List.forall_mem_nil _
    · intro x h
      obtain ⟨c, hc, -⟩ := h
      simp at hc
    · intro x o ho
      cases ho
    · exact List.Pairwise.nil

section
variable {cfg : DlqSettings} {s : Dlq δ}

theorem Custodial.append (h : Custodial cfg s) (entry : DlqEntry δ) : Custodial cfg (s.append entry) :=
  ⟨h.toCoherent.append entry, h.pass.append h.bounded entry,
    h.sound.steps (refines_append h.bounded entry)⟩

theorem Custodial.pushItem (h : Custodial cfg s) (item : Option (DlqEntry δ)) :
    Custodial cfg (s.pushItem item) := by
  cases item with
  | none =>
    have hentries : (s.pushItem none).redisEntries = s.redisEntries := by
      simp [redisEntries, Dlq.pushItem]
    have hledger : (s.pushItem none).ledger = s.ledger := by
      unfold ledger
      rw [hentries]
      rfl
    refine ⟨?_, h.pass, ?_⟩
    · refine h.toCoherent.frame ⟨fun r c hc => ⟨c, hc, rfl, rfl⟩, List.prefix_refl _⟩
        ⟨h.bounded.queue, h.bounded.pending, h.bounded.events⟩ (fun r c hc => .inl hc)
        (fun o entry he => ?_) fun e he => .inl he
      rcases List.mem_append.1 he with he | he
      · exact .inl he
      · cases List.mem_singleton.1 he
    · rw [hledger]
      exact h.sound
  | some entry =>
    have hnew := counted_alloc s entry
    exact ⟨(h.toCoherent.alloc hnew).push hnew, h.pass, h.sound.steps (refines_push h.bounded entry)⟩

end

theorem custodial_stored (cfg : DlqSettings) (entries : List (DlqEntry δ))
    (items : List (Option (DlqEntry δ))) : Custodial cfg (stored entries items) := by
  have hentries : ∀ s : Dlq δ, Custodial cfg s → Custodial cfg (entries.foldl Dlq.append s) := by
    induction entries with
    | nil => exact fun s h => h
    | cons entry entries ih => exact fun s h => ih _ (h.append entry)
  have hitems : ∀ s : Dlq δ, Custodial cfg s → Custodial cfg (items.foldl Dlq.pushItem s) := by
    induction items with
    | nil => exact fun s h => h
    | cons item items ih => exact fun s h => ih _ (h.pushItem item)
  exact hitems _ (hentries _ (custodial_empty cfg))

/-- **The runs that keep every entry**, whatever the two stores hold at first. -/
theorem kept_of_within [DecidableEq δ] (cfg : DlqSettings) (entries : List (DlqEntry δ))
    (items : List (Option (DlqEntry δ))) (inputs : List (Input δ))
    (h : Runs.Within (step cfg) (StepKeeps cfg) (stored entries items) inputs) :
    Runs.Always (step cfg) (Kept cfg) (stored entries items) inputs :=
  h.always (custodial_stored cfg entries items) (fun _ i hs hok => hs.step i hok) fun _ hs => hs.kept

/-- Passes over a queue in Redis: the insert of its entry fails, another decision is enqueued, and then
both are inserted. -/
def pushedBack : List (Input String) :=
  [.startPass 1 true .ok, .attempt { insert := .error "locked", connected := true, rpushed := true },
    .enqueue true .ok ⟨"GBPUSD", "init", 2000, 0, 2⟩,
    .startPass 10 true .ok, .attempt { insert := .ok (), connected := true },
    .startPass 11 true .ok, .attempt { insert := .ok (), connected := true }]

theorem kept_pushedBack :
    Runs.Always (step { redisDlqEnabled := true }) (Kept { redisDlqEnabled := true })
      (stored [] [some ⟨"EURUSD", "init", 1000, 0, 0⟩]) pushedBack := by
  apply kept_of_within
  decide +kernel

/-- An entry in Redis that is not due is gone after the pass that takes it. -/
theorem notDue_lost :
    ¬ Runs.Always (step { redisDlqEnabled := true }) (Kept { redisDlqEnabled := true })
      (stored [] [some ⟨"EURUSD", "init", 1000, 1, 5⟩])
      [.startPass 1 true .ok, .attempt { insert := .ok (), connected := true }] := by
  intro h
  have hkept := h.last.kept 0 ⟨_, rfl, rfl⟩ (by decide +kernel)
  revert hkept
  decide +kernel

end Orchestrator.Dlq
