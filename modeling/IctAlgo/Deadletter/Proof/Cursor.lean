import IctAlgo.Deadletter.Poll

/-!
# The cursor of the poll loop

`NotPassed`: no entry of the stream stands before `lastId`, where no later round reads it. A round
keeps this when it settles all its entries but the last (`TickOk`): what it settles leaves the
stream, and it ends with the cursor on its last entry, which the next round reads again.

* `walk_spec`: what a round leaves of the entries it has read.
* `tick_progress`: a round brings the cursor closer to every entry behind it.
* `poll_never_strands`: in a run of such rounds no entry is passed, and an entry is dispatched
  within as many rounds as entries stand before it, once they are due.
* `skippedEntry_stranded`: an entry that is passed, and one that is never dispatched.
-/

set_option autoImplicit false

namespace Deadletter

open Lib Lib.Runs

variable {cfg : Settings}

/-! ## Entries that are settled -/

/-- Processing ends with the entry out of the stream: it can be read, it is due, its channel is known
and has a notifier that can be constructed, XDEL goes through, and, if the entry is written again,
XADD does and the backoff is a date. -/
def Settles (cfg : Settings) (e : Entry) (r : Reply) : Prop :=
  ∃ m ∈ e.retryMeta.read, m.early r.now = false ∧ knownChannel e.channel = true ∧
    cfg.linked.constructs = true ∧ r.xdelOk = true ∧
    (r.ok = true ∨ m.attempts + 1 > cfg.maxRetries ∨
      (timeAfter r.now (m.baseBackoff * 2 ^ m.attempts)).isSome = true ∧
        cfg.linked.maxLen = true ∧ r.xaddOk = true)

/-- The entry is not due yet. -/
def Waits (e : Entry) (r : Reply) : Prop :=
  ∃ m ∈ e.retryMeta.read, m.early r.now = true

instance (e : Entry) (r : Reply) : Decidable (Settles cfg e r) :=
  inferInstanceAs (Decidable (∃ m ∈ e.retryMeta.read, _))

instance (e : Entry) (r : Reply) : Decidable (Waits e r) :=
  inferInstanceAs (Decidable (∃ m ∈ e.retryMeta.read, _))

/-- Every entry settles, but the last one, which may wait. -/
def Orderly (cfg : Settings) (replies : ℕ → Reply) : ℕ → List (Item Entry) → Prop
  | _, [] => True
  | j, e :: es =>
    (Settles cfg e.val (replies j) ∧ Orderly cfg replies (j + 1) es) ∨
      (es = [] ∧ Waits e.val (replies j))

instance Orderly.decidable (replies : ℕ → Reply) :
    ∀ (j : ℕ) (es : List (Item Entry)), Decidable (Orderly cfg replies j es)
  | _, [] => .isTrue trivial
  | j, _ :: es =>
    have := decidable replies (j + 1) es
    have : Decidable (es = []) := decidable_of_iff (es.isEmpty = true) List.isEmpty_iff
    inferInstanceAs (Decidable ((_ ∧ _) ∨ (_ ∧ _)))

/-- The step is no round, or a round over such a batch. -/
def TickOk (cfg : Settings) (p : Poll) : Input → Prop
  | .tick replies => Orderly cfg replies 0 (p.batch cfg)
  | .publish .. | .tickFails => True

instance (p : Poll) : ∀ i, Decidable (TickOk cfg p i)
  | .tick replies => Orderly.decidable replies 0 (p.batch cfg)
  | .publish .. | .tickFails => .isTrue trivial

/-- No entry from the start id on stands before the cursor. -/
def NotPassed (cfg : Settings) (p : Poll) : Prop :=
  ∀ x ∈ p.stream.items, cfg.startId ≤ x.id → p.lastId ≤ x.id

/-! ## What the operations keep -/

/-- `q` comes from `p` by appending and removing entries: the entries of `p` that are gone were
dispatched or trimmed. -/
structure Later (p q : Poll) : Prop where
  nextId : p.stream.nextId ≤ q.stream.nextId
  stream : ∀ x ∈ q.stream.items, x ∈ p.stream.items ∨ p.stream.nextId ≤ x.id
  gone : ∀ x ∈ p.stream.items, x ∈ q.stream.items ∨ x.id ∈ q.dispatched ∨ x.id ∈ q.trimmed
  dispatched : ∀ i ∈ p.dispatched, i ∈ q.dispatched
  trimmed : ∀ i ∈ p.trimmed, i ∈ q.trimmed

namespace Later

variable {p q r : Poll}

theorem of_follows
    (h : Log.Follows (fun x => x.id ∈ q.dispatched ∨ x.id ∈ q.trimmed) p.stream q.stream)
    (hdisp : p.dispatched ⊆ q.dispatched) (htrim : p.trimmed ⊆ q.trimmed) : Later p q :=
  ⟨h.nextId, h.new, h.gone, fun _ => @hdisp _, fun _ => @htrim _⟩

theorem follows (h : Later p q) :
    Log.Follows (fun x => x.id ∈ q.dispatched ∨ x.id ∈ q.trimmed) p.stream q.stream :=
  ⟨h.nextId, h.stream, h.gone⟩

theorem refl (p : Poll) : Later p p := of_follows (.refl _) (List.Subset.refl _) (List.Subset.refl _)

theorem trans (h : Later p q) (h' : Later q r) : Later p r := by
  have hpq : Log.Follows (fun x => x.id ∈ r.dispatched ∨ x.id ∈ r.trimmed) p.stream q.stream :=
    h.follows.imp fun x => Or.imp (h'.dispatched x.id) (h'.trimmed x.id)
  exact of_follows (hpq.trans h'.follows) (fun i hi => h'.dispatched i (h.dispatched i hi))
    fun i hi => h'.trimmed i (h.trimmed i hi)

theorem xadd (cfg : Settings) (p : Poll) (e : Entry) : Later p (p.xadd cfg e) := by
  refine of_follows ((Log.Follows.append_trim p.stream e cfg.streamTrimLen).imp fun x hx => ?_)
    (List.Subset.refl _) (List.subset_append_left _ _)
  exact .inr (List.mem_append_right _ (List.mem_map_of_mem hx))

theorem xadds (cfg : Settings) (es : List Entry) (p : Poll) :
    Later p (es.foldl (Poll.xadd cfg) p) := by
  induction es generalizing p with
  | nil => exact refl p
  | cons e es ih => exact (xadd cfg p e).trans (ih _)

/-- Deleting an entry that was dispatched. -/
theorem xdel {p : Poll} {i : ℕ} (h : i ∈ p.dispatched) : Later p (p.xdel i) := by
  refine of_follows ((Log.Follows.delete p.stream i).imp fun x hx => .inl ?_) (List.Subset.refl _)
    (List.Subset.refl _)
  exact hx.symm ▸ h

theorem tryXdel {p : Poll} {i : ℕ} (r : Reply) (h : i ∈ p.dispatched) : Later p (p.tryXdel r i) := by
  unfold Poll.tryXdel
  split
  · exact xdel h
  · exact refl p

theorem afterDispatch {p : Poll} {e : Item Entry} (m : Retry) (r : Reply)
    (h : e.id ∈ p.dispatched) : Later p (p.afterDispatch cfg e m r) := by
  simp only [Poll.afterDispatch]
  split
  · exact tryXdel r h
  · split
    · exact tryXdel r h
    · split
      · exact refl p
      · split
        · exact (xadd cfg p _).trans (tryXdel r h)
        · exact refl p

theorem dispatch (p : Poll) (i : ℕ) : Later p { p with dispatched := p.dispatched ++ [i] } :=
  of_follows (.refl _) (List.subset_append_left _ _) (List.Subset.refl _)

theorem process (cfg : Settings) (p : Poll) (e : Item Entry) (r : Reply) :
    Later p (p.processDeadletterEntry cfg e r) := by
  unfold Poll.processDeadletterEntry
  split
  · exact refl p
  · split_ifs
    · exact refl p
    · exact refl p
    · exact refl p
    · have h1 := dispatch p e.id
      have h2 := xadds cfg r.published { p with dispatched := p.dispatched ++ [e.id] }
      have hmem := h2.dispatched e.id (List.mem_append_right _ (List.mem_singleton_self _))
      exact (h1.trans h2).trans (afterDispatch _ r hmem)

theorem moveTo {p q : Poll} (h : Later p q) (i : ℕ) : Later p { q with lastId := i } :=
  ⟨h.nextId, h.stream, h.gone, h.dispatched, h.trimmed⟩

theorem walk (cfg : Settings) (replies : ℕ → Reply) (es : List (Item Entry)) :
    ∀ (j : ℕ) (p : Poll), Later p (p.walk cfg replies j es) := by
  induction es with
  | nil => intro j p; exact refl p
  | cons e es ih => intro j p; exact ((process cfg p e _).moveTo e.id).trans (ih _ _)

/-- Publishing adds an entry, or raises. -/
theorem publish_eq (cfg : Settings) (p : Poll) (now : ℚ) (decisionId channel error : String)
    (attempts : ℤ) (base : ℚ) (next : Option ℚ) :
    p.publishDeadletter cfg now decisionId channel error attempts base next = p ∨
      ∃ entry, p.publishDeadletter cfg now decisionId channel error attempts base next =
        p.xadd cfg entry := by
  unfold Poll.publishDeadletter
  split
  · exact .inl rfl
  · split
    · exact .inr ⟨_, rfl⟩
    · exact .inl rfl

theorem step (cfg : Settings) (p : Poll) (i : Input) : Later p (Deadletter.step cfg p i) := by
  cases i with
  | publish now decisionId channel error attempts base next =>
    rw [Deadletter.step]
    obtain h | ⟨entry, h⟩ := publish_eq cfg p now decisionId channel error attempts base next
    · rw [h]
      exact refl p
    · rw [h]
      exact xadd cfg p entry
  | tick replies => exact walk cfg replies _ 0 p
  | tickFails => exact refl p

end Later

/-! ## What a round settles -/

section
variable {p : Poll} {e : Item Entry} {r : Reply}

/-- A settled entry was dispatched, and is out of the stream. -/
theorem process_settled (h : Settles cfg e.val r) :
    e.id ∈ (p.processDeadletterEntry cfg e r).dispatched ∧
      ∀ x ∈ (p.processDeadletterEntry cfg e r).stream.items, x.id ≠ e.id := by
  obtain ⟨m, hread, hdue, hchannel, hcons, hdel, hend⟩ := h
  rw [Option.mem_def] at hread
  have hpow : m.attempts + 1 - 1 = m.attempts := by omega
  simp only [Poll.processDeadletterEntry, hread, hdue, hchannel, hcons, Bool.not_true,
    Bool.false_eq_true, ↓reduceIte, Poll.afterDispatch, Poll.tryXdel, hdel, hpow]
  have hmem := (Later.xadds cfg r.published { p with dispatched := p.dispatched ++ [e.id] }).dispatched
    e.id (List.mem_append_right _ (List.mem_singleton_self _))
  split
  · exact ⟨hmem, fun x hx => (Log.mem_delete.1 hx).2⟩
  · split
    · exact ⟨hmem, fun x hx => (Log.mem_delete.1 hx).2⟩
    · rename_i hok hmax
      obtain ⟨hdate, hlen, hadd⟩ := (hend.resolve_left hok).resolve_left hmax
      obtain ⟨next, hnext⟩ := Option.isSome_iff_exists.1 hdate
      simp only [hnext, hlen, hadd, Bool.and_self, ↓reduceIte]
      exact ⟨hmem, fun x hx => (Log.mem_delete.1 hx).2⟩

theorem process_waits (h : Waits e.val r) : p.processDeadletterEntry cfg e r = p := by
  obtain ⟨m, hread, hearly⟩ := h
  rw [Option.mem_def] at hread
  simp [Poll.processDeadletterEntry, hread, hearly]

end

/-- The loop over `es`, with `rest` behind them: as long as these are all the entries below `big`,
no entry is passed. -/
theorem walk_spec {replies : ℕ → Reply} (rest : List (Item Entry)) (big : ℕ)
    (es : List (Item Entry)) :
    ∀ {j : ℕ} {p : Poll}, Orderly cfg replies j es →
      (es ++ rest).Pairwise (fun x y => x.id < y.id) → (∀ x ∈ es ++ rest, x.id < big) →
      big ≤ p.stream.nextId →
      (∀ x ∈ p.stream.items, cfg.startId ≤ x.id → x ∈ es ++ rest ∨ big ≤ x.id) →
      NotPassed cfg p → NotPassed cfg (p.walk cfg replies j es) := by
  induction es with
  | nil => intro j p _ _ _ _ _ h; exact h
  | cons e es ih =>
    intro j p hord hsort hbig hnext hall _
    have hahead : ∀ x ∈ es ++ rest, e.id < x.id := (List.pairwise_cons.1 hsort).1
    have he : e.id < big := hbig e (List.mem_cons_self ..)
    show NotPassed cfg (Poll.walk cfg replies (j + 1) es _)
    rcases hord with ⟨hset, hord⟩ | ⟨rfl, hwait⟩
    · have hl := Later.process cfg p e (replies j)
      have hleft : ∀ x ∈ (p.processDeadletterEntry cfg e (replies j)).stream.items,
          cfg.startId ≤ x.id → x ∈ es ++ rest ∨ big ≤ x.id := by
        intro x hx hstart
        rcases hl.stream x hx with hp | hp
        · rcases hall x hp hstart with hmem | hmem
          · rcases List.mem_cons.1 hmem with rfl | hmem
            · exact absurd rfl ((process_settled hset).2 x hx)
            · exact .inl hmem
          · exact .inr hmem
        · exact .inr (hnext.trans hp)
      refine ih hord (List.pairwise_cons.1 hsort).2
        (fun x hx => hbig x (List.mem_cons_of_mem _ hx)) (hnext.trans hl.nextId) hleft ?_
      intro x hx hstart
      rcases hleft x hx hstart with hmem | hmem
      · exact (hahead x hmem).le
      · exact (he.trans_le hmem).le
    · rw [process_waits hwait]
      intro x hx hstart
      rcases hall x hx hstart with hmem | hmem
      · rcases List.mem_cons.1 hmem with rfl | hmem
        · exact le_rfl
        · exact (hahead x hmem).le
      · exact (he.trans_le hmem).le

/-- The cursor after the loop: where it was, or on an entry the loop has processed. -/
theorem walk_lastId (cfg : Settings) (replies : ℕ → Reply) (es : List (Item Entry)) :
    ∀ (j : ℕ) (p : Poll), (p.walk cfg replies j es).lastId = p.lastId ∨
      ∃ e ∈ es, (p.walk cfg replies j es).lastId = e.id := by
  induction es with
  | nil => intro j p; exact .inl rfl
  | cons e es ih =>
    intro j p
    obtain h | ⟨x, hx, h⟩ :=
      ih (j + 1) { p.processDeadletterEntry cfg e (replies j) with lastId := e.id }
    · exact .inr ⟨e, List.mem_cons_self .., h⟩
    · exact .inr ⟨x, List.mem_cons_of_mem _ hx, h⟩

theorem mem_batch {p : Poll} {e : Item Entry} (h : e ∈ p.batch cfg) :
    e ∈ p.stream.items ∧ p.lastId ≤ e.id :=
  Log.mem_tail.1 (List.mem_of_mem_take h)

theorem lastId_le_tick (replies : ℕ → Reply) (p : Poll) : p.lastId ≤ (p.tick cfg replies).lastId := by
  obtain h | ⟨e, he, h⟩ := walk_lastId cfg replies (p.batch cfg) 0 p
  · exact h.ge
  · exact (mem_batch he).2.trans h.ge

/-- The invariant of the runs: the cursor is not behind the id of the next entry either, once it
has moved. -/
structure CursorInv (cfg : Settings) (p : Poll) : Prop where
  notPassed : NotPassed cfg p
  bound : p.lastId = cfg.startId ∨ p.lastId < p.stream.nextId

theorem CursorInv.step {p : Poll} {i : Input} (h : CursorInv cfg p) (hok : TickOk cfg p i) :
    CursorInv cfg (step cfg p i) := by
  have hl := Later.step cfg p i
  cases i with
  | publish now decisionId channel error attempts base next =>
    have hlast : (Deadletter.step cfg p
        (.publish now decisionId channel error attempts base next)).lastId = p.lastId := by
      rw [Deadletter.step]
      obtain h | ⟨entry, h⟩ :=
        Later.publish_eq cfg p now decisionId channel error attempts base next
      · rw [h]
      · rw [h]
        rfl
    constructor
    · intro x hx hstart
      rw [hlast]
      rcases hl.stream x hx with hp | hp
      · exact h.notPassed x hp hstart
      · rcases h.bound with hb | hb
        · exact hb.le.trans hstart
        · exact hb.le.trans hp
    · rw [hlast]
      exact h.bound.imp_right fun hb => hb.trans_le hl.nextId
  | tickFails => exact h
  | tick replies =>
    have hsplit : p.batch cfg ++ (p.stream.tail p.lastId).drop cfg.maxBatch =
        p.stream.tail p.lastId := List.take_append_drop _ _
    constructor
    · refine walk_spec ((p.stream.tail p.lastId).drop cfg.maxBatch) p.stream.nextId _ hok ?_ ?_
        le_rfl ?_ h.notPassed
      · rw [hsplit]
        exact Log.tail_sorted _
      · rw [hsplit]
        exact fun x hx => p.stream.bound x (Log.mem_tail.1 hx).1
      · rw [hsplit]
        exact fun x hx hstart => .inl (Log.mem_tail.2 ⟨hx, h.notPassed x hx hstart⟩)
    · obtain hw | ⟨e, he, hw⟩ := walk_lastId cfg replies (p.batch cfg) 0 p
      · exact h.bound.imp hw.trans fun hb => (hw.trans_lt hb).trans_le hl.nextId
      · exact .inr ((hw.trans_lt (p.stream.bound e (mem_batch he).1)).trans_le hl.nextId)

/-! ## Progress -/

/-- At `T` the entry is due. -/
def Due (T : ℚ) (e : Entry) : Prop := ∀ m, e.retryMeta.read = some m → m.early T = false

/-- The clock readings of the step are at `T` or later. -/
def After (T : ℚ) : Input → Prop
  | .tick replies => ∀ j, T ≤ (replies j).now
  | .publish .. | .tickFails => True

/-- The number of rounds. -/
def rounds (is : List Input) : ℕ := is.countP fun i => i matches .tick _

theorem Due.not_waits {T : ℚ} {e : Entry} {r : Reply} (h : Due T e) (hr : T ≤ r.now) :
    ¬Waits e r := by
  intro h'
  obtain ⟨m, hread, hearly⟩ := h'
  have hdue := h m hread
  cases hnext : m.nextRetry with
  | none => simp [Retry.early, hnext] at hearly
  | some t =>
    simp only [Retry.early, hnext, Option.any_some, decide_eq_true_eq, decide_eq_false_iff_not]
      at hearly hdue
    exact hdue (lt_of_le_of_lt hr hearly)

/-- A round that starts with a settled entry brings the cursor closer to every entry behind it. -/
theorem tick_progress {p : Poll} {replies : ℕ → Reply} {x : Item Entry} (hB : 1 ≤ cfg.maxBatch)
    (hok : Orderly cfg replies 0 (p.batch cfg)) (hx : x ∈ p.stream.items) (hlast : p.lastId ≤ x.id)
    (hdue : ∀ y ∈ p.stream.items, p.lastId ≤ y.id → y.id ≤ x.id → ¬Waits y.val (replies 0)) :
    (p.tick cfg replies).stream.between (p.tick cfg replies).lastId x.id <
      p.stream.between p.lastId x.id := by
  have htail : x ∈ p.stream.tail p.lastId := Log.mem_tail.2 ⟨hx, hlast⟩
  have hsort := Log.tail_sorted (s := p.stream) p.lastId
  rcases htl : p.stream.tail p.lastId with _ | ⟨b, bs⟩
  · rw [htl] at htail
    exact absurd htail List.not_mem_nil
  obtain ⟨n, hn⟩ : ∃ n, cfg.maxBatch = n + 1 := ⟨cfg.maxBatch - 1, by omega⟩
  have hbatch : p.batch cfg = b :: bs.take n := by
    rw [Poll.batch, Log.range, htl, hn, List.take_succ_cons]
  have hb := mem_batch (p := p) (e := b) (by rw [hbatch]; exact List.mem_cons_self ..)
  have hbx : b.id ≤ x.id := by
    rw [htl] at htail hsort
    rcases List.mem_cons.1 htail with rfl | hmem
    · exact le_rfl
    · exact ((List.pairwise_cons.1 hsort).1 x hmem).le
  have hset : Settles cfg b.val (replies 0) := by
    rw [hbatch] at hok
    rcases hok with ⟨hset, -⟩ | ⟨-, hwait⟩
    · exact hset
    · exact absurd hwait (hdue b hb.1 hb.2 hbx)
  -- the first entry of the batch is gone after the round
  have hgone : b ∉ (p.tick cfg replies).stream.items := by
    intro hmem
    rw [Poll.tick, hbatch] at hmem
    have hl1 := (Later.process cfg p b (replies 0)).moveTo b.id
    rcases (Later.walk cfg replies _ 1 _).stream b hmem with h | h
    · exact (process_settled hset).2 b h rfl
    · have := p.stream.bound b hb.1
      have := hl1.nextId
      omega
  have hkeep : ∀ y ∈ (p.tick cfg replies).stream.items, y.id ≤ x.id → y ∈ p.stream.items := by
    intro y hy hyx
    rcases (Later.walk cfg replies _ 0 p).stream y hy with h | h
    · exact h
    · have := p.stream.bound x hx
      omega
  calc (p.tick cfg replies).stream.between (p.tick cfg replies).lastId x.id
      ≤ (p.tick cfg replies).stream.between p.lastId x.id :=
        Log.between_mono_lo (lastId_le_tick replies p)
    _ < p.stream.between p.lastId x.id := Log.between_lt hkeep hb.1 hb.2 hbx hgone

theorem lastId_le_step (p : Poll) (i : Input) : p.lastId ≤ (step cfg p i).lastId := by
  cases i with
  | publish now decisionId channel error attempts base next =>
    rw [step]
    obtain h | ⟨entry, h⟩ := Later.publish_eq cfg p now decisionId channel error attempts base next
    · rw [h]
    · rw [h]
      exact le_rfl
  | tick replies => exact lastId_le_tick replies p
  | tickFails => exact le_rfl

theorem Later.run (cfg : Settings) (is : List Input) :
    ∀ p : Poll, Later p (run (Deadletter.step cfg) p is) := by
  induction is with
  | nil => intro p; exact Later.refl p
  | cons i is ih => intro p; exact (Later.step cfg p i).trans (ih _)

/-- An entry is dispatched within as many rounds as entries stand before it, once all of these are
due. By induction on the run: a round brings the cursor closer, no other step moves the entry. -/
theorem run_progress {T : ℚ} {x : Item Entry} (hB : 1 ≤ cfg.maxBatch) (hstart : cfg.startId ≤ x.id)
    (is : List Input) : ∀ {p : Poll}, CursorInv cfg p → Within (step cfg) (TickOk cfg) p is →
      x ∈ p.stream.items →
      (∀ y ∈ p.stream.items, p.lastId ≤ y.id → y.id ≤ x.id → Due T y.val) →
      (∀ i ∈ is, After T i) → p.stream.between p.lastId x.id ≤ rounds is →
      x.id ∈ (run (step cfg) p is).dispatched ∨ x.id ∈ (run (step cfg) p is).trimmed := by
  induction is with
  | nil =>
    intro p hinv _ hx _ _ hrounds
    have := Log.between_pos hx (hinv.notPassed x hx hstart) le_rfl
    simp only [rounds, List.countP_nil] at hrounds
    omega
  | cons i is ih =>
    intro p hinv hw hx hdue hafter hrounds
    obtain ⟨hok, hw⟩ := hw
    have hl := Later.step cfg p i
    have hrun := Later.run cfg is (step cfg p i)
    rcases hl.gone x hx with hleft | hdisp | htrim
    · have hkeep : ∀ y ∈ (step cfg p i).stream.items, y.id ≤ x.id → y ∈ p.stream.items := by
        intro y hy hyx
        have := p.stream.bound x hx
        rcases hl.stream y hy with h | h
        · exact h
        · omega
      have hdue' : ∀ y ∈ (step cfg p i).stream.items, (step cfg p i).lastId ≤ y.id →
          y.id ≤ x.id → Due T y.val :=
        fun y hy hlo hhi => hdue y (hkeep y hy hhi) ((lastId_le_step p i).trans hlo) hhi
      refine ih (hinv.step hok) hw hleft hdue'
        (fun j hj => hafter j (List.mem_cons_of_mem _ hj)) ?_
      have hmono : (step cfg p i).stream.between (step cfg p i).lastId x.id ≤
          p.stream.between p.lastId x.id :=
        (Log.between_mono_lo (lastId_le_step p i)).trans (Log.between_le hkeep)
      cases i with
      | publish => exact hmono.trans (by simpa [rounds] using hrounds)
      | tickFails => exact hmono.trans (by simpa [rounds] using hrounds)
      | tick replies =>
        have hnow : T ≤ (replies 0).now := hafter (.tick replies) (List.mem_cons_self ..) 0
        have hlt := tick_progress hB hok hx (hinv.notPassed x hx hstart)
          fun y hy hlo hhi => (hdue y hy hlo hhi).not_waits hnow
        simp only [rounds, List.countP_cons_of_pos] at hrounds ⊢
        exact Nat.lt_succ_iff.1 (hlt.trans_le hrounds)
    · exact .inl (hrun.dispatched _ hdisp)
    · exact .inr (hrun.trimmed _ htrim)

/-- **The cursor strands no entry** in a run whose rounds settle every entry they read, except that
the last one of a batch may not be due: no entry is ever passed, and after any part of the run an
entry of the stream is dispatched (or cut off by the length limit) in the rounds that follow, as
soon as it and the entries before it are due. -/
theorem poll_never_strands (stream : Log Entry) (is : List Input) (hB : 1 ≤ cfg.maxBatch)
    (h : Within (step cfg) (TickOk cfg) (Poll.initial cfg stream) is) :
    Always (step cfg) (NotPassed cfg) (Poll.initial cfg stream) is ∧
      ∀ before after, is = before ++ after →
        ∀ p, p = run (step cfg) (Poll.initial cfg stream) before →
          ∀ x ∈ p.stream.items, cfg.startId ≤ x.id → ∀ T,
            (∀ y ∈ p.stream.items, p.lastId ≤ y.id → y.id ≤ x.id → Due T y.val) →
            (∀ i ∈ after, After T i) → p.stream.between p.lastId x.id ≤ rounds after →
            x.id ∈ (run (step cfg) p after).dispatched ∨
              x.id ∈ (run (step cfg) p after).trimmed := by
  have h0 : CursorInv cfg (Poll.initial cfg stream) := ⟨fun _ _ hstart => hstart, .inl rfl⟩
  refine ⟨h.always h0 (fun _ _ hi hok => hi.step hok) fun _ hi => hi.notPassed, ?_⟩
  rintro before after rfl p rfl x hx hstart T hdue hafter hrounds
  obtain ⟨h1, h2⟩ := within_append.1 h
  exact run_progress hB hstart after (h1.inv h0 fun _ _ hi hok => hi.step hok) h2 hx hdue hafter
    hrounds

/-- The clock reads `now` and every notification goes through. -/
def delivered (now : ℚ) : Input := .tick fun _ => { now, ok := true }

def sampleSettings (linked : Linked) : Settings where
  linked := linked
  maxBatch := 50
  maxRetries := 5
  streamTrimLen := 10000
  startId := 0

/-- One entry, read once before it is due and once after, by a loop whose names are linked. -/
theorem poll_never_strands_one :
    (1 : ℕ) ≤ (sampleSettings .working).maxBatch ∧
      Always (step (sampleSettings .working)) (NotPassed (sampleSettings .working))
        (Poll.initial (sampleSettings .working) (.empty 1))
        [.publish 0 "d1" "slack" "timeout" 1 10 none, delivered 1, delivered 20] := by
  exact ⟨by decide, (poll_never_strands _ _ (by decide) (by decide +kernel)).1⟩

/-! ## Entries that are passed -/

section
variable {i : ℕ}

theorem xadds_dispatched (es : List Entry) (p : Poll) :
    (es.foldl (Poll.xadd cfg) p).dispatched = p.dispatched := by
  induction es generalizing p with
  | nil => rfl
  | cons e es ih => exact ih _

theorem tryXdel_dispatched (p : Poll) (r : Reply) (j : ℕ) :
    (p.tryXdel r j).dispatched = p.dispatched := by
  unfold Poll.tryXdel
  split <;> rfl

theorem afterDispatch_dispatched (p : Poll) (e : Item Entry) (m : Retry) (r : Reply) :
    (p.afterDispatch cfg e m r).dispatched = p.dispatched := by
  simp only [Poll.afterDispatch]
  split
  · exact tryXdel_dispatched ..
  · split
    · exact tryXdel_dispatched ..
    · split
      · rfl
      · split
        · exact tryXdel_dispatched ..
        · rfl

theorem process_dispatched {p : Poll} {e : Item Entry} {r : Reply}
    (h : i ∈ (p.processDeadletterEntry cfg e r).dispatched) : i ∈ p.dispatched ∨ i = e.id := by
  unfold Poll.processDeadletterEntry at h
  split at h
  · exact .inl h
  · split_ifs at h
    · exact .inl h
    · exact .inl h
    · exact .inl h
    · rw [afterDispatch_dispatched, xadds_dispatched] at h
      simpa using h

theorem publish_dispatched {p : Poll} {now : ℚ} {decisionId channel error : String} {attempts : ℤ}
    {base : ℚ} {next : Option ℚ}
    (h : i ∈ (step cfg p
      (.publish now decisionId channel error attempts base next)).dispatched) :
    i ∈ p.dispatched := by
  rw [step] at h
  obtain heq | ⟨entry, heq⟩ :=
    Later.publish_eq cfg p now decisionId channel error attempts base next
  · rwa [heq] at h
  · rw [heq] at h
    exact h

theorem walk_dispatched {replies : ℕ → Reply} (es : List (Item Entry)) :
    ∀ {j : ℕ} {p : Poll}, i ∈ (p.walk cfg replies j es).dispatched →
      i ∈ p.dispatched ∨ ∃ e ∈ es, i = e.id := by
  induction es with
  | nil => intro j p h; exact .inl h
  | cons e es ih =>
    intro j p h
    rcases ih h with h | ⟨x, hx, hi⟩
    · rcases process_dispatched h with h | h
      · exact .inl h
      · exact .inr ⟨e, List.mem_cons_self .., h⟩
    · exact .inr ⟨x, List.mem_cons_of_mem _ hx, hi⟩

theorem step_dispatched {p : Poll} {a : Input} (hlt : i < p.lastId)
    (h : i ∈ (step cfg p a).dispatched) : i ∈ p.dispatched := by
  cases a with
  | publish now decisionId channel error attempts base next =>
    exact publish_dispatched h
  | tickFails => exact h
  | tick replies =>
    rcases walk_dispatched _ h with h | ⟨e, he, rfl⟩
    · exact h
    · have := (mem_batch he).2
      omega

/-- An entry the cursor has passed is never dispatched again. -/
theorem passed_never_dispatched (is : List Input) : ∀ {p : Poll}, i < p.lastId →
    i ∈ (run (step cfg) p is).dispatched → i ∈ p.dispatched := by
  induction is with
  | nil => intro p _ h; exact h
  | cons a is ih =>
    intro p hlt h
    exact step_dispatched hlt (ih (hlt.trans_le (lastId_le_step p a)) h)

end

/-! ## Notifiers that cannot be constructed -/

section
variable (hcons : cfg.linked.constructs = false)
include hcons

theorem process_unconstructed (p : Poll) (e : Item Entry) (r : Reply) :
    p.processDeadletterEntry cfg e r = p := by
  unfold Poll.processDeadletterEntry
  split
  · rfl
  · simp [hcons]

/-- A round then only moves the cursor. -/
theorem walk_unconstructed {replies : ℕ → Reply} (es : List (Item Entry)) : ∀ (j : ℕ) (p : Poll),
    (p.walk cfg replies j es).dispatched = p.dispatched := by
  induction es with
  | nil => exact fun _ _ => rfl
  | cons e es ih =>
    intro j p
    rw [Poll.walk, ih]
    show (p.processDeadletterEntry cfg e (replies j)).dispatched = p.dispatched
    rw [process_unconstructed hcons]

/-- So nothing is ever dispatched. -/
theorem run_unconstructed (is : List Input) : ∀ p : Poll,
    (run (step cfg) p is).dispatched = p.dispatched := by
  induction is with
  | nil => exact fun _ => rfl
  | cons a is ih =>
    intro p
    rw [run_cons, ih]
    cases a with
    | publish now decisionId channel error attempts base next =>
      rw [step]
      obtain heq | ⟨entry, heq⟩ :=
        Later.publish_eq cfg p now decisionId channel error attempts base next
      · rw [heq]
      · rw [heq]
        rfl
    | tick replies => exact walk_unconstructed hcons _ 0 p
    | tickFails => rfl

end

/-- Two entries with the first backoff of ten seconds, read after one second and after a hundred. -/
def twoEntries : Poll :=
  run (step (sampleSettings .working)) (Poll.initial (sampleSettings .working) (.empty 1))
    [.publish 0 "d1" "slack" "timeout" 1 10 none, .publish 0 "d2" "slack" "timeout" 1 10 none,
      delivered 1, delivered 100]

/-- A stream of two messages that were due long ago. -/
def dueEntries : Log Entry :=
  ((Log.empty 1).append ⟨"d1", "slack", "timeout", .notJson⟩).append ⟨"d2", "slack", "timeout", .notJson⟩

/-- With the names linked, the first entry is still in the stream, and no further step dispatches it.
As the package is shipped, a round passes entries that are due, and no run dispatches anything. -/
theorem skippedEntry_stranded :
    (¬NotPassed (sampleSettings .working) twoEntries ∧ twoEntries.stream.items.map (·.id) = [1] ∧
      twoEntries.dispatched = [2] ∧
      ∀ is, 1 ∉ (run (step (sampleSettings .working)) twoEntries is).dispatched) ∧
    ¬NotPassed (sampleSettings .shipped)
        (run (step (sampleSettings .shipped))
          (Poll.initial (sampleSettings .shipped) dueEntries) [delivered 100]) ∧
      ∀ is, (run (step (sampleSettings .shipped))
        (Poll.initial (sampleSettings .shipped) dueEntries) is).dispatched = [] := by
  have hitems : twoEntries.stream.items.map (·.id) = [1] := by decide +kernel
  have hdisp : twoEntries.dispatched = [2] := by decide +kernel
  have hlast : 1 < twoEntries.lastId := by decide +kernel
  have hcons : (sampleSettings .shipped).linked.constructs = false := rfl
  refine ⟨⟨fun h => ?_, hitems, hdisp, fun is h => ?_⟩, fun h => ?_,
    fun is => run_unconstructed hcons is _⟩
  · obtain ⟨x, hx, hid⟩ := List.mem_map.1 (hitems ▸ List.mem_singleton_self 1)
    have := h x hx (Nat.zero_le _)
    omega
  · have := passed_never_dispatched is hlast h
    rw [hdisp] at this
    exact absurd this (by decide)
  · have hfirst := h ⟨1, ⟨"d1", "slack", "timeout", .notJson⟩⟩ List.mem_cons_self (Nat.zero_le _)
    revert hfirst
    decide +kernel

end Deadletter
