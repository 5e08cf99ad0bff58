import Mathlib.Algebra.Order.Field.Power
import IctAlgo.Deadletter.Retries

/-!
# What becomes of an entry

A call of `_process_deadletter_entry` leaves its entry alone, or calls the notifier once and then
deletes the entry, writes it again, or keeps it; whether it raises afterwards is another matter.

* `wp_process`: the ends of a call, one for each path through the source.
* `exists_fate`, `Fate.Describes.unique`: exactly one fate describes a call, whatever the notifier
  answers and whichever stream operations raise.
* `process_forget`: on the fields `Poll` reads, the call is the one of the poll loop.
-/

set_option autoImplicit false

namespace Deadletter

open Lib

variable {cfg : Settings} {e : Item Fields} {r : Answer}

/-! ## The ends of a call -/

namespace Queue

/-- The queue when the notifier has answered for `e`, and others have published. -/
def attempted (cfg : Settings) (e : Item Fields) (r : Answer) (m : Retry) (q : Queue) : Queue :=
  r.published.foldl (xadd cfg) { q with
    dispatches := q.dispatches ++ [⟨e.id, e.val.letter, m.attempts + 1, r.res.ok⟩] }

/-- XDEL, without effect when it raises. -/
def tryXdel (r : Answer) (id : ℕ) (q : Queue) : Queue := if r.xdelOk then q.xdel id else q

end Queue

theorem xadds_dispatches (published : List Fields) : ∀ q : Queue,
    (published.foldl (Queue.xadd cfg) q).dispatches = q.dispatches := by
  induction published with
  | nil => exact fun _ => rfl
  | cons fields published ih => exact fun q => ih _

theorem attempted_dispatches (m : Retry) (q : Queue) : (q.attempted cfg e r m).dispatches =
    q.dispatches ++ [⟨e.id, e.val.letter, m.attempts + 1, r.res.ok⟩] :=
  xadds_dispatches _ _

theorem tryXdel_dispatches (q : Queue) (id : ℕ) : (q.tryXdel r id).dispatches = q.dispatches := by
  unfold Queue.tryXdel
  split <;> rfl

/-- The entry as it is written again. -/
def Fields.again (fields : Fields) (r : Answer) (m : Retry) (next : ℚ) : Fields :=
  newEntry r (reconstructPayloadFromEntry r.now fields) m next

/-- The time of the next attempt after one that failed, if it is a date. -/
def Retry.nextAfter (m : Retry) (now : ℚ) : Option ℚ :=
  timeAfter now (m.baseBackoff * 2 ^ m.attempts)

section
variable {Q : Unit → Queue → Prop} {E : Raised → Queue → Prop} {q : Queue}

@[simp] theorem wp_logged (m : QueueM Unit) :
    Exn.wp (logged m) Q E q ↔ Exn.wp m Q (fun _ q' => Q () q') q := by
  simp [logged]

@[simp] theorem wp_redisXadd (fields : Fields) :
    Exn.wp (redisXadd cfg r fields) Q E q ↔
      if cfg.linked.maxLen && r.xaddOk then Q () (q.xadd cfg fields) else E .redis q := by
  unfold redisXadd
  split <;> simp

@[simp] theorem wp_redisXdel (id : ℕ) :
    Exn.wp (redisXdel r id) Q E q ↔ if r.xdelOk then Q () (q.xdel id) else E .redis q := by
  unfold redisXdel
  split <;> simp

@[simp] theorem wp_logNotification :
    Exn.wp (logNotification r) Q E q ↔ if r.logRaises then E .storage q else Q () q := by
  unfold logNotification
  split <;> simp

@[simp] theorem wp_countRequest :
    Exn.wp (countRequest cfg) Q E q ↔ if cfg.linked.metric then Q () q else E .metric q := by
  unfold countRequest
  split <;> simp

@[simp] theorem wp_constructNotifier :
    Exn.wp (constructNotifier cfg) Q E q ↔ if cfg.linked.constructs then Q () q else E .notifier q := by
  unfold constructNotifier
  split <;> simp

theorem wp_dispatch {R : DispatchResult → Queue → Prop} (m : Retry) :
    Exn.wp (dispatch cfg r e m) R E q ↔ R r.res (q.attempted cfg e r m) := by
  simp [dispatch, Queue.attempted]

theorem wp_deliver :
    Exn.wp (deliver cfg r e) Q E q ↔
      if cfg.linked.metric then Q () (q.tryXdel r e.id) else E .metric (q.tryXdel r e.id) := by
  simp only [deliver, Exn.wp_bind, wp_logged, wp_redisXdel, wp_logNotification, wp_countRequest,
    ite_self, Queue.tryXdel]
  split <;> rfl

theorem wp_giveUp :
    Exn.wp (giveUp cfg r e) Q E q ↔
      if r.logRaises then E .storage (q.tryXdel r e.id)
      else if cfg.linked.metric then Q () (q.tryXdel r e.id) else E .metric (q.tryXdel r e.id) := by
  simp only [giveUp, Exn.wp_bind, wp_logged, wp_redisXdel, wp_logNotification, wp_countRequest,
    Queue.tryXdel]
  split <;> rfl

theorem wp_nextRetry {R : ℚ → Queue → Prop} (m : Retry) :
    Exn.wp (nextRetry r m) R E q ↔
      match m.nextAfter r.now with
      | none => E .overflow q
      | some next => R next q := by
  unfold nextRetry Retry.nextAfter
  rw [add_sub_cancel_right]
  cases timeAfter r.now (m.baseBackoff * 2 ^ m.attempts) <;> rfl

/-- The queue after the stream operations of a rescheduling. -/
def Queue.rescheduled (cfg : Settings) (e : Item Fields) (r : Answer) (new : Fields) (q : Queue) :
    Queue :=
  if cfg.linked.maxLen && r.xaddOk then (q.xadd cfg new).tryXdel r e.id else q

theorem wp_reschedule (entry : Reconstructed) (m : Retry) :
    Exn.wp (reschedule cfg r e entry m) Q E q ↔
      match m.nextAfter r.now with
      | none => E .overflow q
      | some next =>
        if cfg.linked.metric then Q () (q.rescheduled cfg e r (newEntry r entry m next))
        else E .metric (q.rescheduled cfg e r (newEntry r entry m next)) := by
  simp only [reschedule, Exn.wp_bind, wp_nextRetry, wp_logged, wp_redisXadd, wp_redisXdel,
    wp_logNotification, wp_countRequest, ite_self, Queue.rescheduled, Queue.tryXdel]
  split
  · rfl
  · split
    · split <;> rfl
    · rfl

theorem wp_readRetry {R : Retry → Queue → Prop} (retryMeta : RetryMeta) :
    Exn.wp (readRetry retryMeta) R E q ↔
      match retryMeta.read with
      | none => E .retryMeta q
      | some m => R m q := by
  unfold readRetry
  cases retryMeta.read <;> rfl

/-- The ends of `_process_deadletter_entry`. -/
theorem wp_process :
    Exn.wp (processDeadletterEntry cfg r e) Q E q ↔
      match e.val.retryMeta.read with
      | none => E .retryMeta q
      | some m =>
        if m.early r.now then Q () q
        else if knownChannel e.val.channel then
          if cfg.linked.constructs then
            if r.res.ok then
              if cfg.linked.metric then Q () ((q.attempted cfg e r m).tryXdel r e.id)
              else E .metric ((q.attempted cfg e r m).tryXdel r e.id)
            else if cfg.maxRetries < m.attempts + 1 then
              if r.logRaises then E .storage ((q.attempted cfg e r m).tryXdel r e.id)
              else if cfg.linked.metric then Q () ((q.attempted cfg e r m).tryXdel r e.id)
              else E .metric ((q.attempted cfg e r m).tryXdel r e.id)
            else
              match m.nextAfter r.now with
              | none => E .overflow (q.attempted cfg e r m)
              | some next =>
                if cfg.linked.metric then
                  Q () ((q.attempted cfg e r m).rescheduled cfg e r (e.val.again r m next))
                else E .metric ((q.attempted cfg e r m).rescheduled cfg e r (e.val.again r m next))
          else E .notifier q
        else if r.logRaises then E .storage q
        else Q () q := by
  simp only [processDeadletterEntry, Exn.wp_bind, wp_readRetry, Exn.wp_ite, Exn.wp_pure, ite_not,
    wp_dispatch, wp_deliver, wp_giveUp, wp_reschedule, wp_logNotification, wp_constructNotifier]
  rfl

end

/-! ## Fates -/

/-- The queue a call of `_process_deadletter_entry` leaves, also when it raises. -/
def Queue.process (cfg : Settings) (e : Item Fields) (r : Answer) (q : Queue) : Queue :=
  Exn.exec (processDeadletterEntry cfg r e) q

/-- The notifier is called for the entry, whose metadata is `m`. -/
structure Attempted (cfg : Settings) (e : Item Fields) (r : Answer) (m : Retry) : Prop where
  read : e.val.retryMeta.read = some m
  due : m.early r.now = false
  known : knownChannel e.val.channel = true
  constructs : cfg.linked.constructs = true

/-- `new` is the entry `old` as a failed attempt at `m` writes it again. -/
structure Rewrites (old new : Fields) (m : Retry) (now : ℚ) : Prop where
  letter : new.letter = old.letter
  retryMeta : new.retryMeta.read =
    some ⟨m.attempts + 1, m.baseBackoff, some (now + m.baseBackoff * 2 ^ m.attempts)⟩
  later : 0 < m.baseBackoff → ∀ t, m.nextRetry = some t → t < now + m.baseBackoff * 2 ^ m.attempts

inductive Fate
  | untouched | delivered | exhausted | rescheduled | kept

/-- The call of `_process_deadletter_entry` that brings `q` to `q'` has this fate for its entry. -/
def Fate.Describes (cfg : Settings) (e : Item Fields) (r : Answer) (q q' : Queue) : Fate → Prop
  | untouched => (∀ m, ¬Attempted cfg e r m) ∧ q' = q
  | delivered => ∃ m, Attempted cfg e r m ∧ r.res.ok = true ∧
      q' = (q.attempted cfg e r m).tryXdel r e.id
  | exhausted => ∃ m, Attempted cfg e r m ∧ r.res.ok = false ∧ cfg.maxRetries < m.attempts + 1 ∧
      q' = (q.attempted cfg e r m).tryXdel r e.id
  | rescheduled => ∃ m, Attempted cfg e r m ∧ r.res.ok = false ∧ m.attempts + 1 ≤ cfg.maxRetries ∧
      (cfg.linked.maxLen && r.xaddOk) = true ∧ ∃ next, m.nextAfter r.now = some next ∧
        Rewrites e.val (e.val.again r m next) m r.now ∧
        q' = ((q.attempted cfg e r m).xadd cfg (e.val.again r m next)).tryXdel r e.id
  | kept => ∃ m, Attempted cfg e r m ∧ r.res.ok = false ∧ m.attempts + 1 ≤ cfg.maxRetries ∧
      (m.nextAfter r.now = none ∨ (cfg.linked.maxLen && r.xaddOk) = false) ∧
      q' = q.attempted cfg e r m

theorem timeAfter_eq {now delay next : ℚ} (h : timeAfter now delay = some next) :
    next = now + delay := by
  unfold timeAfter at h
  split at h
  · exact (Option.some.inj h).symm
  · cases h

theorem rewrites_again {m : Retry} {next : ℚ} (h : Attempted cfg e r m)
    (hnext : m.nextAfter r.now = some next) :
    Rewrites e.val (e.val.again r m next) m r.now where
  letter := rfl
  retryMeta := by
    rw [← timeAfter_eq hnext]
    rfl
  later hbase t ht := by
    have hdue : t ≤ r.now := by simpa [Retry.early, ht] using h.due
    exact hdue.trans_lt (lt_add_of_pos_right _ (mul_pos hbase (zpow_pos two_pos _)))

theorem Attempted.unique {m m' : Retry} (h : Attempted cfg e r m) (h' : Attempted cfg e r m') : m = m' :=
  Option.some.inj (h.read.symm.trans h'.read)

/-- No two do. -/
theorem Fate.Describes.unique {f f' : Fate} {q q' : Queue} (h : f.Describes cfg e r q q')
    (h' : f'.Describes cfg e r q q') : f = f' := by
  cases f <;> cases f' <;> grind [Fate.Describes, Attempted.unique]

/-- Some fate describes the call. -/
theorem exists_fate (cfg : Settings) (e : Item Fields) (r : Answer) (q : Queue) :
    ∃ f : Fate, f.Describes cfg e r q (q.process cfg e r) := by
  refine Exn.wp_exec (P := fun q' => ∃ f : Fate, f.Describes cfg e r q q') (wp_process.2 ?_)
  have hnot {m : Retry} (hread : e.val.retryMeta.read = some m)
      (h : m.early r.now = true ∨ knownChannel e.val.channel = false ∨
        cfg.linked.constructs = false) : ∃ f : Fate, f.Describes cfg e r q q := by
    refine ⟨.untouched, fun m' hm' => ?_, rfl⟩
    obtain rfl : m = m' := Option.some.inj (hread.symm.trans hm'.read)
    rcases h with h | h | h
    · exact absurd h (by simp [hm'.due])
    · exact absurd h (by simp [hm'.known])
    · exact absurd h (by simp [hm'.constructs])
  cases hread : e.val.retryMeta.read with
  | none =>
    refine ⟨.untouched, fun m hm => ?_, rfl⟩
    cases hread.symm.trans hm.read
  | some m =>
    dsimp only
    by_cases hearly : m.early r.now = true
    · rw [if_pos hearly]
      exact hnot hread (.inl hearly)
    by_cases hknown : knownChannel e.val.channel = true
    · rw [if_neg hearly, if_pos hknown]
      by_cases hcons : cfg.linked.constructs = true
      · have hatt : Attempted cfg e r m := ⟨hread, eq_false_of_ne_true hearly, hknown, hcons⟩
        rw [if_pos hcons]
        by_cases hok : r.res.ok = true
        · rw [if_pos hok, ite_self]
          exact ⟨.delivered, m, hatt, hok, rfl⟩
        have hfail : r.res.ok = false := eq_false_of_ne_true hok
        rw [if_neg hok]
        by_cases hmax : cfg.maxRetries < m.attempts + 1
        · rw [if_pos hmax, ite_self, ite_self]
          exact ⟨.exhausted, m, hatt, hfail, hmax, rfl⟩
        rw [if_neg hmax]
        cases hnext : m.nextAfter r.now with
        | none => exact ⟨.kept, m, hatt, hfail, not_lt.1 hmax, .inl hnext, rfl⟩
        | some next =>
          dsimp only
          rw [ite_self, Queue.rescheduled]
          by_cases hadd : (cfg.linked.maxLen && r.xaddOk) = true
          · rw [if_pos hadd]
            exact ⟨.rescheduled, m, hatt, hfail, not_lt.1 hmax, hadd, next, hnext,
              rewrites_again hatt hnext, rfl⟩
          · rw [if_neg hadd]
            exact ⟨.kept, m, hatt, hfail, not_lt.1 hmax, .inr (eq_false_of_ne_true hadd), rfl⟩
      · rw [if_neg hcons]
        exact hnot hread (.inr (.inr (eq_false_of_ne_true hcons)))
    · rw [if_neg hearly, if_neg hknown, ite_self]
      exact hnot hread (.inr (.inl (eq_false_of_ne_true hknown)))

/-! ## The call of the poll loop -/

/-- What `Poll` sees of an answer. -/
def Answer.toReply (r : Answer) : Reply where
  now := r.now
  ok := r.res.ok
  error := r.res.error
  xaddOk := r.xaddOk
  xdelOk := r.xdelOk
  published := r.published.map (·.toEntry)

namespace Queue

/-- What `Poll` sees of the queue. -/
def toPoll (lastId : ℕ) (q : Queue) : Poll where
  stream := q.stream.map (·.toEntry)
  lastId := lastId
  dispatched := q.dispatches.map (·.id)
  trimmed := q.trimmed.map (·.id)

variable (lastId : ℕ) (q : Queue)

theorem toPoll_xadd (fields : Fields) :
    (q.xadd cfg fields).toPoll lastId = (q.toPoll lastId).xadd cfg fields.toEntry := by
  simp only [toPoll, xadd, Poll.xadd, Log.map_trim, List.map_append, ← Log.map_append,
    Log.map_trimmed]

theorem toPoll_xadds (published : List Fields) : ∀ q : Queue,
    (published.foldl (xadd cfg) q).toPoll lastId =
      (published.map (·.toEntry)).foldl (Poll.xadd cfg) (q.toPoll lastId) := by
  induction published with
  | nil => exact fun _ => rfl
  | cons fields published ih =>
    intro q
    rw [List.foldl_cons, ih, toPoll_xadd]
    rfl

theorem toPoll_tryXdel (id : ℕ) :
    (q.tryXdel r id).toPoll lastId = (q.toPoll lastId).tryXdel r.toReply id := by
  change (if r.xdelOk = true then q.xdel id else q).toPoll lastId =
    if r.xdelOk = true then (q.toPoll lastId).xdel id else q.toPoll lastId
  split
  · simp only [toPoll, xdel, Poll.xdel, Log.map_delete]
  · rfl

theorem process_attempted {m : Retry} (h : Attempted cfg e r m) :
    (q.toPoll lastId).processDeadletterEntry cfg ⟨e.id, e.val.toEntry⟩ r.toReply =
      ((q.attempted cfg e r m).toPoll lastId).afterDispatch cfg ⟨e.id, e.val.toEntry⟩ m
        r.toReply := by
  rw [attempted, toPoll_xadds]
  simp [Poll.processDeadletterEntry, h.read, h.known, h.constructs, Answer.toReply, h.due, toPoll]

theorem process_untouched (h : ∀ m, ¬Attempted cfg e r m) :
    (q.toPoll lastId).processDeadletterEntry cfg ⟨e.id, e.val.toEntry⟩ r.toReply =
      q.toPoll lastId := by
  unfold Poll.processDeadletterEntry
  cases hread : e.val.retryMeta.read with
  | none => rfl
  | some m =>
    dsimp only
    split_ifs with hearly hknown hcons
    · rfl
    · rfl
    · rfl
    · exact absurd ⟨hread, eq_false_of_ne_true hearly, by simpa using hknown, by simpa using hcons⟩
        (h m)

end Queue

theorem Poll.afterDispatch_failed {p : Poll} {x : Item Entry} {m : Retry} (h : r.res.ok = false) :
    p.afterDispatch cfg x m r.toReply =
      if cfg.maxRetries < m.attempts + 1 then p.tryXdel r.toReply x.id
      else match m.nextAfter r.now with
        | none => p
        | some next =>
          if cfg.linked.maxLen && r.xaddOk then
            (p.xadd cfg { x.val with
              error := r.res.errorOr x.val.error
              retryMeta := .object (.value (m.attempts + 1)) (.value m.baseBackoff)
                (.value next) }).tryXdel r.toReply x.id
          else p := by
  simp only [Poll.afterDispatch, Retry.nextAfter]
  rw [add_sub_cancel_right]
  exact if_neg (ne_true_of_eq_false h)

/-- On the fields `Poll` reads, a call is the one of the poll loop. -/
theorem process_forget (lastId : ℕ) (q : Queue) :
    (q.process cfg e r).toPoll lastId =
      (q.toPoll lastId).processDeadletterEntry cfg ⟨e.id, e.val.toEntry⟩ r.toReply := by
  obtain ⟨f, hf⟩ := exists_fate cfg e r q
  cases f with
  | untouched =>
    obtain ⟨hnot, hq⟩ := hf
    rw [hq, Queue.process_untouched lastId q hnot]
  | delivered =>
    obtain ⟨m, hatt, hok, hq⟩ := hf
    rw [hq, Queue.process_attempted lastId q hatt, Queue.toPoll_tryXdel]
    exact (if_pos hok).symm
  | exhausted =>
    obtain ⟨m, hatt, hfail, hmax, hq⟩ := hf
    rw [hq, Queue.process_attempted lastId q hatt, Queue.toPoll_tryXdel,
      Poll.afterDispatch_failed hfail, if_pos hmax]
  | rescheduled =>
    obtain ⟨m, hatt, hfail, hmax, hadd, next, hnext, -, hq⟩ := hf
    rw [hq, Queue.process_attempted lastId q hatt, Queue.toPoll_tryXdel, Queue.toPoll_xadd,
      Poll.afterDispatch_failed hfail, if_neg (not_lt.2 hmax), hnext]
    exact (if_pos hadd).symm
  | kept =>
    obtain ⟨m, hatt, hfail, hmax, hkeep, hq⟩ := hf
    rw [hq, Queue.process_attempted lastId q hatt, Poll.afterDispatch_failed hfail,
      if_neg (not_lt.2 hmax)]
    rcases hkeep with hnext | hadd
    · rw [hnext]
    · cases m.nextAfter r.now with
      | none => rfl
      | some next => exact (if_neg (ne_true_of_eq_false hadd)).symm

end Deadletter
