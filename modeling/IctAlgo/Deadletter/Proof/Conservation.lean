import IctAlgo.Lib.Runs
import IctAlgo.Deadletter.Proof.Fates

/-!
# What a call conserves

`Outcome`: the four ways in which a call of `_process_deadletter_entry` may leave its entry: not due
and as it was; delivered and removed; failed and replaced by one new entry; failed for the last time
and removed. `Queue.Read`: an entry a reader holds, in the stream or not any more.

* `conserves_iff`: when exactly one of these holds after a call.
* `slackItem_twice`: an entry that is there twice, and one that is due and left alone.
* `run_accounts`: along any run of readers and publishers each letter is in the stream, cut off by the
  length limit, delivered or tried for the last time.
-/

set_option autoImplicit false

namespace Deadletter

open Lib Lib.Runs

variable {cfg : Settings} {e : Item Fields} {r : Answer}

/-! ## Readers -/

/-- The entry was read from the stream: no other one has its id, or will get it. -/
structure Queue.Read (q : Queue) (e : Item Fields) : Prop where
  old : e.id < q.stream.nextId
  same : ∀ x ∈ q.stream.items, x.id = e.id → x = e

theorem Queue.Read.of_mem {q : Queue} (h : e ∈ q.stream.items) : q.Read e where
  old := q.stream.bound e h
  same _ hx := Log.eq_of_id hx h

/-- `q'` comes from `q` by adding entries, and by deleting some of those with `p`. -/
structure Follows (p : Item Fields → Prop) (q q' : Queue) : Prop where
  stream : Log.Follows (fun x => x ∈ q'.trimmed ∨ p x) q.stream q'.stream
  trimmed : q.trimmed ⊆ q'.trimmed

namespace Follows

variable {p : Item Fields → Prop} {q q' q'' : Queue}

theorem refl (q : Queue) : Follows p q q := ⟨.refl _, List.Subset.refl _⟩

theorem imp {p' : Item Fields → Prop} (h : Follows p q q') (hp : ∀ x, p x → p' x) :
    Follows p' q q' :=
  ⟨h.stream.imp fun x => Or.imp_right (hp x), h.trimmed⟩

theorem trans (h : Follows p q q') (h' : Follows p q' q'') : Follows p q q'' := by
  have hstream : Log.Follows (fun x => x ∈ q''.trimmed ∨ p x) q.stream q'.stream :=
    h.stream.imp fun x => Or.imp_left (@h'.trimmed x)
  exact ⟨hstream.trans h'.stream, List.Subset.trans h.trimmed h'.trimmed⟩

theorem xadd (q : Queue) (fields : Fields) : Follows p q (q.xadd cfg fields) where
  stream := (Log.Follows.append_trim q.stream fields cfg.streamTrimLen).imp fun _ hx =>
    .inl (List.mem_append_right _ hx)
  trimmed := List.subset_append_left _ _

theorem xadds (published : List Fields) :
    ∀ q : Queue, Follows p q (published.foldl (Queue.xadd cfg) q) := by
  induction published with
  | nil => exact refl
  | cons fields published ih => exact fun q => (xadd q fields).trans (ih _)

theorem attempted (m : Retry) (q : Queue) : Follows p q (q.attempted cfg e r m) :=
  have h : Follows p _ (q.attempted cfg e r m) := xadds r.published _
  ⟨h.stream, h.trimmed⟩

/-- XDEL, without effect when it raises. -/
theorem tryXdel (q : Queue) (id : ℕ) : Follows (·.id = id) q (q.tryXdel r id) := by
  unfold Queue.tryXdel
  split
  · exact ⟨(Log.Follows.delete q.stream id).imp fun _ hx => .inr hx, List.Subset.refl _⟩
  · exact refl q

/-- What was read stays read. -/
theorem read (h : Follows p q q') (he : q.Read e) : q'.Read e where
  old := he.old.trans_le h.stream.nextId
  same x hx hid := by
    rcases h.stream.new x hx with hq | hq
    · exact he.same x hq hid
    · exact absurd (hid ▸ hq) (not_le.2 he.old)

/-- XDEL of an entry that was read, after additions, takes out that entry at most. -/
theorem deletes (h : Follows (fun _ => False) q q') (he : q.Read e) :
    Follows (· = e) q (q'.tryXdel r e.id) := by
  have hdel : Follows (·.id = e.id) q (q'.tryXdel r e.id) :=
    (h.imp fun _ => False.elim).trans (tryXdel q' e.id)
  refine ⟨⟨hdel.stream.nextId, hdel.stream.new, fun x hx => ?_⟩, hdel.trimmed⟩
  exact (hdel.stream.gone x hx).imp_right (Or.imp_right (he.same x hx))

end Follows

/-! ## One call -/

/-- The call deletes its entry, if XDEL goes through. -/
def Fate.deletes : Fate → Bool
  | untouched | kept => false
  | delivered | exhausted | rescheduled => true

variable {q q' : Queue} {f : Fate}

theorem xadds_nextId (published : List Fields) : ∀ q : Queue,
    (published.foldl (Queue.xadd cfg) q).stream.nextId = q.stream.nextId + published.length := by
  induction published with
  | nil => exact fun _ => rfl
  | cons fields published ih =>
    intro q
    rw [List.foldl_cons, ih, List.length_cons]
    show q.stream.nextId + 1 + published.length = _
    omega

theorem attempted_nextId (m : Retry) :
    (q.attempted cfg e r m).stream.nextId = q.stream.nextId + r.published.length :=
  xadds_nextId r.published _

theorem attempted_nextId_ne (he : q.Read e) (m : Retry) :
    (q.attempted cfg e r m).stream.nextId ≠ e.id := by
  have hold := he.old
  rw [attempted_nextId]
  omega

theorem tryXdel_nextId (q : Queue) (id : ℕ) :
    (q.tryXdel r id).stream.nextId = q.stream.nextId := by
  unfold Queue.tryXdel
  split <;> rfl

theorem mem_tryXdel {x : Item Fields} {id : ℕ} (h : x.id ≠ id) :
    x ∈ (q.tryXdel r id).stream.items ↔ x ∈ q.stream.items := by
  unfold Queue.tryXdel
  split
  · exact ⟨fun hx => (Log.mem_delete.1 hx).1, fun hx => Log.mem_delete.2 ⟨hx, h⟩⟩
  · exact Iff.rfl

theorem tryXdel_trimmed (q : Queue) (id : ℕ) : (q.tryXdel r id).trimmed = q.trimmed := by
  unfold Queue.tryXdel
  split <;> rfl

/-- A fate without XDEL deletes nothing, any other no entry but its own. -/
theorem Fate.Describes.follows (h : f.Describes cfg e r q q') (he : q.Read e) :
    Follows (fun x => x = e ∧ f.deletes = true) q q' := by
  cases f with
  | untouched =>
    obtain ⟨-, rfl⟩ := h
    exact .refl _
  | kept =>
    obtain ⟨m, -, -, -, -, rfl⟩ := h
    exact .attempted m q
  | delivered =>
    obtain ⟨m, -, -, rfl⟩ := h
    exact ((Follows.attempted m q).deletes he).imp fun x hx => ⟨hx, rfl⟩
  | exhausted =>
    obtain ⟨m, -, -, -, rfl⟩ := h
    exact ((Follows.attempted m q).deletes he).imp fun x hx => ⟨hx, rfl⟩
  | rescheduled =>
    obtain ⟨m, -, -, -, -, next, -, -, rfl⟩ := h
    exact (((Follows.attempted m q).trans (.xadd _ _)).deletes he).imp fun x hx => ⟨hx, rfl⟩

/-- An entry that is rescheduled has been added again. -/
theorem Fate.Describes.readded (h : Fate.rescheduled.Describes cfg e r q q') (he : q.Read e) :
    ∃ x, (x ∈ q'.stream.items ∨ x ∈ q'.trimmed) ∧ x.id ≠ e.id ∧ x.val.letter = e.val.letter := by
  obtain ⟨m, -, -, -, -, next, -, hrew, rfl⟩ := h
  have hid : (q.attempted cfg e r m).stream.nextId ≠ e.id := attempted_nextId_ne he m
  refine ⟨⟨(q.attempted cfg e r m).stream.nextId, e.val.again r m next⟩, ?_, hid, hrew.letter⟩
  rw [mem_tryXdel hid, tryXdel_trimmed]
  refine (Log.mem_trim_or (Log.mem_append.2 (.inr rfl)) cfg.streamTrimLen).imp_right fun h => ?_
  exact List.mem_append_right _ h

/-! ## Outcomes -/

inductive Outcome
  | notDue | delivered | replaced | dropped

/-- The entry is out of the stream. -/
def Queue.Gone (q : Queue) (e : Item Fields) : Prop := ∀ x ∈ q.stream.items, x.id ≠ e.id

/-- From `q` to `q'` the notifier was called once, for the entry, whose metadata is `m`; and `added`
entries were written, not counting those others have published meanwhile. -/
structure Tried (e : Item Fields) (r : Answer) (m : Retry) (added : ℕ) (q q' : Queue) : Prop where
  read : e.val.retryMeta.read = some m
  dispatches : q'.dispatches = q.dispatches ++ [⟨e.id, e.val.letter, m.attempts + 1, r.res.ok⟩]
  added : q'.stream.nextId = q.stream.nextId + r.published.length + added

/-- `new` replaces `old` after a failed attempt at `m`. -/
structure Replaces (old new : Fields) (m : Retry) : Prop where
  letter : new.letter = old.letter
  retryMeta : ∃ base next, new.retryMeta.read = some ⟨m.attempts + 1, base, some next⟩ ∧
    ∀ t, m.nextRetry = some t → t < next

/-- The call that brings `q` to `q'` has this outcome for its entry. -/
def Outcome.Describes (cfg : Settings) (e : Item Fields) (r : Answer) (q q' : Queue) :
    Outcome → Prop
  | notDue => (∃ m, e.val.retryMeta.read = some m ∧ m.early r.now = true) ∧ q' = q
  | delivered => ∃ m, Tried e r m 0 q q' ∧ r.res.ok = true ∧ q'.Gone e
  | replaced => ∃ m, Tried e r m 1 q q' ∧ r.res.ok = false ∧ m.attempts + 1 ≤ cfg.maxRetries ∧
      q'.Gone e ∧ ∃ new, Replaces e.val new m ∧
        ⟨q.stream.nextId + r.published.length, new⟩ ∈ q'.stream.items
  | dropped => ∃ m, Tried e r m 0 q q' ∧ r.res.ok = false ∧ cfg.maxRetries < m.attempts + 1 ∧
      q'.Gone e

/-- The call has exactly one outcome for its entry, and every other entry is still there, or was cut
off by the length limit. -/
def Conserves (cfg : Settings) (e : Item Fields) (r : Answer) (q q' : Queue) : Prop :=
  (∃! o : Outcome, o.Describes cfg e r q q') ∧
    ∀ x ∈ q.stream.items, x.id ≠ e.id → x ∈ q'.stream.items ∨ x ∈ q'.trimmed

/-- The next XDEL takes the entry out of the stream, or it has been cut off before. -/
def Removes (e : Item Fields) (r : Answer) (q : Queue) : Prop := r.xdelOk = true ∨ q.Gone e

/-- The entry is not due; or it is, has a notifier that can be constructed, XDEL goes through, and the
attempt succeeds, is the last one, or is followed by an XADD that goes through, to a later date. -/
def Sound (cfg : Settings) (e : Item Fields) (r : Answer) (q : Queue) : Prop :=
  ∃ m, e.val.retryMeta.read = some m ∧
    (m.early r.now = true ∨ Attempted cfg e r m ∧
      ((r.res.ok = true ∨ cfg.maxRetries < m.attempts + 1) ∧ Removes e r (q.attempted cfg e r m) ∨
        r.res.ok = false ∧ m.attempts + 1 ≤ cfg.maxRetries ∧
          (cfg.linked.maxLen && r.xaddOk) = true ∧ 0 < cfg.streamTrimLen ∧
          ∃ next, m.nextAfter r.now = some next ∧ (∀ t, m.nextRetry = some t → t < next) ∧
            Removes e r ((q.attempted cfg e r m).xadd cfg (e.val.again r m next))))

/-- What the dispatch and XDEL leave, behind `added` entries the call has written. -/
theorem Tried.of_attempted {m : Retry} {added : ℕ} {p : Queue} (h : Attempted cfg e r m)
    (hp : p.dispatches = (q.attempted cfg e r m).dispatches)
    (hid : p.stream.nextId = (q.attempted cfg e r m).stream.nextId + added) :
    Tried e r m added q (p.tryXdel r e.id) where
  read := h.read
  dispatches := by rw [tryXdel_dispatches, hp, attempted_dispatches]
  added := by
    rw [tryXdel_nextId, hid, attempted_nextId]

theorem gone_tryXdel_iff {p : Queue} : (p.tryXdel r e.id).Gone e ↔ Removes e r p := by
  unfold Removes Queue.tryXdel
  split
  · rename_i hdel
    exact iff_of_true (fun x hx => (Log.mem_delete.1 hx).2) (.inl hdel)
  · rename_i hdel
    rw [or_iff_right hdel]

/-- No two outcomes. -/
theorem Outcome.Describes.unique {o o' : Outcome} (h : o.Describes cfg e r q q')
    (h' : o'.Describes cfg e r q q') : o = o' := by
  have hsame {m : Retry} {added : ℕ} (ht : Tried e r m added q q') : q' ≠ q := by
    rintro rfl
    have := congrArg List.length ht.dispatches
    simp at this
  have hm {m m' : Retry} {added added' : ℕ} (ht : Tried e r m added q q')
      (ht' : Tried e r m' added' q q') : m = m' :=
    Option.some.inj (ht.read.symm.trans ht'.read)
  cases o <;> cases o' <;> grind [Outcome.Describes]

/-- The entry that was added last: it is not cut off by a limit above zero. -/
theorem mem_xadd_tryXdel {p : Queue} {fields new : Fields} (hid : p.stream.nextId ≠ e.id) :
    ⟨p.stream.nextId, new⟩ ∈ ((p.xadd cfg fields).tryXdel r e.id).stream.items ↔
      0 < cfg.streamTrimLen ∧ new = fields := by
  rw [mem_tryXdel hid]
  show ⟨p.stream.nextId, new⟩ ∈ ((p.stream.append fields).trim cfg.streamTrimLen).items ↔ _
  rw [Log.mem_trim_append_last]

/-- **The outcomes of a call.** By cases on its fate. -/
theorem exists_outcome_iff (he : q.Read e) :
    (∃ o : Outcome, o.Describes cfg e r q (q.process cfg e r)) ↔ Sound cfg e r q := by
  obtain ⟨f, hf⟩ := exists_fate cfg e r q
  have hnone {m : Retry} {added : ℕ} (ht : Tried e r m added q q) : False := by
    have := congrArg List.length ht.dispatches
    simp at this
  cases f with
  | untouched =>
    obtain ⟨hnot, hq⟩ := hf
    rw [hq]
    constructor
    · rintro ⟨o, ho⟩
      cases o with
      | notDue =>
        obtain ⟨⟨m, hread, hearly⟩, -⟩ := ho
        exact ⟨m, hread, .inl hearly⟩
      | delivered => exact (hnone ho.choose_spec.1).elim
      | replaced => exact (hnone ho.choose_spec.1).elim
      | dropped => exact (hnone ho.choose_spec.1).elim
    · rintro ⟨m, hread, hearly | ⟨hatt, -⟩⟩
      · exact ⟨.notDue, ⟨m, hread, hearly⟩, rfl⟩
      · exact absurd hatt (hnot m)
  | delivered =>
    obtain ⟨m, hatt, hok, hq⟩ := hf
    have ht : Tried e r m 0 q (q.process cfg e r) := hq ▸ .of_attempted hatt rfl rfl
    constructor
    · rintro ⟨o, ho⟩
      have hgone : (q.process cfg e r).Gone e := by
        cases o with
        | notDue => exact (hnone (ho.2 ▸ ht)).elim
        | delivered => exact ho.choose_spec.2.2
        | replaced => exact absurd hok (ne_true_of_eq_false ho.choose_spec.2.1)
        | dropped => exact absurd hok (ne_true_of_eq_false ho.choose_spec.2.1)
      rw [hq, gone_tryXdel_iff] at hgone
      exact ⟨m, hatt.read, .inr ⟨hatt, .inl ⟨.inl hok, hgone⟩⟩⟩
    · intro hs
      obtain ⟨m', hread, hearly | ⟨-, ⟨-, hrem⟩ | ⟨hfail, -⟩⟩⟩ := hs
      all_goals obtain rfl : m = m' := Option.some.inj (hatt.read.symm.trans hread)
      · exact absurd hearly (ne_true_of_eq_false hatt.due)
      · exact ⟨.delivered, m, ht, hok, by rwa [hq, gone_tryXdel_iff]⟩
      · exact absurd hok (ne_true_of_eq_false hfail)
  | exhausted =>
    obtain ⟨m, hatt, hfail, hmax, hq⟩ := hf
    have ht : Tried e r m 0 q (q.process cfg e r) := hq ▸ .of_attempted hatt rfl rfl
    constructor
    · rintro ⟨o, ho⟩
      have hgone : (q.process cfg e r).Gone e := by
        cases o with
        | notDue => exact (hnone (ho.2 ▸ ht)).elim
        | delivered => exact ho.choose_spec.2.2
        | replaced => exact ho.choose_spec.2.2.2.1
        | dropped => exact ho.choose_spec.2.2.2
      rw [hq, gone_tryXdel_iff] at hgone
      exact ⟨m, hatt.read, .inr ⟨hatt, .inl ⟨.inr hmax, hgone⟩⟩⟩
    · intro hs
      obtain ⟨m', hread, hearly | ⟨-, ⟨-, hrem⟩ | ⟨-, hle, -⟩⟩⟩ := hs
      all_goals obtain rfl : m = m' := Option.some.inj (hatt.read.symm.trans hread)
      · exact absurd hearly (ne_true_of_eq_false hatt.due)
      · exact ⟨.dropped, m, ht, hfail, hmax, by rwa [hq, gone_tryXdel_iff]⟩
      · exact absurd hle (not_le.2 hmax)
  | rescheduled =>
    obtain ⟨m, hatt, hfail, hmax, hadd, next, hnext, hrew, hq⟩ := hf
    have ht : Tried e r m 1 q (q.process cfg e r) := hq ▸ .of_attempted hatt rfl rfl
    have hnew : q.stream.nextId + r.published.length = (q.attempted cfg e r m).stream.nextId :=
      (attempted_nextId m).symm
    have hid : (q.attempted cfg e r m).stream.nextId ≠ e.id := attempted_nextId_ne he m
    constructor
    · rintro ⟨o, ho⟩
      cases o with
      | notDue => exact (hnone (ho.2 ▸ ht)).elim
      | delivered =>
        obtain ⟨_, -, hok, -⟩ := ho
        exact absurd hok (ne_true_of_eq_false hfail)
      | replaced =>
        obtain ⟨m', ht', -, -, hgone, new, hreplaces, hmem⟩ := ho
        obtain rfl : m = m' := Option.some.inj (hatt.read.symm.trans ht'.read)
        rw [hq, hnew, mem_xadd_tryXdel hid] at hmem
        obtain ⟨hlen, rfl⟩ := hmem
        rw [hq, gone_tryXdel_iff] at hgone
        obtain ⟨base, next', hread, hlater⟩ := hreplaces.retryMeta
        obtain rfl : next = next' := by
          rw [hrew.retryMeta, ← timeAfter_eq hnext] at hread
          exact Option.some.inj (Retry.mk.inj (Option.some.inj hread)).2.2
        exact ⟨m, hatt.read, .inr ⟨hatt, .inr ⟨hfail, hmax, hadd, hlen, next, hnext, hlater, hgone⟩⟩⟩
      | dropped =>
        obtain ⟨m', ht', -, hlt, -⟩ := ho
        obtain rfl : m = m' := Option.some.inj (hatt.read.symm.trans ht'.read)
        exact absurd hmax (not_le.2 hlt)
    · intro hs
      obtain ⟨m', hread, hearly | ⟨-, ⟨hend, -⟩ | ⟨-, -, -, hlen, next', hnext', hlater, hrem⟩⟩⟩ := hs
      all_goals obtain rfl : m = m' := Option.some.inj (hatt.read.symm.trans hread)
      · exact absurd hearly (ne_true_of_eq_false hatt.due)
      · rcases hend with hok | hlt
        · exact absurd hok (ne_true_of_eq_false hfail)
        · exact absurd hmax (not_le.2 hlt)
      · obtain rfl : next = next' := Option.some.inj (hnext.symm.trans hnext')
        refine ⟨.replaced, m, ht, hfail, hmax, by rwa [hq, gone_tryXdel_iff],
          e.val.again r m next, ⟨hrew.letter, m.baseBackoff, next, ?_, hlater⟩, ?_⟩
        · rw [hrew.retryMeta, ← timeAfter_eq hnext]
        · rw [hq, hnew, mem_xadd_tryXdel hid]
          exact ⟨hlen, rfl⟩
  | kept =>
    obtain ⟨m, hatt, hfail, hmax, hkeep, hq⟩ := hf
    refine iff_of_false ?_ ?_
    · rintro ⟨o, ho⟩
      have hkept : Tried e r m 0 q (q.process cfg e r) := by
        rw [hq]
        exact ⟨hatt.read, attempted_dispatches m q, attempted_nextId m⟩
      cases o with
      | notDue => exact hnone (ho.2 ▸ hkept)
      | delivered => exact absurd ho.choose_spec.2.1 (ne_true_of_eq_false hfail)
      | replaced =>
        obtain ⟨m', ht', -⟩ := ho
        have := ht'.added.symm.trans hkept.added
        omega
      | dropped =>
        obtain ⟨m', ht', -, hlt, -⟩ := ho
        obtain rfl : m = m' := Option.some.inj (hatt.read.symm.trans ht'.read)
        exact absurd hmax (not_le.2 hlt)
    · rintro ⟨m', hread, hearly | ⟨-, ⟨hend, -⟩ | ⟨-, -, hadd, -, next, hnext, -⟩⟩⟩
      all_goals obtain rfl : m = m' := Option.some.inj (hatt.read.symm.trans hread)
      · exact absurd hearly (ne_true_of_eq_false hatt.due)
      · rcases hend with hok | hlt
        · exact absurd hok (ne_true_of_eq_false hfail)
        · exact absurd hmax (not_le.2 hlt)
      · rcases hkeep with hdate | hkeep
        · cases hdate.symm.trans hnext
        · exact absurd hadd (ne_true_of_eq_false hkeep)

/-- **When a call conserves its entry**: exactly when it is `Sound`. -/
theorem conserves_iff (he : q.Read e) :
    Conserves cfg e r q (q.process cfg e r) ↔ Sound cfg e r q := by
  rw [← exists_outcome_iff he]
  constructor
  · rintro ⟨⟨o, ho, -⟩, -⟩
    exact ⟨o, ho⟩
  · rintro ⟨o, ho⟩
    refine ⟨⟨o, ho, fun o' ho' => ho'.unique ho⟩, fun x hx hid => ?_⟩
    obtain ⟨f, hf⟩ := exists_fate cfg e r q
    rcases (hf.follows he).stream.gone x hx with hstays | hcut | ⟨rfl, -⟩
    · exact .inl hstays
    · exact .inr hcut
    · exact absurd rfl hid

/-- Past the time of the message the notifier answers no. -/
def failed (xdelOk : Bool) : Answer where
  readAt := 20
  now := 20
  writtenAt := 20
  notified := .dict false (some "http_500")
  xdelOk := xdelOk

theorem slackItem_read : Queue.slack.Read slackItem := .of_mem (List.mem_singleton_self _)

/-- The retry metadata of the message. -/
def slackRetry : Retry := ⟨1, defaultBaseBackoff, some 10⟩

/-- The message is written again, 40 seconds later, and deleted. -/
theorem slackItem_conserved :
    Queue.slack.Read slackItem ∧
      Conserves (.default .working) slackItem (failed true) Queue.slack
        (Queue.slack.process (.default .working) slackItem (failed true)) := by
  refine ⟨slackItem_read, (conserves_iff slackItem_read).2 ⟨slackRetry, rfl, .inr ⟨?_, .inr ?_⟩⟩⟩
  · exact ⟨rfl, by decide +kernel, by decide +kernel, rfl⟩
  · exact ⟨rfl, by decide +kernel, rfl, by decide, 40, by decide +kernel, by decide +kernel, .inl rfl⟩

/-- The message is in the stream twice when XDEL raises, under its old id and written again. As the
package is shipped, it is due and left alone. -/
theorem slackItem_twice :
    (¬Conserves (.default .working) slackItem (failed false) Queue.slack
        (Queue.slack.process (.default .working) slackItem (failed false)) ∧
      (Queue.slack.process (.default .working) slackItem (failed false)).stream.items.map (·.id) =
        [1, 2]) ∧
    ¬Conserves (.default .shipped) slackItem (failed true) Queue.slack
      (Queue.slack.process (.default .shipped) slackItem (failed true)) := by
  have hnot {linked : Linked} {xdelOk : Bool}
      (h : ¬Sound (.default linked) slackItem (failed xdelOk) Queue.slack) :
      ¬Conserves (.default linked) slackItem (failed xdelOk) Queue.slack
        (Queue.slack.process (.default linked) slackItem (failed xdelOk)) := by
    rintro ⟨⟨o, ho, -⟩, -⟩
    exact h ((exists_outcome_iff slackItem_read).1 ⟨o, ho⟩)
  have hread {m : Retry} (h : slackItem.val.retryMeta.read = some m) : slackRetry = m :=
    Option.some.inj h
  refine ⟨⟨hnot ?_, by decide +kernel⟩, hnot ?_⟩
  · rintro ⟨m, hm, hearly | ⟨-, ⟨hend, -⟩ | ⟨-, -, -, -, next, hnext, -, hrem⟩⟩⟩
    all_goals obtain rfl := hread hm
    · revert hearly
      decide +kernel
    · revert hend
      decide +kernel
    · rcases hrem with hdel | hgone
      · cases hdel
      · have hforty : slackRetry.nextAfter 20 = some 40 := by decide +kernel
        obtain rfl : 40 = next := Option.some.inj (hforty.symm.trans hnext)
        have hids : ((Queue.slack.attempted (.default .working) slackItem (failed false)
            slackRetry).xadd (.default .working)
              (slackItem.val.again (failed false) slackRetry 40)).stream.items.map (·.id) =
              [1, 2] := by
          decide +kernel
        obtain ⟨x, hx, hid⟩ := List.mem_map.1 (hids ▸ List.mem_cons_self : 1 ∈ _)
        exact hgone x hx hid
  · rintro ⟨m, hm, hearly | ⟨hatt, -⟩⟩
    · obtain rfl := hread hm
      revert hearly
      decide +kernel
    · cases hatt.constructs

/-! ## Runs -/

/-- What may happen next: someone publishes, or a reader processes an entry. -/
inductive Event
  | publish (fields : Fields)
  | process (e : Item Fields) (r : Answer)

def Queue.next (cfg : Settings) (q : Queue) : Event → Queue
  | .publish fields => q.xadd cfg fields
  | .process e r => q.process cfg e r

/-- The reader has read what it processes. -/
def Queue.EventOk (q : Queue) : Event → Prop
  | .publish _ => True
  | .process e _ => q.Read e

/-- The letter is in the stream, or was cut off by the length limit, delivered, or tried for the last
time. -/
def Queue.Accounts (cfg : Settings) (l : Letter) (q : Queue) : Prop :=
  (∃ x, (x ∈ q.stream.items ∨ x ∈ q.trimmed) ∧ x.val.letter = l) ∨
    ∃ d ∈ q.dispatches, d.letter = l ∧ (d.ok = true ∨ cfg.maxRetries < d.attempts)

/-- A call made for an untouched entry calls no notifier, any other one. -/
theorem Fate.Describes.dispatches (h : f.Describes cfg e r q q') :
    (f = .untouched ∧ (∀ m, ¬Attempted cfg e r m) ∧ q'.dispatches = q.dispatches) ∨
      ∃ m, Attempted cfg e r m ∧ q'.dispatches =
        q.dispatches ++ [⟨e.id, e.val.letter, m.attempts + 1, r.res.ok⟩] := by
  cases f with
  | untouched => exact .inl ⟨rfl, h.1, by rw [h.2]⟩
  | delivered =>
    obtain ⟨m, hatt, -, rfl⟩ := h
    exact .inr ⟨m, hatt, by rw [tryXdel_dispatches, attempted_dispatches]⟩
  | exhausted =>
    obtain ⟨m, hatt, -, -, rfl⟩ := h
    exact .inr ⟨m, hatt, by rw [tryXdel_dispatches, attempted_dispatches]⟩
  | rescheduled =>
    obtain ⟨m, hatt, -, -, -, next, -, -, rfl⟩ := h
    exact .inr ⟨m, hatt, by rw [tryXdel_dispatches]; exact attempted_dispatches m q⟩
  | kept =>
    obtain ⟨m, hatt, -, -, -, rfl⟩ := h
    exact .inr ⟨m, hatt, attempted_dispatches m q⟩

/-- A letter whose entry a call deletes is accounted for after it. -/
theorem Fate.Describes.accounts (h : f.Describes cfg e r q q') (he : q.Read e)
    (hf : f.deletes = true) : q'.Accounts cfg e.val.letter := by
  cases f with
  | untouched | kept => cases hf
  | delivered =>
    obtain ⟨m, -, hok, rfl⟩ := h
    refine .inr ⟨⟨e.id, e.val.letter, m.attempts + 1, r.res.ok⟩, ?_, rfl, .inl hok⟩
    rw [tryXdel_dispatches, attempted_dispatches]
    exact List.mem_concat_self
  | exhausted =>
    obtain ⟨m, -, -, hmax, rfl⟩ := h
    refine .inr ⟨⟨e.id, e.val.letter, m.attempts + 1, r.res.ok⟩, ?_, rfl, .inr hmax⟩
    rw [tryXdel_dispatches, attempted_dispatches]
    exact List.mem_concat_self
  | rescheduled =>
    obtain ⟨x, hx, -, hletter⟩ := h.readded he
    exact .inl ⟨x, hx, hletter⟩

/-- Entries that only moved on to the trimmed ones are still accounted for. -/
theorem Queue.Accounts.follows {l : Letter} {p : Item Fields → Prop} (h : q.Accounts cfg l)
    (hf : Follows p q q') (hd : q.dispatches ⊆ q'.dispatches)
    (hp : ∀ x ∈ q.stream.items, p x → q'.Accounts cfg x.val.letter) : q'.Accounts cfg l := by
  obtain ⟨x, hx | hx, rfl⟩ | ⟨d, hmem, hletter, hd'⟩ := h
  · rcases hf.stream.gone x hx with hx' | hx' | hpx
    · exact .inl ⟨x, .inl hx', rfl⟩
    · exact .inl ⟨x, .inr hx', rfl⟩
    · exact hp x hx hpx
  · exact .inl ⟨x, .inr (hf.trimmed hx), rfl⟩
  · exact .inr ⟨d, hd hmem, hletter, hd'⟩

theorem Queue.Accounts.next {l : Letter} {a : Event} (h : q.Accounts cfg l) (ha : q.EventOk a) :
    (q.next cfg a).Accounts cfg l := by
  cases a with
  | publish fields =>
    exact h.follows (p := fun _ => False) (.xadd q fields) (List.Subset.refl _) fun _ _ hx => hx.elim
  | process e r =>
    obtain ⟨f, hf⟩ := exists_fate cfg e r q
    refine h.follows (hf.follows ha) ?_ ?_
    · rcases hf.dispatches with ⟨-, -, hd⟩ | ⟨m, -, hd⟩
      · exact hd.symm ▸ List.Subset.refl _
      · exact hd.symm ▸ List.subset_append_left _ _
    · rintro x - ⟨rfl, hdel⟩
      exact hf.accounts ha hdel

/-- What a reader has read stays so, whatever happens. -/
theorem Queue.Read.next {x : Item Fields} {a : Event} (h : q.Read x) (ha : q.EventOk a) :
    (q.next cfg a).Read x := by
  cases a with
  | publish fields => exact (Follows.xadd (p := fun _ => False) q fields).read h
  | process e r =>
    obtain ⟨f, hf⟩ := exists_fate cfg e r q
    exact (hf.follows ha).read h

/-- **No letter is lost**: in a run of readers and publishers, in any order, every letter that is
once in the stream is accounted for ever after. -/
theorem run_accounts {l : Letter} {events : List Event} (h : q.Accounts cfg l)
    (hok : Within (Queue.next cfg) Queue.EventOk q events) :
    Always (Queue.next cfg) (Queue.Accounts cfg l) q events :=
  hok.always h (fun _ _ hacc ha => hacc.next ha) fun _ => id

end Deadletter
