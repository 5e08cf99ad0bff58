import IctAlgo.Deadletter.Proof.Fates

/-!
# On-demand retries

The two helpers call `_process_deadletter_entry` as it is, which skips what is not due. They count
the calls that return, not the dispatches: an entry is not counted when its notifier cannot be
constructed, or when the metric after its dispatch does not exist.

* `retryLoop_spec`: the entries a helper dispatches, and how its count differs from their number.
* `retries_iff`: when the helpers dispatch and count what they should.
-/

set_option autoImplicit false

namespace Deadletter

open Lib Lib.Exn

variable {cfg : Settings} {answers : ℕ → Answer}

/-! ## The ends of a call, as a helper sees them -/

/-- The call dispatches its entry. -/
def dispatches (cfg : Settings) (e : Item Fields) (r : Answer) : Bool :=
  match e.val.retryMeta.read with
  | none => false
  | some m => !m.early r.now && knownChannel e.val.channel && cfg.linked.constructs

/-- The call returns without a dispatch. -/
def returnsUndispatched (e : Item Fields) (r : Answer) : Bool :=
  match e.val.retryMeta.read with
  | none => false
  | some m => m.early r.now || !knownChannel e.val.channel && !r.logRaises

/-- The call dispatches its entry and raises then. -/
def raisesDispatched (cfg : Settings) (e : Item Fields) (r : Answer) : Bool :=
  match e.val.retryMeta.read with
  | none => false
  | some m => !m.early r.now && knownChannel e.val.channel && cfg.linked.constructs &&
      (!cfg.linked.metric || !r.res.ok &&
        if cfg.maxRetries < m.attempts + 1 then r.logRaises else (m.nextAfter r.now).isNone)

/-- The entries dispatched from `q` to `q'`. -/
def Dispatched (ids : List ℕ) (q q' : Queue) : Prop :=
  q'.dispatches.map (·.id) = q.dispatches.map (·.id) ++ ids

section
variable {e : Item Fields} {r : Answer}

theorem Dispatched.attempted {m : Retry} (q : Queue) :
    Dispatched [e.id] q (q.attempted cfg e r m) := by
  simp [Dispatched, attempted_dispatches]

theorem Dispatched.tryXdel {ids : List ℕ} {q q' : Queue} (h : Dispatched ids q q') (id : ℕ) :
    Dispatched ids q (q'.tryXdel r id) := by
  rw [Dispatched, tryXdel_dispatches]
  exact h

theorem Dispatched.rescheduled {ids : List ℕ} {q q' : Queue} (h : Dispatched ids q q')
    (new : Fields) : Dispatched ids q (q'.rescheduled cfg e r new) := by
  unfold Queue.rescheduled
  split
  · have hadded : Dispatched ids q (q'.xadd cfg new) := h
    exact hadded.tryXdel e.id
  · exact h

/-- A call that returns has dispatched its entry or skipped it; one that raises has not skipped
it. -/
theorem process_spec (q : Queue) :
    wp (processDeadletterEntry cfg r e)
      (fun _ q' => Dispatched (if dispatches cfg e r then [e.id] else []) q q' ∧
        returnsUndispatched e r = !dispatches cfg e r ∧ raisesDispatched cfg e r = false)
      (fun _ q' => Dispatched (if dispatches cfg e r then [e.id] else []) q q' ∧
        returnsUndispatched e r = false ∧ raisesDispatched cfg e r = dispatches cfg e r) q := by
  rw [wp_process]
  have hnone : Dispatched [] q q := (List.append_nil _).symm
  unfold dispatches returnsUndispatched raisesDispatched
  cases e.val.retryMeta.read with
  | none => exact ⟨hnone, rfl, rfl⟩
  | some m =>
    have hatt : Dispatched [e.id] q (q.attempted cfg e r m) := .attempted q
    dsimp only
    by_cases hearly : m.early r.now = true
    · simpa [hearly] using hnone
    by_cases hknown : knownChannel e.val.channel = true
    · by_cases hcons : cfg.linked.constructs = true
      · by_cases hok : r.res.ok = true
        · by_cases hmetric : cfg.linked.metric = true <;>
            simpa [hearly, hknown, hcons, hok, hmetric] using hatt.tryXdel e.id
        by_cases hmax : cfg.maxRetries < m.attempts + 1
        · by_cases hlog : r.logRaises = true <;> by_cases hmetric : cfg.linked.metric = true <;>
            simpa [hearly, hknown, hcons, hok, hmax, hlog, hmetric] using hatt.tryXdel e.id
        cases hnext : m.nextAfter r.now with
        | none => simpa [hearly, hknown, hcons, hok, hmax] using hatt
        | some next =>
          have hagain := @Dispatched.rescheduled cfg e r _ _ _ hatt (e.val.again r m next)
          by_cases hmetric : cfg.linked.metric = true <;>
            simpa [hearly, hknown, hcons, hok, hmax, hmetric] using hagain
      · simpa [hearly, hknown, hcons] using hnone
    · by_cases hlog : r.logRaises = true <;> simpa [hearly, hknown, hlog] using hnone

theorem Dispatched.trans {ids ids' : List ℕ} {q q' q'' : Queue} (h : Dispatched ids q q')
    (h' : Dispatched ids' q' q'') : Dispatched (ids ++ ids') q q'' := by
  rw [Dispatched, h', h, List.append_assoc]

end

/-! ## The loop -/

section
variable (cfg answers) (selected : Item Fields → Bool)

/-- The ids a helper dispatches, of the entries it has read. -/
def dispatchedIds (es : List (Item Fields)) : List ℕ :=
  (es.filter fun e => selected e && dispatches cfg e (answers e.id)).map (·.id)

/-- The entries it counts and does not dispatch. -/
def skipped (es : List (Item Fields)) : ℕ :=
  es.countP fun e => selected e && returnsUndispatched e (answers e.id)

/-- The entries it dispatches and does not count. -/
def uncounted (es : List (Item Fields)) : ℕ :=
  es.countP fun e => selected e && raisesDispatched cfg e (answers e.id)

section
variable {selected} {e : Item Fields} (h : selected e = true) (es : List (Item Fields))
include h

theorem dispatchedIds_cons : dispatchedIds cfg answers selected (e :: es) =
    (if dispatches cfg e (answers e.id) then [e.id] else []) ++ dispatchedIds cfg answers selected es := by
  unfold dispatchedIds
  rw [List.filter_cons, h, Bool.true_and]
  split <;> rfl

theorem skipped_cons : skipped answers selected (e :: es) =
    skipped answers selected es + (returnsUndispatched e (answers e.id)).toNat := by
  unfold skipped
  rw [List.countP_cons, h, Bool.true_and]
  cases returnsUndispatched e (answers e.id) <;> rfl

theorem uncounted_cons : uncounted cfg answers selected (e :: es) =
    uncounted cfg answers selected es + (raisesDispatched cfg e (answers e.id)).toNat := by
  unfold uncounted
  rw [List.countP_cons, h, Bool.true_and]
  cases raisesDispatched cfg e (answers e.id) <;> rfl

end

/-- How the count of one selected entry differs from its dispatch. -/
theorem retryOne_spec (e : Item Fields) (count : ℕ) (q : Queue) :
    Ensures (tryCatch (do processDeadletterEntry cfg (answers e.id) e; pure (count + 1))
        fun _ => pure count)
      (fun n q' => Dispatched (if dispatches cfg e (answers e.id) then [e.id] else []) q q' ∧
        n + (raisesDispatched cfg e (answers e.id)).toNat =
          count + (dispatches cfg e (answers e.id)).toNat +
            (returnsUndispatched e (answers e.id)).toNat) q := by
  rw [Ensures, wp_tryCatch, wp_bind]
  refine wp_mono (process_spec q) (fun _ q' h => ?_) fun _ q' h => ?_
  · obtain ⟨hdisp, hskip, hraise⟩ := h
    rw [wp_pure, hskip, hraise]
    refine ⟨hdisp, ?_⟩
    cases dispatches cfg e (answers e.id) <;> rfl
  · obtain ⟨hdisp, hskip, hraise⟩ := h
    rw [wp_pure, hskip, hraise]
    exact ⟨hdisp, rfl⟩

/-- A helper dispatches the entries that are ready; its count is off by those it skips and by those
that raise after their dispatch. By induction on what it has read. -/
theorem retryLoop_spec (es : List (Item Fields)) : ∀ (count : ℕ) (q : Queue),
    Ensures (retryLoop cfg answers selected count es)
      (fun n q' => Dispatched (dispatchedIds cfg answers selected es) q q' ∧
        n + uncounted cfg answers selected es =
          count + (dispatchedIds cfg answers selected es).length + skipped answers selected es) q := by
  induction es with
  | nil => exact fun count q => ⟨(List.append_nil _).symm, rfl⟩
  | cons e es ih =>
    intro count q
    rw [retryLoop]
    by_cases hsel : selected e = true
    · rw [if_pos hsel, Ensures, wp_bind]
      refine wp_mono (retryOne_spec cfg answers e count q) (fun n q' h => ?_) fun _ _ => False.elim
      obtain ⟨hdisp, hcount⟩ := h
      refine (ih n q').mono fun n' q'' h' => ?_
      obtain ⟨hdisp', hcount'⟩ := h'
      have hlen : (if dispatches cfg e (answers e.id) = true then [e.id] else []).length =
          (dispatches cfg e (answers e.id)).toNat := by
        cases dispatches cfg e (answers e.id) <;> rfl
      rw [dispatchedIds_cons cfg answers hsel, skipped_cons answers hsel, uncounted_cons cfg answers hsel]
      refine ⟨hdisp.trans hdisp', ?_⟩
      rw [List.length_append, hlen]
      omega
    · rw [if_neg hsel, Ensures, wp_bind, wp_pure]
      have hids : dispatchedIds cfg answers selected (e :: es) = dispatchedIds cfg answers selected es := by
        simp [dispatchedIds, hsel]
      refine (ih count q).mono fun n' q'' h' => ?_
      simpa [uncounted, skipped, hids, hsel] using h'

end

/-! ## The two helpers -/

/-- By decision id: from `q` on, every entry with the id and a known channel is dispatched once, no
other one is, and the answer is their number. -/
def RetriesById (cfg : Settings) (answers : ℕ → Answer) (decisionId : String) (q : Queue) : Prop :=
  Ensures (retryDeadletterByDecisionId cfg answers decisionId)
    (fun n q' => ∃ ids, Dispatched ids q q' ∧
      (∀ e ∈ q.stream.items, e.val.decisionId = decisionId → knownChannel e.val.channel = true →
        ids.count e.id = 1) ∧
      (∀ i ∈ ids, ∃ e ∈ q.stream.items, e.id = i ∧ e.val.decisionId = decisionId ∧
        knownChannel e.val.channel = true) ∧
      n = ids.length) q

/-- By time range: only entries of the range are dispatched, and the answer is their number. -/
def RetriesByRange (cfg : Settings) (answers : ℕ → Answer) (since stop : ℚ) (q : Queue) : Prop :=
  Ensures (retryDeadletterByTimerange cfg answers since stop)
    (fun n q' => ∃ ids, Dispatched ids q q' ∧
      (∀ i ∈ ids, ∃ e ∈ q.stream.items, e.id = i ∧ inTimerange answers since stop e = true) ∧
      n = ids.length) q

section
variable (cfg answers) (selected : Item Fields → Bool)

/-- What a helper dispatches and counts. -/
theorem retry_spec (q : Queue) :
    Ensures (do let q ← get; retryLoop cfg answers selected 0 (scan cfg q))
      (fun n q' => Dispatched (dispatchedIds cfg answers selected (scan cfg q)) q q' ∧
        n + uncounted cfg answers selected (scan cfg q) =
          (dispatchedIds cfg answers selected (scan cfg q)).length +
            skipped answers selected (scan cfg q)) q := by
  rw [Ensures, wp_bind, wp_get]
  simpa using retryLoop_spec cfg answers selected (scan cfg q) 0 q

end

theorem Dispatched.unique {ids ids' : List ℕ} {q q' : Queue} (h : Dispatched ids q q')
    (h' : Dispatched ids' q q') : ids = ids' :=
  List.append_cancel_left (h.symm.trans h')

theorem dispatches_iff {e : Item Fields} {r : Answer} :
    dispatches cfg e r = true ↔ ∃ m, Attempted cfg e r m := by
  unfold dispatches
  refine ⟨fun h => ?_, ?_⟩
  · cases hread : e.val.retryMeta.read with
    | none => simp [hread] at h
    | some m =>
      simp only [hread, Bool.and_eq_true, Bool.not_eq_true'] at h
      obtain ⟨⟨hdue, hknown⟩, hcons⟩ := h
      exact ⟨m, hread, hdue, hknown, hcons⟩
  · rintro ⟨m, hread, hdue, hknown, hcons⟩
    simp [hread, hdue, hknown, hcons]

section
variable {q : Queue} {e : Item Fields} {selected : Item Fields → Bool}

theorem scan_sublist (q : Queue) : (scan cfg q).Sublist q.stream.items :=
  (List.take_sublist _ _).trans List.filter_sublist

theorem dispatchedIds_nodup (q : Queue) :
    (dispatchedIds cfg answers selected (scan cfg q)).Nodup :=
  ((List.filter_sublist.trans (scan_sublist q)).map _).nodup Log.nodup_ids

theorem mem_dispatchedIds {i : ℕ} {es : List (Item Fields)} :
    i ∈ dispatchedIds cfg answers selected es ↔
      ∃ e ∈ es, e.id = i ∧ selected e = true ∧ ∃ m, Attempted cfg e (answers e.id) m := by
  simp only [dispatchedIds, List.mem_map, List.mem_filter, Bool.and_eq_true, dispatches_iff]
  exact ⟨fun ⟨e, ⟨he, hsel, hm⟩, hid⟩ => ⟨e, he, hid, hsel, hm⟩,
    fun ⟨e, he, hid, hsel, hm⟩ => ⟨e, ⟨he, hsel, hm⟩, hid⟩⟩

/-- An entry is dispatched once when it is read, selected and ready. -/
theorem count_dispatchedIds (he : e ∈ q.stream.items) :
    (dispatchedIds cfg answers selected (scan cfg q)).count e.id = 1 ↔
      e ∈ scan cfg q ∧ selected e = true ∧ ∃ m, Attempted cfg e (answers e.id) m := by
  have hmem : (dispatchedIds cfg answers selected (scan cfg q)).count e.id = 1 ↔
      e.id ∈ dispatchedIds cfg answers selected (scan cfg q) :=
    ⟨fun h => List.count_pos_iff.1 (by omega), List.count_eq_one_of_mem (dispatchedIds_nodup q)⟩
  rw [hmem, mem_dispatchedIds]
  refine ⟨?_, fun ⟨hscan, h⟩ => ⟨e, hscan, rfl, h⟩⟩
  rintro ⟨x, hx, hid, h⟩
  obtain rfl := Log.eq_of_id ((scan_sublist q).subset hx) he hid
  exact ⟨hx, h⟩

end

variable {decisionId : String} {since stop : ℚ} {q : Queue}

theorem retriesById_iff :
    RetriesById cfg answers decisionId q ↔
      (∀ e ∈ q.stream.items, e.val.decisionId = decisionId → knownChannel e.val.channel = true →
        e ∈ scan cfg q ∧ ∃ m, Attempted cfg e (answers e.id) m) ∧
      skipped answers (fun e => e.val.decisionId = decisionId) (scan cfg q) =
        uncounted cfg answers (fun e => e.val.decisionId = decisionId) (scan cfg q) := by
  refine Ensures.iff ((retry_spec cfg answers _ q).mono fun n q' h => ?_)
  obtain ⟨hdisp, hcount⟩ := h
  constructor
  · rintro ⟨ids, hids, heach, -, hlen⟩
    obtain rfl := hdisp.unique hids
    refine ⟨fun e he hid hknown => ?_, by omega⟩
    obtain ⟨hscan, -, hm⟩ := (count_dispatchedIds he).1 (heach e he hid hknown)
    exact ⟨hscan, hm⟩
  · rintro ⟨hdue, hbal⟩
    refine ⟨_, hdisp, fun e he hid hknown => ?_, fun i hi => ?_, by omega⟩
    · exact (count_dispatchedIds he).2 ⟨(hdue e he hid hknown).1, by simpa using hid,
        (hdue e he hid hknown).2⟩
    · obtain ⟨e, he, hid, hsel, m, hm⟩ := mem_dispatchedIds.1 hi
      exact ⟨e, (scan_sublist q).subset he, hid, by simpa using hsel, hm.known⟩

theorem retriesByRange_iff :
    RetriesByRange cfg answers since stop q ↔
      skipped answers (inTimerange answers since stop) (scan cfg q) =
        uncounted cfg answers (inTimerange answers since stop) (scan cfg q) := by
  refine Ensures.iff ((retry_spec cfg answers _ q).mono fun n q' h => ?_)
  obtain ⟨hdisp, hcount⟩ := h
  constructor
  · rintro ⟨ids, hids, -, hlen⟩
    obtain rfl := hdisp.unique hids
    omega
  · intro hbal
    refine ⟨_, hdisp, fun i hi => ?_, by omega⟩
    obtain ⟨e, he, hid, hsel, -⟩ := mem_dispatchedIds.1 hi
    exact ⟨e, (scan_sublist q).subset he, hid, hsel⟩

/-- **When an on-demand retry does what it says.** By decision id: all entries with the id and a
known channel are among those XRANGE returns, can be read and are due, and as many of the selected
entries return undispatched as raise after their dispatch. By time range: the latter. -/
theorem retries_iff :
    (RetriesById cfg answers decisionId q ↔
      (∀ e ∈ q.stream.items, e.val.decisionId = decisionId → knownChannel e.val.channel = true →
        e ∈ scan cfg q ∧ ∃ m, Attempted cfg e (answers e.id) m) ∧
      skipped answers (fun e => e.val.decisionId = decisionId) (scan cfg q) =
        uncounted cfg answers (fun e => e.val.decisionId = decisionId) (scan cfg q)) ∧
    (RetriesByRange cfg answers since stop q ↔
      skipped answers (inTimerange answers since stop) (scan cfg q) =
        uncounted cfg answers (inTimerange answers since stop) (scan cfg q)) :=
  ⟨retriesById_iff, retriesByRange_iff⟩

/-- A clock at `now`, and a notifier that delivers. -/
def deliveredAt (now : ℚ) : Answer where
  readAt := now
  now := now
  writtenAt := now
  notified := .dict true none

/-- The message is not due yet: nothing is dispatched, and one retry is counted. It is due, and as the
package is shipped nothing is dispatched; with a notifier that can be constructed it is dispatched, and
not counted. -/
theorem earlyRetry_counted :
    (¬RetriesById (.default .shipped) (fun _ => deliveredAt 1) "d1" Queue.slack ∧
      Ensures (retryDeadletterByDecisionId (.default .shipped) (fun _ => deliveredAt 1) "d1")
        (fun n q' => n = 1 ∧ q'.dispatches.map (·.id) = []) Queue.slack) ∧
    (¬RetriesById (.default .shipped) (fun _ => deliveredAt 20) "d1" Queue.slack ∧
      Ensures (retryDeadletterByDecisionId (.default .shipped) (fun _ => deliveredAt 20) "d1")
        (fun n q' => n = 0 ∧ q'.dispatches.map (·.id) = []) Queue.slack) ∧
    ¬RetriesById (.default { Linked.shipped with constructs := true }) (fun _ => deliveredAt 20) "d1"
        Queue.slack ∧
      Ensures (retryDeadletterByDecisionId (.default { Linked.shipped with constructs := true })
        (fun _ => deliveredAt 20) "d1")
        (fun n q' => n = 0 ∧ q'.dispatches.map (·.id) = [1]) Queue.slack := by
  -- an entry that is due is to be dispatched, and the answer is the number of dispatches
  have hnot {cfg : Settings} {now : ℚ} {n : ℕ} {ids : List ℕ}
      (hrun : Ensures (retryDeadletterByDecisionId cfg (fun _ => deliveredAt now) "d1")
        (fun n' q' => n' = n ∧ q'.dispatches.map (·.id) = ids) Queue.slack)
      (h : ids.length ≠ n ∨ ids.count 1 ≠ 1) :
      ¬RetriesById cfg (fun _ => deliveredAt now) "d1" Queue.slack := by
    intro hretries
    unfold RetriesById at hretries
    obtain ⟨n', q', -, ⟨ids', hids, heach, -, hlen⟩, rfl, rfl⟩ := (hretries.and hrun).exists
    obtain rfl : q'.dispatches.map (·.id) = ids' := hids
    rcases h with h | h
    · exact h hlen.symm
    · exact h (heach slackItem List.mem_cons_self rfl rfl)
  have hearly : Ensures (retryDeadletterByDecisionId (.default .shipped) (fun _ => deliveredAt 1) "d1")
      (fun n q' => n = 1 ∧ q'.dispatches.map (·.id) = []) Queue.slack := by
    decide +kernel
  have hdue : Ensures (retryDeadletterByDecisionId (.default .shipped) (fun _ => deliveredAt 20) "d1")
      (fun n q' => n = 0 ∧ q'.dispatches.map (·.id) = []) Queue.slack := by
    decide +kernel
  have hraised : Ensures (retryDeadletterByDecisionId
      (.default { Linked.shipped with constructs := true }) (fun _ => deliveredAt 20) "d1")
      (fun n q' => n = 0 ∧ q'.dispatches.map (·.id) = [1]) Queue.slack := by
    decide +kernel
  exact ⟨⟨hnot hearly (.inl (by decide)), hearly⟩, ⟨hnot hdue (.inr (by decide)), hdue⟩,
    hnot hraised (.inl (by decide)), hraised⟩

end Deadletter
