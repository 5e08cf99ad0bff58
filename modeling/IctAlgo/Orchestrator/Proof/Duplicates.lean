import IctAlgo.Lib.Runs
import IctAlgo.Orchestrator.Dedup
import IctAlgo.Orchestrator.Proof.Gate

/-!
# Duplicates

Only the reply of Redis makes a decision a duplicate: where the comments of the source announce an
in-memory fallback, there is none.

* `Dedups`: a decision whose key was processed before is reported skipped, and no channel is
  notified.
* `Finds`: the call asks Redis, which answers and still has the key.
* `dedups_iff`: a run deduplicates exactly when each of its duplicates is found.
* `dedups_of_working`: so it does while Redis answers every call, within its TTL.
-/

set_option autoImplicit false

namespace Orchestrator.DedupState

open Lib Lib.Runs

section
variable (cv : Conv) (kc : KeyConv) (cfg : ProcessConfig) (dc : DedupConfig) (s : DedupState)
  (call : DedupCall)

/-- The call is a duplicate: its key has been processed before. -/
def Repeats (key : String) : Prop := dedupKey? cv kc cfg dc s call = some key ∧ key ∈ s.seen

/-- A duplicate is reported skipped and notifies no channel. -/
def Dedups : Prop :=
  ∀ key, Repeats cv kc cfg dc s call key →
    (process cv kc cfg dc s call).2.1.map ProcessResult.skipped = some true ∧
      ∀ channel, .notified channel ∉ (process cv kc cfg dc s call).1

/-- The channels of the decision, if its routing does not raise. -/
def routes? : Option (List String) :=
  (decision? cv cfg s call).bind (channelsOf cfg call.env call.channels)

/-- Redis is asked, answers, and has the key, which the first attempt may have set just before. -/
def Answers (key : String) : Prop :=
  match call.setNx with
  | .answered => (s.redis.fetch call.serverMs (dc.redisDedupPrefix ++ key)).isSome = true
  | .repeated => True
  | .unavailable | .unanswered => False

/-- A duplicate is found: Redis is used, it answers and has the key; and the routing of the decision
does not raise. -/
def Finds : Prop :=
  ∀ key, Repeats cv kc cfg dc s call key →
    (routes? cv cfg s call).isSome = true ∧ cfg.dedupEnabled = true ∧
      cfg.redisDedupEnabled = true ∧ 0 < dc.redisDedupTtlSeconds ∧ Answers dc s call key

end

section
variable {cv : Conv} {kc : KeyConv} {cfg : ProcessConfig} {dc : DedupConfig} {s : DedupState}
  {call : DedupCall} {key : String}

/-! ## The reply of Redis -/

theorem setNxReply_of_not_pos {ks : Keyspace String} {now ttl : ℤ} {how : SetNx} (h : ¬ 0 < ttl) :
    setNxReply ks now key ttl how = (none, ks) := by
  unfold setNxReply
  dsimp only
  rw [if_pos (by omega)]

/-- The key is there right after it was set. -/
theorem fetch_setNx {ks : Keyspace String} {now ttl : ℤ} (h : 0 < ttl) :
    ((ks.setNx now key "1" (some (now + ttl * 1000))).2.fetch now key).isSome = true := by
  cases hold : ks.fetch now key with
  | some old =>
    rw [Keyspace.setNx_of_some hold, hold]
    rfl
  | none =>
    rw [Keyspace.setNx_of_none hold, Keyspace.fetch_put, if_pos rfl, if_pos]
    · rfl
    · simp only [Expiring.live, decide_eq_true_eq]
      omega

/-- The reply says that the key was there. -/
theorem setNxReply_eq_false_iff {ks : Keyspace String} {now ttl : ℤ} {how : SetNx} (h : 0 < ttl) :
    (setNxReply ks now key ttl how).1 = some false ↔
      match how with
      | .answered => (ks.fetch now key).isSome = true
      | .repeated => True
      | .unavailable | .unanswered => False := by
  have hnone : ∀ o : Option String, o.isNone = false ↔ o.isSome = true := by simp
  unfold setNxReply
  dsimp only
  rw [if_neg (by omega)]
  cases how with
  | unavailable => simp
  | unanswered => simp
  | answered =>
    simp only [Option.some.injEq, Keyspace.setNx_fst]
    exact hnone _
  | repeated =>
    simp only [Option.some.injEq, Keyspace.setNx_fst]
    rw [hnone, fetch_setNx h]
    simp

theorem askRedis_eq_false_iff (hkey : dedupKey? cv kc cfg dc s call = some key) :
    (askRedis cv kc cfg dc s call).1 = some false ↔
      cfg.dedupEnabled = true ∧ cfg.redisDedupEnabled = true ∧ 0 < dc.redisDedupTtlSeconds ∧
        Answers dc s call key := by
  unfold askRedis Answers
  rw [hkey]
  by_cases henabled : (cfg.dedupEnabled && cfg.redisDedupEnabled) = true
  · simp only [henabled, if_true]
    rw [Bool.and_eq_true] at henabled
    simp only [henabled.1, henabled.2, true_and]
    by_cases httl : 0 < dc.redisDedupTtlSeconds
    · rw [setNxReply_eq_false_iff httl]
      exact ⟨fun h => ⟨httl, h⟩, fun h => h.2⟩
    · rw [setNxReply_of_not_pos httl]
      simp [httl]
  · simp only [henabled]
    rw [Bool.and_eq_true, not_and] at henabled
    refine ⟨fun h => ?_, fun hboth => ?_⟩
    · cases h
    · obtain ⟨h, h', -⟩ := hboth
      exact absurd h' (henabled h)

/-! ## One call -/

theorem processNormalized_reply {env : ProcessEnv} {persist : Bool}
    {channels : Option (List String)} {d : Fields} {s : Orch} :
    ((processNormalized cv cfg env persist channels d s).2.1).map ProcessResult.skipped =
      (channelsOf cfg env channels (withShadow env d)).map fun _ => skips cfg env := by
  unfold processNormalized
  dsimp only
  cases channelsOf cfg env channels (withShadow env d) with
  | none => rfl
  | some routed => rfl

theorem processNormalized_notified {env : ProcessEnv} {persist : Bool}
    {channels : Option (List String)} {d : Fields} {s : Orch} {channel : String}
    (hskip : skips cfg env = true) :
    .notified channel ∉ (processNormalized cv cfg env persist channels d s).1 := by
  rw [processNormalized_effects]
  intro hmem
  simp only [List.mem_append] at hmem
  obtain (hpaper | hstored) | hsent := hmem
  · split at hpaper
    · cases List.mem_singleton.1 hpaper
    · cases hpaper
  · split at hstored
    · unfold persistDecision at hstored
      split at hstored
      · cases List.mem_singleton.1 hstored
      · cases hstored
    · cases hstored
  · split at hsent
    · obtain ⟨ch, hch, -⟩ := List.mem_map.1 hsent
      simp [recipients, hskip] at hch
    · cases hsent

/-- The call reports a skipped decision and notifies nobody exactly when it skips the decision and
the routing does not raise. -/
theorem process_spec (hkey : dedupKey? cv kc cfg dc s call = some key) :
    ((process cv kc cfg dc s call).2.1.map ProcessResult.skipped = some true ∧
      ∀ channel, .notified channel ∉ (process cv kc cfg dc s call).1) ↔
      (routes? cv cfg s call).isSome = true ∧
        (askRedis cv kc cfg dc s call).1 = some false ∧ cfg.dedupEnabled = true ∧
          cfg.redisDedupEnabled = true := by
  unfold dedupKey? decision? processed? at hkey
  unfold process processDecision routes? decision? processed?
  generalize (askRedis cv kc cfg dc s call).1 = reply
  dsimp only
  generalize preReasoningPolicyCheck cv cfg.gate call.env.gate call.decision s.orch = g at hkey ⊢
  obtain ⟨result, decision, s'⟩ := g
  dsimp only at hkey ⊢
  cases hd : cv.normalizeDecision call.env.now decision with
  | none =>
    rw [hd] at hkey
    cases hkey
  | some d =>
    dsimp only [Option.map_some, Option.bind_some]
    rw [processNormalized_reply]
    have hskips : skips cfg { call.env with setnx := reply } = true ↔
        reply = some false ∧ cfg.dedupEnabled = true ∧ cfg.redisDedupEnabled = true := by
      simp only [skips, Bool.and_eq_true, decide_eq_true_eq]
      exact ⟨fun h => ⟨h.2, h.1⟩, fun h => ⟨h.2, h.1⟩⟩
    rw [← hskips]
    refine ⟨fun h' => ?_, fun h' => ?_⟩
    · obtain ⟨hreply, -⟩ := h'
      obtain ⟨routed, hrouted, hskip⟩ := Option.map_eq_some_iff.1 hreply
      exact ⟨Option.isSome_iff_exists.2 ⟨routed, hrouted⟩, hskip⟩
    · obtain ⟨hrouted, hskip⟩ := h'
      obtain ⟨routed, hrouted⟩ := Option.isSome_iff_exists.1 hrouted
      refine ⟨Option.map_eq_some_iff.2 ⟨routed, hrouted, hskip⟩, fun channel hmem => ?_⟩
      obtain heq | hmem := List.mem_cons.1 hmem
      · cases heq
      · exact processNormalized_notified hskip hmem

/-- **A duplicate is skipped exactly when Redis finds it.** -/
theorem dedups_iff_finds : Dedups cv kc cfg dc s call ↔ Finds cv kc cfg dc s call := by
  unfold Dedups Finds
  refine forall_congr' fun key => forall_congr' fun hrepeats => ?_
  rw [process_spec hrepeats.1, askRedis_eq_false_iff hrepeats.1]
  refine ⟨fun h => ?_, fun h => ?_⟩
  · obtain ⟨hroutes, hredis, -⟩ := h
    exact ⟨hroutes, hredis⟩
  · obtain ⟨hroutes, hredis⟩ := h
    exact ⟨hroutes, hredis, hredis.1, hredis.2.1⟩

/-! ## Runs -/

/-- **Deduplication, exactly.** -/
theorem dedups_iff (cv : Conv) (kc : KeyConv) (cfg : ProcessConfig) (dc : DedupConfig)
    (s : DedupState) (calls : List DedupCall) :
    Within (step cv kc cfg dc) (Dedups cv kc cfg dc) s calls ↔
      Within (step cv kc cfg dc) (Finds cv kc cfg dc) s calls :=
  within_congr fun _ _ => dedups_iff_finds

/-! ## While Redis works -/

/-- Redis has the keys that were seen, and keeps every key until then. -/
structure Marked (dc : DedupConfig) (deadline : ℤ) (s : DedupState) : Prop where
  marked : ∀ key ∈ s.seen, (s.redis.get? (dc.redisDedupPrefix ++ key)).isSome = true
  lasting : ∀ k e, s.redis.get? k = some e → ∃ d, e.deadline = some d ∧ deadline ≤ d

/-- The server answers the call, less than a TTL after `start`. -/
structure Working (dc : DedupConfig) (start : ℤ) (call : DedupCall) : Prop where
  answers : call.setNx = .answered ∨ call.setNx = .repeated
  after : start ≤ call.serverMs
  before : call.serverMs < start + dc.redisDedupTtlSeconds * 1000

theorem Marked.fetch {until' now : ℤ} (h : Marked dc until' s) (hkey : key ∈ s.seen)
    (hnow : now < until') : (s.redis.fetch now (dc.redisDedupPrefix ++ key)).isSome = true := by
  obtain ⟨⟨value, deadline⟩, hget⟩ := Option.isSome_iff_exists.1 (h.marked key hkey)
  obtain ⟨until'', rfl, hle⟩ := h.lasting _ _ hget
  rw [Keyspace.fetch_eq_some_iff.2 ⟨_, hget, ?_⟩]
  · rfl
  · simp only [Expiring.live, decide_eq_true_eq]
    omega

/-- A `SET NX` that arrives marks its key. -/
theorem Marked.setNxReply {start : ℤ} (h : Marked dc (start + dc.redisDedupTtlSeconds * 1000) s)
    (httl : 0 < dc.redisDedupTtlSeconds) (hcall : Working dc start call) (key : String) :
    Marked dc (start + dc.redisDedupTtlSeconds * 1000)
      { s with
        redis := (Orchestrator.setNxReply s.redis call.serverMs (dc.redisDedupPrefix ++ key)
          dc.redisDedupTtlSeconds call.setNx).2
        seen := key :: s.seen } := by
  have hset := fun ks (hks : ∀ k e, ks.get? k = some e → ∃ deadline, e.deadline = some deadline ∧
      start + dc.redisDedupTtlSeconds * 1000 ≤ deadline) =>
    @Keyspace.get?_setNx _ ks call.serverMs (dc.redisDedupPrefix ++ key) "1" _ _ hks
      ⟨call.serverMs + dc.redisDedupTtlSeconds * 1000, rfl, by have := hcall.after; omega⟩
  obtain ⟨hlasting, hmarked⟩ := hset _ h.lasting
  unfold Orchestrator.setNxReply
  dsimp only
  rw [if_neg (by omega)]
  have hseen : ∀ k ∈ key :: s.seen, dc.redisDedupPrefix ++ k = dc.redisDedupPrefix ++ key ∨
      (s.redis.get? (dc.redisDedupPrefix ++ k)).isSome = true := by
    intro k hk
    obtain rfl | hk := List.mem_cons.1 hk
    · exact .inl rfl
    · exact .inr (h.marked k hk)
  obtain hhow | hhow := hcall.answers
  · rw [hhow]
    exact ⟨fun k hk => hmarked _ (hseen k hk), hlasting⟩
  · rw [hhow]
    obtain ⟨hlasting', hmarked'⟩ := hset _ hlasting
    exact ⟨fun k hk => hmarked' _ (.inr (hmarked _ (hseen k hk))), hlasting'⟩

theorem marked_empty {deadline : ℤ} : Marked dc deadline {} :=
  ⟨fun _ h => absurd h List.not_mem_nil, fun _ _ h => by cases h⟩

/-- A call that the server answers marks its key. -/
theorem Marked.step {start : ℤ} (h : Marked dc (start + dc.redisDedupTtlSeconds * 1000) s)
    (hdedup : cfg.dedupEnabled = true) (hredis : cfg.redisDedupEnabled = true)
    (httl : 0 < dc.redisDedupTtlSeconds) (hcall : Working dc start call) :
    Marked dc (start + dc.redisDedupTtlSeconds * 1000) (DedupState.step cv kc cfg dc s call) := by
  unfold DedupState.step askRedis
  cases dedupKey? cv kc cfg dc s call with
  | none => exact ⟨h.marked, h.lasting⟩
  | some key =>
    rw [hdedup, hredis]
    have hnext := h.setNxReply httl hcall key
    exact ⟨hnext.marked, hnext.lasting⟩

/-- Redis answers for a key that was seen. -/
theorem Marked.answers {start : ℤ} (h : Marked dc (start + dc.redisDedupTtlSeconds * 1000) s)
    (hcall : Working dc start call) (hseen : key ∈ s.seen) : Answers dc s call key := by
  unfold Answers
  obtain hhow | hhow := hcall.answers
  · rw [hhow]
    exact h.fetch hseen hcall.before
  · rw [hhow]
    trivial

/-- **While Redis works, every duplicate is skipped.** -/
theorem dedups_of_working {start : ℤ} {calls : List DedupCall} (hdedup : cfg.dedupEnabled = true)
    (hredis : cfg.redisDedupEnabled = true) (httl : 0 < dc.redisDedupTtlSeconds)
    (hcalls : Within (step cv kc cfg dc)
      (fun s call => Working dc start call ∧ (routes? cv cfg s call).isSome = true) {} calls) :
    Within (step cv kc cfg dc) (Dedups cv kc cfg dc) {} calls := by
  refine hcalls.imp (I := Marked dc (start + dc.redisDedupTtlSeconds * 1000)) marked_empty ?_ ?_
  · intro s call hs h'
    exact hs.step hdedup hredis httl h'.1
  · intro s call hs h'
    obtain ⟨hcall, hroutes⟩ := h'
    rw [dedups_iff_finds]
    intro key h'
    obtain ⟨-, hseen⟩ := h'
    exact ⟨hroutes, hdedup, hredis, httl, hs.answers hcall hseen⟩

end

/-- A decision behind no gate. -/
def untimed : Fields :=
  (Dict.empty.set "symbol" (.str "TST")).set "idempotency_key" (.str "k1")

def untimedCall (setNx : SetNx) : DedupCall where
  env := killzoneEnv
  decision := .dict untimed
  setNx := setNx
  serverMs := 1704067200000
  nowMs := 1704067200000

/-- The same decision is not skipped the second time: with Redis off, and with a Redis that has the
key but does not answer any more. -/
theorem dedups_unavailable :
    ¬ Within (step .plain .plain { gate := { permissive := false } } {})
      (Dedups .plain .plain { gate := { permissive := false } } {}) {}
      [untimedCall .answered, untimedCall .answered] ∧
    ¬ Within (step .plain .plain { gate := { permissive := false }, redisDedupEnabled := true } {})
      (Dedups .plain .plain { gate := { permissive := false }, redisDedupEnabled := true } {}) {}
      [untimedCall .answered, untimedCall .unavailable] := by
  refine ⟨fun h => ?_, fun h => ?_⟩
  · obtain ⟨-, hsecond, -⟩ := h
    obtain ⟨hreply, -⟩ := hsecond "idem:k1" ⟨by decide +kernel, by decide +kernel⟩
    revert hreply
    decide +kernel
  · obtain ⟨-, hsecond, -⟩ := h
    obtain ⟨hreply, -⟩ := hsecond "idem:k1" ⟨by decide +kernel, by decide +kernel⟩
    revert hreply
    decide +kernel

end Orchestrator.DedupState
