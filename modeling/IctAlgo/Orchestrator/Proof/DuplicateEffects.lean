import IctAlgo.Orchestrator.Proof.Duplicates
import IctAlgo.Orchestrator.Proof.StoredOnce

/-!
# The effects of duplicates

A duplicate that Redis finds is reported skipped, but only the notifications look at that: the gate and
the paper trade come before, and the insert does not ask.

* `Silent`: a duplicate is reported skipped, and neither inserted, enqueued, entered as a paper trade
  nor notified.
* `Inert`: the call has nothing to insert, enqueue or enter.
* `duplicates_silent_iff`: while Redis works, the duplicates of a run are silent exactly when they
  are inert.
-/

set_option autoImplicit false

namespace Orchestrator

open Lib Lib.Runs

/-! ## The entries for a retry -/

/-- Entries are only added. -/
structure Extends (q q' : Dlq Fields) : Prop where
  memory : q.persistDlq <+: q'.persistDlq
  redis : q.redis <+: q'.redis

/-- The same entries. -/
structure SameQueue (q q' : Dlq Fields) : Prop where
  memory : q'.persistDlq = q.persistDlq
  redis : q'.redis = q.redis

section
variable {cv : Conv} {cfg : ProcessConfig} {env : ProcessEnv} {s : Orch} {decision : Payload}
  {persist : Bool} {channels : Option (List String)} {d : Fields} {q q' q'' : Dlq Fields}

theorem Extends.refl (q : Dlq Fields) : Extends q q := ⟨List.prefix_refl _, List.prefix_refl _⟩

theorem Extends.of_eq (h : q' = q) : Extends q q' := h ▸ .refl q

theorem Extends.trans (h : Extends q q') (h' : Extends q' q'') : Extends q q'' :=
  ⟨h.memory.trans h'.memory, h.redis.trans h'.redis⟩

/-- A queue that is only added to is the same exactly when its size is. -/
theorem Extends.same_iff (h : Extends q q') : SameQueue q q' ↔ q'.size = q.size := by
  have hmemory := h.memory.length_le
  have hredis := h.redis.length_le
  unfold Dlq.size
  refine ⟨fun hsame => ?_, fun hsize => ?_⟩
  · rw [hsame.memory, hsame.redis]
  · exact ⟨(h.memory.eq_of_length (by omega)).symm, (h.redis.eq_of_length (by omega)).symm⟩

theorem extends_append (q : Dlq Fields) (entry : DlqEntry Fields) : Extends q (q.append entry) :=
  ⟨List.prefix_append _ _, List.prefix_refl _⟩

theorem extends_enqueue (dcfg : DlqSettings) (q : Dlq Fields) (connected : Bool) (reply : RedisReply)
    (entry : DlqEntry Fields) : Extends q (q.enqueue dcfg connected reply entry) := by
  unfold Dlq.enqueue
  split
  · cases reply with
    | ok => exact ⟨List.prefix_refl _, List.prefix_append _ _⟩
    | failed => exact extends_append q entry
    | raised => exact ⟨List.prefix_refl _, List.prefix_refl _⟩
  · exact extends_append q entry

theorem gate_extends {cfg : GateConfig} {env : GateEnv} {snapshot : Payload} :
    Extends s.dlq (preReasoningPolicyCheck cv cfg env snapshot s).2.2.dlq := by
  by_cases h : ∀ cooldown, (preReasoningPolicyCheck cv cfg env snapshot s).1 ≠ .defer cooldown
  · exact .of_eq (gate_dlq h)
  · simp only [not_forall, not_not] at h
    obtain ⟨cooldown, h⟩ := h
    obtain ⟨-, d, -, hdlq⟩ := deferred_dlq h
    rw [hdlq]
    exact extends_append _ _

theorem processNormalized_extends :
    Extends s.dlq (processNormalized cv cfg env persist channels d s).2.2.dlq := by
  rw [processNormalized_dlq]
  split
  · unfold persistDecision
    cases env.insert with
    | ok id => exact .of_eq post_dlq
    | error err =>
      show Extends s.dlq (Dlq.enqueue _ _ _ _ _)
      rw [post_dlq]
      exact extends_enqueue _ _ _ _ _
  · exact .of_eq post_dlq

theorem process_extends :
    Extends s.dlq (processDecision cv cfg env persist channels decision s).2.2.dlq := by
  have hgate := @gate_extends cv s cfg.gate env.gate decision
  unfold processDecision
  generalize preReasoningPolicyCheck cv cfg.gate env.gate decision s = g at hgate
  obtain ⟨result, decision, s'⟩ := g
  dsimp only at hgate ⊢
  cases cv.normalizeDecision env.now decision with
  | none => exact hgate
  | some d => exact hgate.trans processNormalized_extends

/-- The shadow mode changes nothing for the paper trade. -/
theorem entersPaper_withShadow : entersPaper cv cfg (withShadow env d) = entersPaper cv cfg d := by
  have hfields : paperFields (withShadow env d) = paperFields d := by
    unfold paperFields
    repeat rw [val_withShadow (by decide)]
  unfold entersPaper
  rw [hfields]

/-- What a call enqueues: the decision that the gate defers, and the one that is not inserted. -/
theorem process_growsUnless (persist : Bool) (channels : Option (List String))
    (hd : processed? cv cfg env decision s = some d) :
    GrowsUnless
      ((∀ cooldown, (preReasoningPolicyCheck cv cfg.gate env.gate decision s).1 ≠ .defer cooldown) ∧
        (persist = false ∨ (∃ id, env.insert = .ok id) ∨ Lost cfg env)) s.dlq
      (processDecision cv cfg env persist channels decision s).2.2.dlq := by
  have hgate := @gate_grows cv s decision cfg.gate env.gate
  unfold processDecision
  unfold processed? at hd
  generalize preReasoningPolicyCheck cv cfg.gate env.gate decision s = g at hgate hd
  obtain ⟨result, decision, s'⟩ := g
  dsimp only at hgate hd ⊢
  obtain ⟨d', hnormal, -⟩ := Option.map_eq_some_iff.1 hd
  rw [hnormal]
  exact hgate.trans processNormalized_grows

/-- **A call that skips its decision** does nothing with it exactly if there is nothing to enter, to
insert or to enqueue. -/
theorem skipped_silent_iff (persist : Bool) (channels : Option (List String))
    (hskip : skips cfg env = true)
    (hd : processed? cv cfg env decision s = some d) :
    (∀ e ∈ (processDecision cv cfg env persist channels decision s).1, e.acts = false) ∧
        SameQueue s.dlq (processDecision cv cfg env persist channels decision s).2.2.dlq ↔
      (∀ cooldown, (preReasoningPolicyCheck cv cfg.gate env.gate decision s).1 ≠ .defer cooldown) ∧
        entersPaper cv cfg d = false ∧
        (persist = true → (∀ id, env.insert ≠ .ok id) ∧ Lost cfg env) := by
  obtain ⟨es, heffects, hacting, hidle⟩ :=
    processDecision_effects cv cfg env persist channels decision s
  have hacts : (∀ e ∈ (processDecision cv cfg env persist channels decision s).1, e.acts = false) ↔
      entersPaper cv cfg d = false ∧ (persist = true → ∀ id, env.insert ≠ .ok id) := by
    rw [heffects, List.forall_mem_cons, hacting.silent_iff, hidle]
    unfold processed? at hd
    obtain ⟨d', hnormal, rfl⟩ := Option.map_eq_some_iff.1 hd
    rw [entersPaper_withShadow]
    refine ⟨fun h => ?_, fun h => ?_⟩
    · obtain ⟨-, hidle⟩ := h
      have hat := hidle d' hnormal
      exact ⟨hat.paper, hat.insert⟩
    · refine ⟨rfl, fun d'' hd'' => ?_⟩
      obtain rfl := Option.some.inj (hnormal.symm.trans hd'')
      refine ⟨h.1, h.2, fun chs _ => ?_⟩
      simp [recipients, hskip]
  have hqueue := (process_growsUnless persist channels hd).2
  rw [process_extends.same_iff, hacts, hqueue]
  refine ⟨fun h => ?_, fun h => ?_⟩
  · obtain ⟨⟨hpaper, hinsert⟩, hgate, hkept⟩ := h
    refine ⟨hgate, hpaper, fun hpersist => ⟨hinsert hpersist, ?_⟩⟩
    obtain hnot | ⟨id, hid⟩ | hlost := hkept
    · rw [hpersist] at hnot
      cases hnot
    · exact absurd hid (hinsert hpersist id)
    · exact hlost
  · obtain ⟨hgate, hpaper, hstored⟩ := h
    refine ⟨⟨hpaper, fun hpersist => (hstored hpersist).1⟩, hgate, ?_⟩
    cases persist with
    | false => exact .inl rfl
    | true => exact .inr (.inr (hstored rfl).2)

end

/-! ## Duplicates -/

namespace DedupState

section
variable (cv : Conv) (kc : KeyConv) (cfg : ProcessConfig) (dc : DedupConfig) (s : DedupState)
  (call : DedupCall)

/-- A duplicate is reported skipped and has no effects. -/
def Silent : Prop :=
  ∀ key, Repeats cv kc cfg dc s call key →
    (process cv kc cfg dc s call).2.1.map ProcessResult.skipped = some true ∧
      (∀ e ∈ (process cv kc cfg dc s call).1, e.acts = false) ∧
      SameQueue s.orch.dlq (process cv kc cfg dc s call).2.2.dlq

/-- There is nothing to do for a duplicate: its routing does not raise, the gate does not defer it, no
paper trade is entered for it, and it is not persisted, or neither inserted nor enqueued. -/
def Inert : Prop :=
  ∀ key, Repeats cv kc cfg dc s call key →
    (routes? cv cfg s call).isSome = true ∧
      (∀ cooldown, (preReasoningPolicyCheck cv cfg.gate call.env.gate call.decision s.orch).1 ≠
        .defer cooldown) ∧
      (∀ d, decision? cv cfg s call = some d → entersPaper cv cfg d = false) ∧
      (call.persist = true → (∀ id, call.env.insert ≠ .ok id) ∧ Lost cfg call.env)

end

section
variable {cv : Conv} {kc : KeyConv} {cfg : ProcessConfig} {dc : DedupConfig} {s : DedupState}
  {call : DedupCall} {key : String}

/-- A duplicate that Redis finds. -/
theorem silent_iff_inert (hdedup : cfg.dedupEnabled = true) (hredis : cfg.redisDedupEnabled = true)
    (hfound : ∀ key, Repeats cv kc cfg dc s call key → (askRedis cv kc cfg dc s call).1 = some false) :
    Silent cv kc cfg dc s call ↔ Inert cv kc cfg dc s call := by
  unfold Silent Inert
  refine forall_congr' fun key => forall_congr' fun hrepeats => ?_
  have hreply := hfound key hrepeats
  have hspec := process_spec hrepeats.1
  obtain ⟨d, hd, -⟩ := Option.bind_eq_some_iff.1 hrepeats.1
  have hskip : skips cfg { call.env with setnx := (askRedis cv kc cfg dc s call).1 } = true := by
    simp [skips, hdedup, hredis, hreply]
  have hsilent := skipped_silent_iff call.persist call.channels hskip hd
  rw [hd]
  simp only [Option.some.injEq, forall_eq']
  refine ⟨fun h => ?_, fun h => ?_⟩
  · obtain ⟨hreported, hquiet⟩ := h
    have hnotified : ∀ channel, .notified channel ∉ (process cv kc cfg dc s call).1 := by
      intro channel hmem
      cases hquiet.1 _ hmem
    exact ⟨(hspec.1 ⟨hreported, hnotified⟩).1, hsilent.1 hquiet⟩
  · obtain ⟨hroutes, hinert⟩ := h
    exact ⟨(hspec.2 ⟨hroutes, hreply, hdedup, hredis⟩).1, hsilent.2 hinert⟩

/-- **The duplicates of a run are silent exactly when they are inert**, while Redis works. -/
theorem duplicates_silent_iff (cv : Conv) (kc : KeyConv) (cfg : ProcessConfig) (dc : DedupConfig)
    (start : ℤ) (calls : List DedupCall) (hdedup : cfg.dedupEnabled = true)
    (hredis : cfg.redisDedupEnabled = true) (httl : 0 < dc.redisDedupTtlSeconds)
    (hcalls : ∀ call ∈ calls, Working dc start call) :
    Within (step cv kc cfg dc) (Silent cv kc cfg dc) {} calls ↔
      Within (step cv kc cfg dc) (Inert cv kc cfg dc) {} calls := by
  refine within_congr_of (I := Marked dc (start + dc.redisDedupTtlSeconds * 1000)) hcalls
    marked_empty (fun s call hs hcall => hs.step hdedup hredis httl hcall) fun s call hs hcall => ?_
  refine silent_iff_inert hdedup hredis fun key hrepeats => ?_
  rw [askRedis_eq_false_iff hrepeats.1]
  exact ⟨hdedup, hredis, httl, hs.answers hcall hrepeats.2⟩

end

/-! ## The same decision twice -/

def redisDedup : ProcessConfig := { gate := { permissive := false }, redisDedupEnabled := true }

/-- The second call is reported skipped, and inserted. -/
theorem duplicate_inserted :
    (process .plain .plain redisDedup {} (step .plain .plain redisDedup {} {} (untimedCall .answered))
        (untimedCall .answered)).2.1.map (fun r => (r.skipped, r.id)) = some (true, some 1) ∧
      ¬Within (step .plain .plain redisDedup {}) (Silent .plain .plain redisDedup {}) {}
        [untimedCall .answered, untimedCall .answered] := by
  refine ⟨by decide +kernel, fun h => ?_⟩
  obtain ⟨-, hsecond, -⟩ := h
  obtain ⟨-, hquiet, -⟩ := hsecond "idem:k1" ⟨by decide +kernel, by decide +kernel⟩
  revert hquiet
  decide +kernel

def unpersistedCall : DedupCall := { untimedCall .answered with persist := false }

/-- Without persistence, nothing is left to do for the second call. -/
theorem unpersisted_silent :
    Within (step .plain .plain redisDedup {}) (Silent .plain .plain redisDedup {}) {}
      [unpersistedCall, unpersistedCall] := by
  have hworking : Working {} 1704067200000 unpersistedCall :=
    ⟨.inl rfl, le_refl _, by decide⟩
  refine (duplicates_silent_iff .plain .plain redisDedup {} 1704067200000 _ rfl rfl (by decide)
    ?_).2 ?_
  · intro call hcall
    obtain rfl : call = unpersistedCall := by simpa using hcall
    exact hworking
  · refine ⟨fun key h => ?_, fun key h => ⟨by decide +kernel, fun cooldown => ?_, ?_, ?_⟩, trivial⟩
    · cases h.2
    · have hgate : (preReasoningPolicyCheck .plain redisDedup.gate killzoneEnv.gate (.dict untimed)
          (step .plain .plain redisDedup {} {} unpersistedCall).orch).1 =
            .pass (some ⟨.fin 0, .fin 0, 0, none⟩) := by
        decide +kernel
      intro hdefer
      cases hgate.symm.trans hdefer
    · intro d _
      rfl
    · intro hpersist
      cases hpersist

end DedupState

end Orchestrator
