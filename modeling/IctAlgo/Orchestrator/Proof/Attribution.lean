import IctAlgo.Orchestrator.Proof.Gate

/-!
# Whose result a notification has

`Attributed`: a channel with a notifier has the result of that notifier, and a channel without one has
no result. The results are those of the channels with a notifier, but they are paired with all channels.

* `notifyResults_cleared`: with the channels that have a notifier in front, each has its own result.
* `exists_misattributed`: otherwise a channel without a notifier has the result of another.
* `attributed_iff`: the lists of channels for which the results are attributed right.
-/

set_option autoImplicit false

namespace Orchestrator

open Lib

section
variable (cfg : ProcessConfig) (env : ProcessEnv)

/-- The results of the channels are their own. -/
structure Attributed (routed : List String) (results : Dict String NotifyResult) : Prop where
  own : ∀ ch ∈ routed, ch ∈ cfg.notifiers → results.get? ch = some (.ofReply (env.notify ch))
  others : ∀ ch, ch ∉ cfg.notifiers → ∀ r, results.get? ch = some r → ∃ reason, r = .skipped reason

/-- No channel without a notifier stands before one with a notifier. -/
def NotifiersFirst (routed : List String) : Prop :=
  routed.Pairwise fun ch ch' => ch' ∈ cfg.notifiers → ch ∈ cfg.notifiers

end

section
variable {cfg : ProcessConfig} {env : ProcessEnv} {d : Fields} {routed : List String}

theorem ofReply_ne_skipped {reply : Except String Value} {reason : Option String} :
    NotifyResult.ofReply reply ≠ .skipped reason := by
  cases reply <;> exact NotifyResult.noConfusion

/-- The channels with a notifier, and then the others. -/
theorem NotifiersFirst.split (h : NotifiersFirst cfg routed) :
    ∃ rest, routed = routed.filter cfg.notifiers.contains ++ rest := by
  unfold NotifiersFirst at h
  induction routed with
  | nil => exact ⟨[], rfl⟩
  | cons ch routed ih =>
    rw [List.pairwise_cons] at h
    by_cases hch : ch ∈ cfg.notifiers
    · obtain ⟨rest, hrest⟩ := ih h.2
      refine ⟨rest, ?_⟩
      rw [List.filter_cons_of_pos (by simpa using hch), List.cons_append, ← hrest]
    · refine ⟨ch :: routed, ?_⟩
      rw [List.filter_eq_nil_iff.2, List.nil_append]
      intro ch' hch' hmem
      rw [List.contains_iff_mem] at hmem
      obtain rfl | hch' := List.mem_cons.1 hch'
      · exact hch hmem
      · exact hch (h.1 ch' hch' hmem)

/-- The first channel without a notifier that stands before one with a notifier. -/
theorem exists_first_without (h : ¬NotifiersFirst cfg routed) :
    ∃ pre ch post ch', routed = pre ++ ch :: post ∧ (∀ c ∈ pre, c ∈ cfg.notifiers) ∧
      ch ∉ cfg.notifiers ∧ ch' ∈ post ∧ ch' ∈ cfg.notifiers := by
  unfold NotifiersFirst at h
  induction routed with
  | nil => exact absurd List.Pairwise.nil h
  | cons c routed ih =>
    by_cases hc : c ∈ cfg.notifiers
    · have hrest : ¬NotifiersFirst cfg routed := fun hrest =>
        h (List.pairwise_cons.2 ⟨fun _ _ _ => hc, hrest⟩)
      obtain ⟨pre, ch, post, ch', rfl, hpre, hch, hch'⟩ := ih hrest
      exact ⟨c :: pre, ch, post, ch', rfl, List.forall_mem_cons.2 ⟨hc, hpre⟩, hch, hch'⟩
    · by_cases hlater : ∃ ch' ∈ routed, ch' ∈ cfg.notifiers
      · obtain ⟨ch', hmem, hch'⟩ := hlater
        exact ⟨[], c, routed, ch', rfl, fun _ h => absurd h List.not_mem_nil, hc, hmem, hch'⟩
      · refine absurd (List.pairwise_cons.2 ⟨fun ch' hmem hch' => ?_, ?_⟩) h
        · exact absurd ⟨ch', hmem, hch'⟩ hlater
        · exact List.pairwise_of_forall_mem_list fun _ _ ch' hmem hch' =>
            absurd ⟨ch', hmem, hch'⟩ hlater

theorem zip_map_self {α β : Type} (f : α → β) (xs rest : List α) :
    (xs ++ rest).zip (xs.map f) = xs.map fun x => (x, f x) := by
  induction xs with
  | nil => simp
  | cons x xs ih => simp [ih]

variable (hquiet : quietFor env d = false) (hskip : skips cfg env = false)

include hquiet hskip

theorem recipients_eq : recipients cfg env d routed = routed.filter cfg.notifiers.contains := by
  unfold recipients
  rw [hquiet, hskip]
  rfl

theorem notifyResults_eq :
    notifyResults cfg env d routed = Dict.ofItems
      (if (routed.filter cfg.notifiers.contains).isEmpty then
        routed.map fun ch => (ch, NotifyResult.skipped none)
      else routed.zip
        ((routed.filter cfg.notifiers.contains).map fun ch => .ofReply (env.notify ch))) := by
  unfold notifyResults
  rw [recipients_eq hquiet hskip, hquiet]
  rfl

/-- With the notifiers first, the pairs match. -/
theorem notifyResults_cleared (h : NotifiersFirst cfg routed) :
    Attributed cfg env routed (notifyResults cfg env d routed) := by
  obtain ⟨rest, hsplit⟩ := h.split
  rw [notifyResults_eq hquiet hskip]
  have hmem : ∀ ch, ch ∈ routed.filter cfg.notifiers.contains ↔ ch ∈ routed ∧ ch ∈ cfg.notifiers := by
    intro ch
    rw [List.mem_filter, List.contains_iff_mem]
  generalize routed.filter cfg.notifiers.contains = sent at hsplit hmem
  cases hempty : sent.isEmpty with
  | true =>
    rw [if_pos rfl]
    refine ⟨fun ch hch hn => ?_, fun ch _ r hr => ?_⟩
    · have hsent := (hmem ch).2 ⟨hch, hn⟩
      rw [List.isEmpty_iff.1 hempty] at hsent
      cases hsent
    · obtain ⟨ch', -, heq⟩ := List.mem_map.1 (Dict.mem_of_get?_ofItems hr)
      exact ⟨none, (Prod.ext_iff.1 heq).2.symm⟩
  | false =>
    rw [if_neg Bool.false_ne_true, hsplit, zip_map_self]
    refine ⟨fun ch hch hn => ?_, fun ch hn r hr => ?_⟩
    · rw [← hsplit] at hch
      exact Dict.get?_ofItems_map (fun ch => NotifyResult.ofReply (env.notify ch))
        ((hmem ch).2 ⟨hch, hn⟩)
    · obtain ⟨ch', hch', heq⟩ := List.mem_map.1 (Dict.mem_of_get?_ofItems hr)
      obtain rfl : ch' = ch := (Prod.ext_iff.1 heq).1
      exact absurd ((hmem _).1 hch').2 hn

/-- **A channel without a notifier** that stands before one with a notifier has the result of
another. -/
theorem exists_misattributed (h : ¬NotifiersFirst cfg routed) :
    ∃ ch ch', ch ∉ cfg.notifiers ∧
      (notifyResults cfg env d routed).get? ch = some (.ofReply (env.notify ch')) := by
  obtain ⟨pre, ch, post, ch', rfl, hpre, hch, hpost, hch'⟩ := exists_first_without h
  have hsent : (pre ++ ch :: post).filter cfg.notifiers.contains =
      pre ++ post.filter cfg.notifiers.contains := by
    rw [List.filter_append, List.filter_cons_of_neg (by simpa using hch),
      List.filter_eq_self.2 fun c hc => List.contains_iff_mem.2 (hpre c hc)]
  obtain ⟨c, sent, hrest⟩ : ∃ c sent, post.filter cfg.notifiers.contains = c :: sent := by
    cases hfilter : post.filter cfg.notifiers.contains with
    | nil =>
      have := List.filter_eq_nil_iff.1 hfilter ch' hpost
      simp [hch'] at this
    | cons c sent => exact ⟨c, sent, rfl⟩
  rw [notifyResults_eq hquiet hskip, hsent, hrest]
  rw [if_neg (by simp)]
  generalize hitems : (pre ++ ch :: post).zip _ = items
  have hkey : ch ∈ items.map Prod.fst := by
    rw [← hitems, List.map_append, List.zip_append (by simp)]
    simp
  obtain ⟨r, hr⟩ := Option.isSome_iff_exists.1 ((Dict.isSome_get?_ofItems items ch).2 hkey)
  have hin := Dict.mem_of_get?_ofItems hr
  rw [← hitems] at hin
  obtain ⟨c, -, rfl⟩ := List.mem_map.1 (List.of_mem_zip hin).2
  exact ⟨ch, c, hch, hr⟩

end

/-- **Results are attributed right** exactly when the channels with a notifier come first. -/
theorem attributed_iff (cv : Conv) (cfg : ProcessConfig) (env : ProcessEnv) (persist : Bool)
    (channels : Option (List String)) (decision : Payload) (s : Orch) (d : Fields)
    (routed : List String) (hd : processed? cv cfg env decision s = some d)
    (hrouted : channelsOf cfg env channels d = some routed) (hquiet : quietFor env d = false)
    (hskip : skips cfg env = false) :
    (∃ result, (processDecision cv cfg env persist channels decision s).2.1 = some result ∧
      Attributed cfg env routed result.notifyResults) ↔ NotifiersFirst cfg routed := by
  obtain ⟨result, hresult, hresults⟩ : ∃ result,
      (processDecision cv cfg env persist channels decision s).2.1 = some result ∧
        result.notifyResults = notifyResults cfg env d routed := by
    unfold processDecision
    unfold processed? at hd
    generalize preReasoningPolicyCheck cv cfg.gate env.gate decision s = g at hd
    obtain ⟨answer, decision', s'⟩ := g
    dsimp only at hd ⊢
    obtain ⟨d', hnormal, rfl⟩ := Option.map_eq_some_iff.1 hd
    rw [hnormal]
    dsimp only
    unfold processNormalized
    dsimp only
    rw [hrouted]
    exact ⟨_, rfl, rfl⟩
  rw [hresult]
  refine ⟨fun h => ?_, fun h => ?_⟩
  · obtain ⟨result', hsame, hattributed⟩ := h
    obtain rfl := Option.some.inj hsame
    rw [hresults] at hattributed
    by_contra hnot
    obtain ⟨ch, ch', hch, hget⟩ := exists_misattributed (d := d) hquiet hskip hnot
    obtain ⟨reason, hreason⟩ := hattributed.others ch hch _ hget
    exact ofReply_ne_skipped hreason
  · exact ⟨result, rfl, hresults ▸ notifyResults_cleared hquiet hskip h⟩

/-- A decision for two channels, of which the second has a notifier. -/
def twoChannels : Fields := Dict.ofItems [("symbol", .str "TST")]

/-- The reply of Discord is reported for Slack, and none for Discord. -/
theorem twoChannels_misattributed :
    ∃ result, (processDecision .plain { gate := { permissive := true }, notifiers := ["discord"] }
        { killzoneEnv with notify := fun _ => .ok (.bool true) } true (some ["slack", "discord"])
        (.dict twoChannels) {}).2.1 = some result ∧
      result.notifyResults.get? "slack" = some (.reply (.bool true)) ∧
      result.notifyResults.get? "discord" = none ∧
      ¬Attributed { gate := { permissive := true }, notifiers := ["discord"] }
        { killzoneEnv with notify := fun _ => .ok (.bool true) } ["slack", "discord"]
        result.notifyResults := by
  refine ⟨_, rfl, by decide +kernel, by decide +kernel, fun h => ?_⟩
  have hown := h.own "discord" (by decide) (by decide)
  revert hown
  decide +kernel

/-- With the channel that has a notifier first, the reply is its own. -/
theorem notifierFirst_attributed :
    ∃ result, (processDecision .plain { gate := { permissive := true }, notifiers := ["discord"] }
        killzoneEnv true (some ["discord", "slack"]) (.dict twoChannels) {}).2.1 = some result ∧
      Attributed { gate := { permissive := true }, notifiers := ["discord"] } killzoneEnv
        ["discord", "slack"] result.notifyResults := by
  obtain ⟨d, hd⟩ : ∃ d, processed? .plain { gate := { permissive := true }, notifiers := ["discord"] }
      killzoneEnv (.dict twoChannels) {} = some d :=
    Option.isSome_iff_exists.1 (by decide +kernel)
  refine (attributed_iff .plain { gate := { permissive := true }, notifiers := ["discord"] } killzoneEnv
    true (some ["discord", "slack"]) (.dict twoChannels) {} d ["discord", "slack"] hd rfl rfl rfl).2 ?_
  simp [NotifiersFirst]

end Orchestrator
