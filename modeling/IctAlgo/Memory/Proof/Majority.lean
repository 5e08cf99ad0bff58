import IctAlgo.Memory.Fusion

/-!
# The bias vote

`Wins items label`: the label occurs most often, and of several that do it is the first.

* `majority_cases`: a single most frequent label is returned; on a tie of counts at the top the first
  label of the list is, whatever its count.
* `majority_wins_iff`: the vote returns a winner exactly when no tie goes to a label outside the tie.
-/

set_option autoImplicit false

namespace Memory.Fusion

open Lib

/-! ## Definitions -/

section
variable (items : List String) (label : String)

/-- No label occurs more often. -/
def MostFrequent : Prop := label ∈ items ∧ ∀ other ∈ items, items.count other ≤ items.count label

/-- The first of the most frequent labels. -/
def Wins : Prop :=
  ∃ before after, items = before ++ label :: after ∧
    (∀ other ∈ before, items.count other < items.count label) ∧
    ∀ other ∈ after, items.count other ≤ items.count label

/-- Every other label occurs less often. -/
def Alone : Prop :=
  label ∈ items ∧ ∀ other ∈ items, other ≠ label → items.count other < items.count label

/-- One label occurs most often, or the first label is one of those that do. -/
def Decided : Prop := (∃ label, Alone items label) ∨ ∃ first ∈ items.head?, MostFrequent items first

end

section
variable {items : List String} {label : String}

theorem Alone.mostFrequent (h : Alone items label) : MostFrequent items label := by
  refine ⟨h.1, fun other hother => ?_⟩
  by_cases heq : other = label
  · rw [heq]
  · exact (h.2 other hother heq).le

theorem Wins.mostFrequent (h : Wins items label) : MostFrequent items label := by
  obtain ⟨before, after, hitems, hbefore, hafter⟩ := h
  refine ⟨by simp [hitems], fun other hother => ?_⟩
  rw [hitems, List.mem_append, List.mem_cons] at hother
  obtain hother | rfl | hother := hother
  · exact (hbefore other hother).le
  · exact le_rfl
  · exact hafter other hother

theorem Alone.wins (h : Alone items label) : Wins items label := by
  obtain ⟨before, after, hitems, hnew⟩ := List.eq_append_cons_of_mem h.1
  refine ⟨before, after, hitems, fun other hother => ?_, fun other hother => ?_⟩
  · refine h.2 other (by simp [hitems, hother]) fun heq => hnew (heq ▸ hother)
  · exact h.mostFrequent.2 other (by simp [hitems, hother])

theorem wins_head {first : String} {rest : List String} (h : MostFrequent (first :: rest) first) :
    Wins (first :: rest) first :=
  ⟨[], rest, rfl, fun _ hnil => absurd hnil List.not_mem_nil,
    fun other hother => h.2 other (List.mem_cons_of_mem first hother)⟩

/-- Two most frequent labels leave none alone. -/
theorem Alone.eq (h : Alone items label) {other : String} (hother : MostFrequent items other) :
    other = label := by
  by_contra hne
  exact absurd (hother.2 label h.1) (not_le.2 (h.2 other hother.1 hne))

end

/-! ## The vote -/

section
variable (items : List String)

/-- `c.most_common()`. -/
def mostCommon : List (String × ℕ) :=
  ((dedupBy id items).map fun item => (item, items.count item)).insertionSort fun a b => b.2 ≤ a.2

theorem mostCommon_perm :
    (mostCommon items).Perm ((dedupBy id items).map fun item => (item, items.count item)) :=
  List.perm_insertionSort _ _

theorem mostCommon_sorted : (mostCommon items).Pairwise fun a b => b.2 ≤ a.2 := by
  have : Std.Total fun a b : String × ℕ => b.2 ≤ a.2 := ⟨fun a b => le_total b.2 a.2⟩
  have : IsTrans (String × ℕ) fun a b => b.2 ≤ a.2 := ⟨fun a b c hab hbc => hbc.trans hab⟩
  exact List.pairwise_insertionSort _ _

theorem mostCommon_nodup : ((mostCommon items).map (·.1)).Nodup := by
  rw [((mostCommon_perm items).map _).nodup_iff, List.map_map]
  exact nodup_dedupFrom id [] items

variable {items}

theorem mem_mostCommon {label : String} {n : ℕ} :
    (label, n) ∈ mostCommon items ↔ label ∈ items ∧ items.count label = n := by
  have hkeys : label ∈ (dedupFrom id [] items).map id ↔ label ∈ items.map id ∧ label ∉ [] :=
    mem_keys_dedupFrom id
  rw [List.map_id, List.map_id] at hkeys
  rw [(mostCommon_perm items).mem_iff, List.mem_map]
  refine ⟨fun h => ?_, fun h => ?_⟩
  · obtain ⟨item, hitem, heq⟩ := h
    obtain ⟨rfl, rfl⟩ := Prod.mk.inj heq
    exact ⟨(hkeys.1 hitem).1, rfl⟩
  · exact ⟨label, hkeys.2 ⟨h.1, List.not_mem_nil⟩, by rw [h.2]⟩

section
variable {label : String} {n : ℕ} {others : List (String × ℕ)}

/-- The first entry has the greatest count. -/
theorem mostFrequent_of_top (h : mostCommon items = (label, n) :: others) :
    MostFrequent items label := by
  obtain ⟨hlabel, hn⟩ := mem_mostCommon.1 (h ▸ List.mem_cons_self : (label, n) ∈ mostCommon items)
  refine ⟨hlabel, fun other hother => ?_⟩
  have hmem : (other, items.count other) ∈ mostCommon items := mem_mostCommon.2 ⟨hother, rfl⟩
  have hsorted := mostCommon_sorted items
  rw [h] at hmem hsorted
  rw [hn]
  obtain heq | hmem := List.mem_cons.1 hmem
  · exact (Prod.mk.inj heq).2.le
  · exact (List.pairwise_cons.1 hsorted).1 _ hmem

theorem alone_of_top (h : mostCommon items = (label, n) :: others)
    (hlt : ∀ entry ∈ others, entry.2 < n) : Alone items label := by
  obtain ⟨hlabel, hn⟩ := mem_mostCommon.1 (h ▸ List.mem_cons_self : (label, n) ∈ mostCommon items)
  refine ⟨hlabel, fun other hother hne => ?_⟩
  have hmem : (other, items.count other) ∈ mostCommon items := mem_mostCommon.2 ⟨hother, rfl⟩
  rw [h] at hmem
  rw [hn]
  obtain heq | hmem := List.mem_cons.1 hmem
  · exact absurd (Prod.mk.inj heq).1 hne
  · exact hlt _ hmem

/-- Two entries of one count at the top leave no label alone. -/
theorem not_alone_of_tie {next : String} (h : mostCommon items = (label, n) :: (next, n) :: others)
    (winner : String) : ¬ Alone items winner := by
  intro halone
  have hnodup := mostCommon_nodup items
  obtain ⟨hnext, hm⟩ := mem_mostCommon.1
    (h ▸ List.mem_cons_of_mem _ List.mem_cons_self : (next, n) ∈ mostCommon items)
  obtain ⟨-, hn⟩ := mem_mostCommon.1 (h ▸ List.mem_cons_self : (label, n) ∈ mostCommon items)
  have hlabel := mostFrequent_of_top h
  have hmost : MostFrequent items next := by
    refine ⟨hnext, fun other hother => ?_⟩
    rw [hm, ← hn]
    exact hlabel.2 other hother
  have heq : label = next := (halone.eq hlabel).trans (halone.eq hmost).symm
  rw [h, heq] at hnodup
  exact absurd hnodup (by simp)

end

end

section
variable (first : String) (rest : List String)

theorem mostCommon_ne_nil : mostCommon (first :: rest) ≠ [] := by
  have hfirst : (first, (first :: rest).count first) ∈ mostCommon (first :: rest) :=
    mem_mostCommon.2 ⟨List.mem_cons_self, rfl⟩
  exact List.ne_nil_of_mem hfirst

variable {first rest}

/-- The first entry is returned, unless the next one has its count. -/
theorem majority_of_top {item : String} {n : ℕ} {others : List (String × ℕ)}
    (h : mostCommon (first :: rest) = (item, n) :: others) :
    majority (first :: rest) = if others.head?.map Prod.snd = some n then first else item := by
  unfold mostCommon at h
  simp only [majority, h]
  cases others with
  | nil => rfl
  | cons next others => simp only [List.head?_cons, Option.map_some, Option.some.injEq, eq_comm]

variable (first rest)

/-- A label that is alone is returned; on a tie it is the first label of the list. -/
theorem majority_cases :
    Alone (first :: rest) (majority (first :: rest)) ∨
      (∀ label, ¬ Alone (first :: rest) label) ∧ majority (first :: rest) = first := by
  cases htop : mostCommon (first :: rest) with
  | nil => exact absurd htop (mostCommon_ne_nil first rest)
  | cons entry others =>
    obtain ⟨item, n⟩ := entry
    rw [majority_of_top htop]
    cases others with
    | nil => exact .inl (alone_of_top htop fun entry hnil => absurd hnil List.not_mem_nil)
    | cons next others =>
      obtain ⟨next, m⟩ := next
      by_cases htie : m = n
      · subst htie
        exact .inr ⟨not_alone_of_tie htop, if_pos rfl⟩
      · have hsorted := mostCommon_sorted (first :: rest)
        rw [htop] at hsorted
        obtain ⟨hfirst, hrest⟩ := List.pairwise_cons.1 hsorted
        have hlt : m < n := lt_of_le_of_ne (hfirst _ List.mem_cons_self) htie
        have halone : Alone (first :: rest) item := by
          refine alone_of_top htop fun other hother => ?_
          obtain rfl | hother := List.mem_cons.1 hother
          · exact hlt
          · exact ((List.pairwise_cons.1 hrest).1 other hother).trans_lt hlt
        have hnext : ((next, m) :: others).head?.map Prod.snd ≠ some n := fun heq =>
          htie (Option.some.inj heq)
        rw [if_neg hnext]
        exact .inl halone

/-- A vote with a winner. -/
theorem decided_iff :
    Decided (first :: rest) ↔ MostFrequent (first :: rest) (majority (first :: rest)) := by
  unfold Decided
  obtain halone | ⟨htie, heq⟩ := majority_cases first rest
  · exact iff_of_true (.inl ⟨_, halone⟩) halone.mostFrequent
  · rw [heq]
    refine ⟨fun h => ?_, fun h => .inr ⟨first, rfl, h⟩⟩
    obtain ⟨label, hlabel⟩ | ⟨head, hhead, hmost⟩ := h
    · exact absurd hlabel (htie label)
    · obtain rfl := Option.some.inj hhead
      exact hmost

theorem wins_iff :
    Wins (first :: rest) (majority (first :: rest)) ↔
      MostFrequent (first :: rest) (majority (first :: rest)) := by
  refine ⟨Wins.mostFrequent, fun h => ?_⟩
  obtain halone | ⟨-, heq⟩ := majority_cases first rest
  · exact halone.wins
  · rw [heq] at h ⊢
    exact wins_head h

end

/-- **The bias vote.** It returns the first of the most frequent labels exactly when no tie at the top
goes to a label outside the tie; so a summary reports a most frequent bias of the last five alerts
exactly then. -/
theorem majority_wins_iff {γ ω μ : Type} (first : String) (rest : List String)
    (floats : Floats γ ω μ) (tf : String) (latest : Alert (Body γ)) (older : List (Alert (Body γ))) :
    (Wins (first :: rest) (majority (first :: rest)) ↔ Decided (first :: rest)) ∧
      let biases := ((latest :: older).take 5).map (·.body.biasLocal)
      ∃ summary, summarizeTf floats tf (latest :: older) = some summary ∧
        (MostFrequent biases summary.biasLocal ↔ Decided biases) := by
  refine ⟨?_, _, rfl, ?_⟩
  · rw [wins_iff, decided_iff]
  · exact (decided_iff _ _).symm

/-- Two alerts each way, and a newer one that is neutral. -/
theorem majority_neutral :
    ¬ ∀ first rest, Wins (first :: rest) (majority (first :: rest)) := by
  intro h
  have hmost := (h "neutral" ["bullish", "bullish", "bearish", "bearish"]).mostFrequent
  exact absurd (hmost.2 "bullish" (by decide)) (by decide +kernel)

end Memory.Fusion
