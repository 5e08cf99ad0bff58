import IctAlgo.Llm.Gpt
import Mathlib.Data.List.Induction

/-!
# How often the API is asked

* `requests_limited`: no minute has more than sixty requests, and one is refused only when there were
  sixty in the minute before it.
* `answers_repeat`: an answer, also a refusal, is given again to the same prompt until 256 others have
  come, and nothing is sent meanwhile.
-/

set_option autoImplicit false

namespace Gpt

open Lib Lib.Runs Lib.SlidingWindow

variable {mock : Bool} {s : State} {c : Call} {calls : List Call}

/-! ## The limit -/

/-- The limiter of a state. -/
def State.limiter (s : State) : Limiter ℚ := ⟨s.requestTimes, s.sent.map (·.now)⟩

theorem rateLimited_limiter (s : State) (now : ℚ) :
    rateLimited now s.requestTimes =
      (!s.limiter.admits rateLimit rateWindow now,
        (s.limiter.call rateLimit rateWindow now).times) := by
  have hkept : s.requestTimes.dropWhile (fun t => rateWindow < now - t) =
      s.limiter.kept rateWindow now := rfl
  unfold rateLimited Limiter.call Limiter.admits
  rw [hkept]
  by_cases h : rateLimit ≤ (s.limiter.kept rateWindow now).length
  · simp [h, not_lt.2 h]
  · simp [h, not_le.1 h]

/-- The call asks the limiter, for it is not answered from the cache. -/
def State.Asks (mock : Bool) (s : State) (c : Call) : Prop :=
  mock = false ∧ s.cache.lookup c.prompt = none

theorem step_asks (h : s.Asks mock c) :
    (step mock s c).limiter = s.limiter.call rateLimit rateWindow c.now ∧
      (step mock s c).sent =
        if s.limiter.admits rateLimit rateWindow c.now then s.sent ++ [c] else s.sent := by
  obtain ⟨rfl, hget⟩ := h
  unfold step cachedGptAnalysis
  simp only [hget, gptAnalysis, Bool.false_eq_true, if_false, rateLimited_limiter]
  unfold Limiter.call
  cases s.limiter.admits rateLimit rateWindow c.now with
  | true => simp [State.limiter]
  | false => simp [State.limiter]

theorem step_asks_not (h : ¬ s.Asks mock c) :
    (step mock s c).limiter = s.limiter ∧ (step mock s c).sent = s.sent := by
  unfold step cachedGptAnalysis
  cases hget : s.cache.lookup c.prompt with
  | some answer => exact ⟨rfl, rfl⟩
  | none =>
    cases mock with
    | true => exact ⟨rfl, rfl⟩
    | false => exact absurd ⟨rfl, hget⟩ h

/-- The limiter was called last at some time up to `now`. -/
def State.LimitedBy (s : State) (now : ℚ) : Prop :=
  (∃ last ≤ now, s.limiter.Sound rateWindow last) ∧ s.limiter.Bounded rateLimit rateWindow

theorem State.LimitedBy.step {now : ℚ} (h : s.LimitedBy now) (hnow : now ≤ c.now) :
    (step mock s c).LimitedBy c.now := by
  obtain ⟨⟨last, hlast, hsound⟩, hbounded⟩ := h
  have hw : (0 : ℚ) ≤ rateWindow := by decide +kernel
  unfold State.LimitedBy
  by_cases hasks : s.Asks mock c
  · rw [(step_asks hasks).1]
    exact ⟨⟨c.now, le_refl _, hsound.call hw (hlast.trans hnow)⟩,
      hbounded.call hsound (hlast.trans hnow)⟩
  · rw [(step_asks_not hasks).1]
    exact ⟨⟨last, hlast.trans hnow, hsound⟩, hbounded⟩

theorem limitedBy_after (mock : Bool) : ∀ calls : List Call, (calls.map (·.now)).Pairwise (· ≤ ·) →
    ∀ now, (∀ c ∈ calls, c.now ≤ now) → (after mock calls).LimitedBy now := by
  intro calls
  induction calls using List.reverseRecOn with
  | nil =>
    exact fun _ now _ => ⟨⟨now, le_refl _, Limiter.initial_sound now⟩, Limiter.initial_bounded⟩
  | append_singleton calls c ih =>
    intro horder now hnow
    rw [List.map_append, List.pairwise_append] at horder
    obtain ⟨hcalls, -, hlast⟩ := horder
    have hbefore : ∀ b ∈ calls, b.now ≤ c.now := fun b hb =>
      hlast b.now (List.mem_map_of_mem hb) c.now (List.mem_singleton_self _)
    have hstep : (step mock (after mock calls) c).LimitedBy c.now :=
      (ih hcalls c.now hbefore).step (le_refl _)
    rw [after, run_append, run_cons, run_nil]
    obtain ⟨⟨last, hle, hsound⟩, hbounded⟩ := hstep
    exact ⟨⟨last, hle.trans (hnow c (by simp)), hsound⟩, hbounded⟩

/-- The requests of the minute up to `now`. -/
def State.lastMinute (s : State) (now : ℚ) : List Call :=
  s.sent.filter fun c => now - c.now ≤ rateWindow

theorem length_recent_limiter (s : State) (now : ℚ) :
    (s.limiter.recent rateWindow now).length = (s.lastMinute now).length := by
  simp [Limiter.recent, State.limiter, State.lastMinute, List.filter_map, Function.comp_def]

/-- **The limit.** As long as the clock does not go back, no minute has more than sixty requests. A
call that the cache does not answer is sent exactly when there were fewer than sixty in the minute
before it. -/
theorem requests_limited (horder : (calls.map (·.now)).Pairwise (· ≤ ·)) :
    (∀ start, (after mock calls).sent.countP
        (fun c => start ≤ c.now && c.now ≤ start + rateWindow) ≤ rateLimit) ∧
      ∀ before c rest, calls = before ++ c :: rest →
        ((after mock (before ++ [c])).sent = (after mock before).sent ++ [c] ↔
          (after mock before).Asks mock c ∧
            ((after mock before).lastMinute c.now).length < rateLimit) := by
  constructor
  · intro start
    have hbounded : (after mock calls).limiter.Bounded rateLimit rateWindow := by
      cases calls using List.reverseRecOn with
      | nil => exact Limiter.initial_bounded
      | append_singleton calls c =>
        refine (limitedBy_after mock _ horder c.now fun b hb => ?_).2
        rw [List.map_append, List.pairwise_append] at horder
        rcases List.mem_append.1 hb with hb | hb
        · exact horder.2.2 b.now (List.mem_map_of_mem hb) c.now (by simp)
        · rw [List.mem_singleton.1 hb]
    have hcount := hbounded start
    rw [State.limiter, List.countP_map] at hcount
    exact hcount
  · rintro before c rest rfl
    rw [List.map_append, List.pairwise_append] at horder
    have hbefore : ∀ b ∈ before, b.now ≤ c.now := fun b hb =>
      horder.2.2 b.now (List.mem_map_of_mem hb) c.now (by simp)
    obtain ⟨⟨last, hlast, hsound⟩, -⟩ :=
      limitedBy_after mock before horder.1 c.now hbefore
    have hadmits := hsound.admits_iff (n := rateLimit) hlast
    rw [length_recent_limiter] at hadmits
    rw [after, run_append, run_cons, run_nil, ← after, ← hadmits]
    have hne : (after mock before).sent ≠ (after mock before).sent ++ [c] := by simp
    by_cases hasks : (after mock before).Asks mock c
    · rw [(step_asks hasks).2, and_iff_right hasks]
      cases (after mock before).limiter.admits rateLimit rateWindow c.now with
      | true => simp
      | false => simp
    · rw [(step_asks_not hasks).2]
      exact ⟨fun h => absurd h hne, fun h => absurd h.1 hasks⟩

/-- Sixty prompts within half a minute. -/
def sixtyCalls : List Call :=
  (List.range 60).map fun k => ⟨String.ofList (List.replicate k 'a'), k / 2, .response 10 (some none)⟩

def lateCall : Call := ⟨"late", 31, .response 20 (some (some "down"))⟩

/-- The call after them is not sent. -/
theorem requests_limited_late :
    ((sixtyCalls ++ [lateCall]).map (·.now)).Pairwise (· ≤ ·) ∧
      (after false (sixtyCalls ++ [lateCall])).sent.countP
        (fun c => 0 ≤ c.now && c.now ≤ 0 + rateWindow) ≤ rateLimit ∧
      (after false (sixtyCalls ++ [lateCall])).sent ≠ (after false sixtyCalls).sent ++ [lateCall] := by
  have horder : ((sixtyCalls ++ [lateCall]).map (·.now)).Pairwise (· ≤ ·) := by decide +kernel
  obtain ⟨hcount, hsent⟩ := @requests_limited false _ horder
  refine ⟨horder, hcount 0, fun h => ?_⟩
  have hfew := ((hsent sixtyCalls lateCall [] rfl).1 h).2
  revert hfew
  decide +kernel

/-! ## The cache -/

/-- What the log and the counters of a state say of the calls before. -/
structure State.Records (s : State) (calls : List Call) : Prop where
  cache : s.cache = Recency.cache maxsize s.log
  prompts : s.log.map Prod.fst = (calls.map (·.prompt)).reverse
  tokens : s.totalTokensUsed = (s.sent.map (·.reply.tokens)).sum

theorem gptAnalysis_frame (mock : Bool) (c : Call) (s : State) :
    (gptAnalysis mock c s).2.cache = s.cache ∧ (gptAnalysis mock c s).2.log = s.log := by
  unfold gptAnalysis
  split
  · exact ⟨rfl, rfl⟩
  · dsimp only
    split
    · exact ⟨rfl, rfl⟩
    · exact ⟨rfl, rfl⟩

theorem gptAnalysis_tokens (mock : Bool) (c : Call)
    (h : s.totalTokensUsed = (s.sent.map (·.reply.tokens)).sum) :
    (gptAnalysis mock c s).2.totalTokensUsed =
      ((gptAnalysis mock c s).2.sent.map (·.reply.tokens)).sum := by
  unfold gptAnalysis
  split
  · exact h
  · dsimp only
    split
    · exact h
    · rw [List.map_append, List.sum_append, h, List.map_singleton, List.sum_singleton]

theorem State.Records.step (h : s.Records calls) : (step mock s c).Records (calls ++ [c]) := by
  have hprompts : ∀ answer : Answer, ((c.prompt, answer) :: s.log).map Prod.fst =
      ((calls ++ [c]).map (·.prompt)).reverse := fun answer => by simp [h.prompts]
  unfold Gpt.step cachedGptAnalysis
  cases s.cache.lookup c.prompt with
  | some answer =>
    refine ⟨?_, hprompts answer, h.tokens⟩
    simp only [h.cache]
    exact Recency.touch_cache _ _ _ _
  | none =>
    obtain ⟨hcache, hlog⟩ := gptAnalysis_frame mock c s
    refine ⟨?_, ?_, gptAnalysis_tokens mock c h.tokens⟩
    · simp only [hcache, hlog, h.cache]
      exact Recency.touch_cache _ _ _ _
    · simp only [hlog]
      exact hprompts _

theorem records_after (mock : Bool) (calls : List Call) : (after mock calls).Records calls := by
  induction calls using List.reverseRecOn with
  | nil => exact ⟨rfl, rfl, rfl⟩
  | append_singleton calls c ih =>
    rw [after, run_append, run_cons, run_nil]
    exact ih.step

/-- **Answers repeat.** After any calls, `log` has them with their answers, the latest first. A prompt
that was answered and after which fewer than 256 others have come gets that answer again, be it a
refusal, and nothing is sent or charged for it; any other prompt is asked for. The tokens are those of
the requests sent. -/
theorem answers_repeat (mock : Bool) (calls : List Call) (c : Call) :
    ((after mock calls).log.map Prod.fst = (calls.map (·.prompt)).reverse) ∧
      ((after mock calls).totalTokensUsed =
        ((after mock calls).sent.map (·.reply.tokens)).sum) ∧
      (∀ answer, (after mock calls).log.lookup c.prompt = some answer →
        (Recency.since (after mock calls).log c.prompt).dedup.length < maxsize →
          (cachedGptAnalysis mock c (after mock calls)).1 = answer ∧
            (step mock (after mock calls) c).sent = (after mock calls).sent ∧
            (step mock (after mock calls) c).totalTokensUsed =
              (after mock calls).totalTokensUsed) ∧
      ((∀ answer, (after mock calls).log.lookup c.prompt = some answer →
        maxsize ≤ (Recency.since (after mock calls).log c.prompt).dedup.length) →
          (cachedGptAnalysis mock c (after mock calls)).1 =
            (gptAnalysis mock c (after mock calls)).1) := by
  have hrec := records_after mock calls
  refine ⟨hrec.prompts, hrec.tokens, fun answer hlog hfew => ?_, fun hmany => ?_⟩
  · have hget : (after mock calls).cache.lookup c.prompt = some answer := by
      rw [hrec.cache]
      exact Recency.lookup_cache_iff.2 ⟨hlog, hfew⟩
    unfold step cachedGptAnalysis
    rw [hget]
    exact ⟨rfl, rfl, rfl⟩
  · have hget : (after mock calls).cache.lookup c.prompt = none := by
      rw [hrec.cache, Option.eq_none_iff_forall_ne_some]
      intro answer hsome
      obtain ⟨hlog, hfew⟩ := Recency.lookup_cache_iff.1 hsome
      exact absurd (hmany answer hlog) (not_le.2 hfew)
    unfold cachedGptAnalysis
    rw [hget]

end Gpt
