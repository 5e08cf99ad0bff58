import IctAlgo.Llm.Client

/-!
# What the callers of the LLM client get

* `complete_ends`: a completion is the content of the first of three replies that has one, after a pause
  for each that had none.
* `streamComplete_yields`: a stream yields what every attempt has yielded, one after another; it is
  the text of one reply exactly when the attempts before that one yielded nothing.
-/

set_option autoImplicit false

namespace Llm

open Lib.Retry

/-- The calls that reach a provider. -/
def Supported (provider deploymentId : String) : Prop :=
  provider = "openai" ∨ provider = "azure" ∧ deploymentId ≠ ""

/-! ## Completions -/

section
variable {γ : Type} {post : ℕ → Post γ} {message : String} {left attempt : ℕ}

def Post.ok (p : Post γ) : Bool := p.content?.isSome

/-- The pauses after the attempts without a content. -/
def pauses (attempt left : ℕ) : Option ℕ → List ℕ
  | none => (List.range' attempt left).map (2 ^ ·)
  | some i => (List.range' attempt (i - attempt)).map (2 ^ ·)

theorem pauses_succ {o : Option ℕ} (h : ∀ i, o = some i → attempt + 1 ≤ i) :
    2 ^ attempt :: pauses (attempt + 1) left o = pauses attempt (left + 1) o := by
  cases o with
  | none => rfl
  | some i =>
    have hi := h i rfl
    rw [pauses, pauses, show i - attempt = i - (attempt + 1) + 1 by omega, List.range'_succ,
      List.map_cons]

theorem completeLoop_eq :
    completeLoop post message left attempt =
      ⟨pauses attempt left (firstFinal Post.ok post attempt left),
        match (firstFinal Post.ok post attempt left).bind fun i => (post i).content? with
        | some content => .ok content
        | none => .error (.afterRetries message)⟩ := by
  induction left generalizing attempt with
  | zero => rfl
  | succ left ih =>
    rw [completeLoop, firstFinal]
    cases h : (post attempt).content? with
    | some content => simp [Post.ok, h, pauses]
    | none =>
      have hok : (post attempt).ok = false := by rw [Post.ok, h, Option.isSome_none]
      simp only [ih, hok, Bool.false_eq_true, if_false, Completion.mk.injEq, and_true]
      exact pauses_succ fun i hi => (firstFinal_eq_some_iff.1 hi).1

theorem complete_eq_loop (post : ℕ → Post γ) {provider deploymentId : String}
    (h : Supported provider deploymentId) :
    ∃ message, complete post provider deploymentId = completeLoop post message attempts 0 := by
  rcases h with rfl | ⟨rfl, hid⟩
  · exact ⟨_, if_pos rfl⟩
  · refine ⟨"Azure completion failed after retries.", ?_⟩
    rw [complete, if_neg (by decide), if_pos rfl, azureComplete, if_neg hid]

/-- **A completion ends with the first content**, of three replies at most, and with an exception only if
none of the three has one. It pauses once, and each time twice as long, after every reply without a
content. -/
theorem complete_ends {provider deploymentId : String} (h : Supported provider deploymentId) :
    (∀ content, (complete post provider deploymentId).content = .ok content ↔
        ∃ k < attempts, (post k).content? = some content ∧ ∀ j < k, (post j).content? = none) ∧
      ((∃ failure, (complete post provider deploymentId).content = .error failure) ↔
        ∀ k < attempts, (post k).content? = none) ∧
      ∃ failed ≤ attempts, (∀ j < failed, (post j).content? = none) ∧
        (failed < attempts → (post failed).content?.isSome) ∧
        (complete post provider deploymentId).slept = (List.range failed).map (2 ^ ·) := by
  obtain ⟨message, heq⟩ := complete_eq_loop post h
  have hnone : ∀ j, (post j).ok = false ↔ (post j).content? = none := fun j => by
    rw [Post.ok, Option.isSome_eq_false_iff, Option.isNone_iff_eq_none]
  rw [heq, completeLoop_eq]
  cases hf : firstFinal Post.ok post 0 attempts with
  | none =>
    have hall : ∀ k < attempts, (post k).content? = none := fun k hk =>
      (hnone k).1 (firstFinal_eq_none_iff.1 hf k (Nat.zero_le k) (by omega))
    refine ⟨fun content => ⟨fun hc => (by cases hc), ?_⟩, ⟨fun _ => hall, fun _ => ⟨_, rfl⟩⟩,
      attempts, le_refl _, hall, fun hlt => absurd hlt (lt_irrefl _), ?_⟩
    · rintro ⟨k, hk, hcontent, -⟩
      rw [hall k hk] at hcontent
      cases hcontent
    · rw [List.range_eq_range']
      rfl
  | some i =>
    obtain ⟨-, hi, hok, hbefore⟩ := firstFinal_eq_some_iff.1 hf
    rw [Nat.zero_add] at hi
    have hearlier : ∀ j < i, (post j).content? = none := fun j hj =>
      (hnone j).1 (hbefore j (Nat.zero_le j) hj)
    obtain ⟨content, hcontent⟩ := Option.isSome_iff_exists.1 hok
    simp only [Option.bind_some, hcontent]
    refine ⟨fun content' => ⟨?_, ?_⟩, ⟨?_, fun hall => ?_⟩, i, hi.le, hearlier, fun _ => ?_, ?_⟩
    · intro h'
      cases h'
      exact ⟨i, hi, hcontent, hearlier⟩
    · rintro ⟨k, hk, hk', hkearlier⟩
      have hik : k = i := by
        rcases lt_trichotomy k i with hlt | rfl | hlt
        · rw [hearlier k hlt] at hk'
          cases hk'
        · rfl
        · rw [hkearlier i hlt] at hcontent
          cases hcontent
      rw [hik, hcontent] at hk'
      cases hk'
      rfl
    · rintro ⟨failure, h'⟩
      cases h'
    · rw [hall i hi] at hcontent
      cases hcontent
    · rw [hcontent, Option.isSome_some]
    · rw [List.range_eq_range', pauses, Nat.sub_zero]

/-- The first reply is a 500, the content of the second one is null. -/
def nullContent : ℕ → Post (Option String)
  | 0 => .response 500 (some "busy")
  | 1 => .response 200 (some none)
  | _ => .raised

theorem complete_ends_null :
    Supported "openai" "" ∧ (complete nullContent "openai" "").content = .ok none :=
  ⟨.inl rfl, ((complete_ends (.inl rfl)).1 none).2 ⟨1, by decide, rfl, by decide⟩⟩

end

/-! ## Streams -/

section
variable {content : List Char → Option String} {post : ℕ → Post Body} {message : String}
  {left attempt : ℕ}

/-- The texts an attempt yields. -/
def Post.emits (content : List Char → Option String) (p : Post Body) : List String :=
  (p.stream content).1

/-- The attempt returns, and with it the stream. -/
def Post.returns (content : List Char → Option String) (p : Post Body) : Bool :=
  (p.stream content).2

theorem streamLoop_succ :
    streamLoop content post message (left + 1) attempt =
      if (post attempt).returns content then ⟨(post attempt).emits content, [], none⟩
      else
        ⟨(post attempt).emits content ++
            (streamLoop content post message left (attempt + 1)).yielded,
          2 ^ attempt :: (streamLoop content post message left (attempt + 1)).slept,
          (streamLoop content post message left (attempt + 1)).failure⟩ := rfl

theorem streamLoop_eq :
    streamLoop content post message left attempt =
      ⟨(tries (Post.returns content) post attempt left).flatMap (Post.emits content),
        pauses attempt left (firstFinal (Post.returns content) post attempt left),
        if (firstFinal (Post.returns content) post attempt left).isSome then none
        else some (.afterRetries message)⟩ := by
  induction left generalizing attempt with
  | zero => rfl
  | succ left ih =>
    rw [streamLoop_succ, tries, firstFinal]
    by_cases h : (post attempt).returns content = true
    · rw [if_pos h, if_pos h, if_pos h]
      simp [pauses]
    · rw [if_neg h, if_neg h, if_neg h, ih, List.flatMap_cons]
      rw [pauses_succ fun i hi => (firstFinal_eq_some_iff.1 hi).1]

theorem streamComplete_eq_loop (content : List Char → Option String) (post : ℕ → Post Body)
    {provider deploymentId : String} (h : Supported provider deploymentId) :
    ∃ message, streamComplete content post provider deploymentId =
      streamLoop content post message attempts 0 := by
  rcases h with rfl | ⟨rfl, hid⟩
  · exact ⟨_, if_pos rfl⟩
  · refine ⟨"Azure streaming completion failed after retries.", ?_⟩
    rw [streamComplete, if_neg (by decide), if_pos rfl, azureStreamComplete, if_neg hid]

/-- The first of the three attempts that returns. -/
def FirstReturn (content : List Char → Option String) (post : ℕ → Post Body) (k : ℕ) : Prop :=
  k < attempts ∧ (post k).returns content = true ∧ ∀ j < k, (post j).returns content = false

theorem firstReturn_iff {k : ℕ} :
    FirstReturn content post k ↔
      firstFinal (Post.returns content) post 0 attempts = some k := by
  rw [firstFinal_eq_some_iff, Nat.zero_add]
  exact ⟨fun h => ⟨Nat.zero_le k, h.1, h.2.1, fun j _ hj => h.2.2 j hj⟩,
    fun h => ⟨h.2.1, h.2.2.1, fun j hj => h.2.2.2 j (Nat.zero_le j) hj⟩⟩

/-- A list ends in its last part; it is that part when the parts before are empty. -/
theorem flatMap_range_succ_eq_iff {α β : Type} (f : α → List β) (g : ℕ → α) (k : ℕ) :
    ((List.range (k + 1)).map g).flatMap f = f (g k) ↔ ∀ j < k, f (g j) = [] := by
  rw [List.range_succ, List.map_append, List.flatMap_append]
  simp

/-- **What a stream yields.** The consumer gets what each attempt yielded, up to the first one that
returns, also the beginning of a reply that broke off. So it gets the text of the reply that was
complete exactly when the attempts before that one yielded nothing. The stream raises if no attempt of
the three returns. -/
theorem streamComplete_yields {provider deploymentId : String}
    (h : Supported provider deploymentId) :
    (∀ k, FirstReturn content post k →
        (streamComplete content post provider deploymentId).failure = none ∧
        (streamComplete content post provider deploymentId).yielded =
          ((List.range (k + 1)).map post).flatMap (Post.emits content) ∧
        ((streamComplete content post provider deploymentId).yielded = (post k).emits content ↔
          ∀ j < k, (post j).emits content = [])) ∧
      ((∀ k, ¬ FirstReturn content post k) →
        (streamComplete content post provider deploymentId).failure ≠ none ∧
        (streamComplete content post provider deploymentId).yielded =
          ((List.range attempts).map post).flatMap (Post.emits content)) := by
  obtain ⟨message, heq⟩ := streamComplete_eq_loop content post h
  rw [heq, streamLoop_eq, tries_eq]
  refine ⟨fun k hk => ?_, fun hnone => ?_⟩
  · rw [firstReturn_iff.1 hk, count, Nat.sub_zero, ← List.range_eq_range']
    exact ⟨rfl, rfl, flatMap_range_succ_eq_iff _ _ _⟩
  · have hf : firstFinal (Post.returns content) post 0 attempts = none := by
      cases hf : firstFinal (Post.returns content) post 0 attempts with
      | none => rfl
      | some k => exact absurd (firstReturn_iff.2 hf) (hnone k)
    rw [hf, count, ← List.range_eq_range']
    exact ⟨fun h' => (by cases h'), rfl⟩

end

/-- A body of two texts that breaks off, and then the whole of it. -/
def brokenOff : ℕ → Post Body
  | 0 => .response 200 (some ⟨[some "data: a".toList], false⟩)
  | _ => .response 200 (some ⟨[some "data: a".toList, some "data: b".toList], true⟩)

theorem brokenOff_firstReturn :
    FirstReturn (fun cs => some (String.ofList cs)) brokenOff 1 :=
  ⟨by decide, by decide +kernel, by decide +kernel⟩

/-- The consumer gets the first text twice. -/
theorem streamComplete_yields_twice :
    Supported "openai" "" ∧
      (streamComplete (fun cs => some (String.ofList cs)) brokenOff "openai" "").yielded =
        ["a", "a", "b"] :=
  ⟨.inl rfl, ((streamComplete_yields (.inl rfl)).1 1 brokenOff_firstReturn).2.1.trans
    (by decide +kernel)⟩

end Llm
