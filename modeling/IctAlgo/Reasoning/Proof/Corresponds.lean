import IctAlgo.Reasoning.Manager

/-!
# Signals of raw signals

`Corresponds`: `reason` returns; what came of a list corresponds to it element by element, and what
came of anything else is one error or timeout signal.

* `signalOf_spec`: an element gives its signal exactly when its confidence can be read.
* `corresponds_iff`: what must not be raised for that (`Undisturbed`).
-/

set_option autoImplicit false

namespace Reasoning

open Lib Lib.Raising Orchestrator

/-! ## Definitions -/

section
variable (fl : Floats) (r : Request)

/-- The value of a confidence that is one. -/
def confidenceOf (v : Value) : Option PyFloat :=
  match fl.float v with
  | .ok x => if inUnit x then some x else none
  | .error _ => none

/-- The signal of a raw signal. -/
def Converted (idx : ℕ) (raw : Value) (s : AdvisorySignal) : Prop :=
  match raw with
  | .dict items => s.signalType = signalTypeOf items ∧ s.payload = payloadOf items ∧
      s.confidence = confidenceOf fl (getKey items "confidence" .null) ∧ s.error = none
  | _ => s.signalType = "error" ∧ s.payload = [("index", .int idx)] ∧
      s.error = some "invalid_signal_type_in_list"

/-- `float()` of a confidence raises nothing but what is caught. -/
def Readable (raw : Value) : Prop :=
  match raw with
  | .dict items => RaisesOnly (fun e => e.cls = .valueError ∨ e.cls = .typeError)
      (fl.float (getKey items "confidence" .null))
  | _ => True

end

namespace ReasoningManager

variable (m : ReasoningManager) (fl : Floats) (clock : Clock) (r : Request)

/-- What the reasoning function does, when it is called. -/
def reply? : Option Reply :=
  match r.eventPayload with
  | .other _ => none
  | .dict eventPayload => (m.modes.get? r.reasoningMode).map fun reasoningFn =>
      reasoningFn eventPayload (r.executionContext.getD .empty) m.timeoutMs

/-- The signals that answer what the reasoning function did. -/
def Answers (reply : Option Reply) (signals : List AdvisorySignal) : Prop :=
  match reply with
  | some (.returned (.list raws)) => signals.length = raws.length ∧
      ∀ i raw s, raws[i]? = some raw → signals[i]? = some s → Converted fl i raw s
  | _ => ∃ s, signals = [s] ∧ (s.signalType = "error" ∨ s.signalType = "timeout")

/-- `reason` returns signals of the decision and the mode that answer the reasoning function. -/
def Corresponds : Prop :=
  ∃ signals, m.reason fl clock r = .ok signals ∧
    (∀ s ∈ signals, s.decisionId = r.decisionId ∧ s.reasoningMode = r.reasoningMode) ∧
    Answers fl (m.reply? r) signals

/-- Nothing is raised that no handler catches in its place. -/
def Undisturbed : Prop :=
  match m.reply? r with
  | some (.returned (.list raws)) => (∀ raw ∈ raws, Readable fl raw) ∧
      ∀ logger ∈ m.logger, ∃ truth, logger.truth = .ok truth ∧ (truth = true → OnlyExceptions
        (logger.logReasoningEvent r.decisionId r.reasoningMode raws.length (clock.stop - clock.start)))
  | some (.raised e) => e.isException = true ∧ ∃ text, e.str = .ok text ∧
      ∀ logger ∈ m.logger, OnlyExceptions logger.truthOnError ∧
        (logger.truthOnError = .ok true → OnlyExceptions
          (logger.logReasoningError r.decisionId r.reasoningMode text))
  | _ => True

end ReasoningManager

/-! ## The loop -/

section
variable (fl : Floats) (clock : Clock) (r : Request)

theorem confidence_ok_iff {v : Value} {c : Option PyFloat} : confidence fl v = .ok c ↔
    RaisesOnly (fun e => e.cls = .valueError ∨ e.cls = .typeError) (fl.float v) ∧
      c = confidenceOf fl v := by
  unfold confidence confidenceOf
  by_cases hnull : v = .null
  · subst hnull
    rw [if_pos rfl]
    refine ⟨fun h => ⟨raisesOnly_error.2 (.inr rfl), (Except.ok.inj h).symm⟩, fun h => ?_⟩
    exact congrArg Except.ok h.2.symm
  · rw [if_neg hnull]
    cases fl.float v with
    | ok x =>
      refine ⟨fun h => ⟨raisesOnly_ok, (Except.ok.inj h).symm⟩, fun h => ?_⟩
      exact congrArg Except.ok h.2.symm
    | error e =>
      rw [raisesOnly_error]
      by_cases hcaught : e.cls = .valueError ∨ e.cls = .typeError
      · dsimp only
        rw [if_pos hcaught]
        refine ⟨fun h => ⟨hcaught, (Except.ok.inj h).symm⟩, fun h => ?_⟩
        exact congrArg Except.ok h.2.symm
      · dsimp only
        rw [if_neg hcaught]
        exact iff_of_false (fun h => by cases h) fun h => hcaught h.1

/-- The body of the `try` for a dictionary. -/
theorem convert_dict_ok_iff (idx : ℕ) {items : List (String × Value)} :
    (∃ s, convert fl clock r idx (.dict items) = .ok s) ↔ Readable fl (.dict items) := by
  simp only [convert, bind_ok_iff, confidence_ok_iff]
  refine ⟨fun h => ?_, fun h => ⟨_, _, ⟨h, rfl⟩, rfl⟩⟩
  obtain ⟨-, -, ⟨hreadable, -⟩, -⟩ := h
  exact hreadable

/-- An element gives its signal, or another one that says what was raised. -/
theorem signalOf_spec {idx : ℕ} {raw : Value} {s : AdvisorySignal}
    (h : signalOf fl clock r idx raw = .ok s) :
    (s.decisionId = r.decisionId ∧ s.reasoningMode = r.reasoningMode) ∧
      (Converted fl idx raw s ↔ Readable fl raw) := by
  obtain hok | ⟨e, herror, -, hdetail⟩ := catching_ok_iff.1 h
  · cases raw with
    | dict items =>
      have hreadable := (convert_dict_ok_iff fl clock r idx).1 ⟨s, hok⟩
      simp only [convert, bind_ok_iff, confidence_ok_iff] at hok
      obtain ⟨c, ⟨-, rfl⟩, hs⟩ := hok
      obtain rfl := Except.ok.inj hs
      exact ⟨⟨rfl, rfl⟩, iff_of_true ⟨rfl, rfl, rfl, rfl⟩ hreadable⟩
    | _ =>
      obtain rfl := Except.ok.inj hok
      exact ⟨⟨rfl, rfl⟩, iff_of_true ⟨rfl, rfl, rfl⟩ trivial⟩
  · obtain ⟨detail, -, hs⟩ := bind_ok_iff.1 hdetail
    obtain rfl := Except.ok.inj hs
    refine ⟨⟨rfl, rfl⟩, ?_⟩
    cases raw with
    | dict items =>
      refine iff_of_false (fun hconverted => ?_) fun hreadable => ?_
      · obtain ⟨-, -, -, hnone⟩ := hconverted
        cases hnone
      · obtain ⟨s, hs⟩ := (convert_dict_ok_iff fl clock r idx).2 hreadable
        rw [herror] at hs
        cases hs
    | _ => cases herror

theorem signalOf_isOk (idx : ℕ) {raw : Value} (h : Readable fl raw) :
    ∃ s, signalOf fl clock r idx raw = .ok s := by
  cases raw with
  | dict items =>
    obtain ⟨s, hs⟩ := (convert_dict_ok_iff fl clock r idx).2 h
    exact ⟨s, catching_ok_iff.2 (.inl hs)⟩
  | _ => exact ⟨_, catching_ok_iff.2 (.inl rfl)⟩

/-- The signals are those of the elements, in their order. -/
theorem signalsFrom_ok {idx : ℕ} {raws : List Value} {signals : List AdvisorySignal}
    (h : signalsFrom fl clock r idx raws = .ok signals) :
    signals.length = raws.length ∧ ∀ i raw s, raws[i]? = some raw → signals[i]? = some s →
      signalOf fl clock r (idx + i) raw = .ok s := by
  induction raws generalizing idx signals with
  | nil =>
    obtain rfl := Except.ok.inj h
    exact ⟨rfl, fun i raw s hraw => by simp at hraw⟩
  | cons raw raws ih =>
    simp only [signalsFrom, bind_ok_iff] at h
    obtain ⟨signal, hsignal, signals, hsignals, heq⟩ := h
    obtain rfl := Except.ok.inj heq
    obtain ⟨hlength, hrest⟩ := ih hsignals
    refine ⟨by rw [List.length_cons, List.length_cons, hlength], fun i raw' s hraw hs => ?_⟩
    cases i with
    | zero =>
      obtain rfl := Option.some.inj hraw
      obtain rfl := Option.some.inj hs
      exact hsignal
    | succ i =>
      rw [show idx + (i + 1) = idx + 1 + i by omega]
      exact hrest i raw' s hraw hs

theorem signalsFrom_isOk (idx : ℕ) {raws : List Value} (h : ∀ raw ∈ raws, Readable fl raw) :
    ∃ signals, signalsFrom fl clock r idx raws = .ok signals := by
  induction raws generalizing idx with
  | nil => exact ⟨[], rfl⟩
  | cons raw raws ih =>
    obtain ⟨hraw, hraws⟩ := List.forall_mem_cons.1 h
    obtain ⟨signal, hsignal⟩ := signalOf_isOk fl clock r idx hraw
    obtain ⟨signals, hsignals⟩ := ih (idx + 1) hraws
    refine ⟨signal :: signals, ?_⟩
    simp only [signalsFrom, bind_ok_iff]
    exact ⟨signal, hsignal, signals, hsignals, rfl⟩

end

/-! ## The call -/

section
variable (m : ReasoningManager) (fl : Floats) (clock : Clock) (r : Request)

theorem logCompletion_ok_iff {signalCount : ℕ} : m.logCompletion clock r signalCount = .ok () ↔
    ∀ logger ∈ m.logger, ∃ truth, logger.truth = .ok truth ∧ (truth = true → OnlyExceptions
      (logger.logReasoningEvent r.decisionId r.reasoningMode signalCount
        (clock.stop - clock.start))) := by
  unfold ReasoningManager.logCompletion
  cases m.logger with
  | none => simp
  | some logger =>
    rw [bind_ok_iff]
    simp only [Option.mem_def, Option.some.injEq, forall_eq']
    refine exists_congr fun truth => and_congr_right fun _ => ?_
    cases truth with
    | false => simp [pure, Except.pure]
    | true => simpa using catching_pass_iff

theorem logFailure_ok_iff {e : Raised} {text : String} (htext : e.str = .ok text) :
    m.logFailure r e = .ok () ↔ ∀ logger ∈ m.logger, OnlyExceptions logger.truthOnError ∧
      (logger.truthOnError = .ok true → OnlyExceptions
        (logger.logReasoningError r.decisionId r.reasoningMode text)) := by
  unfold ReasoningManager.logFailure
  rw [catching_pass_iff]
  cases m.logger with
  | none => simp [OnlyExceptions]
  | some logger =>
    simp only [Option.mem_def, Option.some.injEq, forall_eq', htext]
    unfold OnlyExceptions
    rw [raisesOnly_bind]
    refine and_congr_right fun _ => ⟨fun h htrue => ?_, fun h truth htruth => ?_⟩
    · exact h true htrue
    · cases truth with
      | false => exact raisesOnly_ok
      | true => exact h htruth

/-- What the handler answers with. -/
theorem handle_ok_iff {e : Raised} {signals : List AdvisorySignal} :
    m.handle clock r e = .ok signals ↔ ∃ text, e.str = .ok text ∧ m.logFailure r e = .ok () ∧
      signals = [r.errorSignal [] s!"reasoning_exception: {text}" clock.stop] := by
  simp only [ReasoningManager.handle, bind_ok_iff]
  refine ⟨fun h => ?_, fun h => ?_⟩
  · obtain ⟨⟨⟩, hlog, text, htext, hs⟩ := h
    exact ⟨text, htext, hlog, (Except.ok.inj hs).symm⟩
  · obtain ⟨text, htext, hlog, rfl⟩ := h
    exact ⟨(), hlog, text, htext, rfl⟩

theorem attempt_list_ok_iff {raws : List Value} {signals : List AdvisorySignal} :
    m.attempt fl clock r (.returned (.list raws)) = .ok signals ↔
      signalsFrom fl clock r 0 raws = .ok signals ∧
        m.logCompletion clock r signals.length = .ok () := by
  simp only [ReasoningManager.attempt, bind_ok_iff]
  refine ⟨fun h => ?_, fun h => ⟨signals, h.1, (), h.2, rfl⟩⟩
  obtain ⟨signals', hsignals, ⟨⟩, hlog, hs⟩ := h
  obtain rfl := Except.ok.inj hs
  exact ⟨hsignals, hlog⟩

/-- One signal of the request, made outside the loop. -/
theorem answers_single {s : AdvisorySignal} (hs : s.signalType = "error" ∨ s.signalType = "timeout")
    (hof : s.decisionId = r.decisionId ∧ s.reasoningMode = r.reasoningMode) :
    (∀ s' ∈ [s], s'.decisionId = r.decisionId ∧ s'.reasoningMode = r.reasoningMode) ∧
      ∃ s', [s] = [s'] ∧ (s'.signalType = "error" ∨ s'.signalType = "timeout") := by
  refine ⟨fun s' hs' => ?_, s, rfl, hs⟩
  rwa [List.mem_singleton.1 hs']

/-- The signal of the handler answers no list. -/
theorem not_answers_handler (raws : List Value) (error : String) :
    ¬ ReasoningManager.Answers fl (some (.returned (.list raws)))
      [r.errorSignal [] error clock.stop] := by
  intro h
  obtain ⟨hlength, hconverted⟩ := h
  obtain ⟨raw, rfl⟩ := List.length_eq_one_iff.1 hlength.symm
  have h0 := hconverted 0 raw _ rfl rfl
  cases raw with
  | dict items =>
    obtain ⟨-, -, -, hnone⟩ := h0
    cases hnone
  | _ =>
    obtain ⟨-, hpayload, -⟩ := h0
    cases hpayload

theorem reason_of_reply {reply : Reply} (h : m.reply? r = some reply) :
    m.reason fl clock r = catching (m.attempt fl clock r reply) (m.handle clock r) := by
  unfold ReasoningManager.reply? at h
  unfold ReasoningManager.reason
  cases hpayload : r.eventPayload with
  | other v => simp [hpayload] at h
  | dict eventPayload =>
    simp only [hpayload, Option.map_eq_some_iff] at h
    obtain ⟨reasoningFn, hfn, rfl⟩ := h
    simp only [hfn]

theorem reason_of_no_reply (h : m.reply? r = none) : ∃ error,
    m.reason fl clock r = .ok [r.errorSignal [] error clock.stop] := by
  unfold ReasoningManager.reply? at h
  unfold ReasoningManager.reason
  cases hpayload : r.eventPayload with
  | other v => exact ⟨_, rfl⟩
  | dict eventPayload =>
    simp only [hpayload, Option.map_eq_none_iff] at h
    simp only [h]
    exact ⟨_, rfl⟩

/-- A list: its signals are made, or the handler answers. -/
theorem corresponds_list_iff {raws : List Value} (h : m.reply? r = some (.returned (.list raws))) :
    m.Corresponds fl clock r ↔ m.Undisturbed fl clock r := by
  unfold ReasoningManager.Corresponds ReasoningManager.Undisturbed
  rw [reason_of_reply m fl clock r h, h]
  dsimp only
  rw [← logCompletion_ok_iff]
  refine ⟨fun hcorresponds => ?_, fun hundisturbed => ?_⟩
  · obtain ⟨signals, hreason, -, hanswers⟩ := hcorresponds
    obtain hok | ⟨e, -, -, hhandle⟩ := catching_ok_iff.1 hreason
    · obtain ⟨hsignals, hlog⟩ := (attempt_list_ok_iff m fl clock r).1 hok
      obtain ⟨hlength, hconverted⟩ := hanswers
      refine ⟨fun raw hraw => ?_, hlength ▸ hlog⟩
      obtain ⟨i, hi, rfl⟩ := List.mem_iff_getElem.1 hraw
      have hget : signals[i]? = some signals[i] := List.getElem?_eq_getElem (hlength ▸ hi)
      have hraw : raws[i]? = some raws[i] := List.getElem?_eq_getElem hi
      have hsignal := (signalsFrom_ok fl clock r hsignals).2 i _ _ hraw hget
      rw [Nat.zero_add] at hsignal
      exact (signalOf_spec fl clock r hsignal).2.1 (hconverted i _ _ hraw hget)
    · obtain ⟨text, -, -, rfl⟩ := (handle_ok_iff m clock r).1 hhandle
      exact absurd hanswers (not_answers_handler fl clock r raws _)
  · obtain ⟨hreadable, hlog⟩ := hundisturbed
    obtain ⟨signals, hsignals⟩ := signalsFrom_isOk fl clock r 0 hreadable
    obtain ⟨hlength, hall⟩ := signalsFrom_ok fl clock r hsignals
    refine ⟨signals, catching_ok_iff.2 (.inl ?_), fun s hs => ?_, hlength,
      fun i raw s hraw hs => ?_⟩
    · exact (attempt_list_ok_iff m fl clock r).2 ⟨hsignals, hlength ▸ hlog⟩
    · obtain ⟨i, hi, rfl⟩ := List.mem_iff_getElem.1 hs
      have hi' : i < raws.length := hlength ▸ hi
      have hget : signals[i]? = some signals[i] := List.getElem?_eq_getElem hi
      have hraw : raws[i]? = some raws[i] := List.getElem?_eq_getElem hi'
      exact (signalOf_spec fl clock r (hall i _ _ hraw hget)).1
    · have hsignal := hall i raw s hraw hs
      rw [Nat.zero_add] at hsignal
      exact (signalOf_spec fl clock r hsignal).2.2 (hreadable raw (List.mem_of_getElem? hraw))

/-- An exception: the handler answers. -/
theorem corresponds_raised_iff {e : Raised} (h : m.reply? r = some (.raised e)) :
    m.Corresponds fl clock r ↔ m.Undisturbed fl clock r := by
  unfold ReasoningManager.Corresponds ReasoningManager.Undisturbed
  rw [reason_of_reply m fl clock r h, h]
  dsimp only [ReasoningManager.attempt]
  refine ⟨fun hcorresponds => ?_, fun hundisturbed => ?_⟩
  · obtain ⟨signals, hreason, -, -⟩ := hcorresponds
    obtain hok | ⟨e', he, hexception, hhandle⟩ := catching_ok_iff.1 hreason
    · cases hok
    · obtain rfl := Except.error.inj he
      obtain ⟨text, htext, hlog, -⟩ := (handle_ok_iff m clock r).1 hhandle
      exact ⟨hexception, text, htext, (logFailure_ok_iff m r htext).1 hlog⟩
  · obtain ⟨hexception, text, htext, hlog⟩ := hundisturbed
    have hlogged := (logFailure_ok_iff m r htext).2 hlog
    refine ⟨_, catching_ok_iff.2 (.inr ⟨e, rfl, hexception,
      (handle_ok_iff m clock r).2 ⟨text, htext, hlogged, rfl⟩⟩), ?_⟩
    exact answers_single r (.inl rfl) ⟨rfl, rfl⟩

/-- **Reasoning output.** `reason` returns, and what it returns corresponds to what the reasoning
function did, exactly when nothing is raised that is not caught in its place: by `float()` of a
confidence, by the logger's truth value, by `str()` of an exception, or as no `Exception` at all. -/
theorem corresponds_iff : m.Corresponds fl clock r ↔ m.Undisturbed fl clock r := by
  cases hreply : m.reply? r with
  | none =>
    obtain ⟨error, hreason⟩ := reason_of_no_reply m fl clock r hreply
    unfold ReasoningManager.Corresponds ReasoningManager.Undisturbed
    rw [hreply]
    exact iff_of_true ⟨_, hreason, answers_single r (.inl rfl) ⟨rfl, rfl⟩⟩ trivial
  | some reply =>
    cases reply with
    | raised e => exact corresponds_raised_iff m fl clock r hreply
    | timeout =>
      have hreason := reason_of_reply m fl clock r hreply
      unfold ReasoningManager.Corresponds ReasoningManager.Undisturbed
      rw [hreply]
      exact iff_of_true ⟨_, hreason, answers_single r (.inr rfl) ⟨rfl, rfl⟩⟩ trivial
    | returned raw =>
      cases raw with
      | list raws => exact corresponds_list_iff m fl clock r hreply
      | _ =>
        have hreason := reason_of_reply m fl clock r hreply
        unfold ReasoningManager.Corresponds ReasoningManager.Undisturbed
        rw [hreply]
        exact iff_of_true ⟨_, hreason, answers_single r (.inl rfl) ⟨rfl, rfl⟩⟩ trivial

end

/-- A confidence that is out of the range of a float. -/
def hugeConfidence : Value := .dict
  [("signal_type", .str "risk_flag"), ("payload", .dict []), ("confidence", .int (10 ^ 400 : ℕ))]

def hugeManager : ReasoningManager where
  modes := Dict.empty.set "default" fun _ _ _ => .returned (.list [hugeConfidence])

def noFloats : Floats := ⟨fun _ => none, fun _ => .error (.shown .typeError "")⟩

theorem float_of_large {fl : Floats} {n : ℤ} (h : Binary64.floatOfInt? n = none) :
    fl.float (.int n) = .error (.shown (.other "OverflowError") "int too large to convert to float") := by
  simp only [Floats.float, h]

theorem not_readable_huge : ¬ Readable noFloats hugeConfidence := by
  intro h
  have hlarge : Binary64.floatOfInt? (10 ^ 400 : ℕ) = none :=
    Binary64.floatOfInt?_of_large (by decide +kernel)
  have hcaught := h _ (float_of_large hlarge)
  exact absurd hcaught (by decide)

theorem hugeConfidence_lost :
    ¬ ∀ (m : ReasoningManager) (fl : Floats) (clock : Clock) (r : Request),
      m.Corresponds fl clock r := by
  intro h
  let r : Request := { decisionId := "d1", eventPayload := .dict .empty }
  let clock : Clock := ⟨0, 0, fun _ => 0⟩
  have hundisturbed : hugeManager.Undisturbed noFloats clock r :=
    (corresponds_list_iff hugeManager noFloats clock r rfl).1 (h _ _ _ _)
  exact not_readable_huge (hundisturbed.1 _ List.mem_cons_self)

end Reasoning
